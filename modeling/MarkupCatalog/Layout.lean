/-
The layout of a block: its lines with the indentation that all of them share cropped off, and the
texts that are made from these lines. Widths count characters and are trusted: cropping takes away
what is there, whitespace or not.
-/
import MarkupCatalog.Text.Blank
import MarkupCatalog.Text.Lines
import MarkupCatalog.Wrap

namespace MarkupCatalog.Layout

/-! ## Indentation -/

/-- The line with its first tab replaced. -/
def untab (indent : Text) : Text → Text
  | [] => []
  | c :: s => if c = '\t' then indent ++ s else c :: untab indent s

/-- The width that an empty line reports, more than that of any line that is taken as indented. -/
def emptyWidth : Int := 9999

/-- How many whitespace characters a line begins with. -/
def width (line : Text) : Int :=
  if line.isEmpty then emptyWidth else (line.takeWhile Text.isBlank).length

/-- The lesser of two widths. -/
def lesser (a b : Int) : Int := if a ≤ b then a else b

/-- The line without its first `width` characters. A negative width counts from the end of the line
and tells how many characters stay. -/
def crop (width : Int) (line : Text) : Text :=
  if 0 ≤ width then line.drop width.toNat else line.drop (line.length - (-width).toNat)

/-- The lines, each cropped by the same width. -/
def dedent (width : Int) (lines : List Text) : List Text := lines.map (crop width)

/-- The lines, each with `start` before it. -/
def indent (start : Text) (lines : List Text) : List Text := lines.map (start ++ ·)

/-- What wrapped lines are indented by. -/
def step : Text := "    ".toText

/-! ## Lines of a block -/

/-- The lines of a body without whitespace at their ends, from the first to the last one that is not
blank. -/
def content (body : Text) : List Text :=
  Text.dropTrailing List.isEmpty (((Text.lines body).map Text.trimRight).dropWhile List.isEmpty)

/-- The least width of the lines, and at most that of an empty line. -/
def commonWidth (lines : List Text) : Int := (lines.map width).foldl lesser emptyWidth

/-- The lines of a body: the first tab of each replaced, and the common indentation cropped off. -/
def lines (indent body : Text) : List Text :=
  let ls := (content body).map (untab indent)
  dedent (commonWidth ls) ls

example : lines [] "\n    a\n\n      b  \n".toText = ["a".toText, [], "  b".toText] := by decide

/-! ## Texts made from lines -/

/-- The lines as they are shown: inside the wrap and indented by one step if there is a wrap, plain
otherwise. -/
def view (w : Wrap) (ls : List Text) : Text :=
  if w.isSet then
    Text.unlines ([[], w.before.content, []] ++ indent step ls ++ [[], w.after.content])
  else Text.unlines ls

/-- What stands in a template for the options of the block. -/
def placeholder : Text := "\x7b\x7bwrapData\x7d\x7d".toText

/-- The lines inside the wrap for templates, in which the options take the place of the placeholder.
An empty side takes no line. -/
def template (w : Wrap) (options : Text) (ls : List Text) : Text :=
  let side (l : Label) : List Text :=
    match Text.replaceAll placeholder options l.content with
    | [] => []
    | s => [s]
  Text.unlines (side w.before ++ ls ++ side w.after)

end MarkupCatalog.Layout
