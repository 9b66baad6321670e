/-
Markup comments: the two delimiters, the first comment of a text, and a comment's text when the
delimiters may or may not be there.
-/
import MarkupCatalog.Fault
import MarkupCatalog.Text.Blank

namespace MarkupCatalog.Comment

/-- What opens a comment. -/
def opening : Text := "<!--".toText

/-- What closes a comment. -/
def closing : Text := "-->".toText

theorem opening_ne_nil : opening ≠ [] := by decide

theorem closing_ne_nil : closing ≠ [] := by decide

/-- The text inside the first comment, and what follows that comment. A comment is closed by the
first closing delimiter after the whole of its opening one. -/
def first? (s : Text) : Option (Text × Text) :=
  (Text.cut opening s).bind fun p => Text.cut closing p.2

example : first? "x<!-->a--> b".toText = some (">a".toText, " b".toText) := by decide
example : first? "<!-- a".toText = none := by decide

/-- The first comment as `first?` gives it, or the fault that there is none. -/
def split? (s : Text) : Except Fault (Text × Text) :=
  match first? s with
  | some p => .ok p
  | none => .error (.noComment (Text.preview s))

/-- The text without an opening delimiter at its beginning; whitespace may stand before it. -/
def withoutOpening (s : Text) : Text := (Text.after? opening (Text.trimLeft s)).getD s

/-- The text without a closing delimiter at its end; whitespace may stand after it. -/
def withoutClosing (s : Text) : Text :=
  let t := Text.trimRight s
  if closing.isSuffixOf t then t.take (t.length - closing.length) else s

/-- The text inside a comment that is given with or without its delimiters. -/
def inner (s : Text) : Text := withoutClosing (withoutOpening s)

example : inner "  <!-- a --> ".toText = " a ".toText := by decide
example : inner " a ".toText = " a ".toText := by decide

end MarkupCatalog.Comment
