/-
Lines of text. A line ends at each line feed; `unified` first turns the two other customary line
ends, carriage return and carriage return with line feed, into line feeds.
-/
import MarkupCatalog.Text.Basic

namespace MarkupCatalog.Text

/-- The lines of a text; there is always at least one. -/
def lines (s : Text) : List Text := pieces (· == .char '\n') s

/-- The text that has these lines. -/
def unlines (ls : List Text) : Text := joined [.char '\n'] ls

theorem unlines_lines (s : Text) : unlines (lines s) = s := joined_pieces '\n' s

/-- The text with every line end written as a line feed. -/
def unified : Text → Text
  | [] => []
  | .char '\r' :: .char '\n' :: s => .char '\n' :: unified s
  | c :: s => (if c = '\r' then .char '\n' else c) :: unified s

example : unified "a\r\nb\rc\n\r".toText = "a\nb\nc\n\n".toText := by decide

end MarkupCatalog.Text
