/-
Marks: the characters of a header, each with a note of whether a backslash stands before it.
A backslash goes with the character after it, from left to right; the last one of a text, with
nothing after it, is a character like any other.
-/
import MarkupCatalog.Text.Word

namespace MarkupCatalog

/-- A character of a header. -/
structure Mark where
  char : CodePoint
  escaped : Bool
deriving DecidableEq, Repr

namespace Mark

/-- The marks of a text. -/
def read : Text → List Mark
  | [] => []
  | [c] => [⟨c, false⟩]
  | c :: d :: s => if c = '\\' then ⟨d, true⟩ :: read s else ⟨c, false⟩ :: read (d :: s)

/-- The characters alone. -/
def chars (ms : List Mark) : Text := ms.map char

/-- The text in which a mark is written. -/
def written (m : Mark) : Text := if m.escaped then [.char '\\', m.char] else [m.char]

/-- A character that stands for itself and not for its escape. -/
def bare (p : CodePoint → Bool) (m : Mark) : Bool := !m.escaped && p m.char

def isGap : Mark → Bool := bare Text.isBlank
def isWord : Mark → Bool := bare Text.isWord
def isColon : Mark → Bool := bare (· == .char ':')

/-- The marks without whitespace at their ends; escaped whitespace stays. -/
def trim (ms : List Mark) : List Mark := Text.dropTrailing isGap (ms.dropWhile isGap)

/-- The texts between the colons. -/
def parts (ms : List Mark) : List Text := (Text.pieces isColon ms).map chars

theorem flatMap_written_read (s : Text) : (read s).flatMap written = s := by
  fun_induction read s <;> simp_all [written]

end Mark
end MarkupCatalog
