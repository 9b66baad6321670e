/-
Code points: the characters of Unicode, and the surrogates U+D800 to U+DFFF, which stand for no
character. A text from outside may hold surrogates all the same, each by itself: an escape in a
document that names one, or a byte of a file name that no character begins with.
-/

namespace MarkupCatalog

/-- A code point. -/
inductive CodePoint where
  | char (c : Char)
  /-- a surrogate, by its place among them -/
  | surrogate (n : Fin 0x800)
deriving DecidableEq, Repr

namespace CodePoint

instance : Coe Char CodePoint := ⟨char⟩

/-- U+D800. -/
def firstSurrogate : CodePoint := surrogate 0

/-- The code point is a character. -/
def isChar : CodePoint → Bool
  | char _ => true
  | surrogate _ => false

/-- The number of a code point. -/
def toNat : CodePoint → Nat
  | char c => c.toNat
  | surrogate n => 0xd800 + n

/-- The small letter of an ASCII capital; all else stays. -/
def toLower : CodePoint → CodePoint
  | char c => char c.toLower
  | surrogate n => surrogate n

/-- The capital of a small ASCII letter; all else stays. -/
def toUpper : CodePoint → CodePoint
  | char c => char c.toUpper
  | surrogate n => surrogate n

end CodePoint
end MarkupCatalog
