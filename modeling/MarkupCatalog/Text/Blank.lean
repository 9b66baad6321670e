/-
Whitespace: the 29 characters that count as blank, and trimming by them. `squeeze` is the text
without any of them.
-/
import MarkupCatalog.Text.Basic

namespace MarkupCatalog.Text

/-- The characters with the Unicode property White_Space, and the four information separators
U+001C to U+001F. -/
def blanks : List (Nat × Nat) :=
  [(0x09, 0x0d), (0x1c, 0x20), (0x85, 0x85), (0xa0, 0xa0), (0x1680, 0x1680), (0x2000, 0x200a),
   (0x2028, 0x2029), (0x202f, 0x202f), (0x205f, 0x205f), (0x3000, 0x3000)]

/-- The code point lies in one of the ranges, whose ends belong to them. -/
def inRanges (ranges : List (Nat × Nat)) (n : Nat) : Bool :=
  ranges.any fun r => r.1 ≤ n && n ≤ r.2

/-- A whitespace character. -/
def isBlank (c : CodePoint) : Bool := inRanges blanks c.toNat

example : isBlank ' ' && isBlank '\t' && isBlank '\n' && isBlank '\r' = true := by decide

/-- The text from its first character that is no whitespace. -/
def trimLeft (s : Text) : Text := s.dropWhile isBlank

/-- The text up to its last character that is no whitespace. -/
def trimRight (s : Text) : Text := dropTrailing isBlank s

/-- The text without whitespace at its ends. -/
def trim (s : Text) : Text := trimRight (trimLeft s)

/-- The beginning of a text as it is shown in messages: sixty characters, from the first that is no
whitespace. -/
def preview (s : Text) : Text := (trim s).take 60

/-- The text without its whitespace. -/
def squeeze (s : Text) : Text := s.filter fun c => !isBlank c

/-- The text holds whitespace only. -/
def allBlank (s : Text) : Bool := s.all isBlank

theorem squeeze_append (s t : Text) : squeeze (s ++ t) = squeeze s ++ squeeze t := by
  simp [squeeze]

theorem isChar_of_isBlank {c : CodePoint} (h : isBlank c = true) : c.isChar = true := by
  cases c with
  | char c => rfl
  | surrogate n =>
    have hall : ∀ r ∈ blanks, r.2 < 0xd800 := by decide
    obtain ⟨r, hr, hn⟩ := List.any_eq_true.1 h
    have hlt := hall r hr
    simp only [Bool.and_eq_true, decide_eq_true_iff] at hn
    simp only [CodePoint.toNat] at hn
    omega

/-- Whitespace is made of characters, so a text without its whitespace holds characters only if the
text does. -/
theorem allChars_squeeze (s : Text) : allChars (squeeze s) = allChars s := by
  induction s with
  | nil => rfl
  | cons c s ih =>
    rw [squeeze, List.filter_cons]
    cases hc : isBlank c with
    | false =>
      show (c.isChar && allChars (squeeze s)) = (c.isChar && allChars s)
      rw [ih]
    | true =>
      show allChars (squeeze s) = (c.isChar && allChars s)
      rw [ih, isChar_of_isBlank hc, Bool.true_and]

theorem squeeze_eq_nil_iff {s : Text} : squeeze s = [] ↔ allBlank s = true := by
  simp [squeeze, allBlank]

theorem trimRight_eq_nil_iff {s : Text} : trimRight s = [] ↔ allBlank s = true :=
  dropTrailing_eq_nil_iff

theorem squeeze_trimRight (s : Text) : squeeze (trimRight s) = squeeze s := by
  induction s with
  | nil => rfl
  | cons c s ih =>
    rw [trimRight] at ih ⊢
    rw [dropTrailing]
    split
    next h =>
      rw [h] at ih
      split <;> simp_all [squeeze]
    next => simp_all [squeeze, List.filter_cons]

end MarkupCatalog.Text
