/-
Texts that hold characters only, which are those that can be written as bytes. A text holds nothing
else if all of it comes from such a text (`allChars_of_subset`); putting texts together, writing line
ends another way and replacing a part keep it so. The numbers and the escapes that this library writes
are made of characters.
-/
import MarkupCatalog.Proofs.Text.Pieces
import MarkupCatalog.Text.Digit
import MarkupCatalog.Text.Lines
import MarkupCatalog.Text.Quoted

namespace MarkupCatalog.Text

theorem allChars_iff {s : Text} : allChars s = true ↔ ∀ c ∈ s, c.isChar = true := List.all_eq_true

/-- A text whose code points all come from a text without surrogates has none. -/
theorem allChars_of_subset {s t : Text} (h : s ⊆ t) (ht : allChars t = true) : allChars s = true :=
  allChars_iff.2 fun c hc => allChars_iff.1 ht c (h hc)

@[simp] theorem allChars_nil : allChars [] = true := rfl

@[simp] theorem allChars_cons (c : CodePoint) (s : Text) :
    allChars (c :: s) = (c.isChar && allChars s) := rfl

@[simp] theorem allChars_append (s t : Text) : allChars (s ++ t) = (allChars s && allChars t) :=
  List.all_append

@[simp] theorem allChars_toText (s : String) : allChars s.toText = true := by
  simp [allChars, CodePoint.isChar]

theorem allChars_joined {sep : Text} {ls : List Text} (hsep : allChars sep = true)
    (h : ∀ l ∈ ls, allChars l = true) : allChars (joined sep ls) = true := by
  refine allChars_iff.2 fun c hc => ?_
  rcases mem_joined hc with hc | ⟨l, hl, hc⟩
  · exact allChars_iff.1 hsep c hc
  · exact allChars_iff.1 (h l hl) c hc

theorem allChars_unlines {ls : List Text} (h : ∀ l ∈ ls, allChars l = true) :
    allChars (unlines ls) = true := allChars_joined rfl h

theorem allChars_unified {s : Text} (h : allChars s = true) : allChars (unified s) = true := by
  fun_induction unified s with
  | case1 => rfl
  | case2 s ih =>
    simp only [allChars_cons, Bool.and_eq_true] at h
    simpa [CodePoint.isChar] using ih h.2.2
  | case3 c s _ ih =>
    rw [allChars_cons, Bool.and_eq_true] at h
    rw [allChars_cons, ih h.2, Bool.and_true]
    split
    · rfl
    · exact h.1

theorem allChars_replaceAll {sep new s : Text} (hnew : allChars new = true) (hs : allChars s = true) :
    allChars (replaceAll sep new s) = true := by
  fun_induction replaceAll sep new s with
  | case1 => exact hs
  | case2 => exact hs
  | case3 s hsep before rest hcut ih =>
    rw [cut_eq_some hcut] at hs
    simp only [allChars_append, Bool.and_eq_true] at hs ⊢
    exact ⟨⟨hs.1.1, hnew⟩, ih hs.2⟩

theorem isChar_hexDigit (n : Nat) : (hexDigit n).isChar = true := by
  have hdigits : ∀ c ∈ "0123456789abcdef".toText, c.isChar = true := allChars_iff.1 (allChars_toText _)
  rw [hexDigit, List.getD_eq_getElem?_getD]
  cases hget : "0123456789abcdef".toText[n]? with
  | none => rfl
  | some c => exact hdigits c (List.mem_of_getElem? hget)

theorem allChars_hex (width n : Nat) : allChars (hex width n) = true := by
  induction width generalizing n with
  | zero => rfl
  | succ width ih => simp [hex, ih, isChar_hexDigit]

end MarkupCatalog.Text
