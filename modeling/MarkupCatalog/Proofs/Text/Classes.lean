/-
Classes of characters and how they keep apart: whitespace is no letter in any case
(`toLower_of_isBlank`) and no part of a key (`isBlank_eq_false_of_isWord`).
-/
import MarkupCatalog.Text.Word

namespace MarkupCatalog.Text

theorem inRanges_iff {ranges : List (Nat × Nat)} {n : Nat} :
    inRanges ranges n = true ↔ ∃ r ∈ ranges, r.1 ≤ n ∧ n ≤ r.2 := by
  simp [inRanges]

/-- No capital letter is whitespace. -/
theorem toLower_of_isBlank {c : CodePoint} (h : isBlank c = true) : c.toLower = c := by
  obtain ⟨r, hr, hlo, hhi⟩ := inRanges_iff.1 h
  have hout : ∀ r ∈ blanks, r.2 < 65 ∨ 90 < r.1 := by decide
  cases c with
  | surrogate n => rfl
  | char c =>
    have hcapital : ¬(c.val ≥ 'A'.val ∧ c.val ≤ 'Z'.val) := by
      intro hcase
      rcases hcase with ⟨hA, hZ⟩
      have hA : 65 ≤ c.toNat := UInt32.le_iff_toNat_le.1 hA
      have hZ : c.toNat ≤ 90 := UInt32.le_iff_toNat_le.1 hZ
      simp only [CodePoint.toNat] at hlo hhi
      have := hout r hr
      omega
    exact congrArg CodePoint.char (dif_neg hcapital)

theorem le_toNat_of_isAlphanum {c : Char} (h : c.isAlphanum = true) : 48 ≤ c.toNat := by
  have hfirst : ('A'.val ≤ c.val ∧ c.val ≤ 'Z'.val) ∨ ('a'.val ≤ c.val ∧ c.val ≤ 'z'.val) ∨
      ('0'.val ≤ c.val ∧ c.val ≤ '9'.val) := by
    rcases Bool.or_eq_true_iff.1 h with halpha | hdigit
    · rcases Bool.or_eq_true_iff.1 halpha with hupper | hlower
      · exact .inl (of_decide_eq_true hupper)
      · obtain ⟨ha, hz⟩ := Bool.and_eq_true_iff.1 hlower
        exact .inr (.inl ⟨of_decide_eq_true ha, of_decide_eq_true hz⟩)
    · obtain ⟨h0, h9⟩ := Bool.and_eq_true_iff.1 hdigit
      exact .inr (.inr ⟨of_decide_eq_true h0, of_decide_eq_true h9⟩)
  rcases hfirst with ⟨hA, -⟩ | ⟨ha, -⟩ | ⟨h0, -⟩
  · have hA : 65 ≤ c.toNat := UInt32.le_iff_toNat_le.1 hA
    omega
  · have ha : 97 ≤ c.toNat := UInt32.le_iff_toNat_le.1 ha
    omega
  · exact UInt32.le_iff_toNat_le.1 h0

/-- The table of letters and the table of whitespace have no code point in common. -/
theorem letters_apart : ∀ r ∈ blanks, ∀ l ∈ letters, r.2 < l.1 ∨ l.2 < r.1 := by
  -- the kernel compares literals much faster than it decides `<` on them
  have h : (blanks.all fun r => letters.all fun l => Nat.blt r.2 l.1 || Nat.blt l.2 r.1) = true := by
    decide +kernel
  simpa only [List.all_eq_true, Bool.or_eq_true, Nat.blt_eq] using h

theorem isBlank_eq_false_of_isWord {c : CodePoint} (h : isWord c = true) : isBlank c = false := by
  rw [Bool.eq_false_iff]
  intro hb
  obtain ⟨r, hr, hlo, hhi⟩ := inRanges_iff.1 hb
  cases c with
  | surrogate n => cases h
  | char c =>
    simp only [CodePoint.toNat] at hlo hhi
    unfold isWord at h
    dsimp only at h
    split at h
    next hascii =>
      have hlow : ∀ r ∈ blanks, r.1 < 128 → r.2 < 48 := by decide
      have := hlow r hr (by omega)
      simp only [Bool.or_eq_true, beq_iff_eq] at h
      rcases h with h | rfl
      · have := le_toNat_of_isAlphanum h
        omega
      · have : '_'.toNat = 95 := rfl
        omega
    next =>
      obtain ⟨l, hl, hlo', hhi'⟩ := inRanges_iff.1 h
      have := letters_apart r hr l hl
      omega

end MarkupCatalog.Text
