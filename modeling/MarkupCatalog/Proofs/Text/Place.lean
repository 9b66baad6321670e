/-
Places in a text. A separator or a word stands at a place when the text goes on with it there
(`StandsAt`, `WordAt`), and the readers of `MarkupCatalog.Text.Basic` are told place by place:
`afterWord?_eq_some` for a word, `cut_eq_some_iff` and `cut_eq_none_iff` for the first place of a
separator.
-/
import Mathlib.Data.Nat.Find
import MarkupCatalog.Text.Blank

namespace MarkupCatalog.Text

/-- `w` stands at place `i` of a text. -/
def StandsAt (w s : Text) (i : Nat) : Prop := w <+: s.drop i

/-- A word, which is given in small letters, stands at place `i` of a text in some case. -/
def WordAt (w s : Text) (i : Nat) : Prop := ((s.drop i).take w.length).map CodePoint.toLower = w

/-- `c` is the first place from `i` on of which `P` holds. -/
def FirstFrom (P : Nat → Prop) (i c : Nat) : Prop := i ≤ c ∧ P c ∧ ∀ k, i ≤ k → k < c → ¬P k

/-- The part of a text from place `i` up to place `j`. -/
def slice (s : Text) (i j : Nat) : Text := (s.take j).drop i

instance (w s : Text) (i : Nat) : Decidable (StandsAt w s i) :=
  inferInstanceAs (Decidable (w <+: s.drop i))

instance (w s : Text) (i : Nat) : Decidable (WordAt w s i) :=
  inferInstanceAs (Decidable (_ = _))

/-! ## Moving the place -/

theorem standsAt_drop {w s : Text} {i k : Nat} : StandsAt w (s.drop i) k ↔ StandsAt w s (i + k) := by
  simp [StandsAt, List.drop_drop]

theorem wordAt_drop {w s : Text} {i k : Nat} : WordAt w (s.drop i) k ↔ WordAt w s (i + k) := by
  simp [WordAt, List.drop_drop]

theorem firstFrom_shift {P : Nat → Prop} {i a c : Nat} :
    FirstFrom (fun k => P (i + k)) a c ↔ FirstFrom P (i + a) (i + c) := by
  constructor
  · intro h
    rcases h with ⟨hac, hc, hbefore⟩
    refine ⟨by omega, hc, fun k hk hkc => ?_⟩
    obtain ⟨k, rfl⟩ : ∃ k', k = i + k' := ⟨k - i, by omega⟩
    exact hbefore k (by omega) (by omega)
  · intro h
    rcases h with ⟨hac, hc, hbefore⟩
    exact ⟨by omega, hc, fun k hk hkc => hbefore (i + k) (by omega) (by omega)⟩

theorem FirstFrom.congr {P Q : Nat → Prop} {i c : Nat} (h : ∀ k, P k ↔ Q k) :
    FirstFrom P i c ↔ FirstFrom Q i c := by
  simp only [FirstFrom, h]

theorem FirstFrom.le {P : Nat → Prop} {i c k : Nat} (h : FirstFrom P i c) (hik : i ≤ k) (hk : P k) :
    c ≤ k :=
  Nat.le_of_not_lt fun hlt => h.2.2 k hik hlt hk

theorem FirstFrom.unique {P : Nat → Prop} {i c c' : Nat} (h : FirstFrom P i c)
    (h' : FirstFrom P i c') : c = c' :=
  Nat.le_antisymm (h.le h'.1 h'.2.1) (h'.le h.1 h.2.1)

/-- Where `P` holds somewhere from `i` on, it has a first place there. -/
theorem FirstFrom.exists_of {P : Nat → Prop} {i k : Nat} (hik : i ≤ k) (hk : P k) :
    ∃ c, FirstFrom P i c := by
  classical
  have hex : ∃ n, i ≤ n ∧ P n := ⟨k, hik, hk⟩
  obtain ⟨hic, hc⟩ := Nat.find_spec hex
  exact ⟨Nat.find hex, hic, hc, fun n hn hlt hPn => Nat.find_min hex hlt ⟨hn, hPn⟩⟩

theorem FirstFrom.succ_iff {P : Nat → Prop} {i c : Nat} (hi : ¬P i) :
    FirstFrom P (i + 1) c ↔ FirstFrom P i c := by
  constructor
  · intro h
    obtain ⟨hic, hc, hbefore⟩ := h
    refine ⟨by omega, hc, fun k hk hkc => ?_⟩
    rcases Nat.eq_or_lt_of_le hk with rfl | hlt
    · exact hi
    · exact hbefore k hlt hkc
  · intro h
    obtain ⟨hic, hc, hbefore⟩ := h
    have hne : i ≠ c := fun he => hi (he ▸ hc)
    exact ⟨by omega, hc, fun k hk hkc => hbefore k (by omega) hkc⟩

/-! ## What stands at a place -/

theorem StandsAt.length_le {w s : Text} {i : Nat} (h : StandsAt w s i) (hw : w ≠ []) :
    i + w.length ≤ s.length := by
  have hle := List.IsPrefix.length_le h
  have := List.length_pos_iff.2 hw
  rw [List.length_drop] at hle
  omega

theorem StandsAt.drop_eq {w s : Text} {i : Nat} (h : StandsAt w s i) :
    s.drop i = w ++ s.drop (i + w.length) := by
  obtain ⟨r, hr⟩ := h
  rw [← hr, ← List.drop_drop, ← hr, List.drop_left]

theorem StandsAt.getElem? {w s : Text} {i k : Nat} (h : StandsAt w s i) (hk : k < w.length) :
    s[i + k]? = w[k]? := by
  rw [← List.getElem?_drop, h.drop_eq, List.getElem?_append_left hk]

theorem WordAt.length_le {w s : Text} {i : Nat} (h : WordAt w s i) (hw : w ≠ []) :
    i + w.length ≤ s.length := by
  have hlen := congrArg List.length h
  have := List.length_pos_iff.2 hw
  rw [List.length_map, List.length_take, List.length_drop] at hlen
  omega

theorem WordAt.getElem? {w s : Text} {i k : Nat} (h : WordAt w s i) (hk : k < w.length) :
    (s[i + k]?).map CodePoint.toLower = w[k]? := by
  conv =>
    rhs
    rw [← h]
  rw [List.getElem?_map, List.getElem?_take, if_pos hk, List.getElem?_drop]

theorem drop_eq_slice_append (s : Text) {i c : Nat} (h : i ≤ c) :
    s.drop i = slice s i c ++ s.drop c := by
  obtain ⟨k, rfl⟩ : ∃ k, c = i + k := ⟨c - i, by omega⟩
  rw [slice, List.drop_take, Nat.add_sub_cancel_left, ← List.drop_drop, List.take_append_drop]

theorem length_slice {s : Text} {i c : Nat} (h : c ≤ s.length) : (slice s i c).length = c - i := by
  simp only [slice, List.length_drop, List.length_take]
  omega

/-! ## A fixed beginning -/

theorem after?_eq_some_iff {w s r : Text} :
    after? w s = some r ↔ StandsAt w s 0 ∧ r = s.drop w.length := by
  rw [after?_eq_some]
  constructor
  · rintro rfl
    exact ⟨List.prefix_append w r, by simp⟩
  · intro h
    rcases h with ⟨h, rfl⟩
    simpa using h.drop_eq

theorem after?_drop {w s r : Text} {i : Nat} :
    after? w (s.drop i) = some r ↔ StandsAt w s i ∧ r = s.drop (i + w.length) := by
  rw [after?_eq_some_iff, standsAt_drop, List.drop_drop, Nat.add_zero]

theorem startsWith_iff {w s : Text} : startsWith w s = true ↔ StandsAt w s 0 := by
  rw [startsWith, Option.isSome_iff_exists]
  simp only [after?_eq_some_iff, exists_and_left, exists_eq, and_true]

theorem afterWord?_eq_some {w s r : Text} :
    afterWord? w s = some r ↔ WordAt w s 0 ∧ r = s.drop w.length := by
  induction w generalizing s with
  | nil => simp [afterWord?, WordAt, eq_comm]
  | cons p w ih =>
    cases s with
    | nil => simp [afterWord?, WordAt]
    | cons c s =>
      unfold afterWord?
      split
      next hp => rw [ih]; simp [WordAt, hp]
      next hp => simp [WordAt, Ne.symm hp]

theorem afterWord?_drop {w s r : Text} {i : Nat} :
    afterWord? w (s.drop i) = some r ↔ WordAt w s i ∧ r = s.drop (i + w.length) := by
  rw [afterWord?_eq_some, wordAt_drop, List.drop_drop, Nat.add_zero]

/-! ## The first place of a separator -/

theorem cut_eq_none_iff {sep s : Text} (hsep : sep ≠ []) :
    cut sep s = none ↔ ∀ k, ¬StandsAt sep s k := by
  induction s with
  | nil =>
    have hnone (k : Nat) : ¬StandsAt sep [] k := by simp [StandsAt, hsep]
    cases sep with
    | nil => exact absurd rfl hsep
    | cons p sep => simp [cut, after?, hnone]
  | cons c s ih =>
    unfold cut
    split
    next r hr =>
      have hstands := (after?_eq_some_iff.1 hr).1
      simp only [reduceCtorEq, false_iff]
      exact fun h => h 0 hstands
    next hnone =>
      have hhead : ¬StandsAt sep (c :: s) 0 := by
        intro h
        simp [after?_eq_some_iff.2 ⟨h, rfl⟩] at hnone
      rw [Option.map_eq_none_iff, ih]
      constructor
      · intro h k
        cases k with
        | zero => exact hhead
        | succ k => exact h k
      · intro h k
        exact h (k + 1)

theorem firstFrom_of_cut {sep s a r : Text} (h : cut sep s = some (a, r)) :
    FirstFrom (StandsAt sep s) 0 a.length := by
  refine ⟨Nat.zero_le _, ?_, ?_⟩
  · rw [cut_eq_some h]
    simp [StandsAt]
  · intro k _ hk
    induction s generalizing a k with
    | nil =>
      simp only [cut, Option.map_eq_some_iff, Prod.mk.injEq] at h
      obtain ⟨r', -, rfl, -⟩ := h
      simp at hk
    | cons c s ih =>
      unfold cut at h
      split at h
      next r' hr =>
        obtain ⟨rfl, rfl⟩ := Prod.mk.inj (Option.some.inj h)
        simp at hk
      next hnone =>
        obtain ⟨p, hp, he⟩ := Option.map_eq_some_iff.1 h
        obtain ⟨rfl, rfl⟩ := Prod.mk.inj he
        cases k with
        | zero =>
          intro hstands
          simp [after?_eq_some_iff.2 ⟨hstands, rfl⟩] at hnone
        | succ k => exact ih hp k (Nat.zero_le _) (by simpa using hk)

theorem cut_eq_some_iff {sep s a r : Text} (hsep : sep ≠ []) :
    cut sep s = some (a, r) ↔ s = a ++ sep ++ r ∧ FirstFrom (StandsAt sep s) 0 a.length := by
  constructor
  · intro h
    exact ⟨cut_eq_some h, firstFrom_of_cut h⟩
  · intro h
    rcases h with ⟨hs, hfirst⟩
    cases hcut : cut sep s with
    | none => exact absurd hfirst.2.1 ((cut_eq_none_iff hsep).1 hcut _)
    | some p =>
      obtain ⟨a', r'⟩ := p
      have hlen := (firstFrom_of_cut hcut).unique hfirst
      have happ := (cut_eq_some hcut).symm.trans hs
      rw [List.append_assoc, List.append_assoc] at happ
      obtain ⟨rfl, hrest⟩ := List.append_inj happ hlen
      rw [List.append_cancel_left hrest]

/-- The first place of a separator from place `i` on. -/
theorem cut_drop {sep s a r : Text} {i : Nat} (hsep : sep ≠ []) :
    cut sep (s.drop i) = some (a, r) ↔
      ∃ c, FirstFrom (StandsAt sep s) i c ∧ a = slice s i c ∧ r = s.drop (c + sep.length) := by
  rw [cut_eq_some_iff hsep]
  constructor
  · intro h
    rcases h with ⟨hs, hfirst⟩
    refine ⟨i + a.length, ?_, ?_, ?_⟩
    · exact firstFrom_shift.1 ((FirstFrom.congr fun k => standsAt_drop).1 hfirst)
    · rw [slice, List.drop_take, hs, Nat.add_sub_cancel_left, List.append_assoc, List.take_left]
    · rw [← List.drop_drop, ← List.drop_drop, hs, List.append_assoc, List.drop_left, List.drop_left]
  · intro h
    rcases h with ⟨c, hfirst, rfl, rfl⟩
    have hlen : (slice s i c).length = c - i :=
      length_slice (Nat.le_trans (Nat.le_add_right ..) (hfirst.2.1.length_le hsep))
    refine ⟨?_, ?_⟩
    · rw [drop_eq_slice_append s hfirst.1, hfirst.2.1.drop_eq, List.append_assoc]
    · obtain ⟨k, rfl⟩ : ∃ k, c = i + k := ⟨c - i, by have := hfirst.1; omega⟩
      rw [hlen, Nat.add_sub_cancel_left]
      exact (FirstFrom.congr fun k => standsAt_drop).2 (firstFrom_shift.2 hfirst)

/-! ## Separators that do not overlap themselves -/

/-- No end of `w` but the whole of it is a beginning of `w`, so that two places of `w` in a text keep
apart. -/
def Unbordered (w : Text) : Prop := ∀ j, 0 < j → j < w.length → ¬w.drop j <+: w

theorem infix_iff {w s : Text} : w <:+: s ↔ ∃ i, StandsAt w s i := by
  constructor
  · intro h
    rcases h with ⟨a, r, rfl⟩
    exact ⟨a.length, by simp [StandsAt]⟩
  · intro h
    rcases h with ⟨i, h⟩
    exact h.isInfix.trans (List.drop_suffix i s).isInfix

/-- Two places of such a separator do not overlap. -/
theorem StandsAt.add_length_le {w s : Text} {i j : Nat} (hw : Unbordered w) (hi : StandsAt w s i)
    (hj : StandsAt w s j) (hij : i < j) : i + w.length ≤ j := by
  refine Nat.le_of_not_lt fun hlt => hw (j - i) (by omega) (by omega) ?_
  have hover : w.drop (j - i) <+: s.drop j := by
    rw [show j = i + (j - i) by omega, ← List.drop_drop, hi.drop_eq, Nat.add_sub_cancel_left,
      List.drop_append_of_le_length (by omega)]
    exact List.prefix_append _ _
  exact List.prefix_of_prefix_length_le hover hj (by simp)

/-- What stands before a separator and runs into it stands wholly before it. -/
theorem StandsAt.of_append {w a r : Text} {k : Nat} (hw : Unbordered w) (hk : k < a.length)
    (h : StandsAt w (a ++ w ++ r) k) : StandsAt w a k := by
  rw [StandsAt, List.append_assoc, List.drop_append_of_le_length (Nat.le_of_lt hk)] at h
  by_cases hle : w.length ≤ (a.drop k).length
  · exact List.prefix_of_prefix_length_le h (List.prefix_append _ _) hle
  · exfalso
    obtain ⟨t, ht⟩ := h
    have hover := congrArg (List.drop (a.drop k).length) ht
    rw [List.drop_left, List.drop_append_of_le_length (by omega), List.length_drop] at hover
    rw [List.length_drop] at hle
    refine hw (a.length - k) (by omega) (by omega) ?_
    exact List.prefix_of_prefix_length_le ⟨t, hover⟩ (List.prefix_append w r) (by simp)

/-- What is cut off before a separator does not hold it. -/
theorem not_infix_of_cut {sep s a r : Text} (hsep : sep ≠ []) (h : cut sep s = some (a, r)) :
    ¬sep <:+: a := by
  rw [infix_iff]
  intro hinfix
  rcases hinfix with ⟨i, hi⟩
  have := hi.length_le hsep
  have := List.length_pos_iff.2 hsep
  obtain ⟨-, -, hbefore⟩ := firstFrom_of_cut h
  refine hbefore i (Nat.zero_le i) (by omega) ?_
  rw [StandsAt, cut_eq_some h, List.append_assoc, List.drop_append_of_le_length (by omega)]
  exact hi.trans (List.prefix_append _ _)

/-- A text without the separator is cut off whole where the separator follows it. -/
theorem cut_append {sep a : Text} (hsep : sep ≠ []) (hb : Unbordered sep) (h : ¬sep <:+: a)
    (r : Text) : cut sep (a ++ sep ++ r) = some (a, r) := by
  rw [cut_eq_some_iff hsep]
  refine ⟨rfl, Nat.zero_le _, by simp [StandsAt], fun k _ hk hstands => ?_⟩
  exact h (infix_iff.2 ⟨k, hstands.of_append hb hk⟩)

end MarkupCatalog.Text
