/-
Start and end markers by their places in a document: `MarksStart` and `MarksEnd` say what stands
where, and the readers of the two markers agree with them at every place (`stands_drop_iff`,
`exists_read?_drop_iff`).
-/
import MarkupCatalog.Block.EndMarker
import MarkupCatalog.Block.StartMarker
import MarkupCatalog.Proofs.Text.Classes
import MarkupCatalog.Proofs.Text.Place

namespace MarkupCatalog

open Text (StandsAt WordAt FirstFrom)

/-! ## Start markers -/

namespace StartMarker

/-- A start marker stands at place `s` of a document: a comment opens there, and `extract:` stands
in it after whitespace or a dash, before anything that closes the comment. -/
def MarksStart (d : Text) (s : Nat) : Prop :=
  StandsAt Comment.opening d s ∧
    ∃ j, s + 4 ≤ j ∧ WordAt keyword d j ∧
      (∃ c, d[j - 1]? = some c ∧ (Text.isBlank c = true ∨ c = '-')) ∧
      ∀ k, s + 4 ≤ k → StandsAt Comment.closing d k → j < k

/-- The word stands at place `j` inside a comment, where it is allowed to stand, and nothing has
closed the comment before. -/
def KeywordAt (free : Bool) (inside : Text) (j : Nat) : Prop :=
  WordAt keyword inside j ∧ (j = 0 → free = true) ∧
    (∀ i, j = i + 1 → ∃ c, inside[i]? = some c ∧ isBefore c = true) ∧
    ∀ k, k ≤ j → ¬StandsAt Comment.closing inside k

theorem keyword_eq :
    keyword = ['e', 'x', 't', 'r', 'a', 'c', 't', ':'].map .char := rfl

theorem keyword_ne_nil : keyword ≠ [] := by simp [keyword_eq]

/-- The word stands wholly before what closes a comment: no dash is part of it. -/
theorem length_le_of_closing {s : Text} {j c : Nat} (hword : WordAt keyword s j)
    (hclose : StandsAt Comment.closing s c) (hjc : j ≤ c) : j + keyword.length ≤ c := by
  refine Nat.le_of_not_lt fun hlt => ?_
  have hi : c - j < keyword.length := by omega
  have hdash := hword.getElem? hi
  rw [show j + (c - j) = c + 0 by omega, hclose.getElem? (by decide),
    List.getElem?_eq_getElem hi] at hdash
  have hmem : CodePoint.toLower (.char '-') ∈ keyword := Option.some.inj hdash ▸ List.getElem_mem hi
  revert hmem
  decide

theorem not_standsAt_of_wordAt {s : Text} {j : Nat} (h : WordAt keyword s j) :
    ¬StandsAt Comment.closing s j := by
  intro hclose
  have hlen := length_le_of_closing h hclose (Nat.le_refl j)
  have : 0 < keyword.length := by decide
  omega

theorem not_keywordAt_nil {free : Bool} {j : Nat} : ¬KeywordAt free [] j := by
  intro h
  have := h.1.length_le keyword_ne_nil
  simp [keyword_eq] at this

theorem keywordAt_zero {free : Bool} {s : Text} :
    KeywordAt free s 0 ↔ WordAt keyword s 0 ∧ free = true := by
  constructor
  · intro h
    rcases h with ⟨hword, hfree, -, -⟩
    exact ⟨hword, hfree rfl⟩
  · intro h
    rcases h with ⟨hword, hfree⟩
    refine ⟨hword, fun _ => hfree, by simp, fun k hk => ?_⟩
    obtain rfl : k = 0 := by omega
    exact not_standsAt_of_wordAt hword

theorem keywordAt_succ {free : Bool} {c : CodePoint} {s : Text} {j : Nat} :
    KeywordAt free (c :: s) (j + 1) ↔
      ¬StandsAt Comment.closing (c :: s) 0 ∧ KeywordAt (isBefore c) s j := by
  constructor
  · intro h
    rcases h with ⟨hword, -, hbefore, hopen⟩
    refine ⟨hopen 0 (by omega), hword, ?_, fun i hi => ?_, fun k hk => hopen (k + 1) (by omega)⟩
    · rintro rfl
      simpa using hbefore 0 rfl
    · subst hi
      simpa using hbefore (i + 1) rfl
  · intro h
    rcases h with ⟨hhead, hword, hfree, hbefore, hopen⟩
    refine ⟨hword, by simp, fun i hi => ?_, fun k hk => ?_⟩
    · obtain rfl : j = i := by omega
      cases j with
      | zero => exact ⟨c, rfl, hfree rfl⟩
      | succ j => simpa using hbefore j rfl
    · cases k with
      | zero => exact hhead
      | succ k => exact hopen k (by omega)

/-- The word is read at the beginning of a text where it stands there and is allowed to. -/
theorem afterWord?_eq_some_iff {free : Bool} {s r : Text} :
    (if free then Text.afterWord? keyword s else none) = some r ↔
      KeywordAt free s 0 ∧ r = s.drop keyword.length := by
  rw [keywordAt_zero]
  split
  next hfree => rw [Text.afterWord?_eq_some, and_iff_left hfree]
  next hfree => simp [hfree]

/-- Past a place where neither the word stands nor a comment is closed, the first place of the word
is one further than in what follows. -/
theorem firstFrom_keywordAt_succ_iff {free : Bool} {c : CodePoint} {s : Text} {j : Nat}
    (hzero : ¬KeywordAt free (c :: s) 0) (hclose : ¬StandsAt Comment.closing (c :: s) 0) :
    FirstFrom (KeywordAt free (c :: s)) 0 (j + 1) ↔ FirstFrom (KeywordAt (isBefore c) s) 0 j := by
  have hstep (k : Nat) : KeywordAt free (c :: s) (1 + k) ↔ KeywordAt (isBefore c) s k := by
    rw [Nat.add_comm, keywordAt_succ, and_iff_right hclose]
  rw [← FirstFrom.congr hstep, Text.firstFrom_shift, Nat.add_comm 1 j]
  exact (FirstFrom.succ_iff hzero).symm

/-- What is read is what follows the first place of the word. -/
theorem afterKeyword?_eq_some_iff {free : Bool} {inside r : Text} :
    afterKeyword? free inside = some r ↔
      ∃ j, FirstFrom (KeywordAt free inside) 0 j ∧ r = inside.drop (j + keyword.length) := by
  induction inside generalizing free with
  | nil => simp [afterKeyword?, FirstFrom, not_keywordAt_nil]
  | cons c s ih =>
    rw [afterKeyword?]
    split
    next r' hr =>
      obtain ⟨hhere, rfl⟩ := afterWord?_eq_some_iff.1 hr
      have hfirst : FirstFrom (KeywordAt free (c :: s)) 0 0 := ⟨Nat.le_refl 0, hhere, by simp⟩
      rw [Option.some.injEq]
      constructor
      · intro h
        exact ⟨0, hfirst, by rw [Nat.zero_add, h]⟩
      · intro h
        obtain ⟨j, hj, rfl⟩ := h
        rw [hj.unique hfirst, Nat.zero_add]
    next hnone =>
      have hzero : ¬KeywordAt free (c :: s) 0 := by
        intro h
        simp [afterWord?_eq_some_iff.2 ⟨h, rfl⟩] at hnone
      split
      next hclose =>
        simp only [reduceCtorEq, false_iff, not_exists, not_and]
        intro j hj
        cases j with
        | zero => exact absurd hj.2.1 hzero
        | succ j => exact absurd (Text.startsWith_iff.1 hclose) (keywordAt_succ.1 hj.2.1).1
      next hclose =>
        have hnext (j : Nat) := firstFrom_keywordAt_succ_iff (j := j) hzero
          (mt Text.startsWith_iff.2 hclose)
        rw [ih]
        constructor
        · intro h
          obtain ⟨j, hj, rfl⟩ := h
          exact ⟨j + 1, (hnext j).2 hj, by rw [Nat.add_right_comm, List.drop_succ_cons]⟩
        · intro h
          obtain ⟨j, hj, rfl⟩ := h
          cases j with
          | zero => exact absurd hj.2.1 hzero
          | succ j => exact ⟨j, (hnext j).1 hj, by rw [Nat.add_right_comm, List.drop_succ_cons]⟩

theorem isSome_afterKeyword?_iff {free : Bool} {inside : Text} :
    (afterKeyword? free inside).isSome = true ↔ ∃ j, KeywordAt free inside j := by
  simp only [Option.isSome_iff_exists, afterKeyword?_eq_some_iff]
  constructor
  · rintro ⟨_, j, hj, -⟩
    exact ⟨j, hj.2.1⟩
  · rintro ⟨j, hj⟩
    obtain ⟨i, hi⟩ := FirstFrom.exists_of (Nat.zero_le j) hj
    exact ⟨_, i, hi, rfl⟩

theorem isBefore_iff {c : CodePoint} : isBefore c = true ↔ Text.isBlank c = true ∨ c = '-' := by
  simp [isBefore]

/-- Inside a comment that opens at `s`, the word may stand at once: the opening delimiter ends in a
dash. -/
theorem keywordAt_drop {d : Text} {s j : Nat} (hopen : StandsAt Comment.opening d s) :
    KeywordAt true (d.drop (s + 4)) j ↔
      WordAt keyword d (s + 4 + j) ∧
        (∃ c, d[s + 4 + j - 1]? = some c ∧ (Text.isBlank c = true ∨ c = '-')) ∧
        ∀ k, s + 4 ≤ k → StandsAt Comment.closing d k → s + 4 + j < k := by
  have hdash : d[s + 3]? = some (.char '-') := hopen.getElem? (by decide)
  simp only [KeywordAt, Text.wordAt_drop, Text.standsAt_drop, List.getElem?_drop, isBefore_iff,
    implies_true, true_and]
  constructor
  · intro h
    rcases h with ⟨hword, hbefore, hfree⟩
    refine ⟨hword, ?_, fun k hk hclose => ?_⟩
    · cases j with
      | zero => exact ⟨'-', hdash, .inr rfl⟩
      | succ j => exact hbefore j rfl
    · obtain ⟨k, rfl⟩ : ∃ k', k = s + 4 + k' := ⟨k - (s + 4), by omega⟩
      have := mt (hfree k) (not_not_intro hclose)
      omega
  · intro h
    rcases h with ⟨hword, hbefore, hfree⟩
    refine ⟨hword, fun i hi => ?_, fun k hk hclose => ?_⟩
    · subst hi
      exact hbefore
    · have := hfree (s + 4 + k) (by omega) hclose
      omega

theorem stands_drop_iff {d : Text} {s : Nat} : stands (d.drop s) = true ↔ MarksStart d s := by
  rw [stands, after?, Option.isSome_bind, MarksStart]
  by_cases hopen : StandsAt Comment.opening d s
  · rw [Text.after?_drop.2 ⟨hopen, rfl⟩, Option.any_some, isSome_afterKeyword?_iff]
    simp only [hopen, true_and]
    constructor
    · intro h
      rcases h with ⟨j, hj⟩
      exact ⟨s + 4 + j, by omega, (keywordAt_drop hopen).1 hj⟩
    · intro h
      rcases h with ⟨j, hsj, hj⟩
      obtain ⟨j, rfl⟩ : ∃ j', j = s + 4 + j' := ⟨j - (s + 4), by omega⟩
      exact ⟨j, (keywordAt_drop hopen).2 hj⟩
  · cases hafter : Text.after? Comment.opening (d.drop s) with
    | none => simp [hopen]
    | some r => exact absurd (Text.after?_drop.1 hafter).1 hopen

end StartMarker

/-! ## End markers -/

namespace EndMarker

/-- An end marker stands in a document from place `t` up to place `e`: a comment opens there, and
`endextract` stands in it after nothing but whitespace. The marker ends with whatever first closes
the comment after the word. -/
def MarksEnd (d : Text) (t e : Nat) : Prop :=
  StandsAt Comment.opening d t ∧
    ∃ g, Text.allBlank (Text.slice d (t + 4) (t + 4 + g)) = true ∧
      WordAt keyword d (t + 4 + g) ∧
      ∃ c, FirstFrom (StandsAt Comment.closing d) (t + 4 + g + 10) c ∧ e = c + 3

theorem keyword_eq :
    keyword = ['e', 'n', 'd', 'e', 'x', 't', 'r', 'a', 'c', 't'].map .char := rfl

theorem keyword_ne_nil : keyword ≠ [] := by simp [keyword_eq]

/-- The word begins with a letter, so it is no part of the whitespace before it. -/
theorem isBlank_eq_false_of_wordAt {s : Text} {c : CodePoint} (h : WordAt keyword (c :: s) 0) :
    Text.isBlank c = false := by
  rw [Bool.eq_false_iff]
  intro hb
  have hc : (some c).map CodePoint.toLower = some (.char 'e') :=
    h.getElem? (k := 0) (by simp [keyword_eq])
  rw [Option.map_some, Text.toLower_of_isBlank hb, Option.some.injEq] at hc
  subst hc
  revert hb
  decide

theorem dropWhile_isBlank_eq {s : Text} {g : Nat} (hgap : Text.allBlank (s.take g) = true)
    (hword : WordAt keyword s g) : s.dropWhile Text.isBlank = s.drop g := by
  induction g generalizing s with
  | zero =>
    cases s with
    | nil => rfl
    | cons c s => simp [isBlank_eq_false_of_wordAt hword]
  | succ g ih =>
    cases s with
    | nil => simp
    | cons c s =>
      simp only [Text.allBlank, List.take_succ_cons, List.all_cons, Bool.and_eq_true] at hgap
      rw [List.dropWhile_cons_of_pos hgap.1, ih hgap.2 hword, List.drop_succ_cons]

/-- The word after all whitespace of a text: it stands where the whitespace ends. -/
theorem afterWord?_dropWhile {s r : Text} :
    Text.afterWord? keyword (s.dropWhile Text.isBlank) = some r ↔
      ∃ g, Text.allBlank (s.take g) = true ∧ WordAt keyword s g ∧ r = s.drop (g + 10) := by
  constructor
  · intro h
    rw [List.dropWhile_eq_drop_findIdx_not, Text.afterWord?_drop] at h
    refine ⟨_, ?_, h.1, h.2⟩
    rw [← List.takeWhile_eq_take_findIdx_not]
    exact List.all_takeWhile
  · intro h
    rcases h with ⟨g, hgap, hword, rfl⟩
    rw [dropWhile_isBlank_eq hgap hword, Text.afterWord?_drop]
    exact ⟨hword, rfl⟩

theorem slice_eq_take (d : Text) (i g : Nat) : Text.slice d i (i + g) = (d.drop i).take g := by
  rw [Text.slice, List.drop_take, Nat.add_sub_cancel_left]

theorem exists_read?_drop_iff {d r : Text} {t : Nat} :
    (∃ m, read? (d.drop t) = some (m, r)) ↔ ∃ e, MarksEnd d t e ∧ r = d.drop e := by
  constructor
  · intro h
    rcases h with ⟨m, h⟩
    simp only [read?, Option.bind_eq_some_iff, Option.map_eq_some_iff, Prod.mk.injEq] at h
    obtain ⟨inside, hinside, noted, hnoted, ⟨note, rest⟩, hcut, -, rfl⟩ := h
    obtain ⟨hopen, rfl⟩ := Text.after?_drop.1 hinside
    obtain ⟨g, hgap, hword, rfl⟩ := afterWord?_dropWhile.1 hnoted
    rw [List.drop_drop, ← Nat.add_assoc] at hcut
    obtain ⟨c, hfirst, -, hr⟩ := (Text.cut_drop Comment.closing_ne_nil).1 hcut
    refine ⟨c + 3, ⟨hopen, g, ?_, Text.wordAt_drop.1 hword, c, hfirst, rfl⟩, hr⟩
    rw [slice_eq_take]
    exact hgap
  · intro h
    rcases h with ⟨e, ⟨hopen, g, hgap, hword, c, hfirst, rfl⟩, rfl⟩
    rw [slice_eq_take] at hgap
    have hinside := Text.after?_drop.2 ⟨hopen, rfl⟩
    have hnoted := afterWord?_dropWhile.2 ⟨g, hgap, Text.wordAt_drop.2 hword, rfl⟩
    have hcut := (Text.cut_drop Comment.closing_ne_nil).2 ⟨c, hfirst, rfl, rfl⟩
    rw [List.drop_drop, ← Nat.add_assoc] at hnoted
    simp only [read?, Option.bind_eq_some_iff, Option.map_eq_some_iff, Prod.mk.injEq]
    exact ⟨_, _, hinside, _, hnoted, _, hcut, rfl, rfl⟩

theorem MarksEnd.le_length {d : Text} {t e : Nat} (h : MarksEnd d t e) : t < e ∧ e ≤ d.length := by
  obtain ⟨-, g, -, -, c, ⟨hle, hclose, -⟩, rfl⟩ := h
  have : c + 3 ≤ d.length := hclose.length_le Comment.closing_ne_nil
  omega

/-- A marker that is read at a place stands there, and ends where its text ends. -/
theorem marksEnd_of_read? {d r : Text} {t : Nat} {m : EndMarker}
    (h : read? (d.drop t) = some (m, r)) :
    MarksEnd d t (t + m.text.length) ∧ r = d.drop (t + m.text.length) := by
  obtain ⟨e, he, hdrop⟩ := exists_read?_drop_iff.1 ⟨m, h⟩
  have hlen := congrArg List.length (read?_eq_some h)
  have hrest := congrArg List.length hdrop
  have := he.le_length
  simp only [List.length_drop, List.length_append] at hlen hrest
  obtain rfl : e = t + m.text.length := by omega
  exact ⟨he, hdrop⟩

theorem MarksEnd.exists_read? {d : Text} {t e : Nat} (h : MarksEnd d t e) :
    ∃ m, EndMarker.read? (d.drop t) = some (m, d.drop e) ∧ e = t + m.text.length := by
  obtain ⟨m, hm⟩ := exists_read?_drop_iff.2 ⟨e, h, rfl⟩
  have hlen := congrArg List.length (read?_eq_some hm)
  have := h.le_length
  simp only [List.length_drop, List.length_append] at hlen
  exact ⟨m, hm, by omega⟩

theorem read?_drop_eq_none_iff {d : Text} {t : Nat} :
    read? (d.drop t) = none ↔ ¬∃ e, MarksEnd d t e := by
  constructor
  · intro h hend
    obtain ⟨e, he⟩ := hend
    obtain ⟨m, hm, -⟩ := he.exists_read?
    simp [h] at hm
  · intro h
    cases hread : read? (d.drop t) with
    | none => rfl
    | some p => exact absurd ⟨_, (marksEnd_of_read? hread).1⟩ h

/-- A marker has one end. -/
theorem MarksEnd.unique {d : Text} {t e e' : Nat} (h : MarksEnd d t e) (h' : MarksEnd d t e') :
    e = e' := by
  obtain ⟨m, hm, rfl⟩ := h.exists_read?
  obtain ⟨m', hm', rfl⟩ := h'.exists_read?
  rw [hm] at hm'
  simp only [Option.some.injEq, Prod.mk.injEq] at hm'
  rw [hm'.1]

end EndMarker
end MarkupCatalog
