/-
The words of a text: what stands between its whitespace. A text keeps its words when whitespace comes
to whitespace or to its ends (`words_append_blank`), and so when its lines are indented anew
(`words_eq_of_lines`). Texts with the same words go on in the same way from where either goes on with
anything but whitespace (`exists_append_of_words_eq`).
-/
import MarkupCatalog.Text.Blank
import MarkupCatalog.Text.Lines
import MarkupCatalog.Proofs.Text.Pieces

namespace MarkupCatalog.Text

/-- The pieces of a text between its whitespace, without the empty ones. -/
def words (s : Text) : List Text := (pieces isBlank s).filter fun w => !w.isEmpty

/-! ## Words and whitespace -/

/-- **Words end at whitespace.** All else about words follows from this. -/
theorem words_append_blank {c : CodePoint} (hc : isBlank c = true) (a s : Text) :
    words (a ++ c :: s) = words a ++ words s := by
  rw [words, pieces_append_cons hc, List.filter_append]
  rfl

theorem words_nil : words [] = [] := rfl

theorem words_cons_blank {c : CodePoint} (hc : isBlank c = true) (s : Text) :
    words (c :: s) = words s := by
  rw [← List.nil_append (c :: s), words_append_blank hc, words_nil, List.nil_append]

theorem words_append {s : Text} (hs : ∀ c, s.head? = some c → isBlank c = true) (a : Text) :
    words (a ++ s) = words a ++ words s := by
  cases s with
  | nil => rw [words_nil, List.append_nil, List.append_nil]
  | cons c s =>
    have hc := hs c rfl
    rw [words_append_blank hc, words_cons_blank hc]

theorem words_blank_append {g : Text} (hg : allBlank g = true) (s : Text) :
    words (g ++ s) = words s := by
  induction g with
  | nil => rfl
  | cons c g ih =>
    simp only [allBlank, List.all_cons, Bool.and_eq_true] at hg
    rw [List.cons_append, words_cons_blank hg.1, ih hg.2]

theorem words_of_solid {w : Text} (hne : w ≠ []) (hw : ∀ c ∈ w, isBlank c = false) :
    words w = [w] := by
  rw [words, pieces_of_not_sep hw]
  simp [hne]

/-! ## Lines -/

theorem words_trim (s : Text) : words (trim s) = words s := by
  have hleft : words (trimLeft s) = words s := by
    have hs := words_blank_append (List.all_takeWhile (l := s) (p := isBlank)) (s.dropWhile isBlank)
    rw [List.takeWhile_append_dropWhile] at hs
    exact hs.symm
  obtain ⟨g, hright, hg⟩ := exists_dropTrailing_append isBlank (trimLeft s)
  have hhead : ∀ c, g.head? = some c → isBlank c = true := fun c hc =>
    List.all_eq_true.1 hg c (List.mem_of_head? hc)
  have hnone : words g = [] := by
    rw [← List.append_nil g, words_blank_append hg, words_nil]
  calc words (trim s) = words (dropTrailing isBlank (trimLeft s)) ++ words g := by
        rw [hnone, List.append_nil]
        rfl
    _ = words (trimLeft s) := by rw [← words_append hhead, ← hright]
    _ = words s := hleft

theorem words_unlines (ls : List Text) : words (unlines ls) = ls.flatMap words := by
  induction ls with
  | nil => rfl
  | cons l ls ih =>
    cases ls with
    | nil => simp [unlines, joined]
    | cons m ls =>
      have hbreak : isBlank '\n' = true := by decide
      rw [List.flatMap_cons, ← ih]
      show words (l ++ [.char '\n'] ++ unlines (m :: ls)) = _
      rw [List.append_assoc, List.singleton_append, words_append_blank hbreak]

/-- Lines that differ in the whitespace at their ends have the same words. -/
theorem words_eq_of_lines {s t : Text} (h : (lines s).map trim = (lines t).map trim) :
    words s = words t := by
  have hlines (u : Text) : words u = ((lines u).map trim).flatMap words := by
    rw [List.flatMap_map]
    simp only [words_trim]
    rw [← words_unlines, unlines_lines]
  rw [hlines s, hlines t, h]

/-! ## Texts with the same words -/

/-- A text falls into what it begins with before any whitespace, and the rest. -/
theorem exists_solid_append (s : Text) :
    ∃ x u, s = x ++ u ∧ (∀ c ∈ x, isBlank c = false) ∧ ∀ c, u.head? = some c → isBlank c = true := by
  induction s with
  | nil => exact ⟨[], [], rfl, by simp, by simp⟩
  | cons c s ih =>
    cases hc : isBlank c with
    | true => exact ⟨[], c :: s, rfl, by simp, by simpa using hc⟩
    | false =>
      obtain ⟨x, u, rfl, hx, hu⟩ := ih
      exact ⟨c :: x, u, rfl, List.forall_mem_cons.2 ⟨hc, hx⟩, hu⟩

/-- The words of a text that goes on with anything but whitespace, of which there is more or not. -/
theorem words_solid_append {x u : Text} (hne : x ≠ []) (hx : ∀ c ∈ x, isBlank c = false)
    (hu : ∀ c, u.head? = some c → isBlank c = true) : words (x ++ u) = x :: words u := by
  rw [words_append hu, words_of_solid hne hx]
  rfl

theorem exists_blank_append (s : Text) :
    ∃ g s', s = g ++ s' ∧ allBlank g = true ∧ ∀ c, s'.head? = some c → isBlank c = false := by
  induction s with
  | nil => exact ⟨[], [], rfl, rfl, by simp⟩
  | cons c s ih =>
    cases hc : isBlank c with
    | false => exact ⟨[], c :: s, rfl, rfl, by simpa using hc⟩
    | true =>
      obtain ⟨g, s', rfl, hg, hs'⟩ := ih
      refine ⟨c :: g, s', rfl, ?_, hs'⟩
      rw [allBlank, List.all_cons, hc]
      exact hg

theorem eq_nil_of_blank_append {g s : Text} (hg : allBlank g = true)
    (h : ∀ c, (g ++ s).head? = some c → isBlank c = false) : g = [] := by
  cases g with
  | nil => rfl
  | cons c g =>
    simp only [allBlank, List.all_cons, Bool.and_eq_true] at hg
    simp [h c rfl] at hg

/-- **Where a text goes on with anything but whitespace,** every text with the same words goes on with
it, after whitespace, and from there on they have the same words again. -/
theorem exists_append_of_words_eq {w r t : Text} (hne : w ≠ []) (hw : ∀ c ∈ w, isBlank c = false)
    (h : words (w ++ r) = words t) :
    ∃ g r', t = g ++ (w ++ r') ∧ allBlank g = true ∧ words r = words r' := by
  obtain ⟨x, u, rfl, hx, hu⟩ := exists_solid_append r
  obtain ⟨g, t', rfl, hg, ht'⟩ := exists_blank_append t
  obtain ⟨y, v, rfl, hy, hv⟩ := exists_solid_append t'
  have hwx : ∀ c ∈ w ++ x, isBlank c = false := fun c hc =>
    (List.mem_append.1 hc).elim (hw c) (hx c)
  rw [← List.append_assoc, words_solid_append (by simp [hne]) hwx hu, words_blank_append hg] at h
  cases y with
  | nil =>
    -- what is neither begun by whitespace nor by anything else is empty
    cases v with
    | nil => simp [words_nil] at h
    | cons c v => simp [hv c rfl] at ht'
  | cons c y =>
    rw [words_solid_append (List.cons_ne_nil c y) hy hv, List.cons.injEq] at h
    obtain ⟨hyx, huv⟩ := h
    refine ⟨g, x ++ v, by rw [← hyx, List.append_assoc], hg, ?_⟩
    rw [words_append hu, words_append hv, huv]

/-- Where the second text does not begin with whitespace, it begins as the first. -/
theorem exists_eq_append_of_words_eq {w r t : Text} (hne : w ≠ [])
    (hw : ∀ c ∈ w, isBlank c = false) (h : words (w ++ r) = words t)
    (ht : ∀ c, t.head? = some c → isBlank c = false) : ∃ r', t = w ++ r' ∧ words r = words r' := by
  obtain ⟨g, r', rfl, hg, hr⟩ := exists_append_of_words_eq hne hw h
  obtain rfl := eq_nil_of_blank_append hg ht
  exact ⟨r', rfl, hr⟩

end MarkupCatalog.Text
