/-
The margin of a block: how much of each of its lines is cropped. The lines are those from the first to
the last that is not blank (`isContent_iff`), and the margin is the least indentation of those that are
not empty, at most 9999 (`exists_margin`). What is cropped of a line is whitespace, and all else of the
layout stays (`exists_cropped_lines`).
-/
import Mathlib.Order.Bounds.Defs
import MarkupCatalog.Proofs.Layout

namespace MarkupCatalog.Layout

/-! ## Lines of a body -/

/-- The lines of a body from the first to the last that is not blank, without whitespace at their
ends. -/
def IsContent (body : Text) (ls : List Text) : Prop :=
  ∃ before after, (Text.lines body).map Text.trimRight = before ++ ls ++ after ∧
    (∀ l ∈ before ++ after, l = []) ∧ ls.head? ≠ some [] ∧ ls.getLast? ≠ some []

theorem isContent_content (body : Text) : IsContent body (content body) := by
  obtain ⟨after, hdrop, hafter⟩ := Text.exists_dropTrailing_append List.isEmpty
    (((Text.lines body).map Text.trimRight).dropWhile List.isEmpty)
  refine ⟨((Text.lines body).map Text.trimRight).takeWhile List.isEmpty, after, ?_, ?_,
    fun h => head?_content h rfl, fun h => getLast?_content h rfl⟩
  · rw [List.append_assoc, content, ← hdrop, List.takeWhile_append_dropWhile]
  · intro l hl
    rcases List.mem_append.1 hl with hl | hl
    · exact List.isEmpty_iff.1 (List.all_eq_true.1 List.all_takeWhile l hl)
    · exact List.isEmpty_iff.1 (List.all_eq_true.1 hafter l hl)

/-- There are no other such lines. -/
theorem isContent_iff {body : Text} {ls : List Text} : IsContent body ls ↔ ls = content body := by
  constructor
  · intro h
    obtain ⟨before, after, hlines, hempty, hfirst, hlast⟩ := h
    have hnot {l : Text} (h : l ≠ []) : l.isEmpty = false := List.isEmpty_eq_false_iff.2 h
    have hall {xs : List Text} (h : ∀ l ∈ xs, l = []) : xs.all List.isEmpty = true :=
      List.all_eq_true.2 fun l hl => List.isEmpty_iff.2 (h l hl)
    have hbefore := hall fun l hl => hempty l (List.mem_append_left _ hl)
    have hafter := hall fun l hl => hempty l (List.mem_append_right _ hl)
    rw [content, hlines, Text.dropTrailing_dropWhile_append hbefore hafter,
      Text.dropWhile_eq_self fun l hl => hnot fun h => hfirst (h ▸ hl),
      Text.dropTrailing_eq_self fun l hl => hnot fun h => hlast (h ▸ hl)]
  · rintro rfl
    exact isContent_content body

/-! ## Indentation -/

/-- How many whitespace characters a line begins with. -/
def lead (line : Text) : Nat := (line.takeWhile Text.isBlank).length

theorem width_of_ne_nil {line : Text} (h : line ≠ []) : width line = lead line :=
  if_neg (by simpa using h)

theorem Solid.lead_lt {line : Text} (h : Solid line) : lead line < line.length := by
  have hlt := h.width_lt
  rw [width_of_ne_nil h.ne_nil] at hlt
  omega

theorem lead_drop {k : Nat} {line : Text} (h : k ≤ lead line) :
    lead (line.drop k) + k = lead line := by
  induction k generalizing line with
  | zero => rfl
  | succ k ih =>
    cases line with
    | nil => exact absurd h (Nat.not_succ_le_zero k)
    | cons c s =>
      cases hc : Text.isBlank c with
      | false =>
        rw [lead, List.takeWhile_cons_of_neg (by simp [hc])] at h
        exact absurd h (Nat.not_succ_le_zero k)
      | true =>
        have hcons : lead (c :: s) = lead s + 1 := by
          rw [lead, List.takeWhile_cons_of_pos hc]
          rfl
        rw [hcons] at h ⊢
        rw [List.drop_succ_cons, ← ih (Nat.le_of_succ_le_succ h)]
        omega

theorem allBlank_take {k : Nat} {line : Text} (h : k ≤ lead line) :
    Text.allBlank (line.take k) = true := by
  have htake : line.take k = (line.takeWhile Text.isBlank).take k := by
    conv =>
      lhs
      rw [← List.takeWhile_append_dropWhile (p := Text.isBlank) (l := line)]
    exact List.take_append_of_le_length h
  rw [htake]
  exact List.all_eq_true.2 fun c hc => List.all_eq_true.1 List.all_takeWhile c (List.mem_of_mem_take hc)

theorem Solid.drop {k : Nat} {line : Text} (h : Solid line) (hk : k ≤ lead line) :
    Solid (line.drop k) := by
  have hlt := h.lead_lt
  obtain ⟨c, hlast, hc⟩ := h
  refine ⟨c, ?_, hc⟩
  rw [List.getLast?_drop, if_neg (by omega), hlast]

/-! ## The margin -/

/-- How far lines can be cropped at least: 9999, and the indentation of each that is not empty. -/
def indents (ls : List Text) : Set Nat := insert 9999 {n | ∃ l ∈ ls, l ≠ [] ∧ lead l = n}

theorem exists_margin (ls : List Text) :
    ∃ k : Nat, IsLeast (indents ls) k ∧ commonWidth ls = k := by
  obtain ⟨k, hk⟩ := Int.eq_ofNat_of_zero_le (commonWidth_nonneg ls)
  refine ⟨k, ⟨?_, ?_⟩, hk⟩
  · rcases foldl_lesser_mem emptyWidth (ls.map width) with hempty | hmem
    · left
      have h9999 : (k : Int) = 9999 := hk.symm.trans hempty
      omega
    · obtain ⟨l, hl, hwidth⟩ := List.mem_map.1 hmem
      have hwidth : width l = k := hwidth.trans hk
      by_cases hne : l = []
      · left
        rw [hne] at hwidth
        have h9999 : (9999 : Int) = k := hwidth
        omega
      · right
        rw [width_of_ne_nil hne] at hwidth
        exact ⟨l, hl, hne, by omega⟩
  · intro n hn
    rcases hn with rfl | ⟨l, hl, hne, rfl⟩
    · have hle := (foldl_lesser_le emptyWidth (ls.map width)).1
      have hle : commonWidth ls ≤ 9999 := hle
      omega
    · have hle := commonWidth_le hl
      rw [width_of_ne_nil hne] at hle
      omega

/-- The lines of a body are cropped by their margin. -/
theorem lines_eq (indent body : Text) :
    ∃ k, IsLeast (indents ((content body).map (untab indent))) k ∧
      lines indent body = ((content body).map (untab indent)).map (List.drop k) := by
  obtain ⟨k, hleast, hk⟩ := exists_margin ((content body).map (untab indent))
  refine ⟨k, hleast, ?_⟩
  simp only [lines, dedent, hk]
  refine List.map_congr_left fun l _ => ?_
  rw [crop, if_pos (Int.natCast_nonneg k), Int.toNat_natCast]

theorem le_lead_of_isLeast {ls : List Text} {k : Nat} (h : IsLeast (indents ls) k) {l : Text}
    (hl : l ∈ ls) (hne : l ≠ []) : k ≤ lead l := h.2 (.inr ⟨l, hl, hne, rfl⟩)

/-- The lines `rs` are the lines `ls` without their margin of `k` characters, which is whitespace
where there is anything in a line. -/
structure Cropped (ls : List Text) (k : Nat) (rs : List Text) : Prop where
  length : rs.length = ls.length
  /-- the smaller of 9999 and the least indentation of a line that is not empty -/
  margin : IsLeast (indents ls) k
  line : ∀ i : Nat, rs[i]? = ls[i]?.map (List.drop k)
  allBlank : ∀ l ∈ ls, l ≠ [] → k ≤ l.length ∧ Text.allBlank (l.take k) = true
  empty_iff : ∀ l ∈ ls, l = [] ↔ l.drop k = []
  /-- no line ends in whitespace -/
  getLast? : ∀ r ∈ rs, ∀ c, r.getLast? = some c → Text.isBlank c = false
  first : rs.head? ≠ some []
  last : rs.getLast? ≠ some []
  /-- lines are indented against each other as before -/
  lead_sub : ∀ l ∈ ls, ∀ l' ∈ ls, l ≠ [] → l' ≠ [] →
    (lead (l.drop k) : Int) - lead (l'.drop k) = lead l - lead l'
  /-- some line is not indented, unless all are indented too far -/
  flush : (∀ l ∈ ls, l ≠ [] → 9999 < lead l) ∨ ∃ r ∈ rs, r ≠ [] ∧ lead r = 0

theorem eq_nil_or_solid_of_mem {indent body l : Text} (h : l ∈ (content body).map (untab indent)) :
    l = [] ∨ Solid l := by
  obtain ⟨l₀, hl₀, rfl⟩ := List.mem_map.1 h
  rcases eq_nil_or_solid_of_mem_content hl₀ with rfl | hsolid
  · exact .inl rfl
  · exact .inr (hsolid.untab indent)

/-- The margin is the indentation of a line, if any line is within reach. -/
theorem exists_lead_eq {ls : List Text} {k : Nat} (h : IsLeast (indents ls) k)
    (hreach : ∃ l ∈ ls, l ≠ [] ∧ lead l ≤ 9999) : ∃ l ∈ ls, l ≠ [] ∧ lead l = k := by
  rcases h.1 with rfl | hline
  · obtain ⟨l, hl, hne, hle⟩ := hreach
    exact ⟨l, hl, hne, Nat.le_antisymm hle (le_lead_of_isLeast h hl hne)⟩
  · exact hline

/-- Then that line is not indented any more. -/
theorem exists_lead_eq_zero {ls : List Text} {k : Nat} (h : IsLeast (indents ls) k)
    (hsolid : ∀ l ∈ ls, l = [] ∨ Solid l) :
    (∀ l ∈ ls, l ≠ [] → 9999 < lead l) ∨ ∃ l ∈ ls, l.drop k ≠ [] ∧ lead (l.drop k) = 0 := by
  by_cases hfar : ∀ l ∈ ls, l ≠ [] → 9999 < lead l
  · exact .inl hfar
  · simp only [not_forall, Nat.not_lt] at hfar
    obtain ⟨l, hl, hne, hle⟩ := hfar
    obtain ⟨l, hl, hne, hlead⟩ := exists_lead_eq h ⟨l, hl, hne, hle⟩
    have hdrop := lead_drop (Nat.le_of_eq hlead.symm)
    exact .inr ⟨l, hl, (((hsolid l hl).resolve_left hne).drop hlead.ge).ne_nil, by omega⟩

/-- **A body in its normal form** is its lines without their margin. -/
theorem exists_cropped_lines (indent body : Text) :
    ∃ ls, (∀ ls', IsContent body ls' ↔ ls' = ls) ∧
      ∃ k, Cropped (ls.map (untab indent)) k (lines indent body) := by
  obtain ⟨k, hleast, hlines⟩ := lines_eq indent body
  refine ⟨content body, fun ls' => isContent_iff, k, ?_⟩
  have hsolid : ∀ l ∈ (content body).map (untab indent), l = [] ∨ Solid l := fun l hl =>
    eq_nil_or_solid_of_mem hl
  have hle {l : Text} (hl : l ∈ (content body).map (untab indent)) (hne : l ≠ []) : k ≤ lead l :=
    le_lead_of_isLeast hleast hl hne
  have hdrop {l : Text} (hl : l ∈ (content body).map (untab indent)) (hne : l ≠ []) :
      Solid (l.drop k) := ((hsolid l hl).resolve_left hne).drop (hle hl hne)
  refine ⟨?_, hleast, fun i => ?_, fun l hl hne => ?_, fun l hl => ?_, fun r hr c hc => ?_,
    fun h => head?_lines h rfl, fun h => getLast?_lines h rfl, fun l hl l' hl' hne hne' => ?_, ?_⟩
  · rw [hlines, List.length_map]
  · rw [hlines, List.getElem?_map]
  · have hlt := ((hsolid l hl).resolve_left hne).lead_lt
    have hk := hle hl hne
    exact ⟨by omega, allBlank_take hk⟩
  · constructor
    · rintro rfl
      exact List.drop_nil
    · intro h
      by_contra hne
      exact (hdrop hl hne).ne_nil h
  · rw [hlines] at hr
    obtain ⟨l, hl, rfl⟩ := List.mem_map.1 hr
    have hne : l ≠ [] := by
      rintro rfl
      simp at hc
    obtain ⟨c', hlast, hblank⟩ := hdrop hl hne
    rw [hlast, Option.some.injEq] at hc
    exact hc ▸ hblank
  · have h := lead_drop (hle hl hne)
    have h' := lead_drop (hle hl' hne')
    omega
  · rw [hlines]
    rcases exists_lead_eq_zero hleast hsolid with hfar | ⟨l, hl, hne, hzero⟩
    · exact .inl hfar
    · exact .inr ⟨l.drop k, List.mem_map_of_mem hl, hne, hzero⟩

end MarkupCatalog.Layout
