/-
The lines of a block at both ends. Blank lines are dropped there, and cropping takes no more from a
line than the whitespace that it begins with, so that neither the first line nor the last is empty
(`head?_lines`, `getLast?_lines`).
-/
import Mathlib.Data.List.TakeWhile
import MarkupCatalog.Layout
import MarkupCatalog.Proofs.Text.Classes
import MarkupCatalog.Proofs.Text.Pieces

namespace MarkupCatalog.Layout

/-- The line ends in a character that is no whitespace, and so is not empty. -/
def Solid (line : Text) : Prop := ∃ c, line.getLast? = some c ∧ Text.isBlank c = false

theorem Solid.ne_nil {line : Text} (h : Solid line) : line ≠ [] := by
  obtain ⟨c, hc, -⟩ := h
  rintro rfl
  simp at hc

/-! ## One line -/

theorem solid_trimRight {line : Text} (h : Text.trimRight line ≠ []) :
    Solid (Text.trimRight line) := by
  cases hlast : (Text.trimRight line).getLast? with
  | none => exact absurd (List.getLast?_eq_none_iff.1 hlast) h
  | some c => exact ⟨c, hlast, Text.getLast?_dropTrailing hlast⟩

/-- A tab is whitespace, so the last character of the line is not the one that gives way. -/
theorem Solid.untab {line : Text} (h : Solid line) (indent : Text) : Solid (untab indent line) := by
  obtain ⟨x, hlast, hx⟩ := h
  refine ⟨x, ?_, hx⟩
  induction line with
  | nil => simp at hlast
  | cons c s ih =>
    unfold Layout.untab
    cases s with
    | nil =>
      obtain rfl := Option.some.inj hlast
      have hc : c ≠ '\t' := by
        rintro rfl
        revert hx
        decide
      rw [if_neg hc]
      rfl
    | cons d s =>
      rw [List.getLast?_cons_cons] at hlast
      split
      · rw [List.getLast?_append, hlast, Option.some_or]
      · rw [List.getLast?_cons, ih hlast, Option.getD_some]

theorem Solid.width_lt {line : Text} (h : Solid line) : width line < line.length := by
  obtain ⟨c, hlast, hc⟩ := h
  have hmem := List.mem_of_getLast? hlast
  have hrest : line.dropWhile Text.isBlank ≠ [] := by
    intro hnil
    rw [List.dropWhile_eq_nil_iff.1 hnil c hmem] at hc
    simp at hc
  have hlen := congrArg List.length (List.takeWhile_append_dropWhile (p := Text.isBlank) (l := line))
  have := List.length_pos_iff.2 hrest
  rw [List.length_append] at hlen
  have hne : line.isEmpty = false := by
    rw [List.isEmpty_eq_false_iff]
    exact List.ne_nil_of_mem hmem
  rw [width, hne]
  simp only [Bool.false_eq_true, if_false]
  omega

theorem crop_ne_nil {w : Int} {line : Text} (h0 : 0 ≤ w) (hw : w < line.length) :
    crop w line ≠ [] := by
  rw [crop, if_pos h0, ne_eq, List.drop_eq_nil_iff]
  omega

/-! ## All lines -/

theorem foldl_lesser_le (w : Int) (ws : List Int) :
    ws.foldl lesser w ≤ w ∧ ∀ v ∈ ws, ws.foldl lesser w ≤ v := by
  induction ws generalizing w with
  | nil => simp
  | cons v ws ih =>
    obtain ⟨hstart, hall⟩ := ih (lesser w v)
    have hlesser : lesser w v ≤ w ∧ lesser w v ≤ v := by
      unfold lesser
      split <;> omega
    rw [List.foldl_cons]
    refine ⟨by omega, fun u hu => ?_⟩
    rcases List.mem_cons.1 hu with rfl | hu
    · omega
    · exact hall u hu

/-- The least width is that of a line, unless it is the one that there is to begin with. -/
theorem foldl_lesser_mem (w : Int) (ws : List Int) :
    ws.foldl lesser w = w ∨ ws.foldl lesser w ∈ ws := by
  induction ws generalizing w with
  | nil => exact .inl rfl
  | cons v ws ih =>
    rw [List.foldl_cons, List.mem_cons]
    rcases ih (lesser w v) with hstart | hmem
    · rw [hstart]
      unfold lesser
      split
      · exact .inl rfl
      · exact .inr (.inl rfl)
    · exact .inr (.inr hmem)

theorem le_foldl_lesser {a w : Int} {ws : List Int} (hw : a ≤ w) (hws : ∀ v ∈ ws, a ≤ v) :
    a ≤ ws.foldl lesser w := by
  induction ws generalizing w with
  | nil => exact hw
  | cons v ws ih =>
    have hv := hws v List.mem_cons_self
    refine ih ?_ fun u hu => hws u (List.mem_cons_of_mem _ hu)
    unfold lesser
    split <;> omega

theorem width_nonneg (line : Text) : 0 ≤ width line := by
  unfold width emptyWidth
  split <;> omega

theorem commonWidth_nonneg (ls : List Text) : 0 ≤ commonWidth ls := by
  refine le_foldl_lesser (by decide) fun v hv => ?_
  obtain ⟨line, -, rfl⟩ := List.mem_map.1 hv
  exact width_nonneg line

theorem commonWidth_le {line : Text} {ls : List Text} (h : line ∈ ls) :
    commonWidth ls ≤ width line :=
  (foldl_lesser_le emptyWidth (ls.map width)).2 _ (List.mem_map_of_mem h)

/-- A line that has something in it keeps it: less is cropped than its whitespace and its text. -/
theorem crop_commonWidth_ne_nil {line : Text} {ls : List Text} (h : line ∈ ls) (hs : Solid line) :
    crop (commonWidth ls) line ≠ [] := by
  have := commonWidth_le h
  have := hs.width_lt
  exact crop_ne_nil (commonWidth_nonneg ls) (by omega)

theorem eq_nil_or_solid_of_mem_content {body line : Text} (h : line ∈ content body) :
    line = [] ∨ Solid line := by
  have hdrop := (Text.dropTrailing_prefix _ _).subset h
  obtain ⟨l, -, rfl⟩ := List.mem_map.1 ((List.dropWhile_suffix _).subset hdrop)
  by_cases hnil : Text.trimRight l = []
  · exact .inl hnil
  · exact .inr (solid_trimRight hnil)

theorem head?_content {body line : Text} (h : (content body).head? = some line) : line ≠ [] := by
  obtain ⟨rest, hrest⟩ := List.head?_eq_some_iff.1 h
  obtain ⟨more, hmore⟩ := Text.dropTrailing_prefix List.isEmpty
    (((Text.lines body).map Text.trimRight).dropWhile List.isEmpty)
  have hfirst := List.head?_dropWhile_not List.isEmpty ((Text.lines body).map Text.trimRight)
  rw [← hmore, ← content, hrest, List.cons_append, List.head?_cons] at hfirst
  simpa using hfirst

theorem getLast?_content {body line : Text} (h : (content body).getLast? = some line) :
    line ≠ [] := by
  have hlast : line.isEmpty = false := Text.getLast?_dropTrailing h
  simpa using hlast

/-- A line of the content that is not empty is not empty after all either. -/
theorem crop_untab_ne_nil {indent body line : Text} (h : line ∈ content body) (hne : line ≠ []) :
    crop (commonWidth ((content body).map (untab indent))) (untab indent line) ≠ [] := by
  have hsolid := (eq_nil_or_solid_of_mem_content h).resolve_left hne
  exact crop_commonWidth_ne_nil (List.mem_map_of_mem h) (hsolid.untab indent)

theorem head?_lines {indent body line : Text} (h : (lines indent body).head? = some line) :
    line ≠ [] := by
  simp only [lines, dedent, List.head?_map, Option.map_eq_some_iff] at h
  obtain ⟨_, ⟨l, hl, rfl⟩, rfl⟩ := h
  exact crop_untab_ne_nil (List.mem_of_head? hl) (head?_content hl)

theorem getLast?_lines {indent body line : Text} (h : (lines indent body).getLast? = some line) :
    line ≠ [] := by
  simp only [lines, dedent, List.getLast?_map, Option.map_eq_some_iff] at h
  obtain ⟨_, ⟨l, hl, rfl⟩, rfl⟩ := h
  exact crop_untab_ne_nil (List.mem_of_getLast? hl) (getLast?_content hl)

end MarkupCatalog.Layout
