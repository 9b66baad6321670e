/-
Options after one assignment after another. Keys that come once each stay as they are
(`putAll_of_nodup`), and what is put under a key then takes the place of what is there
(`put_append_of_not_mem`), or stands at the end (`put_of_not_mem`). A key that comes again keeps its
first place (`keys_putAll`) and takes its last value (`get?_putAll`).
-/
import Mathlib.Data.List.Induction
import MarkupCatalog.Options

namespace MarkupCatalog.Options

/-! ## Keys that come once -/

theorem put_of_not_mem {k : Text} {os : Options} (h : k ∉ os.map (·.1)) (s : Setting) :
    put k s os = os ++ [(k, s)] := by
  induction os with
  | nil => rfl
  | cons o os ih =>
    rw [List.map_cons, List.mem_cons, not_or] at h
    rw [put, if_neg (Ne.symm h.1), ih h.2]
    rfl

theorem get?_eq_none_iff {k : Text} {os : Options} : get? k os = none ↔ k ∉ os.map (·.1) := by
  induction os with
  | nil => simp [get?]
  | cons o os ih =>
    rw [List.map_cons, List.mem_cons, not_or, get?]
    by_cases h : o.1 = k
    · simp [h]
    · rw [if_neg h, ih]
      exact (and_iff_right (Ne.symm h)).symm

theorem putAll_append_of_nodup {os more : Options} (h : ((os ++ more).map (·.1)).Nodup) :
    putAll more os = os ++ more := by
  induction more generalizing os with
  | nil => simp [putAll]
  | cons o more ih =>
    have hmem : o.1 ∉ os.map (·.1) := by
      rw [List.map_append, List.map_cons, List.nodup_append] at h
      intro hmem
      exact h.2.2 _ hmem _ List.mem_cons_self rfl
    show putAll more (put o.1 o.2 os) = _
    rw [put_of_not_mem hmem, ih (by simpa using h)]
    simp

theorem putAll_of_nodup {os : Options} (h : (os.map (·.1)).Nodup) : putAll os [] = os := by
  have hnil : (([] ++ os : Options).map (·.1)).Nodup := h
  rw [putAll_append_of_nodup hnil, List.nil_append]

theorem get?_append_of_not_mem {k : Text} {os : Options} (h : k ∉ os.map (·.1)) (s : Setting)
    (more : Options) : get? k (os ++ (k, s) :: more) = some s := by
  induction os with
  | nil => rw [List.nil_append, get?, if_pos rfl]
  | cons o os ih =>
    rw [List.map_cons, List.mem_cons, not_or] at h
    rw [List.cons_append, get?, if_neg (Ne.symm h.1), ih h.2]

theorem put_append_of_not_mem {k : Text} {os : Options} (h : k ∉ os.map (·.1)) (s s' : Setting)
    (more : Options) : put k s (os ++ (k, s') :: more) = os ++ (k, s) :: more := by
  induction os with
  | nil => rw [List.nil_append, put, if_pos rfl, List.nil_append]
  | cons o os ih =>
    rw [List.map_cons, List.mem_cons, not_or] at h
    rw [List.cons_append, put, if_neg (Ne.symm h.1), ih h.2, List.cons_append]

/-! ## What is put -/

theorem mem_of_get?_eq_some {k : Text} {s : Setting} {os : Options} (h : os.get? k = some s) :
    (k, s) ∈ os := by
  induction os with
  | nil => cases h
  | cons o os ih =>
    rw [get?] at h
    split at h
    next ho =>
      rw [← ho, ← Option.some.inj h]
      exact List.mem_cons_self
    next => exact List.mem_cons_of_mem o (ih h)

theorem eq_or_mem_of_mem_put {o : Text × Setting} {k : Text} {s : Setting} {os : Options}
    (h : o ∈ put k s os) : o = (k, s) ∨ o ∈ os := by
  induction os with
  | nil => exact .inl (List.mem_singleton.1 h)
  | cons o' os ih =>
    rw [put] at h
    split at h
    · rcases List.mem_cons.1 h with rfl | hmem
      · exact .inl rfl
      · exact .inr (List.mem_cons_of_mem o' hmem)
    · rcases List.mem_cons.1 h with rfl | hmem
      · exact .inr List.mem_cons_self
      · exact (ih hmem).imp_right (List.mem_cons_of_mem o')

/-- All options after assignments are assigned, or were there before. -/
theorem mem_or_mem_of_mem_putAll {o : Text × Setting} {as : List (Text × Setting)} {os : Options}
    (h : o ∈ putAll as os) : o ∈ as ∨ o ∈ os := by
  induction as generalizing os with
  | nil => exact .inr h
  | cons a as ih =>
    rcases ih (show o ∈ putAll as (put a.1 a.2 os) from h) with hmem | hput
    · exact .inl (List.mem_cons_of_mem a hmem)
    · rcases eq_or_mem_of_mem_put hput with rfl | hos
      · exact .inl List.mem_cons_self
      · exact .inr hos

/-! ## Keys that come again -/

theorem putAll_append (as more : List (Text × Setting)) (os : Options) :
    putAll (as ++ more) os = putAll more (putAll as os) := List.foldl_append

theorem putAll_concat (as : List (Text × Setting)) (a : Text × Setting) (os : Options) :
    putAll (as ++ [a]) os = put a.1 a.2 (putAll as os) := putAll_append as [a] os

/-- Each key stands where it came first. -/
theorem keys_putAll (as : List (Text × Setting)) :
    (putAll as []).map (·.1) = (as.map (·.1)).eraseDups := by
  induction as using List.reverseRecOn with
  | nil => rfl
  | append_singleton as a ih =>
    rw [putAll_concat, keys_put, ih, List.map_append, List.eraseDups_append]
    by_cases h : a.1 ∈ as.map (·.1)
    · rw [if_pos (List.mem_eraseDups.2 h)]
      simp [List.removeAll, h]
    · rw [if_neg (List.mem_eraseDups.not.2 h)]
      simp [List.removeAll, h, List.eraseDups_cons]

theorem nodup_keys_putAll (as : List (Text × Setting)) : ((putAll as []).map (·.1)).Nodup := by
  induction as using List.reverseRecOn with
  | nil => exact List.nodup_nil
  | append_singleton as a ih =>
    rw [putAll_concat]
    exact nodup_keys_put ih

/-- Keys that are there already stay where they are, and the others come after them. -/
theorem keys_putAll_append (as : List (Text × Setting)) (os : Options) :
    (putAll as os).map (·.1) =
      os.map (·.1) ++ ((putAll as []).map (·.1)).filter (· ∉ os.map (·.1)) := by
  induction as using List.reverseRecOn with
  | nil => simp [putAll]
  | append_singleton as a ih =>
    rw [putAll_concat, putAll_concat, keys_put, keys_put, ih]
    by_cases hos : a.1 ∈ os.map (·.1)
    · rw [if_pos (List.mem_append_left _ hos)]
      split
      · rfl
      · rw [List.filter_append, List.filter_cons_of_neg (by simpa using hos), List.filter_nil,
          List.append_nil]
    · by_cases has : a.1 ∈ (putAll as []).map (·.1)
      · rw [if_pos (List.mem_append_right _ (List.mem_filter.2 ⟨has, by simpa using hos⟩)),
          if_pos has]
      · have hnew : a.1 ∉ os.map (·.1) ++
            ((putAll as []).map (·.1)).filter (· ∉ os.map (·.1)) := by
          rw [List.mem_append, List.mem_filter]
          exact fun h => h.elim hos fun h => has h.1
        rw [if_neg hnew, if_neg has, List.filter_append,
          List.filter_cons_of_pos (by simpa using hos), List.filter_nil, List.append_assoc]

/-- What comes last under a key. -/
def last? {α : Type} (k : Text) : List (Text × α) → Option α
  | [] => none
  | p :: ps => (last? k ps).or (if p.1 = k then some p.2 else none)

theorem last?_map {α β : Type} (f : Text → α → β) (k : Text) (ps : List (Text × α)) :
    last? k (ps.map fun p => (p.1, f p.1 p.2)) = (last? k ps).map (f k) := by
  induction ps with
  | nil => rfl
  | cons p ps ih =>
    rw [List.map_cons, last?, last?, ih, Option.map_or]
    by_cases h : p.1 = k
    · simp [h]
    · simp [h]

theorem last?_append {α : Type} (k : Text) (ps qs : List (Text × α)) :
    last? k (ps ++ qs) = (last? k qs).or (last? k ps) := by
  induction ps with
  | nil => exact (Option.or_none).symm
  | cons p ps ih => rw [List.cons_append, last?, ih, last?, Option.or_assoc]

theorem last?_eq_none_iff {α : Type} {k : Text} {ps : List (Text × α)} :
    last? k ps = none ↔ k ∉ ps.map (·.1) := by
  induction ps with
  | nil => simp [last?]
  | cons p ps ih => simp [last?, Option.or_eq_none_iff, ih, and_comm, eq_comm (a := k)]

/-- What is under other keys may be left out. -/
theorem last?_map_filter {α β : Type} {k : Text} {f : β → Text × α} {p : β → Bool} {es : List β}
    (h : ∀ e, (f e).1 = k → p e = true) :
    last? k ((es.filter p).map f) = last? k (es.map f) := by
  induction es with
  | nil => rfl
  | cons e es ih =>
    cases hp : p e with
    | true => rw [List.filter_cons_of_pos hp, List.map_cons, last?, ih, List.map_cons, last?]
    | false =>
      have hne : (f e).1 ≠ k := fun hk => absurd (h e hk) (by simp [hp])
      rw [List.filter_cons_of_neg (by simp [hp]), ih, List.map_cons, last?, if_neg hne,
        Option.or_none]

/-- Where keys come once each, the last value under a key is the one that is there. -/
theorem last?_eq_some_iff {α : Type} {k : Text} {ps : List (Text × α)}
    (h : (ps.map (·.1)).Nodup) {v : α} : last? k ps = some v ↔ (k, v) ∈ ps := by
  induction ps with
  | nil => simp [last?]
  | cons p ps ih =>
    rw [List.map_cons, List.nodup_cons] at h
    rw [last?, List.mem_cons]
    by_cases hp : p.1 = k
    · subst hp
      have hnone : last? p.1 ps = none := last?_eq_none_iff.2 h.1
      have hmem : (p.1, v) ∉ ps := fun hv => h.1 (List.mem_map.2 ⟨_, hv, rfl⟩)
      simp [hnone, hmem, Prod.ext_iff, eq_comm]
    · rw [if_neg hp, Option.or_none, ih h.2]
      have hne : (k, v) ≠ p := fun hv => hp (congrArg Prod.fst hv).symm
      exact (or_iff_right hne).symm

/-- A key holds what came last under it. -/
theorem get?_putAll (k : Text) (as : List (Text × Setting)) (os : Options) :
    get? k (putAll as os) = (last? k as).or (get? k os) := by
  induction as generalizing os with
  | nil => rfl
  | cons a as ih =>
    show get? k (putAll as (put a.1 a.2 os)) = _
    rw [ih, last?, Option.or_assoc]
    by_cases h : a.1 = k
    · rw [if_pos h, ← h, get?_put_self]
      rfl
    · rw [if_neg h, get?_put_other (Ne.symm h)]
      rfl

end MarkupCatalog.Options
