/-
Texts in which no comment opens. `Unopened a s` says it of a text `a` that `s` follows, whatever the
two make together. The readers of blocks go through such a text without stopping
(`untilEnd?_append`, `blocks_append`).
-/
import MarkupCatalog.Proofs.Block.Removal
import MarkupCatalog.Proofs.Block.Spans

namespace MarkupCatalog

open Text (StandsAt)

namespace Comment

/-- No comment opens in `a` where `s` follows it. -/
def Unopened (a s : Text) : Prop := ∀ k, k < a.length → ¬StandsAt opening (a ++ s) k

theorem unopened_cons {c : CodePoint} {a s : Text} :
    Unopened (c :: a) s ↔ ¬StandsAt opening (c :: (a ++ s)) 0 ∧ Unopened a s := by
  constructor
  · intro h
    exact ⟨h 0 (by simp), fun k hk => h (k + 1) (by simpa using hk)⟩
  · rintro ⟨hhead, htail⟩ k hk
    cases k with
    | zero => exact hhead
    | succ k => exact htail k (by simpa using hk)

theorem Unopened.append {a b s : Text} (ha : Unopened a (b ++ s)) (hb : Unopened b s) :
    Unopened (a ++ b) s := by
  induction a with
  | nil => exact hb
  | cons c a ih =>
    rw [unopened_cons] at ha
    rw [List.cons_append, unopened_cons, List.append_assoc]
    exact ⟨ha.1, ih ha.2⟩

theorem unopened_of_not_mem {a : Text} (h : .char '<' ∉ a) (s : Text) : Unopened a s := by
  intro k hk hopen
  have hchar : (a ++ s)[k + 0]? = opening[0]? := hopen.getElem? (by decide)
  rw [Nat.add_zero, List.getElem?_append_left hk, List.getElem?_eq_getElem hk] at hchar
  have hlt : a[k] = '<' := Option.some.inj hchar
  exact h (hlt ▸ List.getElem_mem hk)

theorem unopened_opening {a : Text} (h : ¬opening <:+: a) (r : Text) :
    Unopened a (opening ++ r) := by
  intro k hk hopen
  rw [← List.append_assoc] at hopen
  exact h (Text.infix_iff.2 ⟨k, hopen.of_append unbordered_opening hk⟩)

theorem unopened_of_end {a : Text} (h : ¬opening <:+: a) : Unopened a [] := by
  intro k _ hopen
  rw [List.append_nil] at hopen
  exact h (Text.infix_iff.2 ⟨k, hopen⟩)

/-- A text that ends in a character of its own keeps apart from what follows it. -/
theorem unopened_of_last {a : Text} {c : CodePoint} (h : ¬opening <:+: a ++ [c]) (hc : c ∉ opening)
    (s : Text) : Unopened (a ++ [c]) s := by
  intro k hk hopen
  rw [List.length_append, List.length_singleton] at hk
  by_cases hle : k + opening.length ≤ (a ++ [c]).length
  · refine h (Text.infix_iff.2 ⟨k, ?_⟩)
    rw [StandsAt, List.drop_append_of_le_length (by simp; omega)] at hopen
    refine List.prefix_of_prefix_length_le hopen (List.prefix_append _ s) ?_
    rw [List.length_drop]
    omega
  · rw [List.length_append, List.length_singleton] at hle
    have hi : a.length - k < opening.length := by omega
    have hchar := hopen.getElem? hi
    rw [show k + (a.length - k) = a.length by omega, List.append_assoc,
      List.getElem?_append_right (Nat.le_refl _), Nat.sub_self, List.getElem?_eq_getElem hi] at hchar
    exact hc (Option.some.inj hchar ▸ List.getElem_mem hi)

end Comment

open Comment (Unopened unopened_cons)

/-! ## Where no comment opens, nothing is read -/

theorem EndMarker.read?_eq_none {s : Text} (h : ¬StandsAt Comment.opening s 0) :
    read? s = none := by
  cases hread : read? s with
  | none => rfl
  | some p =>
    have hp : read? (s.drop 0) = some (p.1, p.2) := hread
    exact absurd (marksEnd_of_read? hp).1.1 h

theorem StartMarker.stands_eq_false {s : Text} (h : ¬StandsAt Comment.opening s 0) :
    stands s = false := by
  rw [Bool.eq_false_iff]
  intro hstands
  have hs : stands (s.drop 0) = true := hstands
  exact h (stands_drop_iff.1 hs).1

namespace Block

theorem read?_eq_none {s : Text} (h : ¬StandsAt Comment.opening s 0) : read? s = none := by
  rw [read?, StartMarker.stands_eq_false h]
  rfl

theorem untilEnd?_append {a s : Text} (h : Unopened a s) :
    untilEnd? (a ++ s) = (untilEnd? s).map fun p => (a ++ p.1, p.2) := by
  induction a with
  | nil => simp
  | cons c a ih =>
    rw [unopened_cons] at h
    rw [List.cons_append, untilEnd?, EndMarker.read?_eq_none h.1]
    simp only [StartMarker.stands_eq_false h.1, Bool.false_eq_true, if_false]
    rw [ih h.2, Option.map_map]
    rfl

theorem blocks_append {a s : Text} (h : Unopened a s) : blocks (a ++ s) = blocks s := by
  induction a with
  | nil => rfl
  | cons c a ih =>
    rw [unopened_cons] at h
    rw [List.cons_append, blocks_of_read?_eq_none (read?_eq_none h.1), ih h.2]

end Block
end MarkupCatalog
