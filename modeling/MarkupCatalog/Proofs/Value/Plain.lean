/-
Plain data, told without the function that makes it. `isPlain`: no wrap and no entry stands in the
value at any depth (`not_inside_of_isPlain`), and every key of a map in it can be a key. What a value
becomes as plain data is plain (`isPlain_of_plain?`), and plain data becomes itself
(`plain?_of_isPlain`), so that nothing changes the second time (`plain?_plain?`). Only a key can be at
fault (`eq_unkeyable_of_plain?`).
-/
import MarkupCatalog.Wrap.Reading
import MarkupCatalog.Proofs.Outcome

namespace MarkupCatalog.Value

open Outcome (map_eq_ok_iff map_eq_error_iff bind_eq_ok_iff bind_eq_error_iff)

/-- `x` stands in a value: it is that value, or stands in an item of a list or tuple or in a key or a
value of a map. -/
inductive Inside (x : Value) : Value → Prop
  | self : Inside x x
  | item {items : List Value} {v : Value} (hv : v ∈ items) (h : Inside x v) : Inside x (.list items)
  | part {items : List Value} {v : Value} (hv : v ∈ items) (h : Inside x v) : Inside x (.tuple items)
  | key {pairs : Pairs} {p : Value × Value} (hp : p ∈ pairs) (h : Inside x p.1) : Inside x (.map pairs)
  | value {pairs : Pairs} {p : Value × Value} (hp : p ∈ pairs) (h : Inside x p.2) :
      Inside x (.map pairs)

mutual

/-- Plain data: neither a wrap nor an entry, nor a list, tuple or map with anything inside that is not
plain, and no map with a key that can be none. -/
def isPlain : Value → Bool
  | .wrap _ | .entry _ => false
  | .list items | .tuple items => arePlain items
  | .map pairs => arePlainPairs pairs
  | _ => true

def arePlain : List Value → Bool
  | [] => true
  | v :: vs => isPlain v && arePlain vs

def arePlainPairs : List (Value × Value) → Bool
  | [] => true
  | (k, v) :: ps => isKeyable k && isPlain k && isPlain v && arePlainPairs ps

end

/-! ## What stands in plain data -/

theorem arePlain_iff {vs : List Value} : arePlain vs = true ↔ ∀ v ∈ vs, v.isPlain = true := by
  induction vs with
  | nil => simp [arePlain]
  | cons v vs ih => simp [arePlain, ih]

theorem arePlainPairs_iff {ps : Pairs} : arePlainPairs ps = true ↔
    ∀ p ∈ ps, p.1.isKeyable = true ∧ p.1.isPlain = true ∧ p.2.isPlain = true := by
  induction ps with
  | nil => simp [arePlainPairs]
  | cons p ps ih =>
    obtain ⟨k, v⟩ := p
    simp [arePlainPairs, ih, and_assoc]

theorem Inside.isPlain {x v : Value} (h : Inside x v) (hv : v.isPlain = true) :
    x.isPlain = true := by
  induction h with
  | self => exact hv
  | item hmem _ ih => exact ih (arePlain_iff.1 (by simpa only [Value.isPlain] using hv) _ hmem)
  | part hmem _ ih => exact ih (arePlain_iff.1 (by simpa only [Value.isPlain] using hv) _ hmem)
  | key hmem _ ih =>
    exact ih (arePlainPairs_iff.1 (by simpa only [Value.isPlain] using hv) _ hmem).2.1
  | value hmem _ ih =>
    exact ih (arePlainPairs_iff.1 (by simpa only [Value.isPlain] using hv) _ hmem).2.2

theorem not_inside_of_isPlain {v : Value} (hv : v.isPlain = true) :
    (∀ w, ¬Inside (.wrap w) v) ∧ ∀ fields, ¬Inside (.entry fields) v := by
  refine ⟨fun w h => ?_, fun fields h => ?_⟩
  · have hw := h.isPlain hv
    simp [isPlain] at hw
  · have he := h.isPlain hv
    simp [isPlain] at he

/-! ## Traversals -/

theorem plainItems?_cons_eq_ok_iff {v : Value} {vs qs : List Value} :
    plainItems? (v :: vs) = .ok qs ↔
      ∃ q rest, v.plain? = .ok q ∧ plainItems? vs = .ok rest ∧ qs = q :: rest := by
  simp only [plainItems?, bind_eq_ok_iff, pure, Except.pure, Except.ok.injEq, exists_and_left,
    eq_comm (a := qs)]

theorem plainPairs?_cons_eq_ok_iff {k v : Value} {ps qs : Pairs} :
    plainPairs? ((k, v) :: ps) = .ok qs ↔
      ∃ key value rest, k.plain? = .ok key ∧ v.plain? = .ok value ∧ plainPairs? ps = .ok rest ∧
        key.isKeyable = true ∧ qs = (key, value) :: rest := by
  simp only [plainPairs?, bind_eq_ok_iff]
  constructor
  · intro h
    obtain ⟨key, hk, value, hv, rest, hrest, hqs⟩ := h
    split at hqs
    next hkey => exact ⟨key, value, rest, hk, hv, hrest, hkey, (Except.ok.inj hqs).symm⟩
    next => cases hqs
  · intro h
    obtain ⟨key, value, rest, hk, hv, hrest, hkey, hqs⟩ := h
    exact ⟨key, hk, value, hv, rest, hrest, by rw [if_pos hkey, hqs]; rfl⟩

/-! ## What a value becomes -/

mutual

theorem isPlain_of_plain? : ∀ {v p : Value}, v.plain? = .ok p → p.isPlain = true
  | .wrap w, p, h => by
    obtain rfl := Except.ok.inj h
    simp [isPlain, arePlainPairs, Wrap.pairs, isKeyable]
  | .list items, p, h => by
    rw [plain?, map_eq_ok_iff] at h
    obtain ⟨qs, hqs, rfl⟩ := h
    exact arePlain_of_plainItems? hqs
  | .tuple items, p, h => by
    rw [plain?, map_eq_ok_iff] at h
    obtain ⟨qs, hqs, rfl⟩ := h
    exact arePlain_of_plainItems? hqs
  | .map pairs, p, h => by
    rw [plain?, map_eq_ok_iff] at h
    obtain ⟨qs, hqs, rfl⟩ := h
    exact arePlainPairs_of_plainPairs? hqs
  | .entry fields, p, h => by
    rw [plain?, map_eq_ok_iff] at h
    obtain ⟨qs, hqs, rfl⟩ := h
    exact arePlainPairs_of_plainPairs? hqs
  | .null, p, h | .bool _, p, h | .int _, p, h | .float _, p, h | .str _, p, h
  | .config .., p, h | .function, p, h | .wrapType, p, h | .object, p, h => by
    obtain rfl := Except.ok.inj h
    rfl

theorem arePlain_of_plainItems? : ∀ {vs qs : List Value}, plainItems? vs = .ok qs →
    arePlain qs = true
  | [], qs, h => by
    obtain rfl := Except.ok.inj h
    rfl
  | v :: vs, qs, h => by
    obtain ⟨q, rest, hq, hrest, rfl⟩ := plainItems?_cons_eq_ok_iff.1 h
    rw [arePlain, isPlain_of_plain? hq, arePlain_of_plainItems? hrest]
    rfl

theorem arePlainPairs_of_plainPairs? : ∀ {ps qs : Pairs}, plainPairs? ps = .ok qs →
    arePlainPairs qs = true
  | [], qs, h => by
    obtain rfl := Except.ok.inj h
    rfl
  | (k, v) :: ps, qs, h => by
    obtain ⟨key, value, rest, hk, hv, hrest, hkey, rfl⟩ := plainPairs?_cons_eq_ok_iff.1 h
    rw [arePlainPairs, hkey, isPlain_of_plain? hk, isPlain_of_plain? hv,
      arePlainPairs_of_plainPairs? hrest]
    rfl

end

mutual

theorem plain?_of_isPlain : ∀ {v : Value}, v.isPlain = true → v.plain? = .ok v
  | .wrap w, h => by simp [isPlain] at h
  | .entry fields, h => by simp [isPlain] at h
  | .list items, h => by
    rw [plain?, plainItems?_of_arePlain (by simpa only [isPlain] using h)]
    rfl
  | .tuple items, h => by
    rw [plain?, plainItems?_of_arePlain (by simpa only [isPlain] using h)]
    rfl
  | .map pairs, h => by
    rw [plain?, plainPairs?_of_arePlainPairs (by simpa only [isPlain] using h)]
    rfl
  | .null, _ | .bool _, _ | .int _, _ | .float _, _ | .str _, _
  | .config .., _ | .function, _ | .wrapType, _ | .object, _ => rfl

theorem plainItems?_of_arePlain : ∀ {vs : List Value}, arePlain vs = true → plainItems? vs = .ok vs
  | [], _ => rfl
  | v :: vs, h => by
    rw [arePlain, Bool.and_eq_true] at h
    exact plainItems?_cons_eq_ok_iff.2
      ⟨v, vs, plain?_of_isPlain h.1, plainItems?_of_arePlain h.2, rfl⟩

theorem plainPairs?_of_arePlainPairs : ∀ {ps : Pairs}, arePlainPairs ps = true →
    plainPairs? ps = .ok ps
  | [], _ => rfl
  | (k, v) :: ps, h => by
    simp only [arePlainPairs, Bool.and_eq_true] at h
    obtain ⟨⟨⟨hkey, hk⟩, hv⟩, hps⟩ := h
    exact plainPairs?_cons_eq_ok_iff.2 ⟨k, v, ps, plain?_of_isPlain hk, plain?_of_isPlain hv,
      plainPairs?_of_arePlainPairs hps, hkey, rfl⟩

end

/-- **Plain data stays as it is.** -/
theorem plain?_plain? {v p : Value} (h : v.plain? = .ok p) : p.plain? = .ok p :=
  plain?_of_isPlain (isPlain_of_plain? h)

/-! ## Faults -/

mutual

/-- Nothing but a key can be at fault. -/
theorem eq_unkeyable_of_plain? : ∀ {v : Value} {f : Fault}, v.plain? = .error f → f = .unkeyable
  | .list items, f, h => by
    rw [plain?, map_eq_error_iff] at h
    exact eq_unkeyable_of_plainItems? h
  | .tuple items, f, h => by
    rw [plain?, map_eq_error_iff] at h
    exact eq_unkeyable_of_plainItems? h
  | .map pairs, f, h => by
    rw [plain?, map_eq_error_iff] at h
    exact eq_unkeyable_of_plainPairs? h
  | .entry fields, f, h => by
    rw [plain?, map_eq_error_iff] at h
    exact eq_unkeyable_of_plainPairs? h
  | .wrap _, f, h | .null, f, h | .bool _, f, h | .int _, f, h | .float _, f, h | .str _, f, h
  | .config .., f, h | .function, f, h | .wrapType, f, h | .object, f, h => by cases h

theorem eq_unkeyable_of_plainItems? : ∀ {vs : List Value} {f : Fault}, plainItems? vs = .error f →
    f = .unkeyable
  | [], f, h => by cases h
  | v :: vs, f, h => by
    simp only [plainItems?, bind_eq_error_iff] at h
    rcases h with h | ⟨q, -, h | ⟨rest, -, h⟩⟩
    · exact eq_unkeyable_of_plain? h
    · exact eq_unkeyable_of_plainItems? h
    · cases h

theorem eq_unkeyable_of_plainPairs? : ∀ {ps : Pairs} {f : Fault}, plainPairs? ps = .error f →
    f = .unkeyable
  | [], f, h => by cases h
  | (k, v) :: ps, f, h => by
    simp only [plainPairs?, bind_eq_error_iff] at h
    rcases h with h | ⟨key, -, h | ⟨value, -, h | ⟨rest, -, h⟩⟩⟩
    · exact eq_unkeyable_of_plain? h
    · exact eq_unkeyable_of_plain? h
    · exact eq_unkeyable_of_plainPairs? h
    · split at h
      · cases h
      · exact (Except.error.inj h).symm

end

/-- A value stands for no wrap only where it is an entry without a plain form. -/
theorem ofValue?_eq_error_iff {v : Value} {f : Fault} :
    Wrap.ofValue? v = .error f ↔ ∃ fields, v = .entry fields ∧ plainPairs? fields = .error f := by
  cases v with
  | entry fields => simp [Wrap.ofValue?, map_eq_error_iff]
  | _ => simp [Wrap.ofValue?]

end MarkupCatalog.Value
