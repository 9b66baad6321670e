/-
The record of an entry as the source of another entry. An entry that is built from a map holds what the
map has under the key of each field (`get_ofPairs`), and keys that name no field play no part
(`ofPairs_filter`). A record holds plain data only, which is the same when it is made plain again. So the
entry that is built from a record has that very record, whatever else is in the map
(`reimports_of_plain?`).
-/
import MarkupCatalog.Proofs.Entry.Export
import MarkupCatalog.Proofs.Value.Plain

namespace MarkupCatalog.Entry

/-! ## Building an entry from a map -/

/-- The key of a pair is that of a field. -/
def isNamed (p : Value × Value) : Bool := Field.all.any fun f => p.1.sameKey (.text f.key)

section Steps

variable {step : Entry → Field → Entry} {f : Field} {fs : List Field}

/-- Steps for other fields leave a field as it is. -/
theorem get_foldl_of_not_mem (hother : ∀ e g, f ≠ g → (step e g).get f = e.get f) (hf : f ∉ fs)
    (e : Entry) : (fs.foldl step e).get f = e.get f := by
  induction fs generalizing e with
  | nil => rfl
  | cons g fs ih =>
    rw [List.mem_cons, not_or] at hf
    rw [List.foldl_cons, ih hf.2, hother e g hf.1]

/-- Steps for distinct fields do to a field what the step for it does. -/
theorem get_foldl_of_mem {change : Value → Value}
    (hself : ∀ e, (step e f).get f = change (e.get f))
    (hother : ∀ e g, f ≠ g → (step e g).get f = e.get f) (hf : f ∈ fs) (hfs : fs.Nodup)
    (e : Entry) : (fs.foldl step e).get f = change (e.get f) := by
  induction fs generalizing e with
  | nil => cases hf
  | cons g fs ih =>
    rw [List.nodup_cons] at hfs
    rw [List.foldl_cons]
    by_cases hg : f = g
    · subst hg
      rw [get_foldl_of_not_mem hother hfs.1, hself]
    · rw [ih ((List.mem_cons.1 hf).resolve_left hg) hfs.2, hother e g hg]

end Steps

/-- A field that the map names holds what the map has there, and any other what it holds in a blank
entry. -/
theorem get_ofPairs (settings : Settings) (ps : Pairs) (f : Field) :
    (ofPairs settings ps).get f = (Pairs.get? f.key ps).getD ((blank settings).get f) := by
  refine get_foldl_of_mem (fun e => ?_) (fun e g hg => ?_) f.mem_all Field.nodup_all (blank settings)
  · cases Pairs.get? f.key ps with
    | none => rfl
    | some v => exact get_set_self e f v
  · cases Pairs.get? g.key ps with
    | none => rfl
    | some v => exact get_set_other hg e v

theorem get?_filter_isNamed (f : Field) (qs : Pairs) :
    Pairs.get? f.key (qs.filter isNamed) = Pairs.get? f.key qs := by
  unfold Pairs.get?
  rw [List.find?_filter]
  congr 2
  funext p
  cases h : p.1.sameKey (.text f.key) with
  | false => simp
  | true =>
    have hnamed : isNamed p = true := List.any_eq_true.2 ⟨f, f.mem_all, h⟩
    simp [hnamed]

/-- Keys that name no field play no part. -/
theorem ofPairs_filter (settings : Settings) (qs : Pairs) :
    ofPairs settings (qs.filter isNamed) = ofPairs settings qs := by
  refine ext_get fun f => ?_
  rw [get_ofPairs, get_ofPairs, get?_filter_isNamed]

theorem ofValue?_map (settings : Settings) (ps : Pairs) :
    ofValue? settings (.map ps) = .ok (ofPairs settings ps) := by
  unfold ofValue?
  cases ps with
  | cons p ps => rfl
  | nil =>
    -- nothing is given, and nothing is what a blank entry is built from
    have hblank : ofPairs settings [] = blank settings := by
      refine ext_get fun f => ?_
      rw [get_ofPairs]
      rfl
    rw [hblank]
    rfl

/-! ## Records -/

/-- A record has a value for each field, in order. -/
theorem keys_of_plain? {e : Entry} {ps : Pairs} (h : e.plain? = .ok ps) :
    ps.map (·.1) = Field.all.map fun f => .text f.key := by
  rw [plain?_eq_ok_iff] at h
  have hkeys : List.Forall₂ Eq (Field.all.map fun f => .text f.key) (ps.map (·.1)) := by
    rw [List.forall₂_map_left_iff, List.forall₂_map_right_iff]
    exact h.imp fun _ _ hq => hq.1.symm
  rw [List.forall₂_eq_eq_eq] at hkeys
  exact hkeys.symm

theorem filter_isNamed_of_plain? {e : Entry} {ps : Pairs} (h : e.plain? = .ok ps) :
    ps.filter isNamed = ps := by
  rw [List.filter_eq_self]
  intro p hp
  have hmem : p.1 ∈ Field.all.map fun f => Value.text f.key :=
    keys_of_plain? h ▸ List.mem_map_of_mem hp
  obtain ⟨f, hf, hkey⟩ := List.mem_map.1 hmem
  exact List.any_eq_true.2 ⟨f, hf, by simp [← hkey, Value.sameKey_texts]⟩

/-- An entry that is built from a record has that record. -/
theorem plain?_ofPairs {e : Entry} {ps : Pairs} (h : e.plain? = .ok ps) (settings : Settings) :
    (ofPairs settings ps).plain? = .ok ps := by
  have hfields := plain?_eq_ok_iff.1 h
  refine plain?_eq_ok_iff.2 (hfields.imp fun f q hq => ⟨hq.1, ?_⟩)
  obtain ⟨p, hget, hp⟩ := exists_get?_of_plain? h f
  rw [get_ofPairs, hget, Option.getD_some, ← Except.ok.inj (hp.symm.trans hq.2)]
  exact Value.plain?_plain? hp

/-- What holds of the record of an entry, and of the entries that are built from it. -/
structure Reimports (settings : Settings) (e : Entry) (ps : Pairs) : Prop where
  keys : ps.map (·.1) = Field.all.map fun f => .text f.key
  named : ps.filter isNamed = ps
  /-- no wrap is left at any depth, nor any other entry -/
  no_wrap : ∀ w, ¬Value.Inside (.wrap w) (.map ps)
  no_entry : ∀ fields, ¬Value.Inside (.entry fields) (.map ps)
  /-- what is plain already is not touched -/
  kept : ∀ f, (e.get f).isPlain = true → Pairs.get? f.key ps = some (e.get f)
  /-- an entry is built from the record, also with other keys anywhere in it, and has that record -/
  again : ∃ e', ofValue? settings (.map ps) = .ok e' ∧ e'.plain? = .ok ps ∧
    ∀ qs, qs.filter isNamed = ps → ofValue? settings (.map qs) = .ok e'

/-- **Records are stable:** an entry that is built from the record of another one has the same
record. -/
theorem reimports_of_plain? {e : Entry} {ps : Pairs} (h : e.plain? = .ok ps)
    (settings : Settings) : Reimports settings e ps := by
  have hplain : (Value.map ps).isPlain = true := Value.arePlainPairs_of_plainPairs? h
  obtain ⟨hwrap, hentry⟩ := Value.not_inside_of_isPlain hplain
  refine ⟨keys_of_plain? h, filter_isNamed_of_plain? h, hwrap, hentry, fun f hf => ?_,
    ofPairs settings ps, ofValue?_map settings ps, plain?_ofPairs h settings, fun qs hqs => ?_⟩
  · obtain ⟨p, hget, hp⟩ := exists_get?_of_plain? h f
    rw [Value.plain?_of_isPlain hf] at hp
    rw [hget, Except.ok.inj hp]
  · rw [ofValue?_map, ← hqs, ofPairs_filter]

/-- An entry with wraps inside of lists, tuples and maps, and with an entry inside. -/
def nested : Entry :=
  ((blank .standard).set .usage (.list [.tuple [.wrap ⟨.text [.char 'a'], .field .id⟩, .int 1],
    .map [(.tuple [.int 1, .null], .list [.wrap .empty])]])).set .group
      ((blank .standard).set .view (.wrap .empty)).toValue

theorem reimports_of_plain?_nested :
    ∃ ps, nested.plain? = .ok ps ∧ Reimports .standard nested ps := by
  refine ⟨_, rfl, ?_⟩
  exact reimports_of_plain? rfl .standard

end MarkupCatalog.Entry
