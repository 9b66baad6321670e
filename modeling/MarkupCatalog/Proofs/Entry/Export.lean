/-
The exported record of an entry. An entry has one if each of its fields has a plain form
(`exists_plain?_iff`), and most fields that a block fills have one. The options in the record are
those of the entry with their wrap as a record, and the record of a wrap without a second side is read
as the wrap with its first side in place of it (`Wrap.ofValue?_pairs`). So the attributes of the
record are those that the entry holds, or they repeat that side (`exists_exported_parse`).
-/
import MarkupCatalog.Proofs.Entry.Parse
import MarkupCatalog.Proofs.Entry.Writing
import MarkupCatalog.Proofs.Options.Attributes

namespace MarkupCatalog

/-! ## Plain forms -/

/-- Pairs under texts have a plain form if their values have, one by one. -/
theorem Value.plainPairs?_eq_ok_iff {α : Type} {key : α → Text} {value : α → Value} {as : List α}
    {qs : Pairs} :
    plainPairs? (as.map fun a => (.text (key a), value a)) = .ok qs ↔
      List.Forall₂ (fun a q => q.1 = .text (key a) ∧ (value a).plain? = .ok q.2) as qs := by
  induction as generalizing qs with
  | nil => cases qs <;> simp [plainPairs?]
  | cons a as ih =>
    rw [List.map_cons, plainPairs?]
    cases hvalue : (value a).plain? with
    | error f => cases qs <;> simp [plain?, bind, Except.bind, hvalue]
    | ok p =>
      cases hrest : plainPairs? (as.map fun a => (.text (key a), value a)) with
      | error f => cases qs <;> simp [plain?, bind, Except.bind, ← ih, hrest, hvalue]
      | ok rest =>
        cases qs with
        | nil => simp [plain?, bind, Except.bind, pure, Except.pure, isKeyable]
        | cons q qs =>
          obtain ⟨k, v⟩ := q
          have hkey : text (key a) = k ↔ k = text (key a) := eq_comm
          simp [plain?, bind, Except.bind, pure, Except.pure, isKeyable, ← ih, hrest, hvalue, hkey,
            and_assoc]

namespace Entry

theorem plain?_eq_ok_iff {e : Entry} {ps : Pairs} :
    e.plain? = .ok ps ↔
      List.Forall₂ (fun f q => q.1 = .text f.key ∧ (e.get f).plain? = .ok q.2) Field.all ps :=
  Value.plainPairs?_eq_ok_iff

/-- Each field stands in the record under its key. -/
theorem exists_get?_of_plain? {e : Entry} {ps : Pairs} (h : e.plain? = .ok ps) (f : Field) :
    ∃ p, Pairs.get? f.key ps = some p ∧ (e.get f).plain? = .ok p := by
  have hf := f.mem_all
  rw [plain?_eq_ok_iff] at h
  generalize Field.all = fs at h hf
  induction h with
  | nil => cases hf
  | @cons g q fs qs hq _ ih =>
    obtain ⟨hkey, hvalue⟩ := hq
    by_cases hg : g = f
    · subst hg
      refine ⟨q.2, ?_, hvalue⟩
      simp [Pairs.get?, hkey, Value.sameKey_texts]
    · obtain ⟨p, hget, hp⟩ := ih ((List.mem_cons.1 hf).resolve_left (Ne.symm hg))
      refine ⟨p, ?_, hp⟩
      have hne : g.key ≠ f.key := fun he => hg (Field.key_injective he)
      rw [← hget]
      simp [Pairs.get?, hkey, Value.sameKey_texts, hne]

theorem exists_plain?_iff {e : Entry} :
    (∃ ps, e.plain? = .ok ps) ↔ ∀ f, ∃ p, (e.get f).plain? = .ok p := by
  constructor
  · intro h f
    obtain ⟨ps, hps⟩ := h
    obtain ⟨p, -, hp⟩ := exists_get?_of_plain? hps f
    exact ⟨p, hp⟩
  · intro h
    have hfields (fs : List Field) : ∃ ps : Pairs,
        List.Forall₂ (fun f q => q.1 = .text f.key ∧ (e.get f).plain? = .ok q.2) fs ps := by
      induction fs with
      | nil => exact ⟨[], .nil⟩
      | cons f fs ih =>
        obtain ⟨p, hp⟩ := h f
        obtain ⟨ps, hps⟩ := ih
        exact ⟨(.text f.key, p) :: ps, .cons ⟨rfl, hp⟩ hps⟩
    obtain ⟨ps, hps⟩ := hfields Field.all
    exact ⟨ps, plain?_eq_ok_iff.2 hps⟩

end Entry

/-! ## Plain options -/

/-- The plain form of an option. -/
def Setting.plain : Setting → Value
  | .wrap w => .map w.pairs
  | s => s.toValue

theorem Setting.plain_eq_toValue {s : Setting} (h : ∀ w, s ≠ .wrap w) : s.plain = s.toValue := by
  cases s with
  | wrap w => exact absurd rfl (h w)
  | _ => rfl

theorem Setting.plain?_toValue (s : Setting) : s.toValue.plain? = .ok s.plain := by
  cases s with
  | parts ps => exact Value.plain?_texts ps
  | _ => rfl

/-- The plain form of options. -/
def Options.plain (os : Options) : Value := .map (os.map fun o => (.text o.1, o.2.plain))

theorem Options.plain?_toValue (os : Options) : os.toValue.plain? = .ok os.plain := by
  have hpairs : Value.plainPairs? (os.map fun o => (.text o.1, o.2.toValue)) =
      .ok (os.map fun o => (.text o.1, o.2.plain)) := by
    rw [Value.plainPairs?_eq_ok_iff, List.forall₂_map_right_iff, List.forall₂_same]
    exact fun o _ => ⟨rfl, o.2.plain?_toValue⟩
  rw [toValue, Value.plain?, hpairs]
  rfl

/-- The wrap with its first side on both sides if it has nothing on the second. -/
def Wrap.repeated (w : Wrap) : Wrap := if w.after.content = [] then .both w.before else w

/-- The record of a wrap is read as that wrap, unless it has nothing on its second side. -/
theorem Wrap.ofValue?_pairs (w : Wrap) : ofValue? (.map w.pairs) = .ok w.repeated := by
  obtain ⟨before, after⟩ := w
  by_cases h : after.content = []
  · simp [ofValue?, ofRecord, pairs, repeated, Label.ofValue, both, h]
  · simp [ofValue?, ofRecord, pairs, repeated, Label.ofValue, h]

namespace Attributes

theorem ofPair?_wrap (w : Wrap) :
    ofPair? (.text Key.wrap, .map w.pairs) = .ok (ofOption (Key.wrap, .wrap w.repeated)) := by
  simp [ofPair?, ofOption, Setting.toWrap, Value.sameKey_texts, Wrap.ofValue?_pairs, Except.map]

/-- The attributes of plain options, where no option is a wrap but the one under its key. -/
theorem ofPairs?_plain {os : Options} {w : Wrap} (hw : os.get? Key.wrap = some (.wrap w))
    (hnodup : (os.map (·.1)).Nodup) (honly : ∀ o ∈ os, o.1 ≠ Key.wrap → ∀ v, o.2 ≠ .wrap v) :
    ofPairs? (os.map fun o => (.text o.1, o.2.plain)) =
      .ok ((os.put Key.wrap (.wrap w.repeated)).flatMap ofOption) := by
  induction os with
  | nil => cases hw
  | cons o os ih =>
    obtain ⟨k, s⟩ := o
    obtain ⟨hk, hnodup'⟩ := List.nodup_cons.1 hnodup
    obtain ⟨hs, honly'⟩ := List.forall_mem_cons.1 honly
    by_cases h : k = Key.wrap
    · subst h
      rw [Options.get?, if_pos rfl, Option.some.injEq] at hw
      subst hw
      have hrest : (os.map fun o => (Value.text o.1, o.2.plain)) =
          os.map fun o => (.text o.1, o.2.toValue) := by
        refine List.map_congr_left fun o ho => ?_
        have hne : o.1 ≠ Key.wrap := fun he => hk (List.mem_map.2 ⟨o, ho, he⟩)
        rw [Setting.plain_eq_toValue (honly' o ho hne)]
      rw [List.map_cons, ofPairs?, hrest, ofPairs?_toValue, Setting.plain, ofPair?_wrap,
        Options.put, if_pos rfl]
      rfl
    · rw [Options.get?, if_neg h] at hw
      rw [List.map_cons, ofPairs?, ih hw hnodup' honly', Setting.plain_eq_toValue (hs h),
        ofPair?_toValue, Options.put, if_neg h]
      rfl

theorem ofValue?_plain {os : Options} {w : Wrap} (h : os.Keyed)
    (hw : os.get? Key.wrap = some (.wrap w)) :
    ofValue? os.plain = .ok (ofOptions (os.put Key.wrap (.wrap w.repeated))) := by
  rw [Options.plain, ofValue?, ofPairs?_plain hw h.nodup h.no_other]
  rfl

/-! ## Attributes that are the same -/

/-- What is written of options is known by what is read back of it. -/
theorem ofOptions_eq_iff {os os' : Options} (hos : os.Keyed) (hos' : os'.Keyed) :
    ofOptions os = ofOptions os' ↔ shown os = shown os' := by
  constructor
  · intro h
    have hread := readAll?_ofOptions hos
    rw [h, readAll?_ofOptions hos'] at hread
    exact (Option.some.inj hread).symm
  · intro h
    have hlines (os : Options) : (os.flatMap ofOption).map written =
        (shown os).map fun a => "data-".toText ++ a.1 ++ "=\"".toText ++ a.2 ++ [.char '"'] := by
      rw [shown, List.map_map]
      rfl
    rw [ofOptions, ofOptions, render, render, hlines, hlines, h]

theorem shown_put_wrap_eq_iff {os : Options} {w w' : Wrap}
    (hw : os.get? Key.wrap = some (.wrap w)) :
    shown (os.put Key.wrap (.wrap w')) = shown os ↔
      value w'.before.content = value w.before.content ∧
        value w'.after.content = value w.after.content := by
  induction os with
  | nil => cases hw
  | cons o os ih =>
    obtain ⟨k, s⟩ := o
    have hcons (o : Text × Setting) (os : Options) :
        shown (o :: os) = (ofOption o).map (fun a => (a.1, value a.2)) ++ shown os := by
      simp [shown]
    by_cases h : k = Key.wrap
    · subst h
      rw [Options.get?, if_pos rfl, Option.some.injEq] at hw
      subst hw
      rw [Options.put, if_pos rfl, hcons, hcons, List.append_left_inj]
      simp [ofOption, ofWrap, Setting.toWrap]
    · rw [Options.get?, if_neg h] at hw
      rw [Options.put, if_neg h, hcons, hcons, List.append_right_inj, ih hw]

/-- Attributes tell whether the first side of a wrap is repeated, unless nothing of it is shown. -/
theorem ofOptions_put_repeated_eq_iff {os : Options} {w : Wrap} (hos : os.Keyed)
    (hw : os.get? Key.wrap = some (.wrap w)) :
    ofOptions (os.put Key.wrap (.wrap w.repeated)) = ofOptions os ↔
      w.after.content ≠ [] ∨ value w.before.content = [] := by
  rw [ofOptions_eq_iff (hos.put_wrap w.repeated) hos, shown_put_wrap_eq_iff hw]
  by_cases h : w.after.content = []
  · have hnone : value [] = [] := rfl
    simp [Wrap.repeated, Wrap.both, h, hnone]
  · simp [Wrap.repeated, h]

end Attributes

/-! ## Exported entries -/

namespace Entry

/-- The fields in which an entry that a block has filled may hold what a caller gave. -/
def given : List Field := [.category, .group, .resources, .usage]

theorem Derived.exists_plain? {r : Reading} {before after : Entry} (h : Derived r before after)
    {f : Field} (hf : f ∉ given) : ∃ p, (after.get f).plain? = .ok p := by
  have htext {f : Field} {s : Text} (hs : after.get f = .text s) :
      ∃ p, (after.get f).plain? = .ok p := by
    rw [hs]
    exact ⟨_, rfl⟩
  obtain ⟨s, hname, -⟩ := h.name
  obtain ⟨i, -, hid⟩ := h.id
  obtain ⟨w, -, hview, viewId, -, hviewId⟩ := h.view
  obtain ⟨attributes, -, hattributes, htemplate⟩ := h.template
  cases f with
  | category | group | resources | usage => exact absurd (by decide) hf
  | name => exact htext hname
  | id => exact htext hid
  | viewId => exact htext hviewId
  | lines =>
    rw [get, h.lines]
    exact ⟨_, Value.plain?_texts _⟩
  | fragment => exact htext h.fragment
  | view => exact htext hview
  | template => exact htext htemplate
  | options =>
    rw [get, h.options]
    exact ⟨_, Options.plain?_toValue _⟩
  | optionsText => exact htext hattributes
  | origin => exact htext h.origin

/-- An entry with its options, the wrap among them, and the attributes that its record gives. -/
structure Exported (e : Entry) (os : Options) (w : Wrap) : Prop where
  options : e.options = os.toValue
  wrap : os.get? Key.wrap = some (.wrap w)
  exists_iff : (∃ ps, e.plain? = .ok ps) ↔ ∀ f ∈ given, ∃ p, (e.get f).plain? = .ok p
  /-- the record gives the attributes that the entry holds, unless the wrap has nothing on its second
  side and something on its first that is shown; what it gives has the first side on both sides then -/
  attributes : ∀ ps, e.plain? = .ok ps → ∃ v text,
    Pairs.get? Field.options.key ps = some v ∧ Attributes.ofValue? v = .ok text ∧
      text = Attributes.ofOptions (os.put Key.wrap (.wrap w.repeated)) ∧
        (e.optionsText = .text text ↔
          w.after.content ≠ [] ∨ Attributes.value w.before.content = [])

theorem exported_of_derived {settings : Settings} {src : Text} {v : Value} {r : Reading}
    {before after : Entry} {w : Wrap} (hr : Reads settings src v r)
    (hw : r.options.get? Key.wrap = some (.wrap w)) (h : Derived r before after) :
    Exported after r.options w := by
  have hkeyed : r.options.Keyed := by
    rw [hr.options_eq]
    exact Header.keyed_options ..
  constructor
  case options => exact h.options
  case wrap => exact hw
  case exists_iff =>
    rw [exists_plain?_iff]
    constructor
    · exact fun hall f _ => hall f
    · intro hgiven f
      by_cases hf : f ∈ given
      · exact hgiven f hf
      · exact h.exists_plain? hf
  case attributes =>
    intro ps hps
    obtain ⟨v, hget, hv⟩ := exists_get?_of_plain? hps .options
    have hplain : v = r.options.plain := by
      rw [get, h.options, Options.plain?_toValue] at hv
      exact (Except.ok.inj hv).symm
    have hstored : after.optionsText = .text (Attributes.ofOptions r.options) := by
      obtain ⟨attributes, hattributes, hstored, -⟩ := h.template
      rw [Attributes.ofValue?_toValue] at hattributes
      rw [hstored, Except.ok.inj hattributes]
    refine ⟨v, _, hget, ?_, rfl, ?_⟩
    · rw [hplain, Attributes.ofValue?_plain hkeyed hw]
    · rw [hstored, ← Attributes.ofOptions_put_repeated_eq_iff hkeyed hw, Value.str.injEq,
        Label.text.injEq]
      exact eq_comm

/-- **The record of an entry gives its attributes again,** unless its wrap has no second side. -/
theorem exists_exported_parse {settings : Settings} {e : Entry} {src : Text} {v : Value}
    (h : (step settings e (.parse src v)).result = .ok (some true)) :
    ∃ os w, Exported (step settings e (.parse src v)).entry os w := by
  obtain ⟨r, hr, -, hderived⟩ := exists_derived_of_parse h
  obtain ⟨w, hw, -⟩ := hderived.view
  exact ⟨r.options, w, exported_of_derived hr hw hderived⟩

/-- A block with a wrap of two sides, one of which is nothing but quotes. -/
def twoSided : Text := "<!-- extract:a wrap:\"':</b> -->x".toText

theorem exists_exported_parse_twoSided :
    (step .standard (.blank .standard) (.parse twoSided .null)).result = .ok (some true) ∧
      ∃ os w, Exported (step .standard (.blank .standard) (.parse twoSided .null)).entry os w := by
  have h : (step .standard (.blank .standard) (.parse twoSided .null)).result = .ok (some true) := by
    decide +kernel
  exact ⟨h, exists_exported_parse h⟩

/-- A block whose wrap has nothing on its second side. -/
def oneSided : Text := "<!-- extract:a wrap:<div>: -->x".toText

theorem optionsText_ne_oneSided :
    (step .standard (.blank .standard) (.parse oneSided .null)).result = .ok (some true) ∧
      ∃ ps v text,
        (step .standard (.blank .standard) (.parse oneSided .null)).entry.plain? = .ok ps ∧
          Pairs.get? Field.options.key ps = some v ∧ Attributes.ofValue? v = .ok text ∧
            (step .standard (.blank .standard) (.parse oneSided .null)).entry.optionsText ≠
              .text text := by
  have hresult : (step .standard (.blank .standard) (.parse oneSided .null)).result =
      .ok (some true) := by
    decide +kernel
  have hrecord :
      ((step .standard (.blank .standard) (.parse oneSided .null)).entry.plain?.toOption.bind
        (Pairs.get? Field.options.key)).bind (fun v => (Attributes.ofValue? v).toOption) =
      some "data-extract=\"a\" data-wrap-before=\"<div>\" data-wrap-after=\"<div>\"".toText := by
    decide +kernel
  have hstored :
      (Attributes.valueText?
        (step .standard (.blank .standard) (.parse oneSided .null)).entry.optionsText).toOption =
      some "data-extract=\"a\" data-wrap-before=\"<div>\" data-wrap-after=\"\"".toText := by
    decide +kernel
  have hok {α : Type} {a : α} {r : Except Fault α} (h : r.toOption = some a) : r = .ok a := by
    cases r with
    | error f => cases h
    | ok b => exact congrArg Except.ok (Option.some.inj h)
  generalize step .standard (.blank .standard) (.parse oneSided .null) = answer at *
  obtain ⟨v, hv, htext⟩ := Option.bind_eq_some_iff.1 hrecord
  obtain ⟨ps, hps, hget⟩ := Option.bind_eq_some_iff.1 hv
  refine ⟨hresult, ps, v, _, hok hps, hget, hok htext, fun h => ?_⟩
  rw [h] at hstored
  revert hstored
  decide +kernel

end Entry
end MarkupCatalog
