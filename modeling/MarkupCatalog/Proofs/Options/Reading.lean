/-
Options handed on as a value. The options of a header (`declarable_options`) are read back as the
view that they have (`View.read?_toValue`) and written as the attributes that they have
(`Attributes.ofValue?_toValue`): neither can fail.
-/
import MarkupCatalog.Config
import MarkupCatalog.Header
import MarkupCatalog.Options.Attributes
import MarkupCatalog.Options.View
import MarkupCatalog.Proofs.Options.Assignments

namespace MarkupCatalog

/-! ## Options under a key -/

theorem Value.sameKey_texts (a k : Text) : sameKey (.text a) (.text k) = decide (a = k) := rfl

namespace Options

/-- What is true of every assignment is true of what is found after all of them. -/
theorem of_get?_putAll {P : Text → Setting → Prop} {assignments : List (Text × Setting)}
    {os : Options} (ha : ∀ a ∈ assignments, P a.1 a.2) (hos : ∀ k s, get? k os = some s → P k s)
    {k : Text} {s : Setting} (h : get? k (putAll assignments os) = some s) : P k s := by
  induction assignments generalizing os with
  | nil => exact hos k s h
  | cons a assignments ih =>
    refine ih (fun a' ha' => ha a' (List.mem_cons_of_mem _ ha')) (fun k' s' h' => ?_) h
    by_cases hk : k' = a.1
    · subst hk
      rw [get?_put_self, Option.some.injEq] at h'
      exact h' ▸ ha a List.mem_cons_self
    · rw [get?_put_other hk] at h'
      exact hos k' s' h'

theorem get?_pairs (k : Text) (os : Options) :
    Pairs.get? k (os.map fun o => (.text o.1, o.2.toValue)) = (os.get? k).map Setting.toValue := by
  induction os with
  | nil => rfl
  | cons o os ih =>
    unfold get?
    by_cases h : o.1 = k
    · simp [Pairs.get?, Value.sameKey_texts, h]
    · rw [if_neg h, ← ih]
      simp [Pairs.get?, Value.sameKey_texts, h]

/-- Options as a header gives them: keys without surrogates, a text under each key whose value stays
whole, and a wrap under its key. -/
structure Declarable (os : Options) : Prop where
  allChars : ∀ o ∈ os, Text.allChars o.1 = true
  verbatim : ∀ k ∈ Key.verbatim, ∀ s, os.get? k = some s → ∃ t, s = .text t
  wrap : ∃ w, os.get? Key.wrap = some (.wrap w)

theorem Declarable.textAt_eq {os : Options} (h : os.Declarable) {k : Text} (hk : k ∈ Key.verbatim) :
    os.get? k = (View.textAt k os).map .text := by
  unfold View.textAt
  cases hget : os.get? k with
  | none => rfl
  | some s =>
    obtain ⟨t, rfl⟩ := h.verbatim k hk s hget
    rfl

theorem Declarable.isExtraction_iff {os : Options} (h : os.Declarable) :
    (View.ofOptions os).isExtraction = true ↔ os.get? Key.extract ≠ none := by
  rw [h.textAt_eq (by decide), View.isExtraction, View.ofOptions]
  cases View.textAt Key.extract os <;> simp

end Options

theorem Wrap.ofValue?_toValue (s : Setting) : Wrap.ofValue? s.toValue = .ok s.toWrap := by
  cases s with
  | text t => cases t <;> rfl
  | parts ps =>
    match ps with
    | [] => rfl
    | [p] => rfl
    | p :: q :: ps => rfl
  | wrap w => rfl

/-! ## Reading the view -/

namespace Options.View

theorem keyProblems_pairs (problem : Problem.Step → Problem) (os : Options) :
    Record.keyProblems problem (os.map fun o => (.text o.1, o.2.toValue)) = [] := by
  simp [Record.keyProblems]

theorem hasUnicodeFault_pairs {os : Options} (h : os.Declarable) :
    Record.hasUnicodeFault (os.map fun o => (.text o.1, o.2.toValue)) = false := by
  rw [Record.hasUnicodeFault, List.any_eq_false]
  intro p hp
  obtain ⟨o, ho, rfl⟩ := List.mem_map.1 hp
  simp [Label.content, h.allChars o ho]

theorem textPairs_filter_pairs (os : Options) :
    Record.textPairs ((os.map fun o => (.text o.1, o.2.toValue)).filter isExtra) =
      (os.filter fun o => o.1 ∉ ownKeys).map fun o => (.text o.1, o.2.toValue) := by
  have hextra (o : Text × Setting) :
      isExtra (.text o.1, o.2.toValue) = decide (o.1 ∉ ownKeys) := by
    rw [Bool.eq_iff_iff]
    simp [isExtra, ownKeys, Value.sameKey_texts]
  induction os with
  | nil => rfl
  | cons o os ih =>
    rw [List.map_cons, List.filter_cons, List.filter_cons, hextra]
    split
    · rw [List.map_cons, ← ih]
      rfl
    · exact ih

theorem text?_pairs {os : Options} (h : os.Declarable) {k : Text} (hk : k ∈ Key.verbatim) :
    text? (os.map fun o => (.text o.1, o.2.toValue)) k = .ok (textAt k os) := by
  rw [text?, get?_pairs, h.textAt_eq hk]
  cases textAt k os <;> rfl

/-- The view of the options of a header is what is read from them as a value. -/
theorem read?_toValue {os : Options} (h : os.Declarable) :
    read? os.toValue = .ok (ofOptions os) := by
  obtain ⟨w, hw⟩ := h.wrap
  have hwrap : Wrap.ofValue? ((Pairs.get? Key.wrap (os.map fun o => (.text o.1, o.2.toValue))).getD
      (.wrap .empty)) = .ok w := by
    rw [get?_pairs, hw]
    rfl
  rw [toValue, read?, hwrap, hasUnicodeFault_pairs h]
  simp only [List.map_cons, List.map_nil, bind, Except.bind, keyProblems_pairs,
    text?_pairs h (k := Key.extract) (by decide), text?_pairs h (k := Key.name) (by decide),
    text?_pairs h (k := Key.category) (by decide), text?_pairs h (k := Key.group) (by decide)]
  rw [textPairs_filter_pairs, ofOptions, hw]
  rfl

end Options.View

/-! ## Writing the attributes -/

namespace Attributes

theorem ofPair?_toValue (k : Text) (s : Setting) :
    ofPair? (.text k, s.toValue) = .ok (ofOption (k, s)) := by
  by_cases hk : k = Key.wrap
  · subst hk
    simp [ofPair?, ofOption, Value.sameKey_texts, Wrap.ofValue?_toValue, Except.map]
  · simp only [ofPair?, ofOption, Value.sameKey_texts, hk, decide_false,
      Bool.false_eq_true, if_false]
    cases s with
    | text t => rfl
    | parts ps =>
      show (Except.map Json.compact (Value.texts ps).json?).map _ = _
      rw [Value.json?_texts]
      rfl
    | wrap w => rfl

theorem ofPairs?_toValue (os : Options) :
    ofPairs? (os.map fun o => (.text o.1, o.2.toValue)) = .ok (os.flatMap ofOption) := by
  induction os with
  | nil => rfl
  | cons o os ih =>
    rw [List.map_cons, ofPairs?, ofPair?_toValue, ih]
    rfl

theorem ofValue?_toValue (os : Options) : ofValue? os.toValue = .ok (ofOptions os) := by
  rw [Options.toValue, ofValue?, ofPairs?_toValue]
  rfl

end Attributes

/-! ## The options of a header -/

namespace Header

theorem setting_of_verbatim {k : Text} (hk : k ∈ Key.verbatim) (ms : List Mark) :
    setting k ms = .text (Mark.chars (Mark.trim ms)) := if_pos hk

theorem allChars_of_key? {ms rest : List Mark} {k : Text} (h : key? ms = some (k, rest)) :
    Text.allChars k = true := by
  obtain ⟨word, -, -, -, hword, -, rfl⟩ := key?_eq_some h
  refine List.all_eq_true.2 fun c hc => ?_
  obtain ⟨m, hm, rfl⟩ := List.mem_map.1 hc
  have hisWord := hword m hm
  rw [Mark.isWord, Mark.bare, Bool.and_eq_true] at hisWord
  exact Text.isChar_of_isWord hisWord.2

/-- Keys are made of word characters, which no surrogate is. -/
theorem allChars_of_mem_scan {free : Bool} {ms : List Mark} {p : Text × List Mark}
    (h : p ∈ (scan free ms).assignments) : Text.allChars p.1 = true := by
  fun_induction scan free ms with
  | case1 => cases h
  | case2 free m rest k after hkey a ih =>
    split at hkey
    · rcases List.mem_cons.1 h with rfl | hmem
      · exact allChars_of_key? hkey
      · exact ih hmem
    · cases hkey
  | case3 free m rest hnone a ih => exact ih h

theorem declarable_options (s : Text) (fallback : Wrap) :
    ((read s).options fallback).Declarable := by
  refine ⟨fun o ho => ?_, fun k hk s hs => ?_, _, Options.get?_put_self ..⟩
  · rcases Options.eq_or_mem_of_mem_put ho with rfl | hdeclared
    · show Text.allChars Key.wrap = true
      decide
    · obtain ha | hnil := Options.mem_or_mem_of_mem_putAll hdeclared
      · obtain ⟨p, hp, rfl⟩ := List.mem_map.1 ha
        exact allChars_of_mem_scan hp
      · cases hnil
  have hne : k ≠ Key.wrap := by
    rintro rfl
    revert hk
    decide
  rw [options, Options.get?_put_other hne] at hs
  refine Options.of_get?_putAll (P := fun k s => k ∈ Key.verbatim → ∃ t, s = .text t) ?_ ?_ hs hk
  · intro a ha hverb
    obtain ⟨p, -, rfl⟩ := List.mem_map.1 ha
    exact ⟨_, setting_of_verbatim hverb p.2⟩
  · simp [Options.get?]

/-- The wrap that a header declares holds if it is given. -/
theorem result_parse_of_given {s : Text} {v : Setting} (defaults : Value)
    (h : (read s).declared.get? Key.wrap = some v) (hv : v.isGiven = true) :
    (parse s defaults).result = .ok ((read s).declared.put Key.wrap (.wrap v.toWrap)) := by
  have hwrap : (read s).wrap? = some v.toWrap := by
    rw [wrap?, h, Option.filter_some, if_pos hv]
    rfl
  simp [parse, options, hwrap, Except.map]

/-- Otherwise the wrap is that of the defaults, which may fail. -/
theorem result_parse_of_not_given {s : Text} (defaults : Value)
    (h : ∀ v, (read s).declared.get? Key.wrap = some v → v.isGiven = false) :
    (parse s defaults).result =
      (defaultWrap? defaults).map fun w => (read s).declared.put Key.wrap (.wrap w) := by
  have hwrap : (read s).wrap? = none := by
    rw [wrap?, Option.map_eq_none_iff, Option.filter_eq_none_iff]
    intro v hget
    simp [h v hget]
  simp only [parse, hwrap, Option.isSome_none, Bool.false_eq_true, if_false]
  congr 1
  funext w
  rw [options, hwrap, Option.getD_none]

theorem result_parse_config (s : Text) (c : Config) :
    (parse s c.toValue).result = .ok ((read s).options c.wrap) := by
  simp only [parse, Config.toValue, defaultWrap?]
  cases hwrap : (read s).wrap? with
  | none => rfl
  | some w => simp [options, hwrap, Except.map]

theorem exists_options_of_parse {s : Text} {defaults : Value} {os : Options}
    (h : (parse s defaults).result = .ok os) : ∃ w, os = (read s).options w := by
  rw [parse] at h
  generalize (if (read s).wrap?.isSome then Except.ok .empty else defaultWrap? defaults) = r at h
  cases r with
  | error f => cases h
  | ok w => exact ⟨w, (Except.ok.inj h).symm⟩

end Header
end MarkupCatalog
