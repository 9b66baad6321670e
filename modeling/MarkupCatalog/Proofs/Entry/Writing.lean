/-
Entries as JSON documents. A value can be written if it has a document, and the texts in that hold
characters only; it has one if all keys of its maps are texts and its items have documents. The fields
that a block fills are all of that sort, so an entry that a block of characters has made of a writable
one can be written (`Entry.writable_filled`), and the entries of a document make a list that can be
written (`CommandLine.exists_document?`).
-/
import Mathlib.Data.List.Forall2
import MarkupCatalog.CommandLine.Run
import MarkupCatalog.Proofs.Extraction.Chars

namespace MarkupCatalog

/-! ## Values -/

/-- The value has a plain form, and that has the JSON form `j`. -/
def Value.WritesAs (v : Value) (j : Json) : Prop := ∃ p, v.plain? = .ok p ∧ p.json? = .ok j

/-- The pairs of a map have plain forms, and these the JSON forms `ms`. -/
def Pairs.WriteAs (ps : Pairs) (ms : List (Text × Json)) : Prop :=
  ∃ qs, Value.plainPairs? ps = .ok qs ∧ Value.jsonMembers? qs = .ok ms

theorem Pairs.WriteAs.nil : Pairs.WriteAs [] [] := ⟨[], rfl, rfl⟩

theorem Pairs.WriteAs.cons {l : Label} {v : Value} {j : Json} {ps : Pairs}
    {ms : List (Text × Json)} (value : v.WritesAs j) (rest : Pairs.WriteAs ps ms) :
    Pairs.WriteAs ((.str l, v) :: ps) ((l.content, j) :: ms) := by
  obtain ⟨p, hp, hj⟩ := value
  obtain ⟨qs, hqs, hms⟩ := rest
  refine ⟨(.str l, p) :: qs, ?_, ?_⟩
  · simp [Value.plainPairs?, Value.plain?, hp, hqs, Value.isKeyable, bind, Except.bind, pure,
      Except.pure]
  · simp [Value.jsonMembers?, Value.jsonKey?, hj, hms, bind, Except.bind, pure, Except.pure]

/-- The value has a JSON form whose texts hold characters only. -/
def Value.Writable (v : Value) : Prop := ∃ j, v.WritesAs j ∧ j.allChars = true

/-- The pairs have JSON forms whose texts hold characters only. -/
def Pairs.Writable (ps : Pairs) : Prop := ∃ ms, ps.WriteAs ms ∧ Json.allCharsMembers ms = true

/-- A list of pairs under texts can be written if the values can. -/
theorem Pairs.writable {ps : Pairs}
    (h : ∀ p ∈ ps, (∃ l, p.1 = .str l ∧ Text.allChars l.content = true) ∧ p.2.Writable) :
    ps.Writable := by
  induction ps with
  | nil => exact ⟨[], .nil, rfl⟩
  | cons p ps ih =>
    obtain ⟨⟨l, hl, hkey⟩, j, hj, hchars⟩ := h p (by simp)
    obtain ⟨ms, hms, hrest⟩ := ih fun q hq => h q (by simp [hq])
    obtain ⟨k, v⟩ := p
    subst hl
    refine ⟨_, .cons hj hms, ?_⟩
    simp only [Json.allCharsMembers, hkey, hchars, hrest]
    rfl

namespace Value

theorem writable_str {l : Label} (h : Text.allChars l.content = true) : (str l).Writable :=
  ⟨.string l.content, ⟨.str l, rfl, rfl⟩, h⟩

theorem plain?_texts (ss : List Text) : (texts ss).plain? = .ok (texts ss) := by
  have items : plainItems? (ss.map text) = .ok (ss.map text) := by
    induction ss with
    | nil => rfl
    | cons s ss ih => simp [plainItems?, plain?, ih, bind, Except.bind, pure, Except.pure]
  simp [texts, plain?, items, Except.map]

theorem writable_texts {ss : List Text} (h : ∀ s ∈ ss, Text.allChars s = true) :
    (texts ss).Writable :=
  ⟨.array (ss.map .string), ⟨texts ss, plain?_texts ss, json?_texts ss⟩,
    Json.allCharsItems_strings h⟩

theorem writable_map {ps : Pairs} (h : ps.Writable) : (map ps).Writable := by
  obtain ⟨ms, ⟨qs, hqs, hms⟩, hchars⟩ := h
  exact ⟨.object ms, ⟨.map qs, by simp [plain?, hqs, Except.map], by simp [json?, hms, Except.map]⟩,
    hchars⟩

theorem writable_wrap {w : Wrap} (h : w.allChars = true) : (wrap w).Writable := by
  refine ⟨.object [(Wrap.beforeKey, .string w.before.content),
    (Wrap.afterKey, .string w.after.content)], ⟨.map w.pairs, rfl, rfl⟩, ?_⟩
  rw [Wrap.allChars, Bool.and_eq_true] at h
  simp only [Json.allChars, Json.allCharsMembers, h.1, h.2]
  rfl

end Value

theorem Setting.writable_toValue {s : Setting} (h : s.allChars = true) : s.toValue.Writable := by
  cases s with
  | text s => exact Value.writable_str h
  | parts ps => exact Value.writable_texts (List.all_eq_true.1 h)
  | wrap w => exact Value.writable_wrap h

theorem Options.writable_toValue {os : Options} (h : os.AllChars) : os.toValue.Writable := by
  refine Value.writable_map (Pairs.writable fun p hp => ?_)
  obtain ⟨o, ho, rfl⟩ := List.mem_map.1 hp
  obtain ⟨hkey, hsetting⟩ := h o ho
  exact ⟨⟨.text o.1, rfl, hkey⟩, Setting.writable_toValue hsetting⟩

theorem Config.writable_noResources : noResources.Writable := ⟨_, ⟨_, rfl, rfl⟩, by decide⟩

/-! ## Entries -/

namespace Entry

/-- The record of the entry as plain data has the JSON form `j`. -/
def WritesAs (e : Entry) (j : Json) : Prop :=
  ∃ ps, e.plain? = .ok ps ∧ Value.json? (.map ps) = .ok j

/-- Every field has a JSON form whose texts hold characters only. -/
def Writable (e : Entry) : Prop := ∀ f, (e.get f).Writable

theorem Writable.exists_writesAs {e : Entry} (h : e.Writable) :
    ∃ j, e.WritesAs j ∧ j.allChars = true := by
  have pairs : Pairs.Writable e.pairs := by
    refine Pairs.writable fun p hp => ?_
    obtain ⟨f, -, rfl⟩ := List.mem_map.1 hp
    have hkey : Text.allChars f.key = true := by cases f <;> rfl
    exact ⟨⟨_, rfl, hkey⟩, h f⟩
  obtain ⟨ms, ⟨ps, hps, hms⟩, hchars⟩ := pairs
  exact ⟨.object ms, ⟨ps, hps, by simp [Value.json?, hms, Except.map]⟩, hchars⟩

theorem writable_blank {settings : Settings} (h : Text.allChars settings.category = true) :
    (blank settings).Writable := by
  intro f
  cases f with
  | category => exact Value.writable_str h
  | lines | usage => exact @Value.writable_texts [] (by simp)
  | options => exact Value.writable_map ⟨[], .nil, rfl⟩
  | resources => exact Value.writable_map Config.writable_noResources
  | _ => exact Value.writable_str rfl

/-- A block of characters makes a writable entry of a writable one. -/
theorem writable_filled {e : Entry} {config : Config} {source : Source} {ids : Source.Ids}
    (he : e.Writable) (hconfig : config.AllChars) (resources : config.resources.Writable)
    (hsource : source.AllChars) (hids : source.ids? config = .ok ids) :
    (e.filled config source ids).Writable := by
  have hoptions := hsource.options hconfig
  have hlines := hsource.lines hconfig
  have htext := Attributes.allChars_ofOptions hoptions
  have hdeclared {k s : Text}
      (h : Options.View.textAt k (source.options config) = some s) : Text.allChars s = true := by
    unfold Options.View.textAt at h
    split at h
    next t hget =>
      obtain rfl := Option.some.inj h
      exact Options.allChars_of_get? hoptions hget
    next => cases h
  -- a field that the header may declare: a text if it does, else what it was
  have declared (f : Field) {s : Option Text} (hs : ∀ t, s = some t → Text.allChars t = true) :
      ((s.map Value.text).getD (e.get f)).Writable := by
    cases s with
    | none => exact he f
    | some s => exact Value.writable_str (hs s rfl)
  obtain ⟨hid, hviewId⟩ := Source.ids?_eq_ok_iff.1 hids
  intro f
  cases f with
  | category => exact declared .category fun t => hdeclared
  | group => exact declared .group fun t => hdeclared
  | name =>
    refine declared .name fun t ht => ?_
    rw [Options.View.label, Option.orElse_eq_orElse, Option.orElse_eq_or, Option.or_eq_some_iff] at ht
    rcases ht with h | ⟨-, h⟩
    · exact hdeclared h
    · exact hdeclared h
  | id => exact Value.writable_str (allChars_of_identify? hid)
  | viewId => exact Value.writable_str (allChars_of_identify? hviewId)
  | lines => exact Value.writable_texts hlines
  | fragment => exact Value.writable_str (Text.allChars_unlines hlines)
  | view => exact Value.writable_str (hsource.view hconfig)
  | template => exact Value.writable_str (Layout.allChars_template hconfig.templateWrap htext hlines)
  | options => exact Options.writable_toValue hoptions
  | optionsText => exact Value.writable_str htext
  | origin => exact Value.writable_str hconfig.origin
  | resources => exact Value.writable_map resources
  | usage => exact he .usage

end Entry

/-! ## Lists of entries -/

theorem CommandLine.document?_eq_ok {es : List Entry} {js : List Json}
    (h : List.Forall₂ Entry.WritesAs es js) : document? es = .ok js := by
  induction h with
  | nil => rfl
  | cons written _ ih =>
    obtain ⟨ps, hps, hj⟩ := written
    simp [document?, hps, hj, ih, bind, Except.bind, pure, Except.pure]

/-- Writable entries make a list that can be written as bytes. -/
theorem CommandLine.exists_document? {es : List Entry} (h : ∀ e ∈ es, e.Writable) :
    ∃ js, List.Forall₂ Entry.WritesAs es js ∧ document? es = .ok js ∧
      Json.allCharsItems js = true := by
  have written : ∃ js, List.Forall₂ Entry.WritesAs es js ∧ Json.allCharsItems js = true := by
    induction es with
    | nil => exact ⟨[], .nil, rfl⟩
    | cons e es ih =>
      obtain ⟨j, hj, hchars⟩ := (h e (by simp)).exists_writesAs
      obtain ⟨js, hjs, hrest⟩ := ih fun e' he' => h e' (by simp [he'])
      refine ⟨j :: js, .cons hj hjs, ?_⟩
      rw [Json.allCharsItems, hchars, hrest, Bool.and_true]
  obtain ⟨js, hjs, hchars⟩ := written
  exact ⟨js, hjs, document?_eq_ok hjs, hchars⟩

end MarkupCatalog
