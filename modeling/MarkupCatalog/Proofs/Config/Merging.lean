/-
What becomes of the pairs that a caller gives for a configuration. A map holds what was put there last
(`get?_overlay`), so the defaults with pairs on top of them are read like the pairs by themselves, field
by field (`merge?_eq_ofValues?`, `read?_eq_ofValues?`). The two ways part only where the wrap of templates is
spelled both ways, and there the later spelling counts (`merges`).
-/
import Mathlib.Data.List.Nodup
import MarkupCatalog.Config
import MarkupCatalog.Proofs.Options.Assignments
import MarkupCatalog.Proofs.Value.Plain

namespace MarkupCatalog

/-! ## Reading a map that has been written to -/

theorem Value.sameKey_str_iff {v : Value} {l : Label} :
    v.sameKey (.str l) = true ↔ ∃ m, v = .str m ∧ m.content = l.content := by
  cases v <;> simp [sameKey]

theorem Pairs.get?_cons (k : Text) (p : Value × Value) (ps : Pairs) :
    get? k (p :: ps) = if p.1.sameKey (.text k) then some p.2 else get? k ps := by
  unfold get?
  rw [List.find?_cons]
  cases p.1.sameKey (.text k) <;> rfl

theorem Pairs.get?_put (k : Text) (l : Label) (v : Value) (ps : Pairs) :
    get? k (put (.str l) v ps) = if l.content = k then some v else get? k ps := by
  induction ps with
  | nil => simp [put, get?_cons, Value.sameKey_text]
  | cons p ps ih =>
    rw [put]
    by_cases hl : p.1.sameKey (.str l) = true
    · obtain ⟨m, hm, hcontent⟩ := Value.sameKey_str_iff.1 hl
      rw [if_pos hl, get?_cons, get?_cons, hm, Value.sameKey_text, hcontent]
      by_cases hk : l.content = k <;> simp [hk]
    · rw [if_neg hl, get?_cons, get?_cons, ih]
      by_cases hp : p.1.sameKey (.text k) = true
      · have hk : l.content ≠ k := by
          intro hk
          obtain ⟨m, hm, hcontent⟩ := Value.sameKey_str_iff.1 hp
          exact hl (Value.sameKey_str_iff.2 ⟨m, hm, hcontent.trans hk.symm⟩)
        rw [if_pos hp, if_neg hk, if_pos hp]
      · rw [if_neg hp, if_neg hp]

namespace Config

open Options (last?)

/-! ## Overrides -/

/-- What a caller may give for a configuration: a map with texts as keys. -/
structure Overrides where
  entries : List (Label × Value)
  nodup : (entries.map fun e => e.1.content).Nodup

/-- The field that is given under a key. -/
def ownName (key : Text) : Text := if key = templateWrapAlias then templateWrapKey else key

/-- The fields, in order. -/
def fieldNames : List Text := [indentKey, originKey, resourcesKey, wrapKey, templateWrapKey]

namespace Overrides

def pairs (m : Overrides) : Pairs := m.entries.map fun e => (.str e.1, e.2)

def toValue (m : Overrides) : Value := .map m.pairs

def keys (m : Overrides) : List Text := m.entries.map fun e => e.1.content

/-- What is given for a field; the last of it, where the wrap of templates is given twice. -/
def given (m : Overrides) (name : Text) : Option Value :=
  last? name (m.entries.map fun e => (ownName e.1.content, e.2))

/-- The wrap of templates is given in both spellings. -/
def HasBoth (m : Overrides) : Prop := templateWrapKey ∈ m.keys ∧ templateWrapAlias ∈ m.keys

/-- The entries for fields. -/
def known (m : Overrides) : Overrides where
  entries := m.entries.filter fun e => ownName e.1.content ∈ fieldNames
  nodup := m.nodup.sublist (List.filter_sublist.map _)

/-- The entries without the first one for the wrap of templates. -/
def withoutEarlier (m : Overrides) : Overrides where
  entries := m.entries.eraseP fun e => ownName e.1.content = templateWrapKey
  nodup := m.nodup.sublist (List.eraseP_sublist.map _)

end Overrides

/-! ## What is given -/

theorem ownName_eq_templateWrapKey_iff {key : Text} :
    ownName key = templateWrapKey ↔ key = templateWrapAlias ∨ key = templateWrapKey := by
  unfold ownName
  by_cases h : key = templateWrapAlias <;> simp [h]

theorem ownName_eq_iff {key name : Text} (hname : name ≠ templateWrapKey)
    (halias : name ≠ templateWrapAlias) : ownName key = name ↔ key = name := by
  unfold ownName
  by_cases h : key = templateWrapAlias
  · simp [h, Ne.symm hname, Ne.symm halias]
  · simp [h]

theorem ownName_ne_templateWrapAlias (key : Text) : ownName key ≠ templateWrapAlias := by
  unfold ownName
  split
  · decide
  · assumption

theorem content_ownKey (l : Label) :
    ∃ own, ownKey (.str l) = .str own ∧ own.content = ownName l.content := by
  unfold ownKey ownName
  rw [Value.sameKey_text]
  by_cases h : l.content = templateWrapAlias
  · exact ⟨.text templateWrapKey, by simp [h], by rw [if_pos h]; rfl⟩
  · exact ⟨l, by simp [h], by simp [h]⟩

namespace Overrides

variable {m : Overrides}

/-- Where the wrap of templates is spelled in one way, no field is given twice. -/
theorem nodup_ownNames (h : ¬m.HasBoth) :
    ((m.entries.map fun e => (ownName e.1.content, e.2)).map (·.1)).Nodup := by
  have hnames : (m.entries.map fun e => (ownName e.1.content, e.2)).map (·.1) =
      m.keys.map ownName := by
    rw [keys, List.map_map, List.map_map]
    rfl
  rw [hnames]
  refine List.Nodup.map_on (fun a ha b hb hab => ?_) m.nodup
  unfold ownName at hab
  split at hab <;> split at hab
  next hfst hsnd => rw [hfst, hsnd]
  next hfst hsnd => exact absurd ⟨hab ▸ hb, hfst ▸ ha⟩ h
  next hfst hsnd => exact absurd ⟨hab ▸ ha, hsnd ▸ hb⟩ h
  next hfst hsnd => exact hab

/-- Where a name is taken from each key and none comes twice, the value under a name is that of the entry
with such a key. -/
theorem last?_map_eq_some_iff {f : Text → Text} {es : List (Label × Value)}
    (h : ((es.map fun e => (f e.1.content, e.2)).map (·.1)).Nodup) {name : Text} {v : Value} :
    last? name (es.map fun e => (f e.1.content, e.2)) = some v ↔
      ∃ l, (l, v) ∈ es ∧ f l.content = name := by
  rw [Options.last?_eq_some_iff h, List.mem_map]
  constructor
  · intro hmem
    obtain ⟨e, he, heq⟩ := hmem
    obtain ⟨hname, rfl⟩ := Prod.mk.inj heq
    exact ⟨e.1, he, hname⟩
  · intro hmem
    obtain ⟨l, hl, hname⟩ := hmem
    exact ⟨(l, v), hl, by rw [hname]⟩

theorem given_eq_some_iff (h : ¬m.HasBoth) {name : Text} {v : Value} :
    m.given name = some v ↔ ∃ l, (l, v) ∈ m.entries ∧ ownName l.content = name :=
  last?_map_eq_some_iff (nodup_ownNames h)

/-- As no key comes twice, the first value under a key is the last one. -/
theorem get?_pairs (m : Overrides) (key : Text) :
    Pairs.get? key m.pairs = last? key (m.entries.map fun e => (e.1.content, e.2)) := by
  obtain ⟨es, hnodup⟩ := m
  show Pairs.get? key (es.map fun e => (.str e.1, e.2)) = _
  induction es with
  | nil => rfl
  | cons e es ih =>
    rw [List.map_cons, List.nodup_cons] at hnodup
    rw [List.map_cons, Pairs.get?_cons, Value.sameKey_text, ih hnodup.2, List.map_cons, last?]
    by_cases hkey : e.1.content = key
    · have hnone : last? key (es.map fun e => (e.1.content, e.2)) = none := by
        rw [Options.last?_eq_none_iff, List.map_map]
        exact hkey ▸ hnodup.1
      rw [if_pos (decide_eq_true hkey), if_pos hkey, hnone]
      rfl
    · rw [if_neg (by simpa using hkey), if_neg hkey, Option.or_none]

theorem get?_pairs_eq_some_iff {key : Text} {v : Value} :
    Pairs.get? key m.pairs = some v ↔ ∃ l, (l, v) ∈ m.entries ∧ l.content = key := by
  rw [get?_pairs]
  refine last?_map_eq_some_iff (f := id) ?_
  rw [List.map_map]
  exact m.nodup

/-- A field with a single key is given under that key. -/
theorem get?_pairs_eq_given (h : ¬m.HasBoth) {name : Text} (hname : name ≠ templateWrapKey)
    (halias : name ≠ templateWrapAlias) : Pairs.get? name m.pairs = m.given name := by
  refine Option.ext fun v => ?_
  simp only [get?_pairs_eq_some_iff, given_eq_some_iff h, ownName_eq_iff hname halias]

/-- The wrap of templates is given in one of its spellings. -/
theorem or_get?_pairs_eq_given (h : ¬m.HasBoth) :
    (Pairs.get? templateWrapAlias m.pairs).or (Pairs.get? templateWrapKey m.pairs) =
      m.given templateWrapKey := by
  refine Option.ext fun v => ?_
  rw [Option.or_eq_some_iff, given_eq_some_iff h]
  simp only [ownName_eq_templateWrapKey_iff, and_or_left, exists_or]
  rw [← get?_pairs_eq_some_iff, ← get?_pairs_eq_some_iff]
  refine or_congr_right (and_iff_right_of_imp fun hown => ?_)
  cases halias : Pairs.get? templateWrapAlias m.pairs with
  | none => rfl
  | some w =>
    obtain ⟨l, hl, hkey⟩ := get?_pairs_eq_some_iff.1 hown
    obtain ⟨l', hl', hkey'⟩ := get?_pairs_eq_some_iff.1 halias
    exact absurd ⟨List.mem_map.2 ⟨_, hl, hkey⟩, List.mem_map.2 ⟨_, hl', hkey'⟩⟩ h

/-! ## On top of the defaults -/

/-- A map with entries put on top of it holds what is given last, and else what it held. -/
theorem get?_foldl_put (name : Text) (es : List (Label × Value)) (ps : Pairs) :
    Pairs.get? name ((es.map fun e => (Value.str e.1, e.2)).foldl
        (fun ps p => ps.put (ownKey p.1) p.2) ps) =
      (last? name (es.map fun e => (ownName e.1.content, e.2))).or (Pairs.get? name ps) := by
  induction es generalizing ps with
  | nil => rfl
  | cons e es ih =>
    obtain ⟨own, hown, hcontent⟩ := content_ownKey e.1
    rw [List.map_cons, List.foldl_cons, ih, List.map_cons, last?, Option.or_assoc, hown,
      Pairs.get?_put, hcontent]
    by_cases h : ownName e.1.content = name
    · rw [if_pos h, if_pos h]
      rfl
    · rw [if_neg h, if_neg h]
      rfl

theorem get?_overlay (c : Config) (m : Overrides) (name : Text) :
    Pairs.get? name (c.overlay m.pairs) = (m.given name).or (Pairs.get? name c.pairs) :=
  get?_foldl_put name m.entries c.pairs

theorem given_templateWrapAlias (m : Overrides) : m.given templateWrapAlias = none := by
  rw [given, Options.last?_eq_none_iff]
  intro hmem
  rw [List.map_map, List.mem_map] at hmem
  obtain ⟨e, -, he⟩ := hmem
  exact ownName_ne_templateWrapAlias e.1.content he

end Overrides

/-! ## Fields by themselves -/

/-- What a field holds where nothing is given for it. -/
def standardValue (settings : Settings) (name : Text) : Value :=
  (Pairs.get? name (standard settings).pairs).getD .null

section Defaults

variable (settings : Settings)

theorem indent?_standardValue :
    indent? (standardValue settings indentKey) = .ok settings.indent := rfl

theorem text?_standardValue :
    Record.text? originKey (standardValue settings originKey) = .ok [] := rfl

theorem resources?_standardValue :
    resources? (standardValue settings resourcesKey) = .ok noResources := rfl

theorem ofValue?_standardValue {name : Text} (h : name = wrapKey ∨ name = templateWrapKey) :
    Wrap.ofValue? (standardValue settings name) = .ok .empty := by
  rcases h with rfl | rfl <;> rfl

end Defaults

/-- The configuration whose fields are read from these values. -/
def ofValues? (value : Text → Value) : Except Fault Config := do
  let indent := indent? (value indentKey)
  let origin := Record.text? originKey (value originKey)
  let resources := resources? (value resourcesKey)
  let wrap ← Wrap.ofValue? (value wrapKey)
  let templateWrap ← Wrap.ofValue? (value templateWrapKey)
  match indent, origin, resources with
  | .ok indent, .ok origin, .ok resources => .ok ⟨indent, origin, resources, wrap, templateWrap⟩
  | _, _, _ =>
    .error (.invalid
      (Record.problems indent ++ Record.problems origin ++ Record.problems resources))

/-- What a map gives for a field, or its default. The wrap of templates is looked for under its other
spelling first. -/
def valueIn (settings : Settings) (ps : Pairs) (name : Text) : Value :=
  (if name = templateWrapKey then (Pairs.get? templateWrapAlias ps).or (Pairs.get? name ps)
    else Pairs.get? name ps).getD (standardValue settings name)

theorem ofPairs?_eq_ofValues? (settings : Settings) (ps : Pairs) :
    ofPairs? settings ps = ofValues? (valueIn settings ps) := by
  have hwrap : valueIn settings ps templateWrapKey = (Pairs.get? templateWrapAlias ps).getD
      ((Pairs.get? templateWrapKey ps).getD (.wrap (standard settings).templateWrap)) := by
    rw [valueIn, if_pos rfl, Option.getD_or]
    rfl
  unfold ofValues?
  rw [hwrap]
  rfl

/-- Only the values of the fields count. -/
theorem ofValues?_congr {value value' : Text → Value}
    (h : ∀ name ∈ fieldNames, value name = value' name) : ofValues? value = ofValues? value' := by
  unfold ofValues?
  rw [h indentKey (by decide), h originKey (by decide), h resourcesKey (by decide),
    h wrapKey (by decide), h templateWrapKey (by decide)]

/-- A configuration is read exactly where each of its fields is. -/
theorem ofValues?_eq_ok_iff {value : Text → Value} {c : Config} :
    ofValues? value = .ok c ↔
      indent? (value indentKey) = .ok c.indent ∧
      Record.text? originKey (value originKey) = .ok c.origin ∧
      resources? (value resourcesKey) = .ok c.resources ∧
      Wrap.ofValue? (value wrapKey) = .ok c.wrap ∧
      Wrap.ofValue? (value templateWrapKey) = .ok c.templateWrap := by
  rw [ofValues?, Outcome.bind_eq_ok_iff]
  constructor
  · intro h
    obtain ⟨wrap, hwrap, h⟩ := h
    obtain ⟨templateWrap, htemplate, h⟩ := Outcome.bind_eq_ok_iff.1 h
    split at h
    next hindent horigin hresources =>
      obtain rfl := Except.ok.inj h
      exact ⟨hindent, horigin, hresources, hwrap, htemplate⟩
    next => cases h
  · intro h
    obtain ⟨hindent, horigin, hresources, hwrap, htemplate⟩ := h
    refine ⟨_, hwrap, ?_⟩
    rw [htemplate, hindent, horigin, hresources]
    rfl

/-! ## Problems -/

/-- What is wrong with a field: nothing only if it is read. -/
theorem problems_indent? (v : Value) :
    Record.problems (indent? v) = [] ↔ ∃ s, indent? v = .ok s := by
  cases v <;> simp [indent?, Record.text?, Record.problems]

theorem problems_text? (key : Text) (v : Value) :
    Record.problems (Record.text? key v) = [] ↔ ∃ s, Record.text? key v = .ok s := by
  cases v <;> simp [Record.text?, Record.problems]

theorem problems_resources? (v : Value) :
    Record.problems (resources? v) = [] ↔ ∃ ps, resources? v = .ok ps := by
  cases v with
  | map ps =>
    rw [resources?]
    split
    next => simp [Record.problems]
    next problems hne => simpa [Record.problems] using hne
  | _ => simp [resources?, Record.problems]

/-- The problems of all fields, in order. -/
def problemsOf (value : Text → Value) : List Problem :=
  Record.problems (indent? (value indentKey)) ++
    Record.problems (Record.text? originKey (value originKey)) ++
    Record.problems (resources? (value resourcesKey))

/-- Both wraps are read. -/
def WrapsRead (value : Text → Value) : Prop :=
  ∀ name ∈ [wrapKey, templateWrapKey], ∃ w, Wrap.ofValue? (value name) = .ok w

/-- Where both wraps are read, the only faults are the problems of fields, all at once. -/
theorem ofValues?_eq_error_iff {value : Text → Value} (h : WrapsRead value) {f : Fault} :
    ofValues? value = .error f ↔ problemsOf value ≠ [] ∧ f = .invalid (problemsOf value) := by
  obtain ⟨wrap, hwrap⟩ := h wrapKey (by simp)
  obtain ⟨templateWrap, htemplate⟩ := h templateWrapKey (by simp)
  rw [ofValues?, hwrap, htemplate]
  simp only [bind, Except.bind]
  split
  next indent origin resources hindent horigin hresources =>
    simp [problemsOf, hindent, horigin, hresources, Record.problems]
  next hnone =>
    rw [Except.error.injEq, eq_comm, problemsOf, and_iff_right]
    intro hnil
    simp only [List.append_eq_nil_iff, problems_indent?, problems_text?, problems_resources?] at hnil
    obtain ⟨⟨⟨indent, hindent⟩, origin, horigin⟩, resources, hresources⟩ := hnil
    exact hnone indent origin resources hindent horigin hresources

/-! ## Merging -/

/-- A field as it is read from what is given for it, or its default where nothing is. -/
def IsRead {ε α : Type} (read : Value → Except ε α) (default : α) : Option Value → α → Prop
  | none, a => a = default
  | some v, a => read v = .ok a

/-- What is wrong with what is given for a field. -/
def problemsIn {α : Type} (read : Value → Except (List Problem) α) : Option Value → List Problem
  | none => []
  | some v => Record.problems (read v)

section Reading

variable {ε α : Type} {given : Option Value} {d : Value} {default : α}

/-- A default that passes the check of its field may be read like what is given. -/
theorem isRead_iff {read : Value → Except ε α} (hdefault : read d = .ok default) {a : α} :
    read (given.getD d) = .ok a ↔ IsRead read default given a := by
  cases given with
  | none => simp [IsRead, hdefault, eq_comm]
  | some v => exact Iff.rfl

theorem problems_getD {read : Value → Except (List Problem) α} (hdefault : read d = .ok default) :
    Record.problems (read (given.getD d)) = problemsIn read given := by
  cases given with
  | none => simp [problemsIn, hdefault, Record.problems]
  | some v => rfl

end Reading

namespace Overrides

/-- The value of each field: what is given for it, or its default. -/
def value (settings : Settings) (m : Overrides) (name : Text) : Value :=
  (m.given name).getD (standardValue settings name)

theorem merge?_eq_ofValues? (settings : Settings) (m : Overrides) :
    merge? settings m.toValue = ofValues? (m.value settings) := by
  show ofPairs? settings ((standard settings).overlay m.pairs) = _
  rw [ofPairs?_eq_ofValues?]
  refine ofValues?_congr fun name hname => ?_
  have hget : (Pairs.get? name ((standard settings).overlay m.pairs)).getD
      (standardValue settings name) = m.value settings name := by
    rw [get?_overlay, value, standardValue]
    cases m.given name with
    | some v => rfl
    | none => cases Pairs.get? name (standard settings).pairs <;> rfl
  -- on top of the defaults nothing is left under the other spelling
  have halias : Pairs.get? templateWrapAlias ((standard settings).overlay m.pairs) = none := by
    rw [get?_overlay, given_templateWrapAlias]
    rfl
  unfold valueIn
  rw [halias, Option.none_or, ite_self, hget]

theorem read?_eq_ofValues? {m : Overrides} (h : ¬m.HasBoth) (settings : Settings) :
    read? settings m.toValue = ofValues? (m.value settings) := by
  show ofPairs? settings m.pairs = _
  rw [ofPairs?_eq_ofValues?]
  refine ofValues?_congr fun name hname => ?_
  unfold valueIn value
  by_cases hwrap : name = templateWrapKey
  · rw [if_pos hwrap, hwrap, or_get?_pairs_eq_given h]
  · have halias : name ≠ templateWrapAlias := by
      intro heq
      subst heq
      revert hname
      decide
    rw [if_neg hwrap, get?_pairs_eq_given h hwrap halias]

/-- A configuration whose fields are those given. -/
structure Gives (settings : Settings) (m : Overrides) (c : Config) : Prop where
  indent : IsRead indent? settings.indent (m.given indentKey) c.indent
  origin : IsRead (Record.text? originKey) [] (m.given originKey) c.origin
  resources : IsRead resources? noResources (m.given resourcesKey) c.resources
  wrap : IsRead Wrap.ofValue? .empty (m.given wrapKey) c.wrap
  templateWrap : IsRead Wrap.ofValue? .empty (m.given templateWrapKey) c.templateWrap

/-- All that is wrong with what is given, in the order of the fields. -/
def problems (m : Overrides) : List Problem :=
  problemsIn indent? (m.given indentKey) ++
    problemsIn (Record.text? originKey) (m.given originKey) ++
    problemsIn resources? (m.given resourcesKey)

/-- What is given as a wrap is read as one. -/
def HasWraps (m : Overrides) : Prop :=
  ∀ name ∈ [wrapKey, templateWrapKey], ∀ v, m.given name = some v → ∃ w, Wrap.ofValue? v = .ok w

theorem problemsOf_value (settings : Settings) (m : Overrides) :
    problemsOf (m.value settings) = m.problems := by
  unfold problemsOf value problems
  rw [problems_getD (indent?_standardValue settings), problems_getD (text?_standardValue settings),
    problems_getD (resources?_standardValue settings)]

theorem HasWraps.wrapsRead {m : Overrides} (h : m.HasWraps) (settings : Settings) :
    WrapsRead (m.value settings) := by
  intro name hname
  cases hgiven : m.given name with
  | some v =>
    obtain ⟨w, hw⟩ := h name hname v hgiven
    exact ⟨w, by rw [value, hgiven, Option.getD_some, hw]⟩
  | none =>
    have hwrap : Wrap.ofValue? (standardValue settings name) = .ok .empty :=
      ofValue?_standardValue settings (by simpa using hname)
    exact ⟨.empty, by rw [value, hgiven, Option.getD_none, hwrap]⟩

theorem ofValues?_value_eq_ok_iff {settings : Settings} {m : Overrides} {c : Config} :
    ofValues? (m.value settings) = .ok c ↔ Gives settings m c := by
  rw [ofValues?_eq_ok_iff]
  unfold value
  rw [isRead_iff (indent?_standardValue settings), isRead_iff (text?_standardValue settings),
    isRead_iff (resources?_standardValue settings),
    isRead_iff (ofValue?_standardValue settings (.inl rfl)),
    isRead_iff (ofValue?_standardValue settings (.inr rfl))]
  constructor
  · intro h
    obtain ⟨hindent, horigin, hresources, hwrap, htemplate⟩ := h
    exact ⟨hindent, horigin, hresources, hwrap, htemplate⟩
  · intro h
    exact ⟨h.indent, h.origin, h.resources, h.wrap, h.templateWrap⟩

/-! ## Entries that do not count -/

theorem given_known {name : Text} (h : name ∈ fieldNames) (m : Overrides) :
    m.known.given name = m.given name :=
  Options.last?_map_filter fun e he => by
    rw [decide_eq_true_iff, show ownName e.1.content = name from he]
    exact h

theorem get?_pairs_known {key : Text} (h : ownName key ∈ fieldNames) (m : Overrides) :
    Pairs.get? key m.known.pairs = Pairs.get? key m.pairs := by
  rw [get?_pairs, get?_pairs]
  exact Options.last?_map_filter fun e he => by
    rw [decide_eq_true_iff, show e.1.content = key from he]
    exact h

/-- Where the wrap of templates is given in both spellings, there is another entry for it after the first
one. -/
theorem exists_entries_of_hasBoth {m : Overrides} (h : m.HasBoth) :
    ∃ before e after, m.entries = before ++ e :: after ∧ m.withoutEarlier.entries = before ++ after ∧
      ownName e.1.content = templateWrapKey ∧
      ∃ e' ∈ after, ownName e'.1.content = templateWrapKey := by
  obtain ⟨hown, halias⟩ := h
  obtain ⟨x, hx, hxkey⟩ := List.mem_map.1 hown
  obtain ⟨y, hy, hykey⟩ := List.mem_map.1 halias
  have hxname : ownName x.1.content = templateWrapKey :=
    ownName_eq_templateWrapKey_iff.2 (.inr hxkey)
  have hyname : ownName y.1.content = templateWrapKey :=
    ownName_eq_templateWrapKey_iff.2 (.inl hykey)
  obtain ⟨e, before, after, hbefore, he, hentries, herase⟩ := List.exists_of_eraseP
    (p := fun e : Label × Value => decide (ownName e.1.content = templateWrapKey)) hx
    (decide_eq_true hxname)
  have hafter (z : Label × Value) (hz : z ∈ m.entries)
      (hzname : ownName z.1.content = templateWrapKey) : z = e ∨ z ∈ after := by
    rw [hentries, List.mem_append, List.mem_cons] at hz
    exact hz.resolve_left fun hmem => hbefore z hmem (decide_eq_true hzname)
  refine ⟨before, e, after, hentries, herase, of_decide_eq_true he, ?_⟩
  -- the two spellings are two entries, and only one of them can be the first
  rcases hafter x hx hxname with rfl | hmem
  · rcases hafter y hy hyname with rfl | hmem
    · exact absurd (hxkey.symm.trans hykey) (by decide)
    · exact ⟨y, hmem, hyname⟩
  · exact ⟨x, hmem, hxname⟩

theorem given_withoutEarlier {m : Overrides} (h : m.HasBoth) (name : Text) :
    m.withoutEarlier.given name = m.given name := by
  obtain ⟨before, e, after, hentries, hrest, he, e', he', hname'⟩ := exists_entries_of_hasBoth h
  rw [given, given, hrest, hentries, List.map_append, List.map_append, List.map_cons,
    Options.last?_append, Options.last?_append, last?]
  by_cases hname : ownName e.1.content = name
  · cases hlast : last? name (after.map fun e => (ownName e.1.content, e.2)) with
    | some v => rfl
    | none =>
      rw [Options.last?_eq_none_iff, List.map_map] at hlast
      exact absurd (List.mem_map.2 ⟨e', he', hname'.trans (he.symm.trans hname)⟩) hlast
  · rw [if_neg hname, Option.or_none]

/-! ## Merging and reading -/

/-- What becomes of overrides that are put on top of the defaults. -/
structure Merges (settings : Settings) (m : Overrides) : Prop where
  /-- each field holds what is given for it, or its default -/
  ok_iff : ∀ c, merge? settings m.toValue = .ok c ↔ Gives settings m c
  /-- else all that is wrong is told, field by field -/
  error_iff : m.HasWraps → ∀ f,
    merge? settings m.toValue = .error f ↔ m.problems ≠ [] ∧ f = .invalid m.problems
  /-- the overrides by themselves are read alike -/
  read : ¬m.HasBoth → read? settings m.toValue = merge? settings m.toValue
  given_iff : ¬m.HasBoth → ∀ name v,
    m.given name = some v ↔ ∃ key, (key, v) ∈ m.entries ∧ ownName key.content = name
  /-- entries for no field play no part -/
  known : merge? settings m.known.toValue = merge? settings m.toValue ∧
    read? settings m.known.toValue = read? settings m.toValue
  /-- of two spellings, the later one counts -/
  later : m.HasBoth → merge? settings m.withoutEarlier.toValue = merge? settings m.toValue

/-- **Overrides on top of the defaults** are read like the overrides by themselves. This is about values
that can be copied: merging copies what it is given, and reading does not. -/
theorem merges (settings : Settings) (m : Overrides) : Merges settings m := by
  refine ⟨fun c => ?_, fun hwraps f => ?_, fun h => ?_, fun h name v => given_eq_some_iff h,
    ⟨?_, ?_⟩, fun h => ?_⟩
  · rw [merge?_eq_ofValues?, ofValues?_value_eq_ok_iff]
  · rw [merge?_eq_ofValues?, ofValues?_eq_error_iff (hwraps.wrapsRead settings), problemsOf_value]
  · rw [merge?_eq_ofValues?, read?_eq_ofValues? h]
  · rw [merge?_eq_ofValues?, merge?_eq_ofValues?]
    refine ofValues?_congr fun name hname => ?_
    rw [value, value, given_known hname]
  · show ofPairs? settings m.known.pairs = ofPairs? settings m.pairs
    rw [ofPairs?_eq_ofValues?, ofPairs?_eq_ofValues?]
    refine ofValues?_congr fun name hname => ?_
    have hown : ownName name ∈ fieldNames := by
      revert name
      decide
    rw [valueIn, valueIn, get?_pairs_known hown, get?_pairs_known (by decide)]
  · rw [merge?_eq_ofValues?, merge?_eq_ofValues?]
    refine ofValues?_congr fun name _ => ?_
    rw [value, value, given_withoutEarlier h]

/-- Where both spellings are given, merging goes by which comes later, and reading does not. -/
example :
    let both : Overrides :=
      ⟨[(.text templateWrapAlias, .text [.char 'x']), (.text templateWrapKey, .text [.char 'y'])],
        by decide⟩
    ((merge? .standard both.toValue).map Config.templateWrap,
        (read? .standard both.toValue).map Config.templateWrap) =
      (.ok (.both (.text [.char 'y'])), .ok (.both (.text [.char 'x']))) := rfl

end Overrides
end Config
end MarkupCatalog
