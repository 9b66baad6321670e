/-
Reading a block into an entry, from the side of the caller. The step ends in one of three ways
(`allOrNothing_parse`): with a fault, with nothing to extract, or with an entry all of whose fields
but the usage are derived from the block. Only in the last case is the entry another one. There are
three faults (`Fails`), and the last of them needs surrogates: `parse_surrogate` meets it.

The derived fields are told in terms of what any caller could ask for: the options that
`Header.parse` gives for the header, the view that is read from these options as a value, and the
attributes that are written of them.
-/
import MarkupCatalog.Entry.Session
import MarkupCatalog.Proofs.Extraction
import MarkupCatalog.Proofs.Options.Reading

namespace MarkupCatalog.Entry

open Comment (HasComment)

/-! ## What is read of a block -/

/-- A block as far as it has been read. -/
structure Reading where
  config : Config
  /-- the source without its end markers -/
  text : Text
  header : Text
  body : Text
  options : Options

/-- The source of a block and the configuration that is given for it come to this reading. -/
structure Reads (settings : Settings) (src : Text) (v : Value) (r : Reading) : Prop where
  config : Config.merge? settings v = .ok r.config
  text : r.text = EndMarker.removeAll src
  parts : Comment.split? r.text = .ok (r.header, r.body)
  options : (Header.parse r.header r.config.toValue).result = .ok r.options

/-- The reading that a configuration and the two parts of a source come to. -/
def Reading.ofSource (config : Config) (source : Source) : Reading :=
  ⟨config, source.text, source.header, source.body, source.options config⟩

theorem source_read?_eq_ok_iff {src : Text} {source : Source} :
    Source.read? src = .ok source ↔
      source.text = EndMarker.removeAll src ∧
        Comment.split? source.text = .ok (source.header, source.body) := by
  obtain ⟨text, header, body⟩ := source
  rw [Source.read?]
  constructor
  · intro h
    cases hsplit : Comment.split? (EndMarker.removeAll src) with
    | error f => simp [hsplit, Except.map] at h
    | ok p =>
      simp only [hsplit, Except.map, Except.ok.injEq, Source.mk.injEq] at h
      obtain ⟨rfl, rfl, rfl⟩ := h
      exact ⟨rfl, hsplit⟩
  · intro h
    rcases h with ⟨rfl, hsplit⟩
    rw [hsplit]
    rfl

theorem reads_iff {settings : Settings} {src : Text} {v : Value} {r : Reading} :
    Reads settings src v r ↔
      ∃ source, Config.merge? settings v = .ok r.config ∧ Source.read? src = .ok source ∧
        r = Reading.ofSource r.config source := by
  constructor
  · intro h
    rcases h with ⟨hconfig, htext, hparts, hoptions⟩
    obtain ⟨config, text, header, body, options⟩ := r
    refine ⟨⟨text, header, body⟩, hconfig, source_read?_eq_ok_iff.2 ⟨htext, hparts⟩, ?_⟩
    exact congrArg (Reading.mk config text header body)
      (Except.ok.inj (hoptions.symm.trans (Header.result_parse_config ..)))
  · intro h
    rcases h with ⟨source, hconfig, hsource, hr⟩
    obtain ⟨htext, hparts⟩ := source_read?_eq_ok_iff.1 hsource
    rw [hr]
    exact ⟨hconfig, htext, hparts, Header.result_parse_config ..⟩

/-- A source is read in one way only. -/
theorem Reads.unique {settings : Settings} {src : Text} {v : Value} {r r' : Reading}
    (h : Reads settings src v r) (h' : Reads settings src v r') : r = r' := by
  obtain ⟨source, hconfig, hsource, hr⟩ := reads_iff.1 h
  obtain ⟨source', hconfig', hsource', hr'⟩ := reads_iff.1 h'
  obtain rfl := Except.ok.inj (hsource.symm.trans hsource')
  rw [hr, hr', Except.ok.inj (hconfig.symm.trans hconfig')]

theorem Reads.options_eq {settings : Settings} {src : Text} {v : Value} {r : Reading}
    (h : Reads settings src v r) : r.options = (Header.read r.header).options r.config.wrap :=
  Except.ok.inj (h.options.symm.trans (Header.result_parse_config ..))

/-- The options that are read are always accepted as the options of a block. -/
theorem Reads.accepted {settings : Settings} {src : Text} {v : Value} {r : Reading}
    (h : Reads settings src v r) :
    Options.View.read? r.options.toValue = .ok (Options.View.ofOptions r.options) := by
  rw [h.options_eq]
  exact Options.View.read?_toValue (Header.declarable_options _ _)

/-! ## Derived fields -/

/-- The field takes what the block declares under a key, even an empty text, and else keeps what it
held before. -/
def Inherits (os : Options) (k : Text) (before after : Value) : Prop :=
  (∃ s, os.get? k = some (.text s) ∧ after = .text s) ∨ (os.get? k = none ∧ after = before)

/-- All fields of an entry are derived from a reading, but for those that it inherits from the entry
before. -/
structure Derived (r : Reading) (before after : Entry) : Prop where
  options : after.options = r.options.toValue
  name : ∃ s, after.name = .text s ∧ (r.options.get? Key.name = some (.text s) ∨
    (r.options.get? Key.name = none ∧ r.options.get? Key.extract = some (.text s)))
  category : Inherits r.options Key.category before.category after.category
  group : Inherits r.options Key.group before.group after.group
  lines : after.lines = .texts (Layout.lines r.config.indent r.body)
  fragment : after.fragment = .text (Text.unlines (Layout.lines r.config.indent r.body))
  view : ∃ w, r.options.get? Key.wrap = some (.wrap w) ∧
    after.view = .text (Layout.view w (Layout.lines r.config.indent r.body)) ∧
    after.viewId.Identifies (Layout.view w (Layout.lines r.config.indent r.body))
  template : ∃ attributes, Attributes.ofValue? r.options.toValue = .ok attributes ∧
    after.optionsText = .text attributes ∧
    after.template = .text (Layout.template r.config.templateWrap attributes
      (Layout.lines r.config.indent r.body))
  id : after.id.Identifies r.text
  origin : after.origin = .text r.config.origin
  resources : after.resources = .map r.config.resources
  usage : after.usage = before.usage

theorem inherits_textAt {os : Options} (h : os.Declarable) {k : Text} (hk : k ∈ Key.verbatim)
    (before : Value) :
    Inherits os k before (((Options.View.textAt k os).map Value.text).getD before) := by
  rw [Inherits, h.textAt_eq hk]
  cases Options.View.textAt k os with
  | none => exact .inr ⟨rfl, rfl⟩
  | some s => exact .inl ⟨s, rfl, rfl⟩

/-- A block that is to be extracted has a name: the one it declares, else its path. -/
theorem exists_name_filled {config : Config} {source : Source} (e : Entry) (ids : Source.Ids)
    (hextract : (source.options config).get? Key.extract ≠ none) :
    ∃ s, (e.filled config source ids).name = .text s ∧
      ((source.options config).get? Key.name = some (.text s) ∨
        ((source.options config).get? Key.name = none ∧
          (source.options config).get? Key.extract = some (.text s))) := by
  have hos : (source.options config).Declarable := Header.declarable_options _ _
  obtain ⟨path, hpath⟩ :
      ∃ path, Options.View.textAt Key.extract (source.options config) = some path := by
    rw [hos.textAt_eq (by decide)] at hextract
    exact Option.ne_none_iff_exists'.1 fun hnone => hextract (by rw [hnone]; rfl)
  rw [hos.textAt_eq (by decide : Key.extract ∈ Key.verbatim),
    hos.textAt_eq (by decide : Key.name ∈ Key.verbatim), hpath]
  simp only [filled, Options.View.label, Options.View.ofOptions, hpath]
  cases Options.View.textAt Key.name (source.options config) with
  | none => exact ⟨path, rfl, .inr ⟨rfl, rfl⟩⟩
  | some s => exact ⟨s, rfl, .inl rfl⟩

/-- What a block shows is its lines in the wrap of its options. -/
theorem exists_wrap_view (config : Config) (source : Source) :
    ∃ w, (source.options config).get? Key.wrap = some (.wrap w) ∧
      source.view config = Layout.view w (Layout.lines config.indent source.body) := by
  have hos : (source.options config).Declarable := Header.declarable_options _ _
  obtain ⟨w, hw⟩ := hos.wrap
  refine ⟨w, hw, ?_⟩
  rw [Source.view, Options.View.ofOptions, hw]
  rfl

theorem derived_filled {config : Config} {source : Source} {ids : Source.Ids} (e : Entry)
    (hids : source.ids? config = .ok ids)
    (hextract : (source.options config).get? Key.extract ≠ none) :
    Derived (Reading.ofSource config source) e (e.filled config source ids) := by
  have hos : (source.options config).Declarable := Header.declarable_options _ _
  obtain ⟨w, hw, hview⟩ := exists_wrap_view config source
  obtain ⟨hid, hviewId⟩ := Source.ids?_eq_ok_iff.1 hids
  constructor
  case options => rfl
  case name => exact exists_name_filled e ids hextract
  case category => exact inherits_textAt hos (by decide) e.category
  case group => exact inherits_textAt hos (by decide) e.group
  case view => exact ⟨w, hw, congrArg Value.text hview, _, hview ▸ hviewId, rfl⟩
  case template => exact ⟨_, Attributes.ofValue?_toValue _, rfl, rfl⟩
  case id => exact ⟨_, hid, rfl⟩
  all_goals rfl

/-! ## Faults -/

/-- The source of a block, without its end markers, and its view hold characters only. -/
def Reading.Encodable (r : Reading) : Prop :=
  Text.allChars r.text = true ∧ ∀ w, r.options.get? Key.wrap = some (.wrap w) →
    Text.allChars (Layout.view w (Layout.lines r.config.indent r.body)) = true

/-- The fault that the source of a block has no identifier, or else that its view has none. -/
def Reading.Unidentified (r : Reading) (f : Fault) : Prop :=
  identify? r.text = .error f ∨
    (∃ i, identify? r.text = .ok i) ∧ ∃ w, r.options.get? Key.wrap = some (.wrap w) ∧
      identify? (Layout.view w (Layout.lines r.config.indent r.body)) = .error f

/-- Why reading a block into an entry fails. -/
inductive Fails (settings : Settings) (src : Text) (v : Value) : Fault → Prop
  /-- the configuration is refused -/
  | config {f : Fault} (hconfig : Config.merge? settings v = .error f) : Fails settings src v f
  /-- no comment is left of the source -/
  | comment {config : Config} (hconfig : Config.merge? settings v = .ok config)
      (hcomment : ¬HasComment (EndMarker.removeAll src)) :
      Fails settings src v (.noComment (Text.preview (EndMarker.removeAll src)))
  /-- the block is to be extracted and cannot be identified -/
  | identifiers {r : Reading} {f : Fault} (hr : Reads settings src v r)
      (hextract : r.options.get? Key.extract ≠ none) (hids : r.Unidentified f) :
      Fails settings src v f

theorem exists_ids?_iff_encodable {config : Config} {source : Source} :
    (∃ ids, source.ids? config = .ok ids) ↔ (Reading.ofSource config source).Encodable := by
  obtain ⟨w, hw, hshown⟩ := exists_wrap_view config source
  rw [Source.exists_ids?_iff, hshown]
  refine and_congr_right fun _ => ?_
  constructor
  · intro h w' hw'
    obtain rfl := Setting.wrap.inj (Option.some.inj (hw.symm.trans hw'))
    exact h
  · intro h
    exact h w hw

theorem ids?_eq_error_iff_unidentified {config : Config} {source : Source} {f : Fault} :
    source.ids? config = .error f ↔ (Reading.ofSource config source).Unidentified f := by
  obtain ⟨w, hw, hshown⟩ := exists_wrap_view config source
  rw [Source.ids?_eq_error_iff, hshown]
  refine or_congr_right (and_congr_right fun _ => ?_)
  constructor
  · intro h
    exact ⟨w, hw, h⟩
  · intro h
    obtain ⟨w', hw', h⟩ := h
    obtain rfl := Setting.wrap.inj (Option.some.inj (hw.symm.trans hw'))
    exact h

/-- What is read of a block tells whether it has its identifiers. -/
theorem Reads.exists_ids? {settings : Settings} {src : Text} {v : Value} {r : Reading}
    (h : Reads settings src v r) :
    ∃ source : Source, (r.Encodable ↔ ∃ ids, source.ids? r.config = .ok ids) ∧
      ∀ f, r.Unidentified f ↔ source.ids? r.config = .error f := by
  obtain ⟨source, -, -, hr⟩ := reads_iff.1 h
  refine ⟨source, ?_, fun f => ?_⟩
  · rw [exists_ids?_iff_encodable, ← hr]
  · rw [ids?_eq_error_iff_unidentified, ← hr]

theorem Reads.hasComment {settings : Settings} {src : Text} {v : Value} {r : Reading}
    (h : Reads settings src v r) : HasComment (EndMarker.removeAll src) := by
  by_contra hno
  have hparts := Comment.split?_eq_ok_iff.1 h.parts
  rw [h.text, Comment.first?_eq_none_iff.2 hno] at hparts
  cases hparts

/-- A block that is read can only fail for want of its identifiers. -/
theorem Reads.unidentified {settings : Settings} {src : Text} {v : Value} {r : Reading} {f : Fault}
    (h : Reads settings src v r) (hf : Fails settings src v f) :
    r.options.get? Key.extract ≠ none ∧ r.Unidentified f := by
  cases hf with
  | config hconfig => exact absurd (h.config.symm.trans hconfig) (by simp)
  | comment _ hno => exact absurd h.hasComment hno
  | identifiers hr hextract hids =>
    rw [h.unique hr]
    exact ⟨hextract, hids⟩

/-! ## The step -/

/-- The three ways in which reading a block into an entry can end, when each of them happens, and what
it does to the entry. -/
structure AllOrNothing (settings : Settings) (e : Entry) (src : Text) (v : Value) (a : Answer) :
    Prop where
  /-- the options that are read are always accepted as the options of a block -/
  accepted : ∀ r, Reads settings src v r →
    Options.View.read? r.options.toValue = .ok (Options.View.ofOptions r.options)
  exits : (∃ f, a.result = .error f) ∨ a.result = .ok (some false) ∨ a.result = .ok (some true)
  failed_iff : ∀ f, a.result = .error f ↔ Fails settings src v f
  skipped_iff : a.result = .ok (some false) ↔
    ∃ r, Reads settings src v r ∧ r.options.get? Key.extract = none
  filled_iff : a.result = .ok (some true) ↔
    ∃ r, Reads settings src v r ∧ r.options.get? Key.extract ≠ none ∧ r.Encodable
  failed : ∀ f, a.result = .error f → a.entry = e
  skipped : a.result = .ok (some false) → a.entry = e
  filled : a.result = .ok (some true) → ∀ r, Reads settings src v r → Derived r e a.entry

theorem made?_eq (e : Entry) (config : Config) (source : Source) :
    e.made? config source =
      if (source.options config).get? Key.extract = none then .ok none
      else (source.ids? config).map fun ids => some (e.filled config source ids) := by
  have hasked : (Options.View.ofOptions (source.options config)).isExtraction = true ↔
      (source.options config).get? Key.extract ≠ none :=
    (Header.declarable_options source.header config.wrap).isExtraction_iff
  rw [made?]
  by_cases hextract : (source.options config).get? Key.extract = none
  · rw [if_pos hextract, if_neg fun hask => hasked.1 hask hextract]
  · rw [if_neg hextract, if_pos (hasked.2 hextract)]

theorem result_parse_of_merge? {settings : Settings} {v : Value} {config : Config}
    (hconfig : Config.merge? settings v = .ok config) (e : Entry) (src : Text) :
    (parse settings e src v).result = (Source.read? src).bind (e.made? config) := by
  rw [parse, hconfig]
  exact result_process e config src

/-- The step case by case. -/
theorem step_parse_cases (settings : Settings) (e : Entry) (src : Text) (v : Value) :
    (∃ f, Fails settings src v f ∧ (step settings e (.parse src v)).result = .error f ∧
      (step settings e (.parse src v)).entry = e) ∨
    (∃ r, Reads settings src v r ∧ r.options.get? Key.extract = none ∧
      (step settings e (.parse src v)).result = .ok (some false) ∧
      (step settings e (.parse src v)).entry = e) ∨
    (∃ r, Reads settings src v r ∧ r.options.get? Key.extract ≠ none ∧ r.Encodable ∧
      (step settings e (.parse src v)).result = .ok (some true) ∧
      Derived r e (step settings e (.parse src v)).entry) := by
  have herror {f : Fault} (h : (parse settings e src v).result = .error f) :
      (step settings e (.parse src v)).result = .error f ∧
        (step settings e (.parse src v)).entry = e := by
    simp [step, h]
  cases hconfig : Config.merge? settings v with
  | error f => exact .inl ⟨f, .config hconfig, herror (by rw [parse, hconfig]; rfl)⟩
  | ok config =>
    have hresult := result_parse_of_merge? hconfig e src
    cases hsource : Source.read? src with
    | error f =>
      obtain ⟨hnone, rfl⟩ := Source.read?_eq_error_iff.1 hsource
      rw [hsource] at hresult
      exact .inl ⟨_, .comment hconfig (Comment.first?_eq_none_iff.1 hnone), herror hresult⟩
    | ok source =>
      have hreads : Reads settings src v (Reading.ofSource config source) :=
        reads_iff.2 ⟨source, hconfig, hsource, rfl⟩
      have hmade : (parse settings e src v).result = e.made? config source := by
        rw [hresult, hsource]
        rfl
      rw [made?_eq] at hmade
      by_cases hextract : (source.options config).get? Key.extract = none
      · rw [if_pos hextract] at hmade
        exact .inr (.inl ⟨_, hreads, hextract, by simp [step, hmade], by simp [step, hmade]⟩)
      · rw [if_neg hextract] at hmade
        cases hids : source.ids? config with
        | error f =>
          rw [hids] at hmade
          exact .inl ⟨f, .identifiers hreads hextract (ids?_eq_error_iff_unidentified.1 hids), herror hmade⟩
        | ok ids =>
          rw [hids] at hmade
          have hdone : (parse settings e src v).result =
              .ok (some (e.filled config source ids)) := hmade
          have hentry : (step settings e (.parse src v)).entry = e.filled config source ids := by
            simp [step, hdone]
          refine .inr (.inr ⟨_, hreads, hextract, exists_ids?_iff_encodable.1 ⟨ids, hids⟩, by simp [step, hdone], ?_⟩)
          rw [hentry]
          exact derived_filled e hids hextract

/-- An entry that a block has made is derived from the reading of that block. -/
theorem exists_derived_of_parse {settings : Settings} {e : Entry} {src : Text} {v : Value}
    (h : (step settings e (.parse src v)).result = .ok (some true)) :
    ∃ r, Reads settings src v r ∧ r.options.get? Key.extract ≠ none ∧
      Derived r e (step settings e (.parse src v)).entry := by
  rcases step_parse_cases settings e src v with
    ⟨f, -, hresult, -⟩ | ⟨r, -, -, hresult, -⟩ | ⟨r, hr, hextract, -, -, hderived⟩
  · simp [hresult] at h
  · simp [hresult] at h
  · exact ⟨r, hr, hextract, hderived⟩

theorem Reads.not_fails {settings : Settings} {src : Text} {v : Value} {r : Reading} {f : Fault}
    (h : Reads settings src v r) (hencodable : r.Encodable) : ¬Fails settings src v f := by
  intro hfails
  obtain ⟨source, hok, herror⟩ := h.exists_ids?
  obtain ⟨ids, hids⟩ := hok.1 hencodable
  rw [(herror f).1 (h.unidentified hfails).2] at hids
  cases hids

section AllOrNothing

variable {settings : Settings} {e : Entry} {src : Text} {v : Value} {a : Answer} {r : Reading}

/-- A block fails in one way only. -/
theorem Fails.unique {f f' : Fault} (h : Fails settings src v f) (h' : Fails settings src v f') :
    f = f' := by
  cases h with
  | config hconfig =>
    cases h' with
    | config hconfig' => exact Except.error.inj (hconfig.symm.trans hconfig')
    | comment hconfig' => exact absurd (hconfig.symm.trans hconfig') (by simp)
    | identifiers hr => exact absurd (hr.config.symm.trans hconfig) (by simp)
  | comment hconfig hno =>
    cases h' with
    | config hconfig' => exact absurd (hconfig.symm.trans hconfig') (by simp)
    | comment => rfl
    | identifiers hr => exact absurd hr.hasComment hno
  | identifiers hr hextract hunidentified =>
    obtain ⟨source, -, hids⟩ := hr.exists_ids?
    have hsame := ((hids f).1 hunidentified).symm.trans ((hids f').1 (hr.unidentified h').2)
    exact Except.error.inj hsame

theorem AllOrNothing.of_failed {f : Fault} (hfails : Fails settings src v f)
    (hresult : a.result = .error f) (hentry : a.entry = e) :
    AllOrNothing settings e src v a := by
  constructor
  case accepted => exact fun r hr => hr.accepted
  case exits => exact .inl ⟨f, hresult⟩
  case failed => exact fun _ _ => hentry
  all_goals rw [hresult]
  case failed_iff =>
    intro f'
    constructor
    · intro h
      exact Except.error.inj h ▸ hfails
    · intro h
      rw [hfails.unique h]
  case skipped_iff =>
    refine ⟨by simp, ?_⟩
    intro h
    obtain ⟨r, hr, hnone⟩ := h
    exact absurd hnone (hr.unidentified hfails).1
  case filled_iff =>
    refine ⟨by simp, ?_⟩
    intro h
    obtain ⟨r, hr, -, hencodable⟩ := h
    exact absurd hfails (hr.not_fails hencodable)
  case skipped => simp
  case filled => simp

theorem AllOrNothing.of_skipped (hr : Reads settings src v r)
    (hnone : r.options.get? Key.extract = none) (hresult : a.result = .ok (some false))
    (hentry : a.entry = e) : AllOrNothing settings e src v a := by
  constructor
  case accepted => exact fun r hr => hr.accepted
  case exits => exact .inr (.inl hresult)
  case failed => exact fun _ _ => hentry
  all_goals rw [hresult]
  case failed_iff =>
    intro f
    refine ⟨by simp, ?_⟩
    intro h
    exact absurd hnone (hr.unidentified h).1
  case skipped_iff => exact ⟨fun _ => ⟨r, hr, hnone⟩, fun _ => rfl⟩
  case filled_iff =>
    refine ⟨by simp, ?_⟩
    intro h
    obtain ⟨r', hr', hsome, -⟩ := h
    rw [hr'.unique hr] at hsome
    exact absurd hnone hsome
  case skipped => exact fun _ => hentry
  case filled => simp

theorem AllOrNothing.of_filled (hr : Reads settings src v r)
    (hsome : r.options.get? Key.extract ≠ none) (hencodable : r.Encodable)
    (hresult : a.result = .ok (some true)) (hderived : Derived r e a.entry) :
    AllOrNothing settings e src v a := by
  constructor
  case accepted => exact fun r hr => hr.accepted
  case exits => exact .inr (.inr hresult)
  all_goals rw [hresult]
  case failed_iff =>
    intro f
    refine ⟨by simp, ?_⟩
    intro h
    exact absurd h (hr.not_fails hencodable)
  case skipped_iff =>
    refine ⟨by simp, ?_⟩
    intro h
    obtain ⟨r', hr', hnone⟩ := h
    rw [hr'.unique hr] at hnone
    exact absurd hnone hsome
  case filled_iff => exact ⟨fun _ => ⟨r, hr, hsome, hencodable⟩, fun _ => rfl⟩
  case failed => simp
  case skipped => simp
  case filled =>
    intro _ r' hr'
    rw [hr'.unique hr]
    exact hderived

end AllOrNothing

/-- **Reading a block is all or nothing,** for every entry, source and configuration. -/
theorem allOrNothing_parse (settings : Settings) (e : Entry) (src : Text) (v : Value) :
    AllOrNothing settings e src v (step settings e (.parse src v)) := by
  rcases step_parse_cases settings e src v with
    ⟨f, hfails, hresult, hentry⟩ | ⟨r, hr, hnone, hresult, hentry⟩ |
      ⟨r, hr, hsome, hencodable, hresult, hderived⟩
  · exact .of_failed hfails hresult hentry
  · exact .of_skipped hr hnone hresult hentry
  · exact .of_filled hr hsome hencodable hresult hderived

/-- A block with a surrogate for its body. -/
def surrogateSource : Text := "<!--extract:a-->".toText ++ [.firstSurrogate]

/-- The configuration is accepted and the block has a comment, and the step fails all the same. -/
theorem parse_surrogate :
    (∃ config, Config.merge? .standard .null = .ok config) ∧
      HasComment (EndMarker.removeAll surrogateSource) ∧
      (step .standard (blank .standard) (.parse surrogateSource .null)).result =
        .error (.unencodable ⟨16, [.firstSurrogate]⟩) := by
  have hfirst : Comment.first? (EndMarker.removeAll surrogateSource) =
      some ("extract:a".toText, [.firstSurrogate]) := by
    decide +kernel
  refine ⟨⟨_, rfl⟩, ?_, by decide +kernel⟩
  by_contra hno
  rw [← Comment.first?_eq_none_iff, hfirst] at hno
  cases hno

end MarkupCatalog.Entry
