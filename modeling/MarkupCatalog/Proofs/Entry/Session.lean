/-
Entries over whole sessions. Six fields of an entry tell the same block in several ways, and agree
with each other once a block has filled them (`Consistent`). A step does nothing to an entry if it
fails, and setting a field does nothing to the others (`confined_step`); so no step but another block
touches these six, and they still agree after any number of steps (`consistent_of_mem_states`).
`sessionLaw_run` puts both together.
-/
import MarkupCatalog.Proofs.Entry.Parse
import MarkupCatalog.Proofs.Layout

namespace MarkupCatalog.Entry

/-! ## Fields that agree -/

/-- The fields that tell the same block in several ways. -/
def derivedFields : List Field := [.lines, .fragment, .view, .viewId, .options, .optionsText]

/-- The derived fields of an entry come from these lines and options, and from this wrap. -/
structure Agrees (ls : List Text) (os : Options) (w : Wrap) (e : Entry) : Prop where
  lines : e.lines = .texts ls
  first : ∀ l, ls.head? = some l → l ≠ []
  last : ∀ l, ls.getLast? = some l → l ≠ []
  fragment : e.fragment = .text (Text.unlines ls)
  options : e.options = os.toValue
  extract : os.get? Key.extract ≠ none
  wrap : os.get? Key.wrap = some (.wrap w)
  view : e.view = .text (Layout.view w ls)
  viewId : e.viewId.Identifies (Layout.view w ls)
  optionsText : ∃ s, Attributes.ofValue? e.options = .ok s ∧ e.optionsText = .text s

/-- The derived fields of an entry agree with each other. -/
def Consistent (e : Entry) : Prop := ∃ ls os w, Agrees ls os w e

theorem consistent_of_derived {r : Reading} {before after : Entry}
    (hextract : r.options.get? Key.extract ≠ none) (h : Derived r before after) :
    Consistent after := by
  obtain ⟨w, hwrap, hview, hviewId⟩ := h.view
  obtain ⟨attributes, hattributes, htext, -⟩ := h.template
  refine ⟨Layout.lines r.config.indent r.body, r.options, w, ?_⟩
  constructor
  case lines => exact h.lines
  case first => exact fun l hl => Layout.head?_lines hl
  case last => exact fun l hl => Layout.getLast?_lines hl
  case fragment => exact h.fragment
  case options => exact h.options
  case extract => exact hextract
  case wrap => exact hwrap
  case view => exact hview
  case viewId => exact hviewId
  case optionsText => exact ⟨attributes, h.options ▸ hattributes, htext⟩

/-- Whether the derived fields agree is a matter of these fields alone. -/
theorem Consistent.congr {e e' : Entry} (h : Consistent e)
    (heq : ∀ f ∈ derivedFields, e'.get f = e.get f) : Consistent e' := by
  obtain ⟨ls, os, w, ha⟩ := h
  have hlines : e'.lines = e.lines := heq .lines (by decide)
  have hfragment : e'.fragment = e.fragment := heq .fragment (by decide)
  have hview : e'.view = e.view := heq .view (by decide)
  have hviewId : e'.viewId = e.viewId := heq .viewId (by decide)
  have hoptions : e'.options = e.options := heq .options (by decide)
  have htext : e'.optionsText = e.optionsText := heq .optionsText (by decide)
  refine ⟨ls, os, w, ?_⟩
  constructor
  case first => exact ha.first
  case last => exact ha.last
  case extract => exact ha.extract
  case wrap => exact ha.wrap
  case lines => rw [hlines, ha.lines]
  case fragment => rw [hfragment, ha.fragment]
  case view => rw [hview, ha.view]
  case viewId => exact hviewId ▸ ha.viewId
  case options => rw [hoptions, ha.options]
  case optionsText =>
    rw [hoptions, htext]
    exact ha.optionsText

/-! ## One step -/

/-- What a step may do to the entry before it. -/
structure Confined (before : Entry) (s : Step) (a : Answer) : Prop where
  /-- a step that comes to a fault, or to the result `false`, does nothing -/
  failed : (∃ f, a.result = .error f) ∨ a.result = .ok (some false) → a.entry = before
  /-- setting by type takes the values of its kind, and fails with all others -/
  accepted : ∀ t v, s = .setTyped t v →
    (a.result = .ok none ∧ hasKind v t.kind = true) ∨
      (a.result = .error (.wrongKind t.field t.kind v.kind) ∧ hasKind v t.kind = false)
  /-- setting by type changes the one field -/
  typed : ∀ t v, s = .setTyped t v → a.result = .ok none →
    a.entry.get t.field = v ∧ ∀ f, f ≠ t.field → a.entry.get f = before.get f

theorem confined_setNamed (settings : Settings) (e : Entry) (name v : Value) :
    Confined e (.setNamed name v) (step settings e (.setNamed name v)) := by
  constructor
  case failed =>
    simp only [step]
    cases e.setNamed? name v with
    | none => simp
    | some e' => simp
  case accepted => simp
  case typed => simp

theorem confined_setTyped (settings : Settings) (e : Entry) (t : Typed) (v : Value) :
    Confined e (.setTyped t v) (step settings e (.setTyped t v)) := by
  simp only [step, setTyped?]
  cases hkind : hasKind v t.kind with
  | false =>
    constructor
    case failed => simp
    case typed => simp
    case accepted =>
      rintro _ _ ⟨⟩
      exact .inr ⟨rfl, hkind⟩
  | true =>
    constructor
    case failed => simp
    case accepted =>
      rintro _ _ ⟨⟩
      exact .inl ⟨rfl, hkind⟩
    case typed =>
      rintro _ _ ⟨⟩ -
      exact ⟨get_set_self e t.field v, fun f hf => get_set_other hf e v⟩

theorem confined_parse (settings : Settings) (e : Entry) (src : Text) (v : Value) :
    Confined e (.parse src v) (step settings e (.parse src v)) := by
  constructor
  case failed =>
    intro hfailed
    rcases step_parse_cases settings e src v with
      ⟨f, -, -, hentry⟩ | ⟨r, -, -, -, hentry⟩ | ⟨r, -, -, -, hresult, -⟩
    · exact hentry
    · exact hentry
    · rw [hresult] at hfailed
      simp at hfailed
  case accepted => simp
  case typed => simp

theorem confined_step (settings : Settings) (e : Entry) (s : Step) :
    Confined e s (step settings e s) := by
  cases s with
  | setNamed name v => exact confined_setNamed settings e name v
  | setTyped t v => exact confined_setTyped settings e t v
  | parse src v => exact confined_parse settings e src v

/-- The step sets no derived field by its name. -/
def Step.SparesDerived : Step → Prop
  | .setNamed name _ => ∀ f, fieldOf? name = some f → f ∉ derivedFields
  | .setTyped .. | .parse .. => True

theorem Consistent.set {e : Entry} (h : Consistent e) {f : Field} (hf : f ∉ derivedFields)
    (v : Value) : Consistent (e.set f v) := by
  refine h.congr fun g hg => get_set_other ?_ e v
  rintro rfl
  exact hf hg

theorem Typed.field_not_mem (t : Typed) : t.field ∉ derivedFields := by
  cases t <;> decide

/-- A block that is read makes the derived fields agree, whatever they were before. -/
theorem consistent_of_parse {settings : Settings} {e : Entry} {src : Text} {v : Value}
    (h : (step settings e (.parse src v)).result = .ok (some true)) :
    Consistent (step settings e (.parse src v)).entry := by
  obtain ⟨r, -, hextract, hderived⟩ := exists_derived_of_parse h
  exact consistent_of_derived hextract hderived

/-- The derived fields go on to agree after any step that does not set one of them by its name. -/
theorem Consistent.step {e : Entry} (h : Consistent e) (settings : Settings) {s : Step}
    (hs : s.SparesDerived) : Consistent (step settings e s).entry := by
  cases s with
  | setNamed name v =>
    simp only [Entry.step, setNamed?]
    cases hfield : fieldOf? name with
    | none => exact h
    | some f => exact h.set (hs f hfield) v
  | setTyped t v =>
    simp only [Entry.step, setTyped?]
    cases hasKind v t.kind with
    | false => exact h
    | true => exact h.set t.field_not_mem v
  | parse src v =>
    rcases step_parse_cases settings e src v with
      ⟨f, -, -, hentry⟩ | ⟨r, -, -, -, hentry⟩ | ⟨r, -, hextract, -, -, hderived⟩
    · rwa [hentry]
    · rwa [hentry]
    · exact consistent_of_derived hextract hderived

/-! ## A whole session -/

/-- The states of a session: the entry before the first step, and after each step. -/
def states (settings : Settings) (e : Entry) (ss : List Step) : List Entry :=
  e :: (run settings e ss).map (·.entry)

theorem states_cons (settings : Settings) (e : Entry) (s : Step) (ss : List Step) :
    states settings e (s :: ss) = e :: states settings (step settings e s).entry ss := rfl

theorem length_run (settings : Settings) (e : Entry) (ss : List Step) :
    (run settings e ss).length = ss.length := by
  induction ss generalizing e with
  | nil => rfl
  | cons s ss ih => rw [run, List.length_cons, ih, List.length_cons]

/-- Each step is taken in the state that the steps before it have left, and its answer holds the
next one. -/
theorem getElem?_run (settings : Settings) (e : Entry) {ss : List Step} {i : Nat} {s : Step}
    (h : ss[i]? = some s) :
    ∃ before, (states settings e ss)[i]? = some before ∧
      (run settings e ss)[i]? = some (step settings before s) ∧
      (states settings e ss)[i + 1]? = some (step settings before s).entry := by
  induction ss generalizing e i with
  | nil => simp at h
  | cons s' ss ih =>
    cases i with
    | zero =>
      obtain rfl := Option.some.inj h
      exact ⟨e, rfl, rfl, rfl⟩
    | succ i =>
      rw [List.getElem?_cons_succ] at h
      exact ih _ h

/-- From a state in which the derived fields agree, they agree to the end. -/
theorem consistent_of_mem_states {settings : Settings} {e : Entry} {ss : List Step}
    (h : Consistent e) (hss : ∀ s ∈ ss, s.SparesDerived) :
    ∀ e' ∈ states settings e ss, Consistent e' := by
  induction ss generalizing e with
  | nil =>
    intro e' he'
    obtain rfl := List.mem_singleton.1 he'
    exact h
  | cons s ss ih =>
    rw [states_cons, List.forall_mem_cons]
    exact ⟨h, ih (h.step settings (hss s List.mem_cons_self))
      fun s' hs' => hss s' (List.mem_cons_of_mem _ hs')⟩

/-- Once a block has been read, the derived fields agree in all states to come. -/
theorem consistent_of_lt {settings : Settings} {e : Entry} {ss : List Step}
    (hss : ∀ s ∈ ss, s.SparesDerived) {i : Nat} {src : Text} {v : Value} {a : Answer}
    (hstep : ss[i]? = some (.parse src v)) (hanswer : (run settings e ss)[i]? = some a)
    (hresult : a.result = .ok (some true)) {j : Nat} (hij : i < j) {after : Entry}
    (hafter : (states settings e ss)[j]? = some after) : Consistent after := by
  induction ss generalizing e i j with
  | nil => simp at hstep
  | cons s ss ih =>
    have hrest : ∀ s' ∈ ss, s'.SparesDerived := fun s' hs' => hss s' (List.mem_cons_of_mem _ hs')
    obtain ⟨j, rfl⟩ : ∃ j', j = j' + 1 := ⟨j - 1, by omega⟩
    rw [states_cons, List.getElem?_cons_succ] at hafter
    cases i with
    | zero =>
      obtain rfl := Option.some.inj hstep
      obtain rfl := Option.some.inj hanswer
      exact consistent_of_mem_states (consistent_of_parse hresult) hrest _
        (List.mem_of_getElem? hafter)
    | succ i =>
      rw [List.getElem?_cons_succ] at hstep
      exact ih hrest hstep hanswer (Nat.lt_of_succ_lt_succ hij) hafter

/-- What holds of a session: each step gets an answer and does no more than it may, and once a block
has been read, the derived fields agree in all states to come. -/
structure SessionLaw (settings : Settings) (e : Entry) (ss : List Step) : Prop where
  answered : (run settings e ss).length = ss.length
  confined : ∀ (i : Nat) (s : Step), ss[i]? = some s →
    ∃ before a, (states settings e ss)[i]? = some before ∧ (run settings e ss)[i]? = some a ∧
      (states settings e ss)[i + 1]? = some a.entry ∧ Confined before s a
  consistent : ∀ (i j : Nat) (src : Text) (v : Value) (a : Answer) (after : Entry),
    ss[i]? = some (.parse src v) → (run settings e ss)[i]? = some a → a.result = .ok (some true) →
      i < j → (states settings e ss)[j]? = some after → Consistent after

/-- **Derived fields agree over whole sessions,** from any entry on and through any steps, as long as
none of them sets a derived field by its name. -/
theorem sessionLaw_run (settings : Settings) (e : Entry) {ss : List Step}
    (hss : ∀ s ∈ ss, s.SparesDerived) : SessionLaw settings e ss := by
  constructor
  case answered => exact length_run settings e ss
  case confined =>
    intro i s hs
    obtain ⟨before, hbefore, hanswer, hafter⟩ := getElem?_run settings e hs
    exact ⟨before, _, hbefore, hanswer, hafter, confined_step settings before s⟩
  case consistent =>
    intro i j src v a after hstep hanswer hresult hij hafter
    exact consistent_of_lt hss hstep hanswer hresult hij hafter

/-- A session in which a block is read between steps that fail. -/
def sampleSteps : List Step :=
  [.setTyped .name (.int 1), .parse "<p>".toText .null,
   .parse "<!-- extract:a wrap:<b>:</b> -->\n\t<p>\n\n<!-- endextract -->".toText .null,
   .setTyped .usage (.list []), .parse "<!-- name:b --> ".toText .null, .setTyped .category (.text [])]

theorem sessionLaw_run_sample :
    (∀ s ∈ sampleSteps, s.SparesDerived) ∧
      SessionLaw .standard (.blank .standard) sampleSteps := by
  have hspares : ∀ s ∈ sampleSteps, s.SparesDerived := by
    intro s hs
    simp only [sampleSteps, List.mem_cons, List.not_mem_nil, or_false] at hs
    rcases hs with rfl | rfl | rfl | rfl | rfl | rfl <;> exact trivial
  exact ⟨hspares, sessionLaw_run .standard (.blank .standard) hspares⟩

example : ((run .standard (.blank .standard) sampleSteps).map fun a => a.result.toOption) =
    [none, none, some (some true), some none, some (some false), some none] := by
  decide +kernel

end MarkupCatalog.Entry
