/-
The options and the inputs of the command line. An indentation is all that a configuration needs
(`config?_eq`). What an input yields is told case by case (`Yields`). It depends on nothing but what
the path of that input leads to (`yields_congr`), and reading all inputs is reading each one
(`exists_readInputs`), as long as options and paths hold characters only.
-/
import MarkupCatalog.Proofs.CommandLine.Arguments
import MarkupCatalog.Proofs.Entry.Writing

namespace MarkupCatalog.CommandLine

/-! ## Options -/

namespace Request

/-- The wrap that an argument means. -/
def wrapOf : Option Text → Wrap
  | none | some [] => .empty
  | some s =>
    match Text.cut [.char ':'] s with
    | some (before, after) => ⟨.text before, .text after⟩
    | none => .both (.text s)

/-- The configuration that the options mean, with an indentation. -/
def configWith (r : Request) (indent : Text) : Config where
  indent := indent
  origin := []
  resources := Config.noResources
  wrap := wrapOf r.wrap
  templateWrap := .ofRecord [valueOf r.templateBefore, valueOf r.templateAfter]

theorem wrapPairs_cases (w : Option Text) :
    (wrapPairs w = [] ∧ wrapOf w = .empty) ∨
      ∃ v, wrapPairs w = [(.text Config.wrapKey, v)] ∧ Wrap.ofValue? v = .ok (wrapOf w) := by
  match w with
  | none | some [] => exact .inl ⟨rfl, rfl⟩
  | some (c :: s) =>
    right
    simp only [wrapPairs, wrapOf]
    cases Text.cut [.char ':'] (c :: s) with
    | none => exact ⟨_, rfl, rfl⟩
    | some p => exact ⟨_, rfl, rfl⟩

/-- Options are refused only where the indentation has no value. -/
theorem config?_eq (settings : Settings) (r : Request) :
    r.config? settings =
      match r.indent with
      | some indent => .ok (r.configWith indent)
      | none => .error (.invalid [⟨[.key Config.indentKey], .noText⟩]) := by
  obtain ⟨inputs, indent, wrap, templateBefore, templateAfter, output, verbose⟩ := r
  simp only [config?, Config.merge?, overrides, configWith]
  obtain ⟨hpairs, hwrap⟩ | ⟨v, hpairs, hwrap⟩ := wrapPairs_cases wrap
  · rw [hpairs, hwrap]
    cases indent <;> rfl
  · -- the wrap is read before all else, so the rest is computed once its value is known
    rw [hpairs]
    cases indent <;>
      (change (Wrap.ofValue? v).bind _ = _
       rw [hwrap]
       rfl)

theorem allChars_wrapOf {w : Option Text} (h : ∀ s, w = some s → Text.allChars s = true) :
    (wrapOf w).allChars = true := by
  match w with
  | none | some [] => rfl
  | some (c :: s) =>
    have hs := h _ rfl
    simp only [wrapOf]
    cases hcut : Text.cut [.char ':'] (c :: s) with
    | none => simp only [Wrap.allChars, Wrap.both, Label.content, hs, Bool.and_self]
    | some p =>
      obtain ⟨before, after⟩ := p
      rw [Text.cut_eq_some hcut] at hs
      simp only [Text.allChars_append, Bool.and_eq_true] at hs
      simp only [Wrap.allChars, Label.content, hs.1.1, hs.2, Bool.and_self]

theorem allChars_content_valueOf {o : Option Text} (h : ∀ s, o = some s → Text.allChars s = true) :
    Text.allChars (Label.ofValue (valueOf o)).content = true := by
  cases o with
  | none => decide
  | some s => exact h s rfl

theorem AllChars.configWith {r : Request} (h : r.AllChars) {indent : Text}
    (given : r.indent = some indent) : (r.configWith indent).AllChars := by
  have hbefore := allChars_content_valueOf h.templateBefore
  have hafter := allChars_content_valueOf h.templateAfter
  constructor
  case indent => exact h.indent indent given
  case origin => rfl
  case wrap => exact allChars_wrapOf h.wrap
  case templateWrap =>
    simp only [Request.configWith, Wrap.ofRecord, Wrap.allChars, hbefore, Bool.true_and]
    split
    · exact hbefore
    · exact hafter

end Request

/-! ## One input -/

/-- What extraction makes of the text of an input, with its path as the origin. -/
def extracted (settings : Settings) (config : Config) (path document : Text) :
    Outcome (List Entry) :=
  Extraction.extract settings (Text.unified document) { config with origin := path }.toValue []

/-- What the input `path` yields. -/
inductive Yields (settings : Settings) (config : Config) (look : Text → Target) (path : Text) :
    InputReport → Prop
  | missing (nothing : look path = .missing ∨ look path = .belowFile) :
    Yields settings config look path ⟨[], "✗ Error: File not found: ".toText ++ path, none⟩
  | directory (directory : look path = .directory) :
    Yields settings config look path
      ⟨[], about '✗' path (FileFault.message ⟨.directory, path⟩), none⟩
  | undecodable {bytes : List UInt8} {m : Utf8.Malformed} (file : look path = .file bytes)
      (malformed : Utf8.decode bytes = .error m) :
    Yields settings config look path ⟨[], about '✗' path m.message, none⟩
  | uncommented {bytes : List UInt8} {document preview : Text} (file : look path = .file bytes)
      (decoded : Utf8.decode bytes = .ok document)
      (fault : (extracted settings config path document).result = .error (.noComment preview)) :
    Yields settings config look path
      ⟨(extracted settings config path document).log,
        about '✗' path ("annotation error: ".toText ++ (Fault.noComment preview).message), none⟩
  | empty {bytes : List UInt8} {document : Text} (file : look path = .file bytes)
      (decoded : Utf8.decode bytes = .ok document)
      (entries : (extracted settings config path document).result = .ok []) :
    Yields settings config look path
      ⟨(extracted settings config path document).log,
        about '⚠' path "no extract blocks found".toText, some []⟩
  | found {bytes : List UInt8} {document : Text} {es : List Entry} (file : look path = .file bytes)
      (decoded : Utf8.decode bytes = .ok document)
      (entries : (extracted settings config path document).result = .ok es) (some_entry : es ≠ []) :
    Yields settings config look path
      ⟨(extracted settings config path document).log,
        about '✓' path (Text.ofNat es.length ++ " entries".toText), some es⟩

section

variable {settings : Settings} {config : Config} {look : Text → Target} {path : Text}

theorem extracted_eq (document : Text) :
    extracted settings config path document =
      Extraction.ofDocument settings { config with origin := path } (Text.unified document) := by
  simp only [extracted, Extraction.extract, Config.toValue, Config.merge?, Extraction.withOrigin]
  split
  · next h => simp_all
  · rfl

theorem eq_noComment_of_extracted {document : Text} {f : Fault}
    (hdocument : Text.allChars document = true) (hconfig : config.AllChars)
    (hpath : Text.allChars path = true)
    (h : (extracted settings config path document).result = .error f) : ∃ p, f = .noComment p := by
  rw [extracted_eq] at h
  exact Extraction.eq_noComment_of_result_ofDocument (Text.allChars_unified hdocument)
    (hconfig.withOrigin hpath) h

theorem readBytes_of_malformed {bytes : List UInt8} {m : Utf8.Malformed}
    (h : Utf8.decode bytes = .error m) :
    readBytes settings config path bytes = .ok (failed [] path m.message) := by
  rw [readBytes, h]

theorem readBytes_of_noComment {bytes : List UInt8} {document preview : Text}
    (decoded : Utf8.decode bytes = .ok document)
    (fault : (extracted settings config path document).result = .error (.noComment preview)) :
    readBytes settings config path bytes =
      .ok (failed (extracted settings config path document).log path
        ("annotation error: ".toText ++ (Fault.noComment preview).message)) := by
  rw [extracted_eq] at fault ⊢
  simp only [readBytes, decoded, fault]

theorem readBytes_of_entries {bytes : List UInt8} {document : Text} {es : List Entry}
    (decoded : Utf8.decode bytes = .ok document)
    (entries : (extracted settings config path document).result = .ok es) :
    readBytes settings config path bytes =
      .ok ⟨(extracted settings config path document).log, counted path es.length, some es⟩ := by
  rw [extracted_eq] at entries ⊢
  simp only [readBytes, decoded, entries]

theorem readBytes_of_unencodable {bytes : List UInt8} {document : Text} {u : Utf8.Unencodable}
    (decoded : Utf8.decode bytes = .ok document)
    (fault : (extracted settings config path document).result = .error (.unencodable u)) :
    readBytes settings config path bytes =
      .error ⟨(extracted settings config path document).log, .entry (.unencodable u)⟩ := by
  rw [extracted_eq] at fault ⊢
  simp only [readBytes, decoded, fault]

theorem yields_of_readBytes {bytes : List UInt8} {i : InputReport} (file : look path = .file bytes)
    (h : readBytes settings config path bytes = .ok i) : Yields settings config look path i := by
  cases decoded : Utf8.decode bytes with
  | error m =>
    rw [readBytes_of_malformed decoded] at h
    obtain rfl := Except.ok.inj h
    exact .undecodable file decoded
  | ok document =>
    cases result : (extracted settings config path document).result with
    | error f =>
      have hfault := result
      rw [extracted_eq, Extraction.result_ofDocument] at hfault
      obtain ⟨preview, rfl⟩ | ⟨u, rfl⟩ :=
        Extraction.noComment_or_unencodable_of_result_entries hfault
      · rw [readBytes_of_noComment decoded result] at h
        obtain rfl := Except.ok.inj h
        exact .uncommented file decoded result
      · rw [readBytes_of_unencodable decoded result] at h
        cases h
    | ok es =>
      rw [readBytes_of_entries decoded result] at h
      obtain rfl := Except.ok.inj h
      cases es with
      | nil => exact .empty file decoded result
      | cons e es => exact .found file decoded result (by simp)

/-- The cases say all that reading an input does. -/
theorem yields_iff {i : InputReport} :
    Yields settings config look path i ↔ readInput settings config look path = .ok i := by
  constructor
  · intro h
    cases h with
    | missing nothing => obtain h | h := nothing <;> rw [readInput, h]
    | directory directory =>
      rw [readInput, directory]
      rfl
    | undecodable file malformed =>
      rw [readInput, file]
      exact readBytes_of_malformed malformed
    | uncommented file decoded fault =>
      rw [readInput, file]
      exact readBytes_of_noComment decoded fault
    | empty file decoded entries =>
      rw [readInput, file]
      exact readBytes_of_entries decoded entries
    | found file decoded entries some_entry =>
      rw [readInput, file]
      simp [readBytes_of_entries decoded entries, counted, some_entry]
  · intro h
    rw [readInput] at h
    split at h
    · next target =>
      cases h
      exact .missing (.inl target)
    · next target =>
      cases h
      exact .missing (.inr target)
    · cases h
    · next target =>
      cases h
      exact .directory target
    · next target => exact yields_of_readBytes target h

theorem yields_congr {look' : Text → Target} (h : look path = look' path) {i : InputReport} :
    Yields settings config look path i ↔ Yields settings config look' path i := by
  rw [yields_iff, yields_iff, readInput, readInput, h]

theorem Yields.unique {i i' : InputReport} (h : Yields settings config look path i)
    (h' : Yields settings config look path i') : i = i' :=
  Except.ok.inj ((yields_iff.1 h).symm.trans (yields_iff.1 h'))

/-- A path of characters that a file system takes yields something, under options of characters. -/
theorem exists_yields (hconfig : config.AllChars) (hpath : Text.allChars path = true)
    (h : look path ≠ .tooLong) : ∃ i, Yields settings config look path i := by
  simp only [yields_iff, readInput]
  cases target : look path with
  | tooLong => exact absurd target h
  | missing | belowFile | directory => exact ⟨_, rfl⟩
  | file bytes =>
    cases decoded : Utf8.decode bytes with
    | error m => exact ⟨_, readBytes_of_malformed decoded⟩
    | ok document =>
      cases result : (extracted settings config path document).result with
      | error f =>
        obtain ⟨preview, rfl⟩ :=
          eq_noComment_of_extracted (Utf8.allChars_of_decode decoded) hconfig hpath result
        exact ⟨_, readBytes_of_noComment decoded result⟩
      | ok es => exact ⟨_, readBytes_of_entries decoded result⟩

/-- An input has writable entries only, if the resources can be written. -/
theorem Yields.writable {i : InputReport} (h : Yields settings config look path i)
    (hsettings : settings.AllChars) (hconfig : config.AllChars) (hpath : Text.allChars path = true)
    (resources : config.resources.Writable) : ∀ e ∈ i.entries.getD [], e.Writable := by
  cases h with
  | @found bytes document es file decoded entries some_entry =>
    intro e he
    rw [extracted_eq, Extraction.result_ofDocument] at entries
    obtain ⟨b, hb, source, ids, hread, hids, rfl⟩ := Extraction.exists_filled_of_mem entries he
    have hdocument := Text.allChars_unified (Utf8.allChars_of_decode decoded)
    have hsource := Source.allChars_of_read?
      (Text.allChars_of_subset (Block.text_subset hb) hdocument) hread
    exact Entry.writable_filled (Entry.writable_blank hsettings.category)
      (hconfig.withOrigin hpath) resources hsource hids
  | _ => simp

/-! ## All inputs -/

variable (settings config) in
/-- Every input is read by itself, whatever becomes of the others. -/
theorem exists_readInputs {paths : List Text} (hconfig : config.AllChars)
    (hpaths : ∀ p ∈ paths, Text.allChars p = true) (h : ∀ p ∈ paths, look p ≠ .tooLong) :
    ∃ inputs, readInputs settings config look paths = (inputs, none) ∧
      List.Forall₂ (Yields settings config look) paths inputs := by
  induction paths with
  | nil => exact ⟨[], rfl, .nil⟩
  | cons p paths ih =>
    obtain ⟨i, hi⟩ := exists_yields hconfig (hpaths p (by simp)) (h p (by simp))
    obtain ⟨inputs, hinputs, yields⟩ :=
      ih (fun q hq => hpaths q (by simp [hq])) fun q hq => h q (by simp [hq])
    refine ⟨i :: inputs, ?_, .cons hi yields⟩
    rw [readInputs, yields_iff.1 hi]
    simp only [hinputs]

theorem exists_getElem?_of_yields {paths : List Text} {inputs : List InputReport}
    (each : List.Forall₂ (Yields settings config look) paths inputs) {n : Nat}
    (h : paths[n]? = some path) : ∃ i, inputs[n]? = some i ∧ Yields settings config look path i := by
  induction each generalizing n with
  | nil => simp at h
  | cons first _ ih =>
    cases n with
    | zero =>
      obtain rfl := Option.some.inj h
      exact ⟨_, rfl, first⟩
    | succ n => exact ih (by rwa [List.getElem?_cons_succ] at h)

/-- The entries of all inputs are writable, if the resources can be written. -/
theorem writable_of_yields {paths : List Text} {inputs : List InputReport}
    (each : List.Forall₂ (Yields settings config look) paths inputs)
    (hsettings : settings.AllChars) (hconfig : config.AllChars)
    (hpaths : ∀ p ∈ paths, Text.allChars p = true) (resources : config.resources.Writable) :
    ∀ e ∈ inputs.flatMap fun i => i.entries.getD [], e.Writable := by
  induction each with
  | nil => simp
  | cons first _ ih =>
    obtain ⟨hpath, hrest⟩ := List.forall_mem_cons.1 hpaths
    intro e he
    obtain he | he := List.mem_append.1 he
    · exact first.writable hsettings hconfig hpath resources e he
    · exact ih hrest e he

end

end MarkupCatalog.CommandLine
