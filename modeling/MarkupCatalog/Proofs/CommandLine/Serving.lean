/-
The run of the command line as a whole, in terms of what its inputs yield one by one (`Serves`): one
line about each input, the entries of those that could be read as one JSON list, and an exit status
that tells whether any of them failed (`serves_run`). Nothing that is read for one input shows in what
is reported of another (`Serves.getElem?_eq`). A request whose indentation has no value is refused
before any input is read.
-/
import MarkupCatalog.CommandLine.Aftermath
import MarkupCatalog.Proofs.CommandLine.Inputs

namespace MarkupCatalog.CommandLine

/-! ## Lines -/

def Line.isEvent : Line → Bool
  | .event _ => true
  | .said _ | .refused _ => false

/-- The lines that are no events, in order. -/
def statusLines (err : List Line) : List Line := err.filter fun l => !l.isEvent

theorem statusLines_append (xs ys : List Line) :
    statusLines (xs ++ ys) = statusLines xs ++ statusLines ys := List.filter_append xs ys

theorem statusLines_lines (verbose : Bool) (i : InputReport) :
    statusLines (i.lines verbose) = [.said i.said] := by
  have events (es : List Event) : statusLines (es.map .event) = [] := by
    simp [statusLines, Line.isEvent]
  rw [InputReport.lines, statusLines_append, eventLines, events]
  rfl

theorem statusLines_flatMap_lines (verbose : Bool) (inputs : List InputReport) :
    statusLines (inputs.flatMap (InputReport.lines verbose)) = inputs.map fun i => .said i.said := by
  induction inputs with
  | nil => rfl
  | cons i inputs ih =>
    rw [List.flatMap_cons, statusLines_append, statusLines_lines, ih]
    rfl

/-! ## Requests -/

/-- The text that records are written as. -/
def written (records : List Json) : Text := Json.indented 0 (.array records) ++ [.char '\n']

/-- The aftermath `a` is that of the request `r`: its inputs yield `inputs` one by one, and the entries
of these are written as `records`. -/
structure Serves (settings : Settings) (look : Text → Target) (tree : FileTree) (config : Config)
    (r : Request) (inputs : List InputReport) (records : List Json) (a : Aftermath) : Prop where
  each_yields : List.Forall₂ (Yields settings config look) r.inputs inputs
  all_written : List.Forall₂ Entry.WritesAs (inputs.flatMap fun i => i.entries.getD []) records
  ending : a.ending = .ok (if inputs.all fun i => i.entries.isSome then 0 else 1)
  /-- without an output file the records are printed -/
  printed : r.output = none →
    a.out = written records ∧ a.written = [] ∧
      statusLines a.err = inputs.map fun i => .said i.said
  /-- with an output file they are kept there and nothing is printed -/
  kept : ∀ path names, r.output = some path → tree.writable path = .ok names →
    a.out = [] ∧ a.written = changes tree names (written records) ∧
      statusLines a.err = (inputs.map fun i => .said i.said) ++
        [.said ("✓ Wrote ".toText ++ Text.ofNat records.length ++ " entries to ".toText ++ path)]

section

variable {settings : Settings} {look : Text → Target} {tree : FileTree} {r : Request}

/-- Two runs with the same configuration report the same of a path that leads to the same in both,
whatever else they are asked to read and wherever that leads. -/
theorem Serves.getElem?_eq {look' : Text → Target} {tree' : FileTree} {config : Config}
    {r' : Request} {inputs inputs' : List InputReport} {records records' : List Json}
    {a a' : Aftermath} (h : Serves settings look tree config r inputs records a)
    (h' : Serves settings look' tree' config r' inputs' records' a') {path : Text}
    (hlook : look path = look' path) {n n' : Nat} (hn : r.inputs[n]? = some path)
    (hn' : r'.inputs[n']? = some path) : inputs[n]? = inputs'[n']? := by
  obtain ⟨i, hi, yields⟩ := exists_getElem?_of_yields h.each_yields hn
  obtain ⟨i', hi', yields'⟩ := exists_getElem?_of_yields h'.each_yields hn'
  rw [hi, hi', yields.unique ((yields_congr hlook).2 yields')]

theorem serve_of_indent_eq_none (h : r.indent = none) :
    serve settings look r =
      ⟨[], [.refused (.invalid [⟨[.key Config.indentKey], .noText⟩])], none, .ok 2⟩ := by
  rw [serve, Request.config?_eq, h]

theorem exists_encode_written {records : List Json} (h : Json.allCharsItems records = true) :
    ∃ bytes, Utf8.encode (written records) = .ok bytes := by
  rw [Utf8.exists_encode_iff, written, Text.allChars_append,
    Json.allChars_indented 0 (.array records) h]
  rfl

/-- A report on inputs with writable entries. -/
theorem report_eq {inputs : List InputReport} {records : List Json}
    (h : document? (inputs.flatMap fun i => i.entries.getD []) = .ok records)
    (hchars : Json.allCharsItems records = true) :
    report r inputs =
      let err := inputs.flatMap (InputReport.lines r.verbose)
      let status := if inputs.all fun i => i.entries.isSome then 0 else 1
      match r.output with
      | none => ⟨written records, err, none, .ok status⟩
      | some path =>
        let said := "✓ Wrote ".toText ++
          Text.ofNat (inputs.flatMap fun i => i.entries.getD []).length ++
            " entries to ".toText ++ path
        ⟨[], err, some ⟨path, written records, said⟩, .ok status⟩ := by
  obtain ⟨bytes, hbytes⟩ := exists_encode_written hchars
  rw [written] at hbytes
  rw [report, h]
  simp only [hbytes]
  rfl

theorem exists_serves {indent : Text} (given : r.indent = some indent)
    (hsettings : settings.AllChars) (hr : r.AllChars)
    (readable : ∀ path ∈ r.inputs, look path ≠ .tooLong)
    (writable : ∀ path, r.output = some path → ∃ names, tree.writable path = .ok names) :
    ∃ inputs records, Serves settings look tree (r.configWith indent) r inputs records
      (aftermath tree (serve settings look r)) := by
  have hconfig := hr.configWith given
  obtain ⟨inputs, hread, each_yields⟩ :=
    exists_readInputs settings (r.configWith indent) hconfig hr.inputs readable
  obtain ⟨records, all_written, hdocument, hchars⟩ := exists_document?
    (writable_of_yields each_yields hsettings hconfig hr.inputs Config.writable_noResources)
  obtain ⟨bytes, hbytes⟩ := exists_encode_written hchars
  have hserve : serve settings look r = report r inputs := by
    simp only [serve, Request.config?_eq, given, hread]
  refine ⟨inputs, records, ?_⟩
  rw [hserve, report_eq hdocument hchars]
  cases houtput : r.output with
  | none =>
    exact {
      each_yields, all_written
      ending := rfl
      printed := fun _ => ⟨rfl, rfl, statusLines_flatMap_lines r.verbose inputs⟩
      kept := fun path names h => by simp [houtput] at h }
  | some path =>
    obtain ⟨names, hnames⟩ := writable path houtput
    simp only [aftermath, hnames, hbytes]
    exact {
      each_yields, all_written
      ending := rfl
      printed := fun h => by simp [houtput] at h
      kept := by
        intro path' names' hpath hnames'
        cases houtput.symm.trans hpath
        cases hnames.symm.trans hnames'
        refine ⟨rfl, rfl, ?_⟩
        rw [statusLines_append, statusLines_flatMap_lines, all_written.length_eq]
        rfl }

end

/-- A directory with a page that holds an entry, an empty page and a file that is no text. -/
def pages : FileTree where
  files := [(["a.html".toText],
      (Utf8.encode "<!-- extract:b -->y<!-- endextract -->".toText).toOption.getD []),
    (["b.html".toText], []), (["c.html".toText], [0xff])]
  directories := [["d".toText]]

def pageArguments : List Text :=
  ["a.html", "c.html", "d", "a.html", "b.html", "e.html", "--output=o.json"].map String.toText

def pageRequest : Request where
  inputs := ["a.html", "c.html", "d", "a.html", "b.html", "e.html"].map String.toText
  indent := some Settings.standard.indent
  wrap := none
  templateBefore := some []
  templateAfter := some []
  output := some "o.json".toText
  verbose := false

example : statusLines (run .standard pages.look pageArguments).err =
    ["✓ a.html: 1 entries",
     "✗ c.html: 'utf-8' codec can't decode byte 0xff in position 0: invalid start byte",
     "✗ d: [Errno 21] Is a directory: 'd'", "✓ a.html: 1 entries",
     "⚠ b.html: no extract blocks found", "✗ Error: File not found: e.html"].map
      fun s => .said s.toText := by
  decide +kernel

/-- An indentation that the double dash leaves without a value. -/
def unindented : List Text := ["--indent=--", "b.html"].map String.toText

def unindentedRequest : Request where
  inputs := ["b.html".toText]
  indent := none
  wrap := none
  templateBefore := some []
  templateAfter := some []
  output := none
  verbose := false

end MarkupCatalog.CommandLine
