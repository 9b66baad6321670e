/-
What the program does with its arguments: it reads each input by itself, tells about each in one
line, and writes the entries of all inputs that could be read as one JSON list. Reading is asked of
`look`, and writing is left to the caller, so that all of this is a function.
-/
import MarkupCatalog.CommandLine.FileTree
import MarkupCatalog.CommandLine.Usage
import MarkupCatalog.Extraction
import MarkupCatalog.Json

namespace MarkupCatalog.CommandLine

/-- A line of the error stream: an event, or a line of the program's own. -/
inductive Line where
  | event (e : Event)
  | said (s : Text)
  /-- the options give no configuration -/
  | refused (f : Fault)
deriving DecidableEq, Repr

/-- The words of a line; an event is told with a time. -/
def Line.words (time : Text) : Line → Text
  | .event e =>
    time ++ " - ".toText ++ e.source ++ " - ".toText ++ e.level.name ++ " - ".toText ++ e.message
  | .said s => s
  | .refused f => "✗ Invalid options: ".toText ++ f.message

/-- The line as it is written, with surrogates given by their code points. -/
def Line.text (time : Text) (l : Line) : Text := Text.legible (l.words time) ++ [.char '\n']

/-- Why the program ends without an exit status. -/
inductive Crash where
  | file (f : FileFault)
  | entry (f : Fault)
  /-- the output holds surrogates -/
  | output (u : Utf8.Unencodable)
deriving Repr

/-! ## Configuration -/

/-- The value of an option for a configuration: a text, or an empty list where there is none. -/
def Request.valueOf : Option Text → Value
  | some s => .text s
  | none => .list []

/-- The wrap that an argument gives: its parts around the first colon, or all of it on both sides.
An empty argument gives none. -/
def Request.wrapPairs : Option Text → Pairs
  | none | some [] => []
  | some s =>
    match Text.cut [.char ':'] s with
    | some (before, after) => [(.text Config.wrapKey, Value.texts [before, after])]
    | none => [(.text Config.wrapKey, .text s)]

/-- What a request puts on top of the default configuration. -/
def Request.overrides (r : Request) : Pairs :=
  [(.text Config.indentKey, valueOf r.indent),
   (.text Config.templateWrapAlias,
     .map [(.text Wrap.beforeKey, valueOf r.templateBefore),
       (.text Wrap.afterKey, valueOf r.templateAfter)])] ++ wrapPairs r.wrap

/-- The configuration that a request asks for. -/
def Request.config? (settings : Settings) (r : Request) : Except Fault Config :=
  Config.merge? settings (.map r.overrides)

/-! ## Inputs -/

/-- What has come of an input: what was told, the line about it, and its entries unless it failed. -/
structure InputReport where
  log : List Event
  said : Text
  entries : Option (List Entry)

/-- A line about an input: a mark, the path, and words. -/
def about (mark : CodePoint) (path words : Text) : Text :=
  mark :: .char ' ' :: path ++ ": ".toText ++ words

def failed (log : List Event) (path words : Text) : InputReport :=
  ⟨log, about '✗' path words, none⟩

/-- The line about an input whose blocks have been read. -/
def counted (path : Text) (entries : Nat) : Text :=
  if entries = 0 then about '⚠' path "no extract blocks found".toText
  else about '✓' path (Text.ofNat entries ++ " entries".toText)

/-- An input at which the program ends: what was told, and why it ends. -/
structure Interruption where
  log : List Event
  crash : Crash

/-- An input that is a file with these bytes. A block without a comment fails the input; any other
fault ends the program. -/
def readBytes (settings : Settings) (config : Config) (path : Text) (bytes : List UInt8) :
    Except Interruption InputReport :=
  match Utf8.decode bytes with
  | .error m => .ok (failed [] path m.message)
  | .ok document =>
    let o := Extraction.ofDocument settings { config with origin := path } (Text.unified document)
    match o.result with
    | .error (.noComment preview) =>
      .ok (failed o.log path ("annotation error: ".toText ++ (Fault.noComment preview).message))
    | .error f => .error ⟨o.log, .entry f⟩
    | .ok es => .ok ⟨o.log, counted path es.length, some es⟩

/-- An input, by what its path leads to. -/
def readInput (settings : Settings) (config : Config) (look : Text → Target) (path : Text) :
    Except Interruption InputReport :=
  match look path with
  | .missing | .belowFile =>
    .ok ⟨[], "✗ Error: File not found: ".toText ++ path, none⟩
  | .tooLong => .error ⟨[], .file ⟨.tooLong, path⟩⟩
  | .directory => .ok (failed [] path (FileFault.message ⟨.directory, path⟩))
  | .file bytes => readBytes settings config path bytes

/-- The lines about events; those below the level of a warning are told on demand. -/
def eventLines (verbose : Bool) (log : List Event) : List Line :=
  (log.filter fun e => verbose || e.level = .warning).map .event

/-- The lines about an input. -/
def InputReport.lines (verbose : Bool) (i : InputReport) : List Line :=
  eventLines verbose i.log ++ [.said i.said]

/-- All inputs, one after the other, up to the first that ends the program. -/
def readInputs (settings : Settings) (config : Config) (look : Text → Target) :
    List Text → List InputReport × Option Interruption
  | [] => ([], none)
  | path :: paths =>
    match readInput settings config look path with
    | .error f => ([], some f)
    | .ok i =>
      let rest := readInputs settings config look paths
      (i :: rest.1, rest.2)

/-! ## Output -/

/-- The entries as a JSON document. -/
def document? : List Entry → Except Fault (List Json)
  | [] => .ok []
  | e :: es => do
    let j ← Value.json? (.map (← e.plain?))
    return j :: (← document? es)

/-- What the program writes to a file, and the line that it says afterwards. -/
structure Output where
  path : Text
  text : Text
  said : Text
deriving DecidableEq, Repr

/-- What the program says and how it ends, once its output is written if there is any. -/
structure Report where
  out : Text
  err : List Line
  output : Option Output
  ending : Except Crash Nat

/-- What is said and done when all inputs have been read. -/
def report (r : Request) (inputs : List InputReport) : Report :=
  let err := inputs.flatMap (InputReport.lines r.verbose)
  let entries := inputs.flatMap fun i => i.entries.getD []
  match document? entries with
  | .error f => ⟨[], err, none, .error (.entry f)⟩
  | .ok js =>
    let text := Json.indented 0 (.array js) ++ [.char '\n']
    let status := if inputs.all fun i => i.entries.isSome then 0 else 1
    match r.output with
    | none =>
      match Utf8.encode text with
      | .error u => ⟨[], err, none, .error (.output u)⟩
      | .ok _ => ⟨text, err, none, .ok status⟩
    | some path =>
      let said := "✓ Wrote ".toText ++ Text.ofNat entries.length ++ " entries to ".toText ++ path
      ⟨[], err, some ⟨path, text, said⟩, .ok status⟩

/-- What the program does for a request. -/
def serve (settings : Settings) (look : Text → Target) (r : Request) : Report :=
  match r.config? settings with
  | .error f => ⟨[], [.refused f], none, .ok 2⟩
  | .ok config =>
    match readInputs settings config look r.inputs with
    | (inputs, some i) =>
      ⟨[], inputs.flatMap (InputReport.lines r.verbose) ++ eventLines r.verbose i.log, none,
        .error i.crash⟩
    | (inputs, none) => report r inputs

/-- What the program does for a list of arguments. -/
def run (settings : Settings) (look : Text → Target) (arguments : List Text) : Report :=
  match parse settings arguments with
  | .error m => ⟨[], [.said m.report.dropLast], none, .ok 2⟩
  | .ok .help => ⟨help, [], none, .ok 0⟩
  | .ok (.request r) => serve settings look r

end MarkupCatalog.CommandLine
