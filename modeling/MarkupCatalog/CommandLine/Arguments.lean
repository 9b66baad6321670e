/-
The arguments of the command line. An argument is an option, a value, or the double dash after which
all arguments are values. Options may be shortened as long as one option only is meant, may have
their value after an equals sign, and those of one letter may share a dash. A double dash in the
place of a value leaves an option without one. The input files are the first run of values that no
option takes; values after that run are not understood.
-/
import MarkupCatalog.Settings
import MarkupCatalog.Text.Digit
import MarkupCatalog.Text.Quoted
import MarkupCatalog.CommandLine.Path

namespace MarkupCatalog.CommandLine

/-- An option of the command line. -/
inductive Flag where
  | help
  | indent
  | wrap
  | templateBefore
  | templateAfter
  | output
  | verbose
deriving DecidableEq, Repr

namespace Flag

/-- The spellings of all options, in the order in which they are looked through. -/
def spellings : List (Text × Flag) :=
  [("-h".toText, help), ("--help".toText, help), ("--indent".toText, indent),
   ("--wrap".toText, wrap), ("--template-before".toText, templateBefore),
   ("--template-after".toText, templateAfter), ("--output".toText, output),
   ("--verbose".toText, verbose), ("-v".toText, verbose)]

/-- The option with this spelling. -/
def ofSpelling? (s : Text) : Option Flag := spellings.lookup s

/-- The option takes a value. -/
def takesValue : Flag → Bool
  | help | verbose => false
  | _ => true

/-- What the option is called in messages: all its spellings. -/
def title (f : Flag) : Text :=
  Text.joined [.char '/'] ((spellings.filter fun p => p.2 = f).map (·.1))

end Flag

/-- What a caller asks for. An option without a value is `none`. -/
structure Request where
  inputs : List Text
  indent : Option Text
  wrap : Option Text
  templateBefore : Option Text
  templateAfter : Option Text
  output : Option Text
  verbose : Bool
deriving DecidableEq, Repr

/-- Why arguments are not understood. -/
inductive Misuse where
  | ambiguous (given : Text) (candidates : List Text)
  | missingValue (flag : Flag)
  | ignoredValue (flag : Flag) (value : Text)
  | missingInputs
  | unrecognized (arguments : List Text)
deriving DecidableEq, Repr

def Misuse.message : Misuse → Text
  | .ambiguous given candidates =>
    "ambiguous option: ".toText ++ given ++ " could match ".toText ++
      Text.joined ", ".toText candidates
  | .missingValue flag =>
    "argument ".toText ++ flag.title ++ ": expected one argument".toText
  | .ignoredValue flag value =>
    "argument ".toText ++ flag.title ++ ": ignored explicit argument ".toText ++ Text.quoted value
  | .missingInputs => "the following arguments are required: inputs".toText
  | .unrecognized arguments =>
    "unrecognized arguments: ".toText ++ Text.joined [.char ' '] arguments

/-! ## One argument -/

/-- What an argument is by itself. -/
inductive Token where
  | value (s : Text)
  /-- the first double dash -/
  | dashes
  /-- an option, with what is attached to it; `letter` tells whether it is spelled by its letter -/
  | option (flag : Flag) (letter : Bool) (attached : Option Text)
  | unknown (s : Text)
deriving DecidableEq, Repr

/-- Digits only, and at least `least` of them. -/
def allDigits (least : Nat) (s : Text) : Bool :=
  least ≤ s.length && s.all fun c => (Text.digit? c).isSome

/-- A negative number: a minus sign and digits, with a point among them or not. A line feed may end
it. -/
def isNegativeNumber : Text → Bool
  | .char '-' :: s =>
    let s := if s.getLast? = some (.char '\n') then s.dropLast else s
    match Text.cut [.char '.'] s with
    | none => allDigits 1 s
    | some (whole, part) => allDigits 0 whole && allDigits 1 part
  | _ => false

/-- The options that an argument may mean when it is no full spelling: by the beginning of a long
spelling, or by the first letter after a single dash. -/
def candidates (s : Text) : List (Text × Token) :=
  if Text.startsWith [.char '-', .char '-'] s then
    let (beginning, attached) :=
      match Text.cut [.char '='] s with
      | some (b, v) => (b, some v)
      | none => (s, none)
    (Flag.spellings.filter fun p => Text.startsWith beginning p.1).map fun p =>
      (p.1, .option p.2 false attached)
  else
    (Flag.spellings.filter fun p => p.1 = s.take 2).map fun p =>
      (p.1, .option p.2 true (some (s.drop 2)))

/-- The spelling is that of a letter: one dash and one character. -/
def isLetter (spelling : Text) : Bool := spelling.length = 2

/-- An argument before any double dash. -/
def classify (s : Text) : Except Misuse Token :=
  match s with
  | .char '-' :: _ :: _ =>
    match Flag.ofSpelling? s with
    | some flag => .ok (.option flag (isLetter s) none)
    | none =>
      let attached : Option Token :=
        (Text.cut [.char '='] s).bind fun p =>
          (Flag.ofSpelling? p.1).map fun flag => .option flag (isLetter p.1) (some p.2)
      match attached, candidates s with
      | some token, _ => .ok token
      | none, [] =>
        .ok (if isNegativeNumber s || .char ' ' ∈ s then .value s else .unknown s)
      | none, [p] => .ok p.2
      | none, ps => .error (.ambiguous s (ps.map (·.1)))
  | _ => .ok (.value s)

/-- All arguments by themselves; the first one that means too much ends them. -/
def tokens : List Text → Except Misuse (List Token)
  | [] => .ok []
  | s :: ss =>
    if s = "--".toText then .ok (.dashes :: ss.map .value)
    else do
      let t ← classify s
      return t :: (← tokens ss)

/-! ## All arguments -/

/-- The options that share a dash with `flag`, one for each letter that is attached to it. -/
def cluster (flag : Flag) : (attached : Text) → Except Misuse (List Flag)
  | [] => .error (.ignoredValue flag [])
  | c :: rest =>
    match Flag.ofSpelling? [.char '-', c] with
    | none => .error (.ignoredValue flag (c :: rest))
    | some next =>
      if rest.isEmpty then .ok [flag, next] else (cluster next rest).map (flag :: ·)

/-- What an option is given by the value `s`: nothing if that is the double dash. -/
def given? (s : Text) : Option Text := if s = "--".toText then none else some s

/-- What has been gathered from the arguments so far. -/
structure Gathered where
  request : Request
  /-- the run of input files: not begun, going on, or ended -/
  run : Option Bool
  extras : List Text

namespace Gathered

def start (settings : Settings) : Gathered :=
  ⟨⟨[], some settings.indent, none, some [], some [], none, false⟩, none, []⟩

/-- An option with its value, or without one. -/
def take (g : Gathered) (flag : Flag) (value : Option Text) : Gathered :=
  let r := g.request
  match flag with
  | .help => g
  | .indent => { g with request := { r with indent := value } }
  | .wrap => { g with request := { r with wrap := value } }
  | .templateBefore => { g with request := { r with templateBefore := value } }
  | .templateAfter => { g with request := { r with templateAfter := value } }
  | .output => { g with request := { r with output := value.map Path.normal } }
  | .verbose => { g with request := { r with verbose := true } }

/-- A run of input files ends where an option comes. -/
def endRun (g : Gathered) : Gathered := { g with run := g.run.map fun _ => false }

def extra (g : Gathered) (s : Text) : Gathered := { g with extras := g.extras ++ [s] }

/-- A value that no option takes. -/
def value (g : Gathered) (s : Text) : Gathered :=
  if g.run = some false then g.extra s
  else
    { g with
      request := { g.request with inputs := g.request.inputs ++ [Path.normal s] }, run := some true }

/-- The double dash, which belongs to a run of input files unless that has ended. -/
def dashes (g : Gathered) : Gathered := if g.run = some false then g.extra "--".toText else g

/-- What the arguments come to. -/
def finish (g : Gathered) : Except Misuse Request :=
  if g.run.isNone then .error .missingInputs
  else if g.extras.isEmpty then .ok g.request
  else .error (.unrecognized g.extras)

end Gathered

/-- What the arguments ask for. -/
inductive Call where
  | help
  | request (r : Request)
deriving DecidableEq, Repr

/-- The arguments, one after the other. -/
def gather (g : Gathered) : List Token → Except Misuse Call
  | [] => g.finish.map .request
  | .value s :: ts => gather (g.value s) ts
  | .dashes :: ts => gather g.dashes ts
  | .unknown s :: ts => gather (g.endRun.extra s) ts
  | .option flag letter (some attached) :: ts =>
    if flag.takesValue then gather (g.endRun.take flag (given? attached)) ts
    else if letter then do
      let flags ← cluster flag attached
      if .help ∈ flags then return .help
      gather (flags.foldl (fun g f => g.take f none) g.endRun) ts
    else .error (.ignoredValue flag attached)
  | .option flag _ none :: ts =>
    if flag = .help then .ok .help
    else if flag.takesValue then
      match ts with
      | .value v :: ts => gather (g.endRun.take flag (given? v)) ts
      | _ => .error (.missingValue flag)
    else gather (g.endRun.take flag none) ts

/-- What a list of arguments asks for, or why it is not understood. -/
def parse (settings : Settings) (arguments : List Text) : Except Misuse Call := do
  gather (.start settings) (← tokens arguments)

end MarkupCatalog.CommandLine
