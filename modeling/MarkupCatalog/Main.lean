/-
The program itself: it takes its settings from the environment and its inputs from the disk, lets
`CommandLine.run` decide, and writes what that says.
-/
import MarkupCatalog.CommandLine.Run
import Std.Time.Format

namespace MarkupCatalog.CommandLine

/-- The text as a string, in which a replacement character stands for each surrogate. -/
def string (s : Text) : String :=
  String.ofList <| s.map fun c =>
    match c with
    | .char c => c
    | .surrogate _ => '\ufffd'

/-- The settings that the environment gives. -/
def environment : IO Settings := do
  let get (key : String) (default : Text) : IO Text :=
    return ((← IO.getEnv key).map String.toText).getD default
  return ⟨← get "INVENTORY_INDENT" Settings.standard.indent,
    ← get "INVENTORY_NO_CATEGORY" Settings.standard.category⟩

/-- What a path leads to on the disk. A directory shows itself when it is read, a name below a file
as soon as it is opened. A fault that no target stands for ends the program. -/
def onDisk (path : Text) : IO Target := do
  try
    return .file (← IO.FS.readBinFile (string path)).toList
  catch
    | .noFileOrDirectory .. => return .missing
    | .inappropriateType (some _) .. => return .belowFile
    | .inappropriateType none .. => return .directory
    | .invalidArgument (some _) .. => return .tooLong
    | e => throw e

/-- The inputs that arguments name, each with what it leads to. -/
def inputsOnDisk (settings : Settings) (arguments : List Text) : IO (List (Text × Target)) :=
  match parse settings arguments with
  | .ok (.request r) => r.inputs.mapM fun path => return (path, ← onDisk path)
  | _ => return []

/-- The time as it stands before an event. -/
def time : IO Text :=
  return ((← Std.Time.PlainDateTime.now).format "uuuu-MM-dd HH:mm:ss,SSS").toText

/-- Carries out what the program does and gives its exit status. -/
def carryOut (r : Report) : IO UInt32 := do
  let now ← time
  let say (l : Line) : IO Unit := IO.eprint (string (l.text now))
  IO.print (string r.out)
  r.err.forM say
  if let some o := r.output then
    IO.FS.writeFile (string o.path) (string o.text)
    say (.said o.said)
  match r.ending with
  | .ok status => return UInt32.ofNat status
  | .error (.file f) => throw (.userError (string f.message))
  | .error (.entry f) => throw (.userError (string f.message))
  | .error (.output u) => throw (.userError (string u.message))

end MarkupCatalog.CommandLine

open MarkupCatalog.CommandLine in
/-- Runs the program on its arguments. -/
def main (arguments : List String) : IO UInt32 := do
  let settings ← environment
  let arguments := arguments.map String.toText
  let inputs ← inputsOnDisk settings arguments
  carryOut (run settings (fun path => (inputs.lookup path).getD .missing) arguments)
