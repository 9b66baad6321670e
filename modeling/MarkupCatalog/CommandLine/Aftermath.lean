/-
What a run of the program leaves behind in a working directory: what it has said, how it has ended,
and the files that are not what they were before. Nothing is written unless the arguments ask for
it. Where the file cannot be written the run ends with that fault, and a text that holds surrogates
leaves an empty file.
-/
import MarkupCatalog.CommandLine.Run

namespace MarkupCatalog.CommandLine

structure Aftermath where
  out : Text
  err : List Line
  /-- the files that are new or hold something else, by path -/
  written : List (Text × Text)
  ending : Except Crash Nat

/-- The files that change when a file below the working directory comes to hold a text. -/
def changes (tree : FileTree) (names : List Text) (text : Text) : List (Text × Text) :=
  match tree.at? (.inside names), Utf8.encode text with
  | .file old, .ok new => if old = new then [] else [(Text.joined [.char '/'] names, text)]
  | _, _ => [(Text.joined [.char '/'] names, text)]

/-- What is left behind when a report is carried out. -/
def aftermath (tree : FileTree) (r : Report) : Aftermath :=
  match r.output with
  | none => ⟨r.out, r.err, [], r.ending⟩
  | some o =>
    match tree.writable o.path with
    | .error f => ⟨r.out, r.err, [], .error (.file f)⟩
    | .ok names =>
      match Utf8.encode o.text with
      | .error u => ⟨r.out, r.err, changes tree names [], .error (.output u)⟩
      | .ok _ => ⟨r.out, r.err ++ [.said o.said], changes tree names o.text, r.ending⟩

/-- What a run with these arguments leaves behind. -/
def runIn (settings : Settings) (tree : FileTree) (arguments : List Text) : Aftermath :=
  aftermath tree (run settings tree.look arguments)

end MarkupCatalog.CommandLine
