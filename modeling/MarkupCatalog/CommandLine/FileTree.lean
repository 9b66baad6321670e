/-
A working directory as data: the files below it by their names, and what a path leads to. Of what
lies outside it no more is known than that there are directories above.
-/
import MarkupCatalog.CommandLine.Path
import MarkupCatalog.Text.Utf8

namespace MarkupCatalog

/-- What a path leads to. -/
inductive Target where
  | missing
  /-- a name stands below a file -/
  | belowFile
  /-- a name, or the path, is longer than a file system takes -/
  | tooLong
  | directory
  | file (bytes : List UInt8)
deriving DecidableEq, Repr

/-- Why a file cannot be read or written. -/
inductive FileFault.Cause where
  | missing
  | belowFile
  | directory
  | tooLong
  | nullCharacter
  /-- a surrogate in the path stands for no byte -/
  | unencodable (u : Utf8.Unencodable)
deriving DecidableEq, Repr

structure FileFault where
  cause : FileFault.Cause
  path : Text
deriving DecidableEq, Repr

/-- The words for a fault, with the number that the operating system has for it. -/
def FileFault.message (f : FileFault) : Text :=
  let numbered (number : Nat) (words : String) : Text :=
    "[Errno ".toText ++ Text.ofNat number ++ "] ".toText ++ words.toText ++ ": ".toText ++
      Text.quoted f.path
  match f.cause with
  | .missing => numbered 2 "No such file or directory"
  | .belowFile => numbered 20 "Not a directory"
  | .directory => numbered 21 "Is a directory"
  | .tooLong => numbered 36 "File name too long"
  | .nullCharacter => "embedded null byte".toText
  | .unencodable u => u.message

/-- A working directory. A directory without files in it is given by itself. -/
structure FileTree where
  files : List (List Text × List UInt8)
  directories : List (List Text)
deriving Repr

namespace FileTree

def empty : FileTree := ⟨[], []⟩

def addFile (path : Text) (bytes : List UInt8) (t : FileTree) : FileTree :=
  { t with files := t.files ++ [(Path.names path, bytes)] }

def addDirectory (path : Text) (t : FileTree) : FileTree :=
  { t with directories := t.directories ++ [Path.names path] }

/-- Where a walk along a path has come to: a place below the working directory, or outside it. -/
inductive Place where
  | inside (names : List Text)
  | outside
deriving DecidableEq, Repr

/-- What stands in a place. A place with a file or a directory below it is a directory. -/
def at? (t : FileTree) : Place → Target
  | .outside => .directory
  | .inside names =>
    match t.files.find? fun f => f.1 = names with
    | some f => .file f.2
    | none =>
      if names.isEmpty || (t.files.map (·.1) ++ t.directories).any names.isPrefixOf then .directory
      else .missing

/-- A name that no file system takes. -/
def isLong (name : Text) : Bool :=
  match Utf8.encodeName name with
  | .error _ => false
  | .ok bytes => 255 < bytes.length

/-- The place that names lead to from a place, or why they lead nowhere. -/
def walk (t : FileTree) (here : Place) : List Text → Except Target Place
  | [] => .ok here
  | name :: names =>
    match t.at? here with
    | .directory =>
      if name = "..".toText then
        match here with
        | .inside [] | .outside => walk t .outside names
        | .inside up => walk t (.inside up.dropLast) names
      else if isLong name then .error .tooLong
      else
        match here with
        | .inside up => walk t (.inside (up ++ [name])) names
        | .outside => .error .missing
    | .file _ => .error .belowFile
    | target => .error target

/-- The place where a walk along a path begins. -/
def start (path : Text) : Place := if (Path.root path).isEmpty then .inside [] else .outside

/-- What a path leads to. -/
def look (t : FileTree) (path : Text) : Target :=
  match Utf8.encodeName path with
  | .error _ => .missing
  | .ok bytes =>
    if .char '\x00' ∈ path then .missing
    else if 4095 < bytes.length then .tooLong
    else
      match t.walk (start path) (Path.names path) with
      | .ok place => t.at? place
      | .error target => target

/-- The names of the file that can be written under a path, below the working directory. -/
def writable (t : FileTree) (path : Text) : Except FileFault (List Text) :=
  let fault (cause : FileFault.Cause) : Except FileFault (List Text) := .error ⟨cause, path⟩
  match Utf8.encodeName path with
  | .error u => fault (.unencodable u)
  | .ok _ =>
    if .char '\x00' ∈ path then fault .nullCharacter
    else
      match t.look path with
      | .directory => fault .directory
      | .belowFile => fault .belowFile
      | .tooLong => fault .tooLong
      | .missing | .file _ =>
        match t.walk (start path) (Path.names path) with
        | .ok (.inside names) => .ok names
        | _ => fault .missing

end FileTree
end MarkupCatalog
