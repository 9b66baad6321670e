/-
Paths as they are written: names with slashes between them. `normal` writes a path without what
means nothing in it, namely empty names and single dots; a path that has nothing else is a single
dot. A step to the parent directory stays, since links may make it mean something.
-/
import MarkupCatalog.Text.Basic

namespace MarkupCatalog.Path

/-- The slashes that a path from the root begins with. Two of them are kept, any other number counts
as one. -/
def root (path : Text) : Text :=
  match path with
  | .char '/' :: .char '/' :: .char '/' :: _ => [.char '/']
  | .char '/' :: .char '/' :: _ => [.char '/', .char '/']
  | .char '/' :: _ => [.char '/']
  | _ => []

/-- The names of a path. -/
def names (path : Text) : List Text :=
  (Text.pieces (· == .char '/') path).filter fun name => name ≠ [] && name ≠ [.char '.']

/-- The path without what means nothing in it. -/
def normal (path : Text) : Text :=
  match root path ++ Text.joined [.char '/'] (names path) with
  | [] => [.char '.']
  | p => p

example : normal "./sub//c.html/".toText = "sub/c.html".toText := by decide
example : normal [] = [.char '.'] ∧ normal "///a".toText = "/a".toText := by decide

end MarkupCatalog.Path
