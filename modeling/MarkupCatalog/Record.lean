/-
Reading records from maps. Each part of a record is read by itself, so that everything that is wrong
in it is told at once, in the order of the parts.
-/
import MarkupCatalog.Fault
import MarkupCatalog.Value.Literal

namespace MarkupCatalog.Record

/-- The problems of a part that has been read. -/
def problems {α : Type} : Except (List Problem) α → List Problem
  | .ok _ => []
  | .error ps => ps

/-- The text under a key, or what is wrong with the value there. -/
def text? (key : Text) : Value → Except (List Problem) Text
  | .str l => .ok l.content
  | _ => .error [⟨[.key key], .noText⟩]

/-- Whether an integer fits in 64 bits with a sign. -/
def isWordSized (i : Int) : Bool := -(Int.pow 2 63) ≤ i && i < Int.pow 2 63

/-- A key of a map as a step of a path: a text by itself, a number that is not too large as an
index, and all else as it is shown. -/
def keyStep : Value → Problem.Step
  | .str l => .key l.content
  | .int i => if isWordSized i then .index i else .key (Text.ofInt i)
  | .bool b => .index b.toInt
  | k => .key k.literal

/-- What is wrong with the keys of a map in which all keys are texts. -/
def keyProblems (problem : Problem.Step → Problem) (ps : Pairs) : List Problem :=
  ps.filterMap fun p =>
    match p.1 with
    | .str _ => none
    | k => some (problem (keyStep k))

/-- Some key that is a text holds surrogates. -/
def hasUnicodeFault (ps : Pairs) : Bool :=
  ps.any fun p =>
    match p.1 with
    | .str l => !Text.allChars l.content
    | _ => false

/-- The pairs whose keys are texts, each with its key as a plain text. -/
def textPairs (ps : Pairs) : Pairs :=
  ps.filterMap fun p =>
    match p.1 with
    | .str l => some (.text l.content, p.2)
    | _ => none

end MarkupCatalog.Record
