/-
Blocks: a comment that holds an `extract` key, a body, and an end marker. A start marker begins a
block only if an end marker comes after its comment and no other start marker comes between the two.
`read?_eq_some` says that a block is there as it is written, and `blocks` finds them from left to
right, each after the end of the last.
-/
import MarkupCatalog.Block.EndMarker
import MarkupCatalog.Block.StartMarker
import MarkupCatalog.Event

namespace MarkupCatalog

/-- A block. -/
structure Block where
  /-- the text of the opening comment -/
  header : Text
  body : Text
  marker : EndMarker
deriving DecidableEq, Repr

namespace Block

/-- The block as it is written. -/
def text (b : Block) : Text :=
  Comment.opening ++ b.header ++ Comment.closing ++ b.body ++ b.marker.text

/-- The text up to the first end marker, that marker, and what follows it; nothing if a start marker
comes first. -/
def untilEnd? : Text → Option (Text × EndMarker × Text)
  | [] => none
  | c :: s =>
    match EndMarker.read? (c :: s) with
    | some (m, rest) => some ([], m, rest)
    | none =>
      if StartMarker.stands (c :: s) then none
      else (untilEnd? s).map fun p => (c :: p.1, p.2)

/-- The block at the beginning of a text, and what follows it. -/
def read? (s : Text) : Option (Block × Text) :=
  if StartMarker.stands s then
    (Text.after? Comment.opening s).bind fun inside =>
      (Text.cut Comment.closing inside).bind fun p =>
        (untilEnd? p.2).map fun q => (⟨p.1, q.1, q.2.1⟩, q.2.2)
  else none

theorem untilEnd?_eq_some {s body rest : Text} {m : EndMarker}
    (h : untilEnd? s = some (body, m, rest)) : s = body ++ m.text ++ rest := by
  induction s generalizing body with
  | nil => simp [untilEnd?] at h
  | cons c s ih =>
    rw [untilEnd?] at h
    split at h
    next m' rest' hm =>
      simp only [Option.some.injEq, Prod.mk.injEq] at h
      obtain ⟨rfl, rfl, rfl⟩ := h
      simpa using EndMarker.read?_eq_some hm
    next =>
      split at h
      · simp at h
      · obtain ⟨p, hp, he⟩ := Option.map_eq_some_iff.1 h
        simp only [Prod.mk.injEq] at he
        obtain ⟨rfl, he⟩ := he
        obtain ⟨q, m', r⟩ := p
        simp only [Prod.mk.injEq] at he
        obtain ⟨rfl, rfl⟩ := he
        simp [ih hp]

theorem read?_eq_some {s rest : Text} {b : Block} (h : read? s = some (b, rest)) :
    s = b.text ++ rest := by
  rw [read?] at h
  split at h
  · simp only [Option.bind_eq_some_iff, Option.map_eq_some_iff, Prod.mk.injEq] at h
    obtain ⟨inside, hs, p, hcut, ⟨body, m, after⟩, hend, rfl, rfl⟩ := h
    rw [Text.after?_eq_some.1 hs, Text.cut_eq_some hcut, untilEnd?_eq_some hend]
    simp [text]
  · simp at h

theorem read?_length {s rest : Text} {b : Block} (h : read? s = some (b, rest)) :
    rest.length < s.length := by
  rw [read?_eq_some h]
  simp [text, Comment.opening]
  omega

/-- The blocks of a document, in order. -/
def blocks (s : Text) : List Block :=
  match s with
  | [] => []
  | c :: t =>
    match _h : read? (c :: t) with
    | some (b, rest) => b :: blocks rest
    | none => blocks t
termination_by s.length
decreasing_by
  · exact read?_length _h
  · simp

/-- What is told about a document with these blocks: how many more start markers it has. -/
def events (document : Text) (bs : List Block) : List Event :=
  let unended := StartMarker.count document - bs.length
  if 0 < unended then [.unendedBlocks unended] else []

end Block
end MarkupCatalog
