/-
Start markers: the places where a comment opens that holds `extract:`, in any case, after whitespace
or a dash. The comment need not be closed, but the word comes before anything that would close it.
-/
import MarkupCatalog.Comment

namespace MarkupCatalog.StartMarker

/-- The word that makes a comment a start marker. -/
def keyword : Text := "extract:".toText

/-- A character after which the word may stand. -/
def isBefore (c : CodePoint) : Bool := Text.isBlank c || c == '-'

/-- What follows the first place of the word inside a comment; `free` tells whether the word may
stand at the beginning. -/
def afterKeyword? (free : Bool) : Text → Option Text
  | [] => none
  | c :: s =>
    match (if free then Text.afterWord? keyword (c :: s) else none) with
    | some rest => some rest
    | none => if Text.startsWith Comment.closing (c :: s) then none else afterKeyword? (isBefore c) s

/-- What follows the word of a start marker that stands at the beginning of a text. The opening
delimiter ends in a dash, so the word may follow it at once. -/
def after? (s : Text) : Option Text := (Text.after? Comment.opening s).bind (afterKeyword? true)

/-- A start marker stands at the beginning of the text. -/
def stands (s : Text) : Bool := (after? s).isSome

theorem afterKeyword?_length {free : Bool} {s rest : Text}
    (h : afterKeyword? free s = some rest) : rest.length ≤ s.length := by
  induction s generalizing free with
  | nil => simp [afterKeyword?] at h
  | cons c s ih =>
    rw [afterKeyword?] at h
    split at h
    next r hr =>
      obtain rfl := Option.some.inj h
      split at hr
      · have := Text.afterWord?_length hr
        omega
      · simp at hr
    next =>
      split at h
      · simp at h
      · have := ih h
        simp
        omega

theorem after?_length {s rest : Text} (h : after? s = some rest) : rest.length < s.length := by
  obtain ⟨inside, hs, hr⟩ := Option.bind_eq_some_iff.1 h
  have := afterKeyword?_length hr
  rw [Text.after?_eq_some.1 hs]
  simp [Comment.opening]
  omega

/-- How many start markers a text has. The next one is looked for after the word of the last, so
that markers that share their word count once. -/
def count (s : Text) : Nat :=
  match s with
  | [] => 0
  | c :: t =>
    match _h : after? (c :: t) with
    | some rest => count rest + 1
    | none => count t
termination_by s.length
decreasing_by
  · exact after?_length _h
  · simp

example : stands "<!-- name:x Extract:y".toText && stands "<!--extract:y".toText = true := by decide
example : stands "<!-- noextract:y -->".toText || stands "<!-- a --> extract:".toText = false := by
  decide

end MarkupCatalog.StartMarker
