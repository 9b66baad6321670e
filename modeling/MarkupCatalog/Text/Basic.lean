/-
Text as the list of its code points, and the few ways in which this library takes it apart and puts
it together: a fixed beginning, the first place of a separator, the pieces between separators, and
what is left without a certain kind of end. `cut_eq_some` says that cutting loses nothing, and
`joined_pieces` that the pieces put together again are the text.
-/
import MarkupCatalog.Text.CodePoint

namespace MarkupCatalog

/-- Text, code point by code point. -/
abbrev Text := List CodePoint

end MarkupCatalog

/-- The text of a string, all of whose code points are characters. -/
@[simp] def String.toText (s : String) : MarkupCatalog.Text := s.toList.map .char

namespace MarkupCatalog

/-- Texts that are found equal are equal. -/
instance : LawfulBEq Text := inferInstance

namespace Text

/-- The text holds characters only. -/
def allChars (s : Text) : Bool := s.all CodePoint.isChar

/-! ## A fixed beginning -/

/-- What follows `start` in a text that begins with it. -/
def after? : (start : Text) → Text → Option Text
  | [], s => some s
  | _ :: _, [] => none
  | p :: start, c :: s => if p = c then after? start s else none

/-- What follows a keyword, which is given in small letters and may stand in any ASCII case. -/
def afterWord? : (word : Text) → Text → Option Text
  | [], s => some s
  | _ :: _, [] => none
  | p :: word, c :: s => if p = c.toLower then afterWord? word s else none

/-- The text begins with `start`. -/
def startsWith (start s : Text) : Bool := (after? start s).isSome

theorem after?_eq_some {start s rest : Text} : after? start s = some rest ↔ s = start ++ rest := by
  induction start generalizing s with
  | nil => simp [after?, eq_comm]
  | cons p start ih => cases s <;> grind [after?]

theorem after?_append (start rest : Text) : after? start (start ++ rest) = some rest :=
  after?_eq_some.2 rfl

theorem afterWord?_length {word s rest : Text} (h : afterWord? word s = some rest) :
    s.length = word.length + rest.length := by
  induction word generalizing s with
  | nil => simp_all [afterWord?]
  | cons p word ih => cases s <;> grind [afterWord?]

theorem eq_take_append_of_afterWord? {word s rest : Text} (h : afterWord? word s = some rest) :
    s = s.take word.length ++ rest := by
  induction word generalizing s with
  | nil => simp_all [afterWord?]
  | cons p word ih =>
    cases s with
    | nil => simp [afterWord?] at h
    | cons c s =>
      rw [afterWord?] at h
      split at h
      · simpa using ih h
      · simp at h

/-! ## The first place of a separator -/

/-- The text before and after the first place where `sep` stands. -/
def cut (sep : Text) : Text → Option (Text × Text)
  | [] => (after? sep []).map fun rest => ([], rest)
  | c :: s =>
    match after? sep (c :: s) with
    | some rest => some ([], rest)
    | none => (cut sep s).map fun p => (c :: p.1, p.2)

theorem cut_eq_some {sep s before rest : Text} (h : cut sep s = some (before, rest)) :
    s = before ++ sep ++ rest := by
  induction s generalizing before with
  | nil =>
    simp only [cut, Option.map_eq_some_iff, Prod.mk.injEq] at h
    obtain ⟨r, hr, rfl, rfl⟩ := h
    simpa using after?_eq_some.1 hr
  | cons c s ih =>
    rw [cut] at h
    split at h
    next r hr =>
      obtain ⟨rfl, rfl⟩ := Prod.mk.inj (Option.some.inj h)
      simpa using after?_eq_some.1 hr
    next =>
      obtain ⟨p, hp, he⟩ := Option.map_eq_some_iff.1 h
      obtain ⟨rfl, rfl⟩ := Prod.mk.inj he
      simp [ih hp]

theorem cut_length_lt {sep s before rest : Text} (hsep : sep ≠ [])
    (h : cut sep s = some (before, rest)) : rest.length < s.length := by
  have hs := congrArg List.length (cut_eq_some h)
  have := List.length_pos_iff.2 hsep
  simp only [List.length_append] at hs
  omega

/-- Every place of `sep`, from left to right, gives way to `new`. An empty separator has no place. -/
def replaceAll (sep new s : Text) : Text :=
  if _hsep : sep = [] then s
  else
    match _h : cut sep s with
    | none => s
    | some (before, rest) => before ++ new ++ replaceAll sep new rest
termination_by s.length
decreasing_by exact cut_length_lt _hsep _h

/-! ## Pieces -/

/-- The pieces of a list between its separators; there is always at least one. -/
def pieces {α : Type} (isSep : α → Bool) : List α → List (List α)
  | [] => [[]]
  | a :: s =>
    if isSep a then [] :: pieces isSep s
    else
      match pieces isSep s with
      | [] => [[a]]
      | piece :: more => (a :: piece) :: more

/-- The pieces with `sep` between each two of them. -/
def joined (sep : Text) : List Text → Text
  | [] => []
  | [piece] => piece
  | piece :: more => piece ++ sep ++ joined sep more

theorem pieces_ne_nil {α : Type} (isSep : α → Bool) (s : List α) : pieces isSep s ≠ [] := by
  cases s with
  | nil => simp [pieces]
  | cons a s =>
    rw [pieces]
    split
    · simp
    · split <;> simp

theorem joined_pieces (sep : CodePoint) (s : Text) : joined [sep] (pieces (· == sep) s) = s := by
  induction s with
  | nil => rfl
  | cons c s ih =>
    have hne := pieces_ne_nil (· == sep) s
    rw [pieces]
    split
    next h =>
      cases hp : pieces (· == sep) s with
      | nil => exact absurd hp hne
      | cons piece more => rw [hp] at ih; simp_all [joined]
    next =>
      cases hp : pieces (· == sep) s with
      | nil => exact absurd hp hne
      | cons piece more =>
        rw [hp] at ih
        cases more <;> simp_all [joined]

/-! ## The end -/

/-- The list without the items at its end that satisfy `p`. -/
def dropTrailing {α : Type} (p : α → Bool) : List α → List α
  | [] => []
  | a :: s =>
    match dropTrailing p s with
    | [] => if p a then [] else [a]
    | kept => a :: kept

theorem dropTrailing_eq_nil_iff {α : Type} {p : α → Bool} {s : List α} :
    dropTrailing p s = [] ↔ s.all p = true := by
  induction s with
  | nil => simp [dropTrailing]
  | cons a s ih =>
    rw [dropTrailing]
    split <;> simp_all

end Text
end MarkupCatalog
