/-
Headers: the options that a comment gives. A key is a run of word characters with a colon after
it, at the beginning of the text or after whitespace; its value goes on to the next key. So a text
falls into a stray beginning and assignments (`scan`, and `marks_scan` says that nothing is lost),
and the last assignment of each key counts.
-/
import MarkupCatalog.Header.Mark
import MarkupCatalog.Comment
import MarkupCatalog.Options
import MarkupCatalog.Outcome
import MarkupCatalog.Wrap.Reading

namespace MarkupCatalog

/-- A header taken apart: what stands before the first key, and the keys with what stands after
the colon of each. -/
structure Header where
  stray : List Mark
  assignments : List (Text × List Mark)
deriving DecidableEq, Repr

namespace Header

/-! ## Taking apart -/

/-- A key at the beginning of the marks, and what follows its colon. -/
def key? (ms : List Mark) : Option (Text × List Mark) :=
  let word := ms.takeWhile Mark.isWord
  match ms.dropWhile Mark.isWord with
  | [] => none
  | m :: rest => if m.isColon && !word.isEmpty then some (Mark.chars word, rest) else none

theorem key?_eq_some {ms rest : List Mark} {k : Text} (h : key? ms = some (k, rest)) :
    ∃ word colon, ms = word ++ colon :: rest ∧ word ≠ [] ∧ (∀ m ∈ word, m.isWord = true) ∧
      colon.isColon = true ∧ k = Mark.chars word := by
  rw [key?] at h
  have hms := List.takeWhile_append_dropWhile (p := Mark.isWord) (l := ms)
  split at h
  · simp at h
  next m rest' hdrop =>
    rw [hdrop] at hms
    split at h
    next hc =>
      simp only [Option.some.injEq, Prod.mk.injEq] at h
      obtain ⟨rfl, rfl⟩ := h
      simp only [Bool.and_eq_true, Bool.not_eq_true', List.isEmpty_eq_false_iff] at hc
      exact ⟨_, m, hms.symm, hc.2, fun x hx => List.all_eq_true.1 List.all_takeWhile x hx, hc.1, rfl⟩
    next => simp at h

theorem key?_length {ms rest : List Mark} {k : Text} (h : key? ms = some (k, rest)) :
    rest.length < ms.length := by
  obtain ⟨word, colon, rfl, -⟩ := key?_eq_some h
  simp
  omega

/-- The marks taken apart; `free` tells whether a key may stand at their beginning. -/
def scan (free : Bool) (ms : List Mark) : Header :=
  match ms with
  | [] => ⟨[], []⟩
  | m :: rest =>
    match _h : if free then key? (m :: rest) else none with
    | some (k, after) =>
      let a := scan false after
      ⟨[], (k, a.stray) :: a.assignments⟩
    | none =>
      let a := scan m.isGap rest
      ⟨m :: a.stray, a.assignments⟩
termination_by ms.length
decreasing_by
  · refine key?_length (k := k) ?_
    split at _h
    · exact _h
    · simp at _h
  · simp

/-- The marks that a header was taken from. -/
def marks (h : Header) : List Mark :=
  h.stray ++ h.assignments.flatMap fun p => p.1.map (⟨·, false⟩) ++ ⟨':', false⟩ :: p.2

theorem map_chars_of_isWord {word : List Mark} (h : ∀ m ∈ word, m.isWord = true) :
    (Mark.chars word).map (⟨·, false⟩) = word := by
  induction word with
  | nil => rfl
  | cons m word ih =>
    obtain ⟨c, e⟩ := m
    have hm := h _ (List.mem_cons_self ..)
    have hw := ih fun x hx => h x (List.mem_cons_of_mem _ hx)
    simp_all [Mark.chars, Mark.isWord, Mark.bare]

theorem marks_scan (free : Bool) (ms : List Mark) : (scan free ms).marks = ms := by
  fun_induction scan free ms with
  | case1 => rfl
  | case2 free m rest k after hk a ih =>
    have hk' : key? (m :: rest) = some (k, after) := by
      split at hk
      · exact hk
      · simp at hk
    obtain ⟨word, colon, hms, -, hword, hcolon, rfl⟩ := key?_eq_some hk'
    have hc : colon = ⟨':', false⟩ := by
      obtain ⟨c, e⟩ := colon
      simp_all [Mark.isColon, Mark.bare]
    rw [hms, hc, ← ih]
    simp [marks, map_chars_of_isWord hword, a]
  | case3 free m rest hk a ih => simpa [marks] using ih

/-- The header that a text writes, with or without the delimiters of a comment. -/
def read (s : Text) : Header := scan true (Mark.read (Comment.inner s))

/-! ## Options -/

/-- The value that the marks after a key give: trimmed, and taken apart at its colons if there are
any and the key is not one of those whose values stay whole. -/
def setting (k : Text) (ms : List Mark) : Setting :=
  let ms := Mark.trim ms
  if k ∈ Key.verbatim then .text (Mark.chars ms)
  else
    match Mark.parts ms with
    | [part] => .text part
    | parts => .parts parts

/-- The assignments in order, with their values. -/
def settings (h : Header) : List (Text × Setting) :=
  h.assignments.map fun p => (p.1, setting p.1 p.2)

/-- The options as declared: the last value of each key. -/
def declared (h : Header) : Options := Options.putAll h.settings []

/-- The wrap that the header declares, if it declares one at all. -/
def wrap? (h : Header) : Option Wrap :=
  ((h.declared.get? Key.wrap).filter Setting.isGiven).map Setting.toWrap

/-- The options with the wrap that holds: the declared one, else `fallback`. -/
def options (h : Header) (fallback : Wrap) : Options :=
  h.declared.put Key.wrap (.wrap (h.wrap?.getD fallback))

/-- What is told about a header: the text before its first key, unless that is whitespace. -/
def events (h : Header) : List Event :=
  let stray := Mark.trim h.stray
  if stray.isEmpty then [] else [.droppedText (Mark.chars stray)]

/-! ## Defaults -/

/-- The wrap that defaults give: a map under the key `wrap`, a configuration in its field. -/
def defaultWrap? : Value → Except Fault Wrap
  | .null => .ok .empty
  | .map pairs => Wrap.ofValue? ((Pairs.get? Key.wrap pairs).getD (.wrap .empty))
  | .config _ _ _ w _ => .ok w
  | v => .error (.noMember v.kind .wrap)

/-- The options of a header text. The defaults are looked at only where the text declares no
wrap. -/
def parse (s : Text) (defaults : Value) : Outcome Options :=
  let h := read s
  let fallback := if h.wrap?.isSome then .ok .empty else defaultWrap? defaults
  ⟨h.events, fallback.map h.options⟩

end Header
end MarkupCatalog
