/-
End markers: comments whose text begins with the word `endextract`, in any case, after whitespace.
What stands between the word and the end of the comment is a note. `read?_eq_some` says that a
marker that has been read is there as it is written.
-/
import MarkupCatalog.Comment

namespace MarkupCatalog

/-- An end marker. -/
structure EndMarker where
  /-- the whitespace before the word -/
  gap : Text
  /-- the word, in the case in which it is written -/
  word : Text
  note : Text
deriving DecidableEq, Repr

namespace EndMarker

/-- The word that makes a comment an end marker. -/
def keyword : Text := "endextract".toText

/-- The marker as it is written. -/
def text (m : EndMarker) : Text := Comment.opening ++ m.gap ++ m.word ++ m.note ++ Comment.closing

/-- The end marker at the beginning of a text, and what follows it. -/
def read? (s : Text) : Option (EndMarker × Text) :=
  (Text.after? Comment.opening s).bind fun inside =>
    let gap := inside.takeWhile Text.isBlank
    let named := inside.dropWhile Text.isBlank
    (Text.afterWord? keyword named).bind fun noted =>
      (Text.cut Comment.closing noted).map fun p => (⟨gap, named.take keyword.length, p.1⟩, p.2)

theorem read?_eq_some {s rest : Text} {m : EndMarker} (h : read? s = some (m, rest)) :
    s = m.text ++ rest := by
  simp only [read?, Option.bind_eq_some_iff, Option.map_eq_some_iff, Prod.mk.injEq] at h
  obtain ⟨inside, hs, noted, hword, p, hcut, rfl, rfl⟩ := h
  have hgap := List.takeWhile_append_dropWhile (p := Text.isBlank) (l := inside)
  have hnamed := Text.eq_take_append_of_afterWord? hword
  rw [Text.cut_eq_some hcut] at hnamed
  generalize inside.takeWhile Text.isBlank = gap at *
  generalize inside.dropWhile Text.isBlank = named at *
  rw [Text.after?_eq_some.1 hs, ← hgap]
  generalize named.take keyword.length = word at *
  rw [hnamed]
  simp [text]

theorem length_pos (m : EndMarker) : 0 < m.text.length := by
  simp [text, Comment.opening]

theorem read?_length {s rest : Text} {m : EndMarker} (h : read? s = some (m, rest)) :
    rest.length < s.length := by
  rw [read?_eq_some h]
  have := m.length_pos
  simp
  omega

/-- The text without its end markers, taken out from left to right. -/
def removeAll (s : Text) : Text :=
  match s with
  | [] => []
  | c :: t =>
    match _h : read? (c :: t) with
    | some (_, rest) => removeAll rest
    | none => c :: removeAll t
termination_by s.length
decreasing_by
  · exact read?_length _h
  · simp

example : (read? "<!--\n EndExtract x --> y".toText).map (·.2) = some " y".toText := by decide
example : read? "<!-- endextract".toText = none := by decide

end EndMarker
end MarkupCatalog
