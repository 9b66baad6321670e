/-
End markers as they are written, and texts without them. `read?_iff`: a marker is read exactly where
a well-formed one is written. `removeAll_eq_take_append`: what is left of a text when its end markers
are taken out is the text before the first of them, and what is left of the text after it.
-/
import MarkupCatalog.Proofs.Block.Places
import MarkupCatalog.Proofs.Comment

namespace MarkupCatalog

open Text (WordAt FirstFrom)

namespace EndMarker

/-! ## Written markers -/

/-- The marker is one that can be read back: whitespace, the word in some case, and a note that does
not close the comment. -/
structure WellFormed (m : EndMarker) : Prop where
  gap : Text.allBlank m.gap = true
  word : m.word.map CodePoint.toLower = keyword
  note : ¬Comment.closing <:+: m.note

theorem WellFormed.length_word {m : EndMarker} (h : m.WellFormed) :
    m.word.length = keyword.length := by
  rw [← h.word, List.length_map]

theorem WellFormed.wordAt {m : EndMarker} (h : m.WellFormed) (r : Text) :
    WordAt keyword (m.word ++ r) 0 := by
  rw [WordAt, List.drop_zero, ← h.length_word, List.take_left]
  exact h.word

theorem wellFormed_of_read? {s r : Text} {m : EndMarker} (h : read? s = some (m, r)) :
    m.WellFormed := by
  simp only [read?, Option.bind_eq_some_iff, Option.map_eq_some_iff, Prod.mk.injEq] at h
  obtain ⟨inside, -, noted, hnoted, ⟨note, r'⟩, hcut, rfl, rfl⟩ := h
  exact ⟨List.all_takeWhile, (Text.afterWord?_eq_some.1 hnoted).1,
    Text.not_infix_of_cut Comment.closing_ne_nil hcut⟩

/-- A written marker is read, whatever follows it. -/
theorem WellFormed.read? {m : EndMarker} (h : m.WellFormed) (r : Text) :
    EndMarker.read? (m.text ++ r) = some (m, r) := by
  have htext : m.text ++ r =
      Comment.opening ++ (m.gap ++ (m.word ++ (m.note ++ Comment.closing ++ r))) := by
    simp only [text, List.append_assoc]
  have hgap : ∀ c ∈ m.gap, Text.isBlank c = true := List.all_eq_true.1 h.gap
  generalize hrest : m.note ++ Comment.closing ++ r = rest at htext
  have hblank : (m.word ++ rest).takeWhile Text.isBlank = [] ∧
      (m.word ++ rest).dropWhile Text.isBlank = m.word ++ rest := by
    have hword := h.wordAt rest
    cases hw : m.word ++ rest with
    | nil => simp
    | cons c s =>
      rw [hw] at hword
      simp [isBlank_eq_false_of_wordAt hword]
  rw [htext, EndMarker.read?, Text.after?_append, Option.bind_some]
  simp only [List.takeWhile_append_of_pos hgap, List.dropWhile_append_of_pos hgap, hblank]
  rw [Text.afterWord?_eq_some.2 ⟨h.wordAt rest, rfl⟩, Option.bind_some, ← h.length_word,
    List.drop_left, List.take_left, ← hrest,
    Comment.cut_closing h.note]
  simp

/-- A marker is read at the beginning of a text exactly where a well-formed one is written there. -/
theorem read?_iff {s r : Text} {m : EndMarker} :
    read? s = some (m, r) ↔ m.WellFormed ∧ s = m.text ++ r := by
  constructor
  · intro h
    exact ⟨wellFormed_of_read? h, read?_eq_some h⟩
  · intro h
    rcases h with ⟨h, rfl⟩
    exact h.read? r

/-- What follows a marker plays no part in reading it. -/
theorem read?_append {s r : Text} {m : EndMarker} (h : read? s = some (m, r)) (t : Text) :
    read? (s ++ t) = some (m, r ++ t) := by
  obtain ⟨hm, rfl⟩ := read?_iff.1 h
  rw [List.append_assoc]
  exact hm.read? _

/-! ## Taking markers out -/

theorem removeAll_of_read? {s r : Text} {m : EndMarker} (h : read? s = some (m, r)) :
    removeAll s = removeAll r := by
  cases s with
  | nil => simp [read?, Comment.opening, Text.after?] at h
  | cons c s =>
    rw [removeAll]
    split
    next m' r' hm =>
      rw [h] at hm
      simp only [Option.some.injEq, Prod.mk.injEq] at hm
      rw [hm.2]
    next hnone => simp [h] at hnone

theorem removeAll_cons {c : CodePoint} {s : Text} (h : read? (c :: s) = none) :
    removeAll (c :: s) = c :: removeAll s := by
  rw [removeAll]
  split
  next m r hm => simp [h] at hm
  next => rfl

/-- A beginning of a text in which no end marker begins stays. -/
theorem removeAll_eq_of_free {d : Text} {n : Nat} (h : ∀ k, k < n → ¬∃ e, MarksEnd d k e) :
    removeAll d = d.take n ++ removeAll (d.drop n) := by
  induction n with
  | zero => simp
  | succ n ih =>
    rw [ih fun k hk => h k (by omega)]
    cases hd : d.drop n with
    | nil =>
      have hlen := List.drop_eq_nil_iff.1 hd
      rw [List.drop_eq_nil_of_le (by omega), List.take_of_length_le hlen,
        List.take_of_length_le (by omega)]
    | cons c s =>
      have hread := read?_drop_eq_none_iff.2 (h n (by omega))
      rw [hd] at hread
      have hs : d.drop (n + 1) = s := by rw [← List.drop_drop, hd]; rfl
      have hc : d.take (n + 1) = d.take n ++ [c] := by
        rw [List.take_add, hd]; rfl
      rw [removeAll_cons hread, hs, hc, List.append_assoc]
      rfl

/-- **The first end marker of a text is taken out whole,** and the text before it stays. -/
theorem removeAll_eq_take_append {d : Text} {t e : Nat}
    (hfirst : FirstFrom (fun t => ∃ e, MarksEnd d t e) 0 t) (he : MarksEnd d t e) :
    removeAll d = d.take t ++ removeAll (d.drop e) := by
  obtain ⟨m, hm, -⟩ := he.exists_read?
  rw [removeAll_eq_of_free fun k hk => hfirst.2.2 k (Nat.zero_le k) hk, removeAll_of_read? hm]

end EndMarker
end MarkupCatalog
