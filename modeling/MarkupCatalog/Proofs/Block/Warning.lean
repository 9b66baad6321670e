/-
What is told about the start markers of a document. They are counted by their words: start markers
that share a word count once (`exists_wordsFrom`), and so does the one that begins a block. What is told
is how many words are left when those of the blocks are taken away (`exists_tiling_warning`); so a start
marker outside all blocks is always told of. But a block may hold more words than its first, in its
opening comment or in the note of its end marker, and these are told of as well (`events_annotated`).
-/
import Mathlib.Data.Finset.Card
import MarkupCatalog.Proofs.Block.Spans

namespace MarkupCatalog

open Text (StandsAt WordAt FirstFrom)

/-! ## The word of a start marker -/

namespace StartMarker

/-- The word stands at place `j` in the comment that opens at place `s`, where it is allowed to
stand. -/
structure KeywordIn (d : Text) (s j : Nat) : Prop where
  le : s + 4 ≤ j
  word : WordAt keyword d j
  before : ∃ c, d[j - 1]? = some c ∧ (Text.isBlank c = true ∨ c = '-')
  /-- nothing closes the comment before the word -/
  lt_closing : ∀ k, s + 4 ≤ k → StandsAt Comment.closing d k → j < k

/-- A start marker stands at place `s`, and its word is the one at place `j`: the first in its
comment. -/
structure HasWord (d : Text) (s j : Nat) : Prop where
  opening : StandsAt Comment.opening d s
  first : FirstFrom (KeywordIn d s) (s + 4) j

theorem HasWord.keywordIn {d : Text} {s j : Nat} (h : HasWord d s j) : KeywordIn d s j := h.first.2.1

theorem HasWord.unique {d : Text} {s j j' : Nat} (h : HasWord d s j) (h' : HasWord d s j') :
    j = j' := h.first.unique h'.first

theorem marksStart_iff {d : Text} {s : Nat} : MarksStart d s ↔ ∃ j, HasWord d s j := by
  constructor
  · intro h
    obtain ⟨hopen, j, hle, hword, hbefore, hclose⟩ := h
    obtain ⟨i, hi⟩ := FirstFrom.exists_of (P := KeywordIn d s) hle ⟨hle, hword, hbefore, hclose⟩
    exact ⟨i, hopen, hi⟩
  · intro h
    obtain ⟨j, hj⟩ := h
    obtain ⟨hle, hword, hbefore, hclose⟩ := hj.keywordIn
    exact ⟨hj.opening, j, hle, hword, hbefore, hclose⟩

/-- In the part of a text after an opening delimiter, the word stands where it stands in the text. -/
theorem keywordAt_drop_iff {d : Text} {s k : Nat} (hopen : StandsAt Comment.opening d s) :
    KeywordAt true (d.drop (s + 4)) k ↔ KeywordIn d s (s + 4 + k) := by
  rw [keywordAt_drop hopen]
  constructor
  · intro h
    obtain ⟨hword, hbefore, hclose⟩ := h
    exact ⟨Nat.le_add_right _ _, hword, hbefore, hclose⟩
  · intro h
    exact ⟨h.word, h.before, h.lt_closing⟩

/-- What is read at a place is what follows the word of the start marker there. -/
theorem after?_drop_iff {d r : Text} {s : Nat} :
    after? (d.drop s) = some r ↔ ∃ j, HasWord d s j ∧ r = d.drop (j + keyword.length) := by
  have hfirst (hopen : StandsAt Comment.opening d s) (k : Nat) :
      FirstFrom (KeywordAt true (d.drop (s + 4))) 0 k ↔
        FirstFrom (KeywordIn d s) (s + 4) (s + 4 + k) := by
    rw [FirstFrom.congr fun k => keywordAt_drop_iff hopen]
    exact Text.firstFrom_shift (a := 0)
  simp only [after?, Option.bind_eq_some_iff, Text.after?_drop, afterKeyword?_eq_some_iff]
  constructor
  · intro h
    obtain ⟨_, ⟨hopen, rfl⟩, k, hk, rfl⟩ := h
    exact ⟨_, ⟨hopen, (hfirst hopen k).1 hk⟩, by rw [List.drop_drop, ← Nat.add_assoc]; rfl⟩
  · intro h
    obtain ⟨j, hj, rfl⟩ := h
    obtain ⟨k, rfl⟩ : ∃ k, j = s + 4 + k := ⟨j - (s + 4), by have := hj.keywordIn.le; omega⟩
    exact ⟨_, ⟨hj.opening, rfl⟩, k, (hfirst hj.opening k).2 hj.first,
      by rw [List.drop_drop, ← Nat.add_assoc]; rfl⟩

/-- An opening delimiter and the word have no character in common. -/
theorem apart_of_opening {d : Text} {s j : Nat} (hopen : StandsAt Comment.opening d s)
    (hword : WordAt keyword d j) : s + 4 ≤ j ∨ j + keyword.length ≤ s := by
  by_contra hlap
  have hnone : Comment.opening.all (fun c => c.toLower ∉ keyword) = true := by decide
  have hpos : 0 < keyword.length := by decide
  obtain ⟨a, b, ha, hb, hab⟩ : ∃ a b, a < Comment.opening.length ∧ b < keyword.length ∧
      s + a = j + b := by
    have hfour : Comment.opening.length = 4 := rfl
    by_cases hle : s ≤ j
    · exact ⟨j - s, 0, by omega, hpos, by omega⟩
    · exact ⟨0, s - j, by omega, by omega, by omega⟩
  have hchar := hword.getElem? hb
  rw [← hab, hopen.getElem? ha, List.getElem?_eq_getElem ha, List.getElem?_eq_getElem hb,
    Option.map_some, Option.some.injEq] at hchar
  have hnot := of_decide_eq_true (List.all_eq_true.1 hnone _ (List.getElem_mem ha))
  exact hnot (hchar ▸ List.getElem_mem hb)

/-- A start marker between another one and the end of its word has the same word. -/
theorem HasWord.of_between {d : Text} {s s' j : Nat} (h : HasWord d s j) (hs : s ≤ s')
    (hj : s' < j + keyword.length) (hopen : StandsAt Comment.opening d s') : HasWord d s' j := by
  have hin := h.keywordIn
  have hle : s' + 4 ≤ j := (apart_of_opening hopen hin.word).resolve_right (by omega)
  refine ⟨hopen, hle, ⟨hle, hin.word, hin.before, fun k hk => hin.lt_closing k (by omega)⟩, ?_⟩
  intro k hk hkj hk'
  refine h.first.2.2 k (by omega) hkj ⟨by omega, hk'.word, hk'.before, fun i hi hclose => ?_⟩
  have := hin.lt_closing i hi hclose
  omega

/-! ## Counting -/

theorem count_of_after? {s r : Text} (h : after? s = some r) : count s = count r + 1 := by
  cases s with
  | nil => simp [after?, Comment.opening, Text.after?] at h
  | cons c s =>
    rw [count]
    split
    next r' hr => rw [Option.some.inj (h.symm.trans hr)]
    next hnone => simp [h] at hnone

theorem count_of_after?_eq_none {c : CodePoint} {s : Text} (h : after? (c :: s) = none) :
    count (c :: s) = count s := by
  rw [count]
  split
  next r hr => simp [h] at hr
  next => rfl

/-- The words of the start markers of a document from place `i` on. -/
def WordsFrom (d : Text) (i : Nat) (ws : Finset Nat) : Prop :=
  ∀ j, j ∈ ws ↔ ∃ s, i ≤ s ∧ HasWord d s j

theorem WordsFrom.nil {d : Text} {i : Nat} (h : d.length ≤ i) : WordsFrom d i ∅ := by
  intro j
  simp only [Finset.notMem_empty, false_iff, not_exists, not_and]
  intro s hs hj
  have : s + 4 ≤ d.length := hj.opening.length_le Comment.opening_ne_nil
  omega

theorem WordsFrom.skip {d : Text} {i : Nat} {ws : Finset Nat} (hnone : ∀ j, ¬HasWord d i j)
    (h : WordsFrom d (i + 1) ws) : WordsFrom d i ws := by
  intro j
  rw [h j]
  constructor
  · rintro ⟨s, hs, hj⟩
    exact ⟨s, by omega, hj⟩
  · rintro ⟨s, hs, hj⟩
    have hne : i ≠ s := by
      rintro rfl
      exact hnone j hj
    exact ⟨s, by omega, hj⟩

/-- A start marker before the end of the word of another one shares that word, so it is not missed by
going on after it. -/
theorem WordsFrom.insert {d : Text} {i j : Nat} {ws : Finset Nat} (hj : HasWord d i j)
    (h : WordsFrom d (j + keyword.length) ws) : j ∉ ws ∧ WordsFrom d i (insert j ws) := by
  have hle := hj.keywordIn.le
  constructor
  · intro hmem
    obtain ⟨s, hs, hs'⟩ := (h j).1 hmem
    have := hs'.keywordIn.le
    omega
  · intro j'
    rw [Finset.mem_insert, h j']
    constructor
    · rintro (rfl | ⟨s, hs, hj'⟩)
      · exact ⟨i, Nat.le_refl i, hj⟩
      · exact ⟨s, by omega, hj'⟩
    · rintro ⟨s, hs, hj'⟩
      by_cases hbetween : s < j + keyword.length
      · exact .inl (hj'.unique (hj.of_between hs hbetween hj'.opening))
      · exact .inr ⟨s, by omega, hj'⟩

/-- **Start markers are counted by their words.** -/
theorem exists_wordsFrom (d : Text) (i : Nat) :
    ∃ ws, WordsFrom d i ws ∧ count (d.drop i) = ws.card := by
  induction hn : d.length - i using Nat.strongRecOn generalizing i with
  | ind n ih =>
    by_cases hi : i < d.length
    · cases hafter : after? (d.drop i) with
      | none =>
        obtain ⟨ws, h, hcount⟩ := ih _ (by omega) (i + 1) rfl
        refine ⟨ws, h.skip fun j hj => ?_, ?_⟩
        · simp [after?_drop_iff.2 ⟨j, hj, rfl⟩] at hafter
        · rw [List.drop_eq_getElem_cons hi] at hafter ⊢
          rw [count_of_after?_eq_none hafter, hcount]
      | some r =>
        obtain ⟨j, hj, rfl⟩ := after?_drop_iff.1 hafter
        have hle := hj.keywordIn.le
        obtain ⟨ws, h, hcount⟩ := ih _ (by omega) (j + keyword.length) rfl
        obtain ⟨hnew, h⟩ := h.insert hj
        exact ⟨_, h, by rw [count_of_after? hafter, hcount, Finset.card_insert_of_notMem hnew]⟩
    · have hle := Nat.le_of_not_lt hi
      exact ⟨∅, .nil hle, by rw [List.drop_eq_nil_of_le hle, count, Finset.card_empty]⟩

end StartMarker

/-! ## Words of blocks -/

namespace Block

open StartMarker (MarksStart HasWord)

/-- The word of a span stands in its opening comment. -/
theorem IsSpan.word_lt {d : Text} {s e j : Nat} (h : IsSpan d s e) (hj : HasWord d s j) : j < e := by
  obtain ⟨-, c, t, hclose, hend, he, -⟩ := h
  have := hj.keywordIn.lt_closing c hclose.1 hclose.2.1
  have := he.le_length
  have := hend.1
  omega

/-- A start marker before a span that has the same word is a span with the same end. -/
theorem IsSpan.of_word {d : Text} {s s' e j : Nat} (h : IsSpan d s' e) (hj : HasWord d s j)
    (hj' : HasWord d s' j) (hs : s ≤ s') : IsSpan d s e := by
  obtain ⟨-, c, t, ⟨hc, hclose, hbefore⟩, hend⟩ := h
  refine ⟨StartMarker.marksStart_iff.2 ⟨j, hj⟩, c, t, ⟨by omega, hclose, fun k hk hkc hk' => ?_⟩, hend⟩
  -- nothing closes the comment before its word, and the word comes after `s'`
  have := hj.keywordIn.lt_closing k hk hk'
  have := hj'.keywordIn.le
  exact hbefore k (by omega) hkc hk'

/-- The spans of a document have as many words as they are. -/
theorem exists_spans_words {d : Text} {spans : List (Nat × Nat)}
    (hdisjoint : spans.Pairwise fun p q => p.2 ≤ q.1) (hspan : ∀ p ∈ spans, IsSpan d p.1 p.2) :
    ∃ ts : Finset Nat, (∀ j, j ∈ ts ↔ ∃ p ∈ spans, HasWord d p.1 j) ∧ ts.card = spans.length := by
  induction spans with
  | nil => exact ⟨∅, by simp, rfl⟩
  | cons p ps ih =>
    obtain ⟨hp, hps⟩ := List.pairwise_cons.1 hdisjoint
    obtain ⟨ts, hts, hcard⟩ := ih hps fun q hq => hspan q (List.mem_cons_of_mem _ hq)
    have hfirst := hspan p List.mem_cons_self
    obtain ⟨j₀, h₀⟩ := StartMarker.marksStart_iff.1 hfirst.1
    have hnew : j₀ ∉ ts := by
      intro hmem
      obtain ⟨q, hq, h⟩ := (hts j₀).1 hmem
      have := hfirst.word_lt h₀
      have := hp q hq
      have := h.keywordIn.le
      omega
    refine ⟨insert j₀ ts, fun j => ?_, ?_⟩
    · simp only [Finset.mem_insert, hts, List.mem_cons, exists_eq_or_imp]
      constructor
      · rintro (rfl | h)
        · exact .inl h₀
        · exact .inr h
      · rintro (h | h)
        · exact .inl (h.unique h₀)
        · exact .inr h
    · rw [Finset.card_insert_of_notMem hnew, hcard, List.length_cons]

/-! ## What is told -/

/-- The words of start markers that are not the word of a block. -/
def Surplus (d : Text) (spans : List (Nat × Nat)) (us : Finset Nat) : Prop :=
  ∀ j, j ∈ us ↔ (∃ s, HasWord d s j) ∧ ∀ p ∈ spans, ¬HasWord d p.1 j

/-- What is told about a document with these spans. -/
structure Warning (d : Text) (spans : List (Nat × Nat)) (told : List Event) : Prop where
  /-- how many words of start markers are not the word of a block, if there are any -/
  told_eq : ∃ us, Surplus d spans us ∧ told = if us = ∅ then [] else [.unendedBlocks us.card]
  told_iff : told ≠ [] ↔ ∃ s j, HasWord d s j ∧ ∀ p ∈ spans, ¬HasWord d p.1 j
  /-- no start marker outside the blocks is passed over in silence -/
  of_outside : ∀ s, MarksStart d s → (∀ p ∈ spans, ¬(p.1 ≤ s ∧ s < p.2)) → told ≠ []

/-- Each block takes one word away from those that are counted. -/
theorem exists_surplus {d : Text} {spans : List (Nat × Nat)} (h : Tiling d 0 spans) :
    ∃ us, Surplus d spans us ∧
      events d (blocks d) = if us = ∅ then [] else [.unendedBlocks us.card] := by
  obtain ⟨ws, hws, hcount⟩ := StartMarker.exists_wordsFrom d 0
  obtain ⟨ts, hts, hcard⟩ := exists_spans_words h.disjoint fun p hp => (h.isSpan p hp).2
  have hsub : ts ⊆ ws := by
    intro j hj
    obtain ⟨p, -, hp⟩ := (hts j).1 hj
    exact (hws j).2 ⟨p.1, Nat.zero_le _, hp⟩
  have hlen : (blocks d).length = ts.card := by
    rw [hcard, ← List.length_map (f := text)]
    simpa using congrArg List.length h.texts
  refine ⟨ws \ ts, fun j => ?_, ?_⟩
  · rw [Finset.mem_sdiff, hws j, hts j]
    simp
  · rw [List.drop_zero] at hcount
    rw [events, hcount, hlen, ← Finset.card_sdiff_of_subset hsub]
    by_cases hempty : ws \ ts = ∅
    · simp [hempty]
    · have := Finset.card_pos.2 (Finset.nonempty_iff_ne_empty.2 hempty)
      simp only [if_pos this, if_neg hempty]

/-- The word of a start marker outside the blocks is not the word of a block. -/
theorem not_hasWord_of_outside {d : Text} {spans : List (Nat × Nat)} (h : Tiling d 0 spans)
    {s j : Nat} (hj : HasWord d s j) (hout : ∀ p ∈ spans, ¬(p.1 ≤ s ∧ s < p.2)) :
    ∀ p ∈ spans, ¬HasWord d p.1 j := by
  intro p hp hword
  have hspan := (h.isSpan p hp).2
  have := hspan.word_lt hword
  have := hj.keywordIn.le
  by_cases hle : s ≤ p.1
  · obtain ⟨q, hq, hin⟩ := h.complete s p.2 (Nat.zero_le s) (hspan.of_word hj hword hle)
    exact hout q hq hin
  · exact hout p hp ⟨by omega, by omega⟩

/-- **What is told about the blocks of a document** counts the words of start markers that begin no
block. -/
theorem exists_tiling_warning (d : Text) :
    ∃ spans, Tiling d 0 spans ∧ Warning d spans (events d (blocks d)) := by
  obtain ⟨spans, h⟩ := exists_tiling d 0
  obtain ⟨us, hus, htold⟩ := exists_surplus h
  have hiff : events d (blocks d) ≠ [] ↔ ∃ s j, HasWord d s j ∧ ∀ p ∈ spans, ¬HasWord d p.1 j := by
    have hne : events d (blocks d) ≠ [] ↔ ∃ j, j ∈ us := by
      rw [htold, ← Finset.Nonempty, Finset.nonempty_iff_ne_empty]
      split <;> simp_all
    rw [hne, exists_comm]
    exact exists_congr fun j => (hus j).trans exists_and_right.symm
  refine ⟨spans, h, ⟨us, hus, htold⟩, hiff, fun s hs hout => ?_⟩
  obtain ⟨j, hj⟩ := StartMarker.marksStart_iff.1 hs
  exact hiff.2 ⟨s, j, hj, not_hasWord_of_outside h hj hout⟩

/-- A block whose end marker has the path of the block for its note. -/
def annotated : Text := "<!-- extract:a -->x<!-- endextract extract:a -->".toText

/-- All start markers stand inside the one block of the document, and yet it is told of one without an
end. -/
theorem events_annotated :
    Tiling annotated 0 [(0, annotated.length)] ∧
      (∀ s, MarksStart annotated s → s < annotated.length) ∧
      events annotated (blocks annotated) = [.unendedBlocks 1] := by
  have hread : read? (annotated.drop 0) =
      some (⟨" extract:a ".toText, [.char 'x'],
        ⟨[.char ' '], "endextract".toText, " extract:a ".toText⟩⟩, []) := by
    decide +kernel
  refine ⟨Tiling.cons hread (.nil (by decide +kernel)), fun s hs => ?_, by decide +kernel⟩
  have : s + 4 ≤ annotated.length := hs.1.length_le Comment.opening_ne_nil
  omega

end Block
end MarkupCatalog
