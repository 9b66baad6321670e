/-
What the identifier of an entry depends on: the words of its source. End markers are found in words,
too, wherever the whitespace between them goes (`exists_read?_of_words_eq`), so that the same is left of
two sources with the same words when these markers are taken out, but for whitespace
(`squeeze_removeAll_of_words_eq`). `id_eq_of_trimmed_lines`: a block keeps its identifier when its lines
are indented anew.
-/
import MarkupCatalog.Proofs.Block.Unopened
import MarkupCatalog.Proofs.Entry.Parse
import MarkupCatalog.Proofs.Text.Words

namespace MarkupCatalog

open Text (words allBlank)

/-! ## Delimiters and words -/

namespace Comment

theorem isBlank_of_mem_opening : ∀ c ∈ opening, Text.isBlank c = false := by
  have h : opening.all (fun c => !Text.isBlank c) = true := by decide
  simpa using h

theorem isBlank_of_mem_closing : ∀ c ∈ closing, Text.isBlank c = false := by
  have h : closing.all (fun c => !Text.isBlank c) = true := by decide
  simpa using h

/-- No delimiter begins in whitespace. -/
theorem closing_infix_blank_append {g s : Text} (hg : allBlank g = true)
    (h : closing <:+: g ++ s) : closing <:+: s := by
  induction g with
  | nil => exact h
  | cons c g ih =>
    simp only [allBlank, List.all_cons, Bool.and_eq_true] at hg
    rcases List.infix_cons_iff.1 h with hpre | hinfix
    · have hc : .char '-' = c := (List.cons_prefix_cons.1 hpre).1
      rw [← hc] at hg
      exact absurd hg.1 (by decide)
    · exact ih hg.2 hinfix

/-- A comment closes in texts with the same words after the same words. -/
theorem exists_closing_of_words_eq {a r t : Text} (ha : ¬closing <:+: a)
    (h : words (a ++ (closing ++ r)) = words t) :
    ∃ a' r', t = a' ++ (closing ++ r') ∧ ¬closing <:+: a' ∧ words r = words r' := by
  induction a generalizing t with
  | nil =>
    obtain ⟨g, r', rfl, hg, hr⟩ :=
      Text.exists_append_of_words_eq closing_ne_nil isBlank_of_mem_closing h
    refine ⟨g, r', rfl, fun hin => ?_, hr⟩
    rw [← List.append_nil g] at hin
    exact absurd (closing_infix_blank_append hg hin) (by decide)
  | cons c a ih =>
    have ha' : ¬closing <:+: a := fun hin => ha (List.infix_cons hin)
    cases hc : Text.isBlank c with
    | true =>
      rw [List.cons_append, Text.words_cons_blank hc] at h
      exact ih ha' h
    | false =>
      obtain ⟨g, t', rfl, hg, ht⟩ := Text.exists_append_of_words_eq (w := [c]) (by simp)
        (by simpa using hc) h
      obtain ⟨a', r', rfl, hclose, hr⟩ := ih ha' ht
      refine ⟨g ++ c :: a', r', by simp, fun hin => ?_, hr⟩
      -- a delimiter that begins with `c` here would begin with it in the other text as well
      rcases List.infix_cons_iff.1 (closing_infix_blank_append hg hin) with ⟨z, hz⟩ | hin'
      · have hback : words (closing ++ (z ++ (closing ++ r'))) = words (c :: a ++ (closing ++ r)) := by
          rw [h, Text.words_blank_append hg, ← List.append_assoc, hz]
          rfl
        obtain ⟨r₂, heq, -⟩ := Text.exists_eq_append_of_words_eq closing_ne_nil
          isBlank_of_mem_closing hback (by simpa using hc)
        have hstands : Text.StandsAt closing (c :: a ++ closing ++ r) 0 := by
          rw [Text.StandsAt, List.drop_zero, List.append_assoc, heq]
          exact List.prefix_append _ _
        exact ha (Text.infix_iff.2 ⟨0, hstands.of_append unbordered_closing (by simp)⟩)
      · exact hclose hin'

end Comment

/-! ## End markers and words -/

namespace EndMarker

theorem WellFormed.isBlank_of_mem {m : EndMarker} (h : m.WellFormed) :
    ∀ c ∈ m.word, Text.isBlank c = false := by
  intro c hc
  rw [Bool.eq_false_iff]
  intro hblank
  have hmem : c.toLower ∈ keyword := h.word ▸ List.mem_map_of_mem hc
  rw [Text.toLower_of_isBlank hblank] at hmem
  have hkeyword : keyword.all (fun c => !Text.isBlank c) = true := by decide
  have hnot := List.all_eq_true.1 hkeyword _ hmem
  simp [hblank] at hnot

/-- **An end marker is made of words:** where one is read, one is read in every text with the same words
that does not begin with whitespace, and the words after the two are the same. -/
theorem exists_read?_of_words_eq {s r t : Text} {m : EndMarker} (hread : read? s = some (m, r))
    (h : words s = words t) (ht : ∀ c, t.head? = some c → Text.isBlank c = false) :
    ∃ m' r', read? t = some (m', r') ∧ words r = words r' := by
  obtain ⟨hm, rfl⟩ := read?_iff.1 hread
  have htext : m.text ++ r = Comment.opening ++
      (m.gap ++ (m.word ++ (m.note ++ (Comment.closing ++ r)))) := by
    simp [text]
  have hword : m.word ≠ [] := by
    rw [← List.length_pos_iff, hm.length_word]
    decide
  rw [htext] at h
  obtain ⟨t₁, rfl, h₁⟩ := Text.exists_eq_append_of_words_eq Comment.opening_ne_nil
    Comment.isBlank_of_mem_opening h ht
  rw [Text.words_blank_append hm.gap] at h₁
  obtain ⟨g₁, t₂, rfl, hg₁, h₂⟩ := Text.exists_append_of_words_eq hword hm.isBlank_of_mem h₁
  obtain ⟨note, r', rfl, hnote, hr⟩ := Comment.exists_closing_of_words_eq hm.note h₂
  refine ⟨⟨g₁, m.word, note⟩, r', read?_iff.2 ⟨⟨hg₁, hm.word, hnote⟩, ?_⟩, hr⟩
  simp [text]

theorem read?_eq_none_of_words_eq {s t : Text} (hread : read? s = none) (h : words s = words t)
    (hs : ∀ c, s.head? = some c → Text.isBlank c = false) : read? t = none := by
  cases hread' : read? t with
  | none => rfl
  | some p =>
    obtain ⟨m, r, hsome, -⟩ := exists_read?_of_words_eq hread' h.symm hs
    simp [hread] at hsome

theorem squeeze_removeAll_blank_append {g : Text} (hg : allBlank g = true) (s : Text) :
    Text.squeeze (removeAll (g ++ s)) = Text.squeeze (removeAll s) := by
  induction g with
  | nil => rfl
  | cons c g ih =>
    simp only [allBlank, List.all_cons, Bool.and_eq_true] at hg
    have hread : read? (c :: (g ++ s)) = none := by
      refine read?_eq_none fun hopen => ?_
      have hc : .char '<' = c := (List.cons_prefix_cons.1 hopen).1
      rw [← hc] at hg
      exact absurd hg.1 (by decide)
    rw [List.cons_append, removeAll_cons hread, ← ih hg.2, Text.squeeze,
      List.filter_cons_of_neg (by simp [hg.1])]
    rfl

/-- **What is left of a text without its end markers** is, but for whitespace, a matter of its words. -/
theorem squeeze_removeAll_of_words_eq {s t : Text} (h : words s = words t) :
    Text.squeeze (removeAll s) = Text.squeeze (removeAll t) := by
  induction hn : s.length using Nat.strongRecOn generalizing s t with
  | ind n ih =>
    obtain ⟨g, s, rfl, hg, hs⟩ := Text.exists_blank_append s
    obtain ⟨g', t, rfl, hg', ht⟩ := Text.exists_blank_append t
    rw [Text.words_blank_append hg, Text.words_blank_append hg'] at h
    rw [squeeze_removeAll_blank_append hg, squeeze_removeAll_blank_append hg']
    rw [List.length_append] at hn
    cases s with
    | nil =>
      cases t with
      | nil => rfl
      | cons c t =>
        obtain ⟨_, hnil, -⟩ := Text.exists_eq_append_of_words_eq (w := [c]) (by simp)
          (by simpa using ht c rfl) h.symm (by simp)
        simp at hnil
    | cons c s =>
      obtain ⟨t₁, rfl, hrest⟩ := Text.exists_eq_append_of_words_eq (w := [c]) (by simp)
        (by simpa using hs c rfl) h ht
      rw [List.length_cons] at hn
      cases hread : read? (c :: s) with
      | some p =>
        obtain ⟨m', r', hread', hr⟩ := exists_read?_of_words_eq hread h ht
        have hlen := read?_length hread
        rw [removeAll_of_read? hread, removeAll_of_read? hread']
        exact ih _ (by rw [List.length_cons] at hlen; omega) hr rfl
      | none =>
        have hread' : read? (c :: t₁) = none := read?_eq_none_of_words_eq hread h hs
        show Text.squeeze (removeAll (c :: s)) = Text.squeeze (removeAll (c :: t₁))
        rw [removeAll_cons hread, removeAll_cons hread', ← List.singleton_append,
          ← List.singleton_append (l := removeAll t₁), Text.squeeze_append, Text.squeeze_append,
          ih s.length (by omega) hrest rfl]

end EndMarker

/-! ## Identifiers -/

namespace Entry

/-- The identifier of an entry that a block makes is that of the source without its end markers. -/
theorem id_of_parse {settings : Settings} {e : Entry} {src : Text} {v : Value}
    (h : (step settings e (.parse src v)).result = .ok (some true)) :
    (step settings e (.parse src v)).entry.id.Identifies (EndMarker.removeAll src) := by
  obtain ⟨r, hr, -, hderived⟩ := exists_derived_of_parse h
  rw [← hr.text]
  exact hderived.id

/-- **A block keeps its identifier when its lines are indented anew,** in its header, its body and its
end markers, whatever the configurations are and whatever the entries held before. -/
theorem id_eq_of_trimmed_lines {settings settings' : Settings} {e e' : Entry} {src src' : Text}
    {v v' : Value} (hlines : (Text.lines src).map Text.trim = (Text.lines src').map Text.trim)
    (h : (step settings e (.parse src v)).result = .ok (some true))
    (h' : (step settings' e' (.parse src' v')).result = .ok (some true)) :
    (step settings e (.parse src v)).entry.id = (step settings' e' (.parse src' v')).entry.id := by
  have hwords : words src = words src' := Text.words_eq_of_lines hlines
  have hid := (id_of_parse h).congr (EndMarker.squeeze_removeAll_of_words_eq hwords)
  exact hid.unique (id_of_parse h')

/-- A block with two end markers, one of them with its word on a line of its own. -/
def spread : Text :=
  "<!-- extract:a\n name:b -->\n<p>\n<!--\nendextract\nc -->d\n\n<!--endextract-->".toText

/-- The same block with other indentation and other line ends. -/
def shifted : Text :=
  "\t<!-- extract:a\r\nname:b -->\r\n  <p>\r\n\t<!-- \r\n\tendextract \r\nc -->d\r\n".toText ++
    "  \r\n <!--endextract--> ".toText

/-- A map in place of a configuration. -/
def unindented : Value := .map [(.text "indent".toText, .text [])]

theorem id_eq_of_trimmed_lines_shifted :
    (Text.lines spread).map Text.trim = (Text.lines shifted).map Text.trim ∧
      (step .standard (.blank .standard) (.parse spread .null)).result = .ok (some true) ∧
      (step .standard (.blank .standard) (.parse shifted unindented)).result = .ok (some true) ∧
      (step .standard (.blank .standard) (.parse spread .null)).entry.id =
        (step .standard (.blank .standard) (.parse shifted unindented)).entry.id := by
  have hlines : (Text.lines spread).map Text.trim = (Text.lines shifted).map Text.trim := by
    decide +kernel
  have h : (step .standard (.blank .standard) (.parse spread .null)).result = .ok (some true) := by
    decide +kernel
  have h' : (step .standard (.blank .standard) (.parse shifted unindented)).result =
      .ok (some true) := by
    decide +kernel
  exact ⟨hlines, h, h', id_eq_of_trimmed_lines hlines h h'⟩

end Entry
end MarkupCatalog
