/-
The source of a block. A block is found with its opening comment first and its end marker after, but
its source is read with the end markers taken out first, wherever they begin. The two readings come
to the same parts unless an end marker begins inside the opening comment.

`removeAll_text`: what is left of a block is its opening comment, up to the first end marker in it if
there is one, and its body. `split?_removeAll_iff`: so the source falls into the header and the body
of the block exactly if its opening comment holds no end marker.
-/
import MarkupCatalog.Proofs.Block.Removal
import MarkupCatalog.Proofs.Block.Spans
import MarkupCatalog.Proofs.Extraction

namespace MarkupCatalog

open Text (StandsAt WordAt FirstFrom slice)
open EndMarker (MarksEnd)

/-! ## Where an end marker ends -/

namespace EndMarker

/-- From the whitespace of a marker to the end of its word no delimiter goes on. -/
theorem MarksEnd.exists_getElem? {d : Text} {t g i : Nat}
    (hgap : Text.allBlank (slice d (t + 4) (t + 4 + g)) = true)
    (hword : WordAt keyword d (t + 4 + g)) (hlo : t + 4 ≤ i) (hhi : i < t + 4 + g + 10) :
    ∃ c, d[i]? = some c ∧ c ≠ '-' ∧ c ≠ '>' := by
  have hlen : t + 4 + g + 10 ≤ d.length := hword.length_le keyword_ne_nil
  by_cases hig : i < t + 4 + g
  · have hmem : d[i] ∈ slice d (t + 4) (t + 4 + g) := by
      obtain ⟨k, rfl⟩ : ∃ k, i = t + 4 + k := ⟨i - (t + 4), by omega⟩
      rw [slice_eq_take, List.mem_take_iff_getElem]
      exact ⟨k, by simp only [List.length_drop]; omega, by simp⟩
    have hblank := List.all_eq_true.1 hgap _ hmem
    refine ⟨d[i], List.getElem?_eq_getElem _, ?_, ?_⟩ <;>
    · intro he
      rw [he] at hblank
      revert hblank
      decide
  · obtain ⟨k, rfl⟩ : ∃ k, i = t + 4 + g + k := ⟨i - (t + 4 + g), by omega⟩
    have hk : k < keyword.length := by
      have : keyword.length = 10 := rfl
      omega
    have hlower := hword.getElem? hk
    rw [List.getElem?_eq_getElem (by omega), List.getElem?_eq_getElem hk, Option.map_some,
      Option.some.injEq] at hlower
    have hmem : d[t + 4 + g + k].toLower ∈ keyword := hlower ▸ List.getElem_mem hk
    refine ⟨_, List.getElem?_eq_getElem (by omega), ?_, ?_⟩ <;>
    · intro he
      rw [he] at hmem
      revert hmem
      decide

/-- A marker goes no further than the first delimiter that closes a comment at it or after it. -/
theorem MarksEnd.le_of_closing {d : Text} {t e c : Nat} (h : MarksEnd d t e) (htc : t ≤ c)
    (hclose : StandsAt Comment.closing d c) : e ≤ c + 3 := by
  obtain ⟨hopen, g, hgap, hword, c', hfirst, rfl⟩ := h
  have hopen0 : d[t]? = some (.char '<') := hopen.getElem? (k := 0) (by decide)
  have hopen1 : d[t + 1]? = some (.char '!') := hopen.getElem? (by decide)
  have hclose0 : d[c]? = some (.char '-') := hclose.getElem? (k := 0) (by decide)
  have hclose1 : d[c + 1]? = some (.char '-') := hclose.getElem? (by decide)
  have hclose2 : d[c + 2]? = some (.char '>') := hclose.getElem? (by decide)
  have hdelim : ∀ i, c ≤ i → i < c + 3 → d[i]? = some (.char '-') ∨ d[i]? = some (.char '>') := by
    intro i hlo hhi
    obtain rfl | rfl | rfl : i = c ∨ i = c + 1 ∨ i = c + 2 := by omega
    · exact .inl hclose0
    · exact .inl hclose1
    · exact .inr hclose2
  have hafter : t + 4 + g + 10 ≤ c := by
    refine Nat.le_of_not_lt fun hlt => ?_
    obtain rfl | rfl | hc : c = t ∨ c = t + 1 ∨ t + 2 ≤ c := by omega
    · simp [hopen0] at hclose0
    · simp [hopen1] at hclose0
    · -- one of the three characters of the delimiter is past `<!--` and not past the word
      obtain ⟨x, hx, hne, hne'⟩ :=
        MarksEnd.exists_getElem? (i := max c (t + 4)) hgap hword (by omega) (by omega)
      rcases hdelim (max c (t + 4)) (by omega) (by omega) with h | h
      · rw [hx, Option.some.injEq] at h
        exact hne h
      · rw [hx, Option.some.injEq] at h
        exact hne' h
  exact Nat.add_le_add_right (hfirst.le hafter hclose) 3

/-- An end marker that begins inside a comment ends with it. -/
theorem MarksEnd.eq_of_comment {d : Text} {s t e c : Nat} (h : MarksEnd d t e) (hst : s ≤ t)
    (hfirst : FirstFrom (StandsAt Comment.closing d) (s + 4) c) (htc : t < c + 3) : e = c + 3 := by
  have hopen : d[t]? = some (.char '<') := h.1.getElem? (k := 0) (by decide)
  have hclose1 : d[c + 1]? = some (.char '-') := hfirst.2.1.getElem? (by decide)
  have hclose2 : d[c + 2]? = some (.char '>') := hfirst.2.1.getElem? (by decide)
  have hle : t ≤ c := by
    obtain hle | rfl | rfl : t ≤ c ∨ t = c + 1 ∨ t = c + 2 := by omega
    · exact hle
    · simp [hclose1] at hopen
    · simp [hclose2] at hopen
  have hupper := h.le_of_closing hle hfirst.2.1
  obtain ⟨-, g, -, -, c', hfirst', rfl⟩ := h
  have := hfirst'.1
  have hlower : c ≤ c' := hfirst.le (by omega) hfirst'.2.1
  omega

end EndMarker

/-! ## What is left of a block -/

namespace Block

/-- The opening comment of a block. -/
def comment (b : Block) : Text := Comment.opening ++ b.header ++ Comment.closing

theorem text_eq (b : Block) : b.text = b.comment ++ (b.body ++ b.marker.text) := by
  simp [text, comment]

theorem length_comment (b : Block) : b.comment.length = 4 + b.header.length + 3 := by
  simp [comment, Comment.opening, Comment.closing]
  omega

theorem exists_read?_of_mem {d : Text} {b : Block} (h : b ∈ blocks d) :
    ∃ s r, read? s = some (b, r) := by
  fun_induction blocks d with
  | case1 => simp at h
  | case2 c t b' rest hread ih =>
    rcases List.mem_cons.1 h with rfl | h
    · exact ⟨_, _, hread⟩
    · exact ih h
  | case3 c t hread ih => exact ih h

/-- The parts of a block that has been read: its header does not close the comment, and its marker is
the first one after the comment. -/
theorem parts_of_read? {s r : Text} {b : Block} (h : read? s = some (b, r)) :
    ¬Comment.closing <:+: b.header ∧
      untilEnd? (b.body ++ b.marker.text ++ r) = some (b.body, b.marker, r) := by
  unfold read? at h
  split at h
  next =>
    simp only [Option.bind_eq_some_iff, Option.map_eq_some_iff, Prod.mk.injEq] at h
    obtain ⟨inside, -, ⟨header, rest⟩, hcut, ⟨body, m, r'⟩, huntil, rfl, rfl⟩ := h
    refine ⟨Text.not_infix_of_cut Comment.closing_ne_nil hcut, ?_⟩
    rw [← untilEnd?_eq_some huntil]
    exact huntil
  next => simp at h

/-- The comment of a block closes with the first delimiter that follows its opening. -/
theorem firstFrom_of_read? {s r : Text} {b : Block} (h : read? s = some (b, r)) :
    FirstFrom (StandsAt Comment.closing b.text) 4 (4 + b.header.length) := by
  have hcut := Comment.cut_closing (parts_of_read? h).1 (b.body ++ b.marker.text)
  have hdrop : b.text.drop 4 = b.header ++ Comment.closing ++ (b.body ++ b.marker.text) := by
    simp [text, Comment.opening]
  have hfirst := Text.firstFrom_of_cut hcut
  rw [← hdrop] at hfirst
  exact Text.firstFrom_shift.1 ((FirstFrom.congr fun k => Text.standsAt_drop).1 hfirst)

/-- No end marker begins in the body of a block before its own. -/
theorem removeAll_of_untilEnd? {s body r : Text} {m : EndMarker}
    (h : untilEnd? s = some (body, m, r)) : EndMarker.removeAll (body ++ m.text) = body := by
  induction s generalizing body with
  | nil => simp [untilEnd?] at h
  | cons c s ih =>
    unfold untilEnd? at h
    split at h
    next m' r' hread =>
      simp only [Option.some.injEq, Prod.mk.injEq] at h
      obtain ⟨rfl, rfl, rfl⟩ := h
      have hown := (EndMarker.wellFormed_of_read? hread).read? []
      rw [List.append_nil] at hown
      rw [List.nil_append, EndMarker.removeAll_of_read? hown, EndMarker.removeAll]
    next hnone =>
      split at h
      · simp at h
      · obtain ⟨⟨body', m', r'⟩, hrest, he⟩ := Option.map_eq_some_iff.1 h
        simp only [Prod.mk.injEq] at he
        obtain ⟨rfl, rfl, rfl⟩ := he
        -- a marker that could be read in the block alone could be read in the whole text
        have hshort : EndMarker.read? (c :: (body' ++ m'.text)) = none := by
          cases hread : EndMarker.read? (c :: (body' ++ m'.text)) with
          | none => rfl
          | some p =>
            have hlong := EndMarker.read?_append hread r'
            rw [List.cons_append, ← untilEnd?_eq_some hrest, hnone] at hlong
            simp at hlong
        rw [List.cons_append, EndMarker.removeAll_cons hshort, ih hrest]

/-- **What is left of a block without its end markers** is its comment, up to the first end marker
that begins in it, and its body. -/
theorem removeAll_text {s r : Text} {b : Block} (h : read? s = some (b, r)) :
    (∀ t, FirstFrom (fun t => ∃ e, MarksEnd b.text t e) 0 t → t < b.comment.length →
        EndMarker.removeAll b.text = b.comment.take t ++ b.body) ∧
      ((∀ t, t < b.comment.length → ¬∃ e, MarksEnd b.text t e) →
        EndMarker.removeAll b.text = b.comment ++ b.body) := by
  have hbody := removeAll_of_untilEnd? (parts_of_read? h).2
  have hdrop : b.text.drop b.comment.length = b.body ++ b.marker.text := by
    rw [text_eq, List.drop_left]
  have htake (t : Nat) (ht : t ≤ b.comment.length) : b.text.take t = b.comment.take t := by
    rw [text_eq, List.take_append_of_le_length ht]
  constructor
  · intro t hfirst ht
    obtain ⟨e, he⟩ := hfirst.2.1
    have hend : e = b.comment.length := by
      rw [length_comment] at ht ⊢
      exact he.eq_of_comment (s := 0) (Nat.zero_le t) (firstFrom_of_read? h) ht
    rw [EndMarker.removeAll_eq_take_append hfirst he, hend, hdrop, hbody, htake t (Nat.le_of_lt ht)]
  · intro hfree
    rw [EndMarker.removeAll_eq_of_free hfree, hdrop, hbody, htake _ (Nat.le_refl _),
      List.take_length]

/-! ## The source of a block -/

/-- Where an end marker begins in the comment of a block, the first end marker of the block does. -/
theorem exists_first_marksEnd {b : Block} {t : Nat} (ht : t < b.comment.length)
    (h : ∃ e, MarksEnd b.text t e) :
    ∃ t, t < b.comment.length ∧ FirstFrom (fun t => ∃ e, MarksEnd b.text t e) 0 t := by
  obtain ⟨t', hfirst⟩ := FirstFrom.exists_of (P := fun t => ∃ e, MarksEnd b.text t e) (Nat.zero_le t) h
  have hle : t' ≤ t := hfirst.le (Nat.zero_le t) h
  exact ⟨t', by omega, hfirst⟩

theorem first?_comment_append {b : Block} (h : ¬Comment.closing <:+: b.header) (body : Text) :
    Comment.first? (b.comment ++ body) = some (b.header, body) :=
  Comment.first?_written h body

/-- What extraction makes of a block: its parts where no end marker begins in its comment, and else
what stands before that marker, with the body. -/
theorem split?_of_read? {s r : Text} {b : Block} (h : read? s = some (b, r)) :
    Comment.split? (EndMarker.removeAll b.text) = .ok (b.header, b.body) ↔
      ∀ t, t < b.comment.length → ¬∃ e, MarksEnd b.text t e := by
  rw [Comment.split?_eq_ok_iff]
  constructor
  · intro hfirst t ht hend
    obtain ⟨t', ht', hmark⟩ := exists_first_marksEnd ht hend
    rw [(removeAll_text h).1 t' hmark ht'] at hfirst
    have hlen := Comment.length_of_first? hfirst
    rw [List.length_append, List.length_take] at hlen
    rw [length_comment] at ht' hlen
    omega
  · intro hfree
    rw [(removeAll_text h).2 hfree, first?_comment_append (parts_of_read? h).1]

/-- A block has no comment left exactly if an end marker begins in its opening comment, and what
stands before the first such marker makes no comment with the body. -/
theorem first?_eq_none_iff_of_read? {s r : Text} {b : Block} (h : read? s = some (b, r)) :
    Comment.first? (EndMarker.removeAll b.text) = none ↔
      ∃ t, t < b.comment.length ∧ FirstFrom (fun t => ∃ e, MarksEnd b.text t e) 0 t ∧
        Comment.first? (b.comment.take t ++ b.body) = none := by
  constructor
  · intro hnone
    by_cases hfree : ∀ t, t < b.comment.length → ¬∃ e, MarksEnd b.text t e
    · rw [(removeAll_text h).2 hfree, first?_comment_append (parts_of_read? h).1] at hnone
      simp at hnone
    · simp only [not_forall, not_not] at hfree
      obtain ⟨t, ht, hend⟩ := hfree
      obtain ⟨t', ht', hfirst⟩ := exists_first_marksEnd ht hend
      rw [(removeAll_text h).1 t' hfirst ht'] at hnone
      exact ⟨t', ht', hfirst, hnone⟩
  · intro hfirst
    rcases hfirst with ⟨t, ht, hfirst, hnone⟩
    rwa [(removeAll_text h).1 t hfirst ht]

/-- **When the source of a block falls into the parts of the block.** The header ends at the first
delimiter that closes the opening comment. Extraction reads that header and the body after it
exactly if no end marker begins in the opening comment. And it ends with the fault that there is no
comment exactly if in some block one does, what stands before it makes no comment with the body, and
the blocks before that one come to a result. -/
theorem split?_removeAll_iff (d : Text) :
    (∀ b ∈ blocks d,
        FirstFrom (StandsAt Comment.closing b.text) 4 (4 + b.header.length) ∧
          (Comment.split? (EndMarker.removeAll b.text) = .ok (b.header, b.body) ↔
            ∀ t, t < b.comment.length → ¬∃ e, MarksEnd b.text t e)) ∧
      ∀ settings v config origin, Config.merge? settings v = .ok config →
        ((∃ p, (Extraction.extract settings d v origin).result = .error (.noComment p)) ↔
          ∃ before b after, blocks d = before ++ b :: after ∧
            (∃ es, (Extraction.entries settings (Extraction.withOrigin origin config)
              before).result = .ok es) ∧
            ∃ t, t < b.comment.length ∧ FirstFrom (fun t => ∃ e, MarksEnd b.text t e) 0 t ∧
              Comment.first? (b.comment.take t ++ b.body) = none) := by
  constructor
  · intro b hb
    obtain ⟨s, r, hread⟩ := exists_read?_of_mem hb
    exact ⟨firstFrom_of_read? hread, split?_of_read? hread⟩
  · intro settings v config origin hmerge
    have hleft {b : Block} (hb : b ∈ blocks d) :
        (∃ p, ((Entry.blank settings).process (Extraction.withOrigin origin config) b.text).result =
            .error (.noComment p)) ↔
          ∃ t, t < b.comment.length ∧ FirstFrom (fun t => ∃ e, MarksEnd b.text t e) 0 t ∧
            Comment.first? (b.comment.take t ++ b.body) = none := by
      obtain ⟨s, r, hread⟩ := exists_read?_of_mem hb
      rw [Extraction.exists_noComment_iff, first?_eq_none_iff_of_read? hread]
    rw [Extraction.result_extract hmerge]
    simp only [Extraction.result_entries_error_iff]
    constructor
    · intro h
      obtain ⟨p, before, b, after, hd, hbefore, hb⟩ := h
      exact ⟨before, b, after, hd, hbefore, (hleft (by simp [hd])).1 ⟨p, hb⟩⟩
    · intro h
      obtain ⟨before, b, after, hd, hbefore, hb⟩ := h
      obtain ⟨p, hp⟩ := (hleft (by simp [hd])).2 hb
      exact ⟨p, before, b, after, hd, hbefore, hp⟩

/-- A block whose opening comment is an end marker itself. -/
def selfEnded : Text := "<!-- endextract extract:b -->y<!-- endextract -->".toText

/-- The block is found, but it has no comment left once its end markers are taken out. -/
theorem extract_selfEnded :
    blocks selfEnded =
        [⟨" endextract extract:b ".toText, "y".toText,
          ⟨[.char ' '], "endextract".toText, [.char ' ']⟩⟩] ∧
      (∀ b ∈ blocks selfEnded,
        Comment.split? (EndMarker.removeAll b.text) ≠ .ok (b.header, b.body)) ∧
      (Extraction.extract .standard selfEnded .null []).result = .error (.noComment [.char 'y']) := by
  have hblocks : blocks selfEnded =
      [⟨" endextract extract:b ".toText, "y".toText,
        ⟨[.char ' '], "endextract".toText, [.char ' ']⟩⟩] := by
    decide +kernel
  have hleft : EndMarker.removeAll selfEnded = [.char 'y'] := by decide +kernel
  have htext : text ⟨" endextract extract:b ".toText, "y".toText,
      ⟨[.char ' '], "endextract".toText, [.char ' ']⟩⟩ = selfEnded := by decide +kernel
  have hfault : Comment.split? [.char 'y'] = .error (.noComment [.char 'y']) :=
    Comment.split?_eq_error_iff.2 ⟨by decide, by decide⟩
  refine ⟨hblocks, ?_, ?_⟩
  · rw [hblocks]
    intro b hb
    rw [List.mem_singleton.1 hb, htext, hleft, hfault]
    simp
  · have hmerge : Config.merge? .standard .null = .ok (.standard .standard) := rfl
    rw [Extraction.result_extract hmerge, hblocks, Extraction.result_entries_cons,
      Entry.result_process, htext, Source.read?, hleft, hfault]
    rfl

end Block
end MarkupCatalog
