/-
Drafts: blocks that are to be written, with the options of their header, their body and the note of
their end marker. A draft holds what it takes to be read back. `read?_text`: where it is written, its
block is found, whatever follows; `source_text`: and the source of that block is the header and the
body of the draft.
-/
import MarkupCatalog.Proofs.Block.Opening
import MarkupCatalog.Proofs.Header.Written

namespace MarkupCatalog

open Text (StandsAt WordAt)
open EndMarker (MarksEnd)

/-! ## Markers at a header -/

namespace EndMarker

/-- The colon after a key is no part of the word. -/
theorem wordAt_of_append_colon {k r : Text} (h : WordAt keyword (k ++ .char ':' :: r) 0) :
    WordAt keyword k 0 := by
  by_cases hle : keyword.length ≤ k.length
  · rw [WordAt, List.drop_zero, List.take_append_of_le_length hle] at h
    rwa [WordAt, List.drop_zero]
  · exfalso
    have hk : k.length < keyword.length := by omega
    have hcolon := h.getElem? hk
    rw [Nat.zero_add, List.getElem?_append_right (Nat.le_refl _), Nat.sub_self,
      List.getElem?_cons_zero, List.getElem?_eq_getElem hk] at hcolon
    have hmem : CodePoint.toLower (.char ':') ∈ keyword := Option.some.inj hcolon ▸ List.getElem_mem hk
    revert hmem
    decide

/-- A comment that begins with a key is no end marker unless the key begins with its word. -/
theorem read?_eq_none_of_key {k : Text} (hne : k ≠ []) (hk : ∀ c ∈ k, Text.isWord c = true)
    (h : ¬WordAt keyword k 0) (r : Text) :
    read? (Comment.opening ++ .char ' ' :: (k ++ .char ':' :: r)) = none := by
  have hnamed : (.char ' ' :: (k ++ .char ':' :: r)).dropWhile Text.isBlank = k ++ .char ':' :: r := by
    cases k with
    | nil => exact absurd rfl hne
    | cons c k =>
      rw [List.dropWhile_cons_of_pos (by decide), List.cons_append, List.dropWhile_cons_of_neg]
      simp [Text.isBlank_eq_false_of_isWord (hk c List.mem_cons_self)]
  rw [read?, Text.after?_append, Option.bind_some]
  simp only [hnamed]
  cases hword : Text.afterWord? keyword (k ++ .char ':' :: r) with
  | none => rfl
  | some s => exact absurd (wordAt_of_append_colon (Text.afterWord?_eq_some.1 hword).1) h

end EndMarker

/-! ## Drafts -/

/-- A block before it is written. -/
structure Draft where
  items : List Header.Item
  body : Text
  /-- what stands in the end marker after its word -/
  note : Text
  writable : Header.Writable items
  /-- the first key does not begin with the word of an end marker, in any case -/
  first : ∀ o ∈ items.head?, ¬WordAt EndMarker.keyword o.key 0
  opening_not_infix : ¬Comment.opening <:+: body
  closing_not_infix : ¬Comment.closing <:+: note

namespace Draft

/-- The draft as it is written: the comment with its items, the body and the end marker. -/
def text (d : Draft) : Text :=
  Comment.opening ++ Header.written d.items ++ Comment.closing ++ d.body ++
    Comment.opening ++ .char ' ' :: EndMarker.keyword ++ d.note ++ Comment.closing

/-- The block that the draft is read back as. -/
def block (d : Draft) : Block :=
  ⟨Header.written d.items, d.body, ⟨[.char ' '], EndMarker.keyword, d.note⟩⟩

theorem text_block (d : Draft) : d.block.text = d.text := by
  simp [block, text, Block.text, EndMarker.text]

theorem wellFormed_marker (d : Draft) : d.block.marker.WellFormed where
  gap := show Text.allBlank [.char ' '] = true by decide
  word := show EndMarker.keyword.map CodePoint.toLower = EndMarker.keyword by decide
  note := d.closing_not_infix

theorem closing_not_infix_header (d : Draft) : ¬Comment.closing <:+: d.block.header :=
  Header.closing_not_infix_written d.writable

/-- The key of the path stands in the header after a space. -/
theorem keywordStands (d : Draft) : StartMarker.KeywordStands d.block.header := by
  obtain ⟨o, ho, hkey⟩ := List.mem_map.1 d.writable.extract
  obtain ⟨before, after, hitems⟩ := List.append_of_mem ho
  obtain ⟨a, b, hwritten, -⟩ := Header.written_append_cons before o after
  refine ⟨a ++ [.char ' '], StartMarker.keyword, o.value.text ++ .char ' ' :: b, ?_, by decide, ?_⟩
  · show Header.written d.items = _
    rw [hitems, hwritten, Header.Item.text, hkey]
    simp [show StartMarker.keyword = Key.extract ++ [.char ':'] from rfl]
  · intro c hc
    rw [List.getLast?_concat, Option.some.injEq] at hc
    exact .inl (hc ▸ by decide)

/-- The block of a draft is found where the draft is written. -/
theorem read?_text (d : Draft) (r : Text) : Block.read? (d.text ++ r) = some (d.block, r) := by
  rw [← text_block]
  exact Block.read?_written d.closing_not_infix_header d.keywordStands d.opening_not_infix
    d.wellFormed_marker r

/-- The comment of a draft begins with its first key, so it is no end marker. -/
theorem read?_comment (d : Draft) : EndMarker.read? d.block.text = none := by
  obtain ⟨o, more, hitems⟩ := List.exists_cons_of_ne_nil d.writable.ne_nil
  have ho : o.WellFormed := d.writable.wellFormed o (hitems ▸ List.mem_cons_self)
  have hfirst : ¬WordAt EndMarker.keyword o.key 0 := d.first o (by rw [hitems]; rfl)
  obtain ⟨a, b, hwritten, ha⟩ := Header.written_append_cons [] o more
  obtain rfl := ha rfl
  have hheader :
      d.block.header = .char ' ' :: (o.key ++ .char ':' :: (o.value.text ++ .char ' ' :: b)) := by
    show Header.written d.items = _
    rw [hitems]
    simpa [Header.Item.text] using hwritten
  have htext : d.block.text = Comment.opening ++ .char ' ' :: (o.key ++ .char ':' ::
      (o.value.text ++ .char ' ' :: b ++ Comment.closing ++ d.block.body ++ d.block.marker.text)) := by
    rw [Block.text, hheader]
    simp
  rw [htext]
  exact EndMarker.read?_eq_none_of_key ho.key_ne_nil ho.isWord hfirst _

/-- No comment opens in the comment of a draft after its own beginning. -/
theorem unopened_comment (d : Draft) :
    Comment.Unopened ("!--".toText ++ (d.block.header ++ Comment.closing))
      (d.block.body ++ d.block.marker.text) := by
  have hheader : Comment.Unopened d.block.header
      (Comment.closing ++ (d.block.body ++ d.block.marker.text)) :=
    Comment.unopened_of_last (a := .char ' ' :: Text.joined [.char ' '] (d.items.map Header.Item.text))
      (Header.opening_not_infix_written d.writable) (by decide) _
  refine (Comment.unopened_of_not_mem (by decide) _).append ?_
  exact hheader.append (Comment.unopened_of_not_mem (by decide) _)

/-- No end marker begins in the comment of a draft. -/
theorem not_marksEnd (d : Draft) {t : Nat} (ht : t < d.block.comment.length) :
    ¬∃ e, MarksEnd d.block.text t e := by
  cases t with
  | zero => exact EndMarker.read?_drop_eq_none_iff.1 d.read?_comment
  | succ t =>
    intro h
    rcases h with ⟨e, hopen, -⟩
    refine d.unopened_comment t ?_ ?_
    · simpa [Block.comment, Comment.opening] using ht
    · rw [Block.text_eq] at hopen
      simpa [Block.comment, Comment.opening, StandsAt] using hopen

theorem source_text (d : Draft) :
    Source.read? d.text =
      .ok ⟨d.block.comment ++ d.body, Header.written d.items, d.body⟩ := by
  have hread : Block.read? d.block.text = some (d.block, []) := by
    have := d.read?_text []
    rwa [List.append_nil, ← text_block] at this
  have hleft := (Block.removeAll_text hread).2 fun t ht => d.not_marksEnd ht
  rw [Source.read?, ← text_block, hleft, Comment.split?_eq_ok_iff.2
    (Block.first?_comment_append d.closing_not_infix_header d.block.body)]
  rfl

end Draft
end MarkupCatalog
