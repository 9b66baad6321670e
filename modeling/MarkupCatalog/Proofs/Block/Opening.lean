/-
Opening comments. A block is found by the word `extract:` in its opening comment, in any case and
after whitespace or a dash (`stands_comment_iff`). Its entry is made by the key `extract` in the
header, which stands in small letters at the beginning or after whitespace, and in neither case after
a backslash. `blocks_of_declares`: wherever the header holds the key, the block is found.
`found_iff_and_declares_iff`: a block that is found holds the key only where it stands in this way.
-/
import MarkupCatalog.Proofs.Block.Source
import MarkupCatalog.Proofs.Block.Unopened
import MarkupCatalog.Proofs.Header.Keys
import MarkupCatalog.Proofs.Options.Reading

namespace MarkupCatalog

open Text (StandsAt WordAt)
open EndMarker (MarksEnd)

/-! ## Where the word stands -/

namespace StartMarker

/-- The word stands in a text in some case, at the beginning or after whitespace or a dash. -/
def KeywordStands (s : Text) : Prop :=
  ∃ before word after, s = before ++ (word ++ after) ∧ word.map CodePoint.toLower = keyword ∧
    ∀ c, before.getLast? = some c → Text.isBlank c = true ∨ c = '-'

theorem KeywordAt.length_le {a r : Text} {free : Bool} {j : Nat}
    (h : KeywordAt free (a ++ (Comment.closing ++ r)) j) : j + keyword.length ≤ a.length := by
  obtain ⟨hword, -, -, hopen⟩ := h
  have hclose : StandsAt Comment.closing (a ++ (Comment.closing ++ r)) a.length := by
    simp [StandsAt]
  exact length_le_of_closing hword hclose (Nat.le_of_not_le fun hle => hopen _ hle hclose)

/-- The word that is read in a comment stands in its text. -/
theorem KeywordAt.keywordStands {a r : Text} {free : Bool} {j : Nat}
    (h : KeywordAt free (a ++ (Comment.closing ++ r)) j) : KeywordStands a := by
  have hlen := h.length_le
  obtain ⟨hword, -, hbefore, -⟩ := h
  refine ⟨a.take j, (a.drop j).take keyword.length, (a.drop j).drop keyword.length, ?_, ?_, ?_⟩
  · rw [List.take_append_drop, List.take_append_drop]
  · rw [WordAt, List.drop_append_of_le_length (by omega),
      List.take_append_of_le_length (by rw [List.length_drop]; omega)] at hword
    exact hword
  · intro c hc
    cases j with
    | zero => simp at hc
    | succ i =>
      obtain ⟨x, hx, hblank⟩ := hbefore i rfl
      rw [List.getElem?_append_left (by omega)] at hx
      rw [List.take_add_one, hx, Option.toList_some, List.getLast?_concat, Option.some.injEq] at hc
      exact isBefore_iff.1 (hc ▸ hblank)

/-- The word that stands in the text of a comment is read there, before the comment is closed. -/
theorem KeywordStands.exists_keywordAt {a : Text} (h : KeywordStands a)
    (ha : ¬Comment.closing <:+: a) (r : Text) :
    ∃ j, KeywordAt true (a ++ (Comment.closing ++ r)) j := by
  obtain ⟨before, word, after, rfl, hword, hbefore⟩ := h
  have hlen : word.length = keyword.length := by rw [← hword, List.length_map]
  have hpos : 0 < keyword.length := by decide
  refine ⟨before.length, ?_, fun _ => rfl, fun i hi => ?_, fun k hk hclose => ?_⟩
  · rw [WordAt, List.append_assoc, List.drop_left, List.append_assoc, ← hlen, List.take_left]
    exact hword
  · cases hlast : before.getLast? with
    | none => simp [List.getLast?_eq_none_iff.1 hlast] at hi
    | some c =>
      obtain ⟨init, rfl⟩ := List.getLast?_eq_some_iff.1 hlast
      rw [List.length_append, List.length_singleton, Nat.add_right_cancel_iff] at hi
      refine ⟨c, ?_, isBefore_iff.2 (hbefore c List.getLast?_concat)⟩
      simp [← hi]
  · rw [← List.append_assoc] at hclose
    have hin := hclose.of_append Comment.unbordered_closing
      (by simp only [List.length_append]; omega)
    exact ha (Text.infix_iff.2 ⟨k, hin⟩)

/-- **A comment is a start marker exactly if the word stands in it.** -/
theorem stands_comment_iff {a : Text} (ha : ¬Comment.closing <:+: a) (r : Text) :
    stands (Comment.opening ++ a ++ Comment.closing ++ r) = true ↔ KeywordStands a := by
  rw [stands, after?, List.append_assoc, List.append_assoc, Text.after?_append, Option.bind_some,
    isSome_afterKeyword?_iff]
  constructor
  · intro h
    obtain ⟨j, hj⟩ := h
    exact hj.keywordStands
  · intro h
    exact h.exists_keywordAt ha r

end StartMarker

/-! ## Written blocks -/

namespace Block

/-- A block is found where it is written, whatever follows it. -/
theorem read?_written {b : Block} (hheader : ¬Comment.closing <:+: b.header)
    (hword : StartMarker.KeywordStands b.header) (hbody : ¬Comment.opening <:+: b.body)
    (hmarker : b.marker.WellFormed) (r : Text) : read? (b.text ++ r) = some (b, r) := by
  have htext : b.text ++ r = Comment.opening ++ b.header ++ Comment.closing ++
      (b.body ++ (b.marker.text ++ r)) := by
    simp [text]
  have huntil : untilEnd? (b.body ++ (b.marker.text ++ r)) = some (b.body, b.marker, r) := by
    have hunopened : Comment.Unopened b.body (b.marker.text ++ r) := by
      unfold EndMarker.text
      simpa using Comment.unopened_opening hbody _
    rw [untilEnd?_append hunopened, untilEnd?_of_read? (hmarker.read? r)]
    simp
  rw [htext, read?, if_pos ((StartMarker.stands_comment_iff hheader _).2 hword), List.append_assoc,
    List.append_assoc, Text.after?_append, Option.bind_some, ← List.append_assoc,
    Comment.cut_closing hheader, Option.bind_some]
  simp only [huntil]
  rfl

/-- The key stands in the header for whoever looks for the word. -/
theorem keywordStands_of_declares {a : Text} (ha : ¬Comment.closing <:+: a)
    (h : Header.Declares Key.extract a) : StartMarker.KeywordStands a := by
  obtain ⟨before, after, hinner, hblank⟩ := (Header.declares_extract_iff.1 h).exists_text
  obtain ⟨p, hp, hopening⟩ := Comment.exists_inner ha
  refine ⟨p ++ before, Key.extract ++ [.char ':'], after, ?_, by decide, fun c hc => ?_⟩
  · rw [List.append_assoc, List.append_assoc, List.singleton_append, ← hinner]
    exact hp
  · rw [List.getLast?_append] at hc
    cases hbefore : before.getLast? with
    | some x =>
      rw [hbefore, Option.some_or, Option.some.injEq] at hc
      exact .inl (hblank c (hc ▸ hbefore))
    | none =>
      rw [hbefore, Option.none_or] at hc
      rcases hopening with rfl | ⟨q, rfl⟩
      · simp at hc
      · rw [List.getLast?_append] at hc
        exact .inr (Option.some.inj hc).symm

/-- **Whatever holds the key is found:** a comment whose header holds it is a start marker, and with
a body in which no comment opens and an end marker it is found whole, as one block. -/
theorem blocks_of_declares {a : Text} (ha : ¬Comment.closing <:+: a)
    (h : Header.Declares Key.extract a) :
    (∀ r, StartMarker.stands (Comment.opening ++ a ++ Comment.closing ++ r) = true) ∧
      ∀ (body : Text) (m : EndMarker), ¬Comment.opening <:+: body → m.WellFormed →
        (blocks (Comment.opening ++ a ++ Comment.closing ++ body ++ m.text)).map text =
          [Comment.opening ++ a ++ Comment.closing ++ body ++ m.text] := by
  have hword := keywordStands_of_declares ha h
  refine ⟨fun r => (StartMarker.stands_comment_iff ha r).2 hword, fun body m hbody hm => ?_⟩
  have hread := read?_written (b := ⟨a, body, m⟩) ha hword hbody hm []
  rw [List.append_nil] at hread
  have hblocks : blocks (text ⟨a, body, m⟩) = [⟨a, body, m⟩] := by
    rw [blocks_of_read? hread, blocks]
  exact congrArg (List.map text) hblocks

/-- A header that holds the key after an opening delimiter, a stray text and an escaped space. -/
def nested : Text := " <!--a\\ extract:b\textract:\\ -".toText

/-- An end marker with a note that looks like the beginning of a block. -/
def noted : EndMarker := ⟨[.char '\n'], "EndExtract".toText, " extract:c ".toText⟩

theorem blocks_of_declares_nested :
    (¬Comment.closing <:+: nested ∧ Header.Declares Key.extract nested ∧
        ¬Comment.opening <:+: "-->y<!-".toText ∧ noted.WellFormed) ∧
      (∀ r, StartMarker.stands (Comment.opening ++ nested ++ Comment.closing ++ r) = true) ∧
      (blocks (Comment.opening ++ nested ++ Comment.closing ++ "-->y<!-".toText ++
          noted.text)).map text =
        [Comment.opening ++ nested ++ Comment.closing ++ "-->y<!-".toText ++ noted.text] := by
  have ha : ¬Comment.closing <:+: nested := by decide +kernel
  have h : Header.Declares Key.extract nested := by
    rw [Header.declares_iff_get? (by decide) .empty]
    decide +kernel
  have hbody : ¬Comment.opening <:+: "-->y<!-".toText := by decide +kernel
  have hm : noted.WellFormed := ⟨by decide, by decide, by decide +kernel⟩
  obtain ⟨hstands, hblocks⟩ := blocks_of_declares ha h
  exact ⟨⟨ha, h, hbody, hm⟩, hstands, hblocks _ noted hbody hm⟩

/-! ## Blocks that are passed over -/

/-- A block that has its own header read makes no entry exactly if the header does not hold the
key. -/
theorem process_eq_none_iff {d : Text} {b : Block} (hb : b ∈ blocks d)
    (hfree : ∀ t, t < b.comment.length → ¬∃ e, MarksEnd b.text t e) (e : Entry) (config : Config) :
    (e.process config b.text).result = .ok none ↔ ¬Header.Declares Key.extract b.header := by
  obtain ⟨s, r, hread⟩ := exists_read?_of_mem hb
  have hsource : Source.read? b.text = .ok ⟨EndMarker.removeAll b.text, b.header, b.body⟩ := by
    rw [Source.read?, (split?_of_read? hread).2 hfree]
    rfl
  have hasked := (Header.declarable_options b.header config.wrap).isExtraction_iff
  rw [Entry.result_process, hsource, Header.declares_iff_get? (by decide) config.wrap, ← hasked]
  show Entry.made? _ _ _ = _ ↔ _
  rw [Entry.made?, Source.options]
  by_cases hask :
      (Options.View.ofOptions ((Header.read b.header).options config.wrap)).isExtraction = true
  · rw [if_pos hask]
    refine iff_of_false ?_ (not_not_intro hask)
    cases Source.ids? ⟨EndMarker.removeAll b.text, b.header, b.body⟩ config <;> simp [Except.map]
  · exact iff_of_true (if_neg hask) hask

/-- **What is found, and what of it is read.** A comment begins a block by the word, in any case and
after whitespace or a dash; it holds the key if that stands as it is written, at the beginning or
after whitespace without a backslash. So the header of a block that is found holds the key, and
makes an entry, exactly in the latter case. -/
theorem found_iff_and_declares_iff {a : Text} (ha : ¬Comment.closing <:+: a) :
    (StartMarker.stands (Comment.opening ++ a ++ Comment.closing) = true ↔
        StartMarker.KeywordStands a) ∧
      (Header.Declares Key.extract a ↔
        Header.KeyStands Key.extract (Mark.read (Comment.inner a))) ∧
      ∀ d b, b ∈ blocks d → b.header = a →
        (∀ t, t < b.comment.length → ¬∃ e, MarksEnd b.text t e) →
        ∀ (e : Entry) (config : Config), (e.process config b.text).result = .ok none ↔
          ¬Header.KeyStands Key.extract (Mark.read (Comment.inner a)) := by
  refine ⟨?_, Header.declares_extract_iff, ?_⟩
  · have h := StartMarker.stands_comment_iff ha []
    rwa [List.append_nil] at h
  · rintro d b hb rfl hfree e config
    rw [process_eq_none_iff hb hfree, Header.declares_extract_iff]

theorem found_iff_and_declares_iff_nested :
    ¬Comment.closing <:+: nested ∧ StartMarker.KeywordStands nested ∧
      Header.KeyStands Key.extract (Mark.read (Comment.inner nested)) := by
  have ha : ¬Comment.closing <:+: nested := by decide +kernel
  have hstands : StartMarker.stands (Comment.opening ++ nested ++ Comment.closing) = true := by
    decide +kernel
  have h : Header.Declares Key.extract nested := by
    rw [Header.declares_iff_get? (by decide) .empty]
    decide +kernel
  obtain ⟨hfound, hdeclares, -⟩ := found_iff_and_declares_iff ha
  exact ⟨ha, hfound.1 hstands, hdeclares.1 h⟩

/-- A header with a key that ends in the word, after a dash. -/
def dashed : Text := " pre-extract:b ".toText

/-- The block is found, but its header does not hold the key, and it makes no entry. -/
theorem extract_dashed :
    ¬Comment.closing <:+: dashed ∧
      StartMarker.stands (Comment.opening ++ dashed ++ Comment.closing) = true ∧
      ¬Header.Declares Key.extract dashed ∧
      blocks "<!-- pre-extract:b -->y<!-- endextract -->".toText =
        [⟨dashed, [.char 'y'], ⟨[.char ' '], "endextract".toText, [.char ' ']⟩⟩] ∧
      (Extraction.extract .standard "<!-- pre-extract:b -->y<!-- endextract -->".toText .null
        []).result.map (·.length) = .ok 0 := by
  refine ⟨by decide +kernel, by decide +kernel, ?_, by decide +kernel, by decide +kernel⟩
  rw [Header.declares_iff_get? (by decide) .empty]
  decide +kernel

end Block
end MarkupCatalog
