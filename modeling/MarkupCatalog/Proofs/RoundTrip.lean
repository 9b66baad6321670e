/-
Written documents read back. A document is put together of drafts, with texts before, between and
after them in which no comment opens. `blocks_document`: its blocks are those of the drafts.
`extract_document`: its entries are those that the drafts stand for, one for each draft and in order.
Extraction fails only where a draft holds surrogates, and so has no identifier; `extract_surrogate` is
such a case.
-/
import MarkupCatalog.Proofs.Draft
import MarkupCatalog.Proofs.Options.Reading
import MarkupCatalog.Proofs.Text.Chars

namespace MarkupCatalog

/-! ## The entry of a draft -/

namespace Draft

/-- The options that a draft stands for. -/
def options (d : Draft) : Options := Header.given d.items

/-- What is shown of a draft where no configuration is given. -/
def view (settings : Settings) (d : Draft) : Text :=
  Layout.view (Options.View.ofOptions d.options).wrap (Layout.lines settings.indent d.body)

/-- The entry that a draft with these identifiers stands for where no configuration is given. A draft
has a path, so it has a label. -/
def entry (settings : Settings) (origin : Text) (d : Draft) (ids : Source.Ids) : Entry :=
  let declared := Options.View.ofOptions d.options
  let lines := Layout.lines settings.indent d.body
  { category := .text (declared.category.getD settings.category)
    group := .text (declared.group.getD [])
    name := .text (declared.label.getD [])
    id := .text ids.source
    viewId := .text ids.view
    lines := .texts lines
    fragment := .text (Text.unlines lines)
    view := .text (d.view settings)
    template := .text (Layout.template .empty (Attributes.ofOptions d.options) lines)
    options := d.options.toValue
    optionsText := .text (Attributes.ofOptions d.options)
    origin := .text origin
    resources := .map Config.noResources
    usage := .list [] }

/-- The entry that a draft stands for, with the identifiers of its header and body and of its view. -/
def entry? (settings : Settings) (origin : Text) (d : Draft) : Except Fault Entry := do
  let source ← identify? (Comment.opening ++ Header.written d.items ++ Comment.closing ++ d.body)
  let view ← identify? (d.view settings)
  return d.entry settings origin ⟨source, view⟩

/-- The header, the body and the view of the draft hold characters only. -/
structure Encodable (settings : Settings) (d : Draft) : Prop where
  header : Text.allChars (Header.written d.items) = true
  body : Text.allChars d.body = true
  view : Text.allChars (d.view settings) = true

/-- **Surrogates are all that keeps a draft from having an entry.** -/
theorem exists_entry?_iff {settings : Settings} {origin : Text} {d : Draft} :
    (∃ e, d.entry? settings origin = .ok e) ↔ d.Encodable settings := by
  have hsource : Text.allChars
      (Comment.opening ++ Header.written d.items ++ Comment.closing ++ d.body) =
        (Text.allChars (Header.written d.items) && Text.allChars d.body) := by
    have hopening : Text.allChars Comment.opening = true := rfl
    have hclosing : Text.allChars Comment.closing = true := rfl
    simp only [Text.allChars_append, hopening, hclosing, Bool.true_and, Bool.and_true]
  have hids : d.Encodable settings ↔
      (∃ i, identify? (Comment.opening ++ Header.written d.items ++ Comment.closing ++ d.body) = .ok i) ∧
        ∃ i, identify? (d.view settings) = .ok i := by
    rw [exists_identify?_iff, exists_identify?_iff, hsource, Bool.and_eq_true]
    exact ⟨fun h => ⟨⟨h.header, h.body⟩, h.view⟩, fun h => ⟨h.1.1, h.1.2, h.2⟩⟩
  rw [hids, entry?]
  cases identify? (Comment.opening ++ Header.written d.items ++ Comment.closing ++ d.body) <;>
    cases identify? (d.view settings) <;> simp [bind, Except.bind, pure, Except.pure]

/-- A draft is always one to be extracted. -/
theorem isExtraction (d : Draft) : (Options.View.ofOptions d.options).isExtraction = true := by
  have hos : d.options.Declarable := by
    rw [options, ← Header.options_written d.writable]
    exact Header.declarable_options _ _
  rw [hos.isExtraction_iff, ne_eq, Options.get?_eq_none_iff, not_not, options, Header.given,
    List.map_append, Header.keys_map, List.mem_append]
  exact .inl d.writable.extract

/-- The block of a draft makes the entry of the draft. -/
theorem result_process (d : Draft) (settings : Settings) (origin : Text) :
    ((Entry.blank settings).process (Extraction.withOrigin origin (.standard settings))
      d.block.text).result = (d.entry? settings origin).map some := by
  have hmap {o : Option Text} {s : Text} :
      (o.map Value.text).getD (.text s) = .text (o.getD s) := by
    cases o <;> rfl
  have hoptions : Source.options ⟨d.block.comment ++ d.body, Header.written d.items, d.body⟩
      (Extraction.withOrigin origin (.standard settings)) = d.options :=
    Header.options_written d.writable
  have hview : Source.view ⟨d.block.comment ++ d.body, Header.written d.items, d.body⟩
      (Extraction.withOrigin origin (.standard settings)) = d.view settings := by
    rw [Source.view, hoptions]
    rfl
  have hfilled (ids : Source.Ids) : (Entry.blank settings).filled
      (Extraction.withOrigin origin (.standard settings))
      ⟨d.block.comment ++ d.body, Header.written d.items, d.body⟩ ids = d.entry settings origin ids := by
    rw [Entry.filled, hview, hoptions]
    simp only [entry, Entry.blank, hmap]
    rfl
  rw [Entry.result_process, text_block, source_text]
  show Entry.made? _ _ _ = _
  rw [Entry.made?, hoptions, if_pos d.isExtraction, Source.ids?, hview, entry?]
  simp only [hfilled]
  show Except.map _ (bind (identify? (Comment.opening ++ Header.written d.items ++ Comment.closing ++
    d.body)) _) = _
  cases identify? (Comment.opening ++ Header.written d.items ++ Comment.closing ++ d.body) <;>
    cases identify? (d.view settings) <;> rfl

end Draft

/-! ## Documents -/

namespace Extraction

/-- A document of drafts, each with the text before it, and the text after the last of them. -/
def document (parts : List (Text × Draft)) (after : Text) : Text :=
  (parts.flatMap fun p => p.1 ++ p.2.text) ++ after

theorem blocks_document {parts : List (Text × Draft)} {after : Text}
    (hparts : ∀ p ∈ parts, ¬Comment.opening <:+: p.1) (hafter : ¬Comment.opening <:+: after) :
    Block.blocks (document parts after) = parts.map (·.2.block) := by
  induction parts with
  | nil =>
    have hnone := Block.blocks_append (Comment.unopened_of_end hafter)
    rw [List.append_nil] at hnone
    rw [document, List.flatMap_nil, List.nil_append, hnone, Block.blocks]
    rfl
  | cons p parts ih =>
    have hdocument : document (p :: parts) after = p.1 ++ (p.2.text ++ document parts after) := by
      simp [document]
    have hunopened : Comment.Unopened p.1 (p.2.text ++ document parts after) := by
      unfold Draft.text
      simpa using Comment.unopened_opening (hparts p List.mem_cons_self) _
    rw [hdocument, Block.blocks_append hunopened, Block.blocks_of_read? (p.2.read?_text _),
      ih fun q hq => hparts q (List.mem_cons_of_mem _ hq)]
    rfl

theorem result_entries_drafts (settings : Settings) (origin : Text) (ds : List Draft) :
    (entries settings (withOrigin origin (.standard settings)) (ds.map Draft.block)).result =
      ds.mapM (Draft.entry? settings origin) := by
  induction ds with
  | nil => rfl
  | cons d ds ih =>
    rw [List.map_cons, result_entries_cons, d.result_process, ih, List.mapM_cons]
    cases d.entry? settings origin with
    | error f => rfl
    | ok e => cases ds.mapM (Draft.entry? settings origin) <;> rfl

theorem exists_mapM_entry?_iff {settings : Settings} {origin : Text} {ds : List Draft} :
    (∃ es, ds.mapM (Draft.entry? settings origin) = .ok es) ↔ ∀ d ∈ ds, d.Encodable settings := by
  induction ds with
  | nil => simp [pure, Except.pure]
  | cons d ds ih =>
    rw [List.forall_mem_cons, ← ih, ← @Draft.exists_entry?_iff settings origin d, List.mapM_cons]
    cases d.entry? settings origin <;> cases ds.mapM (Draft.entry? settings origin) <;>
      simp [bind, Except.bind, pure, Except.pure]

theorem result_extract_document (settings : Settings) {parts : List (Text × Draft)} {after : Text}
    (hparts : ∀ p ∈ parts, ¬Comment.opening <:+: p.1) (hafter : ¬Comment.opening <:+: after)
    (origin : Text) :
    (extract settings (document parts after) .null origin).result =
      (parts.map (·.2)).mapM (Draft.entry? settings origin) := by
  have hmerge : Config.merge? settings .null = .ok (.standard settings) := rfl
  have hds : parts.map (·.2.block) = (parts.map (·.2)).map Draft.block := by
    rw [List.map_map]
    rfl
  rw [result_extract hmerge, blocks_document hparts hafter, hds, result_entries_drafts]

/-- **What is written is read back.** A document of drafts is extracted, without a configuration, to
the entries of the drafts, one for each and in order; and that comes to a result exactly if the
drafts hold no surrogates. -/
theorem extract_document (settings : Settings) {parts : List (Text × Draft)} {after : Text}
    (hparts : ∀ p ∈ parts, ¬Comment.opening <:+: p.1) (hafter : ¬Comment.opening <:+: after)
    (origin : Text) :
    (extract settings (document parts after) .null origin).result =
        (parts.map (·.2)).mapM (Draft.entry? settings origin) ∧
      ((∃ es, (extract settings (document parts after) .null origin).result = .ok es) ↔
        ∀ p ∈ parts, p.2.Encodable settings) := by
  have hresult := result_extract_document settings hparts hafter origin
  refine ⟨hresult, ?_⟩
  rw [hresult, exists_mapM_entry?_iff, List.forall_mem_map]

/-- A draft with a path that holds what closes a comment, a wrap, and a list of sizes. -/
def sampleDraft : Draft where
  items := [⟨Key.extract, .one "a: -->".toText⟩, ⟨Key.wrap, .many "<b>".toText [.char '\\'] []⟩,
    ⟨"size".toText, .many [] " 2".toText ["é".toText]⟩]
  body := "\n    <p>x</p>\n".toText
  note := " of a ->".toText
  writable := by
    refine ⟨fun o ho => ?_, by decide, by decide⟩
    simp only [List.mem_cons, List.not_mem_nil, or_false] at ho
    rcases ho with rfl | rfl | rfl
    · exact ⟨by decide, List.all_eq_true.1 rfl, fun _ => ⟨_, rfl⟩, fun h => absurd h (by decide)⟩
    · exact ⟨by decide, List.all_eq_true.1 rfl, fun h => absurd h (by decide), fun _ => ⟨_, _, _, rfl⟩⟩
    · exact ⟨by decide, List.all_eq_true.1 rfl, fun h => absurd h (by decide),
        fun h => absurd h (by decide)⟩
  first := by
    intro o ho
    obtain rfl := Option.some.inj ho
    decide
  opening_not_infix := by decide +kernel
  closing_not_infix := by decide +kernel

/-- Two drafts with texts that almost open a comment before them. -/
def sampleParts : List (Text × Draft) := [("<p>".toText, sampleDraft), ("<!-".toText, sampleDraft)]

theorem extract_document_sample :
    (∀ p ∈ sampleParts, ¬Comment.opening <:+: p.1) ∧ ¬Comment.opening <:+: "-->".toText ∧
      ∃ es, (extract .standard (document sampleParts "-->".toText) .null []).result = .ok es ∧
        (sampleParts.map (·.2)).mapM (Draft.entry? .standard []) = .ok es := by
  have hparts : ∀ p ∈ sampleParts, ¬Comment.opening <:+: p.1 := by
    intro p hp
    rw [sampleParts, List.mem_cons, List.mem_singleton] at hp
    rcases hp with rfl | rfl
    · show ¬Comment.opening <:+: "<p>".toText
      decide +kernel
    · show ¬Comment.opening <:+: "<!-".toText
      decide +kernel
  have hafter : ¬Comment.opening <:+: "-->".toText := by decide +kernel
  have hencodable : sampleDraft.Encodable .standard :=
    ⟨by decide +kernel, by decide +kernel, by decide +kernel⟩
  obtain ⟨hresult, hiff⟩ := extract_document .standard hparts hafter []
  obtain ⟨es, hes⟩ := hiff.2 fun p hp => by
    rw [sampleParts, List.mem_cons, List.mem_singleton] at hp
    rcases hp with rfl | rfl
    · exact hencodable
    · exact hencodable
  exact ⟨hparts, hafter, es, hes, hresult ▸ hes⟩

/-- A draft with a path, and a surrogate for its body. -/
def surrogateDraft : Draft where
  items := [⟨Key.extract, .one [.char 'a']⟩]
  body := [.firstSurrogate]
  note := []
  writable := by
    refine ⟨fun o ho => ?_, List.pairwise_singleton _ _, List.mem_singleton_self _⟩
    obtain rfl := List.mem_singleton.1 ho
    exact ⟨by decide, List.all_eq_true.1 rfl, fun _ => ⟨_, rfl⟩, fun h => absurd h (by decide)⟩
  first := by
    intro o ho
    obtain rfl := Option.some.inj ho
    decide
  opening_not_infix := by decide +kernel
  closing_not_infix := by decide +kernel

/-- A document of one draft, with no text around it, whose extraction fails. -/
theorem extract_surrogate :
    document [([], surrogateDraft)] [] =
        "<!-- extract:\\a -->".toText ++ .firstSurrogate :: "<!-- endextract-->".toText ∧
      (extract .standard (document [([], surrogateDraft)] []) .null []).result =
        .error (.unencodable ⟨17, [.firstSurrogate]⟩) := by
  have hnil : ¬Comment.opening <:+: ([] : Text) := by decide
  have hparts : ∀ p ∈ [(([] : Text), surrogateDraft)], ¬Comment.opening <:+: p.1 := by
    intro p hp
    rw [List.mem_singleton.1 hp]
    exact hnil
  have hfault : surrogateDraft.entry? .standard [] =
      .error (.unencodable ⟨17, [.firstSurrogate]⟩) := rfl
  refine ⟨by decide, ?_⟩
  rw [result_extract_document .standard hparts hnil []]
  simp only [List.map_cons, List.map_nil, List.mapM_cons, hfault]
  rfl

end Extraction
end MarkupCatalog
