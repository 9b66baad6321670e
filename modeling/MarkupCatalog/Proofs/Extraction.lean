/-
The results of extraction without what is told on the way. A block comes to no result if it has no
comment (`exists_noComment_iff`), or is to be extracted and has no identifiers (`made?`,
`exists_ids?_iff`). The entries of a document are those of its blocks one by one
(`result_entries_cons`), each made of a blank entry (`exists_filled_of_mem`), and the first block that
comes to no result ends them (`result_entries_error_iff`).
-/
import MarkupCatalog.Extraction
import MarkupCatalog.Proofs.Comment
import MarkupCatalog.Proofs.Outcome

namespace MarkupCatalog

open Outcome (map_eq_ok_iff map_eq_error_iff bind_eq_ok_iff bind_eq_error_iff)

/-! ## One block -/

theorem Source.read?_eq_error_iff {src : Text} {f : Fault} :
    read? src = .error f ↔
      Comment.first? (EndMarker.removeAll src) = none ∧
        f = .noComment (Text.preview (EndMarker.removeAll src)) := by
  rw [← Comment.split?_eq_error_iff, read?]
  cases Comment.split? (EndMarker.removeAll src) <;> simp [Except.map]

/-! ## Identifiers -/

/-- The value is the identifier of the text. -/
def Value.Identifies (v : Value) (s : Text) : Prop := ∃ i, identify? s = .ok i ∧ v = .text i

/-- Texts that differ in whitespace only have one identifier. -/
theorem Value.Identifies.congr {v : Value} {s t : Text} (h : v.Identifies s)
    (hs : Text.squeeze s = Text.squeeze t) : v.Identifies t := by
  obtain ⟨i, hi, hv⟩ := h
  exact ⟨i, identify?_congr hs ▸ hi, hv⟩

theorem Value.Identifies.unique {v v' : Value} {s : Text} (h : v.Identifies s)
    (h' : v'.Identifies s) : v = v' := by
  obtain ⟨i, hi, rfl⟩ := h
  obtain ⟨i', hi', rfl⟩ := h'
  rw [Except.ok.inj (hi.symm.trans hi')]

namespace Source

theorem ids?_eq_ok_iff {source : Source} {config : Config} {ids : Ids} :
    source.ids? config = .ok ids ↔
      identify? source.text = .ok ids.source ∧ identify? (source.view config) = .ok ids.view := by
  obtain ⟨id, viewId⟩ := ids
  rw [ids?]
  cases identify? source.text <;> cases identify? (source.view config) <;>
    simp [bind, Except.bind, pure, Except.pure]

/-- A block has its identifiers exactly if its source and its view hold characters only. -/
theorem exists_ids?_iff {source : Source} {config : Config} :
    (∃ ids, source.ids? config = .ok ids) ↔
      Text.allChars source.text = true ∧ Text.allChars (source.view config) = true := by
  rw [← exists_identify?_iff, ← exists_identify?_iff]
  constructor
  · intro h
    obtain ⟨ids, hids⟩ := h
    obtain ⟨hsource, hview⟩ := ids?_eq_ok_iff.1 hids
    exact ⟨⟨_, hsource⟩, _, hview⟩
  · intro h
    obtain ⟨⟨id, hsource⟩, viewId, hview⟩ := h
    exact ⟨⟨id, viewId⟩, ids?_eq_ok_iff.2 ⟨hsource, hview⟩⟩

theorem ids?_eq_error_iff {source : Source} {config : Config} {f : Fault} :
    source.ids? config = .error f ↔
      identify? source.text = .error f ∨
        (∃ i, identify? source.text = .ok i) ∧ identify? (source.view config) = .error f := by
  rw [ids?]
  cases identify? source.text <;> cases identify? (source.view config) <;>
    simp [bind, Except.bind, pure, Except.pure]

theorem exists_unencodable_of_ids? {source : Source} {config : Config} {f : Fault}
    (h : source.ids? config = .error f) : ∃ u, f = .unencodable u := by
  rcases ids?_eq_error_iff.1 h with hsource | ⟨-, hview⟩
  · exact exists_unencodable_of_identify? hsource
  · exact exists_unencodable_of_identify? hview

end Source

/-! ## The entry of a block -/

namespace Entry

/-- The entry that a block makes of `e` once its source has been read, if it makes one. -/
def made? (e : Entry) (config : Config) (source : Source) : Except Fault (Option Entry) :=
  if (Options.View.ofOptions (source.options config)).isExtraction then
    (source.ids? config).map fun ids => some (e.filled config source ids)
  else .ok none

theorem result_process (e : Entry) (config : Config) (src : Text) :
    (e.process config src).result = (Source.read? src).bind (e.made? config) := by
  unfold process
  cases Source.read? src with
  | error f => rfl
  | ok source =>
    simp only [Except.bind, made?]
    split
    · cases source.ids? config <;> rfl
    · rfl

/-- Once its source has been read, only surrogates can keep a block from a result. -/
theorem exists_unencodable_of_made? {e : Entry} {config : Config} {source : Source} {f : Fault}
    (h : e.made? config source = .error f) : ∃ u, f = .unencodable u := by
  rw [made?] at h
  split at h
  · exact Source.exists_unencodable_of_ids? (map_eq_error_iff.1 h)
  · cases h

theorem exists_filled_of_made? {e e' : Entry} {config : Config} {source : Source}
    (h : e.made? config source = .ok (some e')) :
    ∃ ids, source.ids? config = .ok ids ∧ e' = e.filled config source ids := by
  rw [made?] at h
  split at h
  · obtain ⟨ids, hids, hsome⟩ := map_eq_ok_iff.1 h
    exact ⟨ids, hids, Option.some.inj hsome⟩
  · cases h

end Entry

/-! ## All blocks of a document -/

namespace Extraction

theorem result_entries_cons (settings : Settings) (config : Config) (b : Block) (bs : List Block) :
    (entries settings config (b :: bs)).result =
      ((Entry.blank settings).process config b.text).result.bind fun made =>
        (entries settings config bs).result.map (made.toList ++ ·) := by
  rw [entries, Outcome.result_andThen]
  congr 1
  funext made
  rw [Outcome.result_andThen]
  cases (entries settings config bs).result <;> rfl

theorem result_entries_cons_eq_ok_iff {settings : Settings} {config : Config} {b : Block}
    {bs : List Block} {es : List Entry} :
    (entries settings config (b :: bs)).result = .ok es ↔
      ∃ made rest, ((Entry.blank settings).process config b.text).result = .ok made ∧
        (entries settings config bs).result = .ok rest ∧ es = made.toList ++ rest := by
  rw [result_entries_cons]
  constructor
  · intro h
    obtain ⟨made, hmade, h⟩ := bind_eq_ok_iff.1 h
    obtain ⟨rest, hrest, hes⟩ := map_eq_ok_iff.1 h
    exact ⟨made, rest, hmade, hrest, hes⟩
  · intro h
    obtain ⟨made, rest, hmade, hrest, hes⟩ := h
    exact bind_eq_ok_iff.2 ⟨made, hmade, map_eq_ok_iff.2 ⟨rest, hrest, hes⟩⟩

theorem result_entries_cons_eq_error_iff {settings : Settings} {config : Config} {b : Block}
    {bs : List Block} {f : Fault} :
    (entries settings config (b :: bs)).result = .error f ↔
      ((Entry.blank settings).process config b.text).result = .error f ∨
        (∃ made, ((Entry.blank settings).process config b.text).result = .ok made) ∧
          (entries settings config bs).result = .error f := by
  rw [result_entries_cons]
  constructor
  · intro h
    rcases bind_eq_error_iff.1 h with hmade | ⟨made, hmade, h⟩
    · exact .inl hmade
    · exact .inr ⟨⟨made, hmade⟩, map_eq_error_iff.1 h⟩
  · intro h
    rcases h with hmade | ⟨⟨made, hmade⟩, hrest⟩
    · exact bind_eq_error_iff.2 (.inl hmade)
    · exact bind_eq_error_iff.2 (.inr ⟨made, hmade, map_eq_error_iff.2 hrest⟩)

theorem result_entries_append (settings : Settings) (config : Config) (bs bs' : List Block) :
    (entries settings config (bs ++ bs')).result =
      (entries settings config bs).result.bind fun es =>
        (entries settings config bs').result.map (es ++ ·) := by
  induction bs with
  | nil =>
    show _ = (entries settings config bs').result.map ([] ++ ·)
    cases h : (entries settings config bs').result <;> simp [Except.map, h]
  | cons b bs ih =>
    rw [List.cons_append, result_entries_cons, result_entries_cons, ih]
    cases ((Entry.blank settings).process config b.text).result with
    | error f => rfl
    | ok made =>
      cases (entries settings config bs).result with
      | error f => rfl
      | ok es =>
        cases (entries settings config bs').result with
        | error f => rfl
        | ok es' => simp [Except.bind, Except.map]

/-- The first block that comes to no result gives its fault to the document. -/
theorem result_entries_error_iff {settings : Settings} {config : Config} {bs : List Block}
    {f : Fault} :
    (entries settings config bs).result = .error f ↔
      ∃ before b after, bs = before ++ b :: after ∧
        (∃ es, (entries settings config before).result = .ok es) ∧
        ((Entry.blank settings).process config b.text).result = .error f := by
  constructor
  · intro h
    induction bs with
    | nil => cases h
    | cons b bs ih =>
      rcases result_entries_cons_eq_error_iff.1 h with hb | ⟨⟨made, hmade⟩, hrest⟩
      · exact ⟨[], b, bs, rfl, ⟨[], rfl⟩, hb⟩
      · obtain ⟨before, b', after, rfl, ⟨es, hes⟩, hb'⟩ := ih hrest
        exact ⟨b :: before, b', after, rfl,
          ⟨_, result_entries_cons_eq_ok_iff.2 ⟨made, es, hmade, hes, rfl⟩⟩, hb'⟩
  · intro h
    obtain ⟨before, b, after, rfl, ⟨es, hes⟩, hb⟩ := h
    rw [result_entries_append, hes, result_entries_cons, hb]
    rfl

/-- A block ends in the fault that there is no comment exactly if no comment is left of it. -/
theorem exists_noComment_iff {e : Entry} {config : Config} {src : Text} :
    (∃ p, (e.process config src).result = .error (.noComment p)) ↔
      Comment.first? (EndMarker.removeAll src) = none := by
  rw [Entry.result_process]
  cases hread : Source.read? src with
  | error f =>
    obtain ⟨hnone, rfl⟩ := Source.read?_eq_error_iff.1 hread
    exact iff_of_true ⟨_, rfl⟩ hnone
  | ok source =>
    refine iff_of_false ?_ ?_
    · intro h
      obtain ⟨p, hp⟩ := h
      obtain ⟨u, hu⟩ := Entry.exists_unencodable_of_made? hp
      cases hu
    · intro hnone
      rw [Source.read?_eq_error_iff.2 ⟨hnone, rfl⟩] at hread
      cases hread

/-- The faults of a document are that a block has no comment and that one cannot be identified. -/
theorem noComment_or_unencodable_of_result_entries {settings : Settings} {config : Config}
    {bs : List Block} {f : Fault} (h : (entries settings config bs).result = .error f) :
    (∃ p, f = .noComment p) ∨ ∃ u, f = .unencodable u := by
  obtain ⟨before, b, after, -, -, hb⟩ := result_entries_error_iff.1 h
  rw [Entry.result_process] at hb
  rcases bind_eq_error_iff.1 hb with hread | ⟨source, -, hmade⟩
  · exact .inl ⟨_, (Source.read?_eq_error_iff.1 hread).2⟩
  · exact .inr (Entry.exists_unencodable_of_made? hmade)

/-- Each entry of a document is what some block makes of a blank one. -/
theorem exists_filled_of_mem {settings : Settings} {config : Config} {bs : List Block}
    {es : List Entry} (h : (entries settings config bs).result = .ok es) {e : Entry} (he : e ∈ es) :
    ∃ b ∈ bs, ∃ source ids, Source.read? b.text = .ok source ∧ source.ids? config = .ok ids ∧
      e = (Entry.blank settings).filled config source ids := by
  induction bs generalizing es with
  | nil =>
    cases h
    simp at he
  | cons b bs ih =>
    obtain ⟨made, rest, hb, hrest, rfl⟩ := result_entries_cons_eq_ok_iff.1 h
    rcases List.mem_append.1 he with hmem | hmem
    · rw [Entry.result_process] at hb
      obtain ⟨source, hread, hmade⟩ := bind_eq_ok_iff.1 hb
      obtain rfl := Option.mem_toList.1 hmem
      obtain ⟨ids, hids, rfl⟩ := Entry.exists_filled_of_made? hmade
      exact ⟨b, List.mem_cons_self, source, ids, hread, hids, rfl⟩
    · obtain ⟨b', hb', hfilled⟩ := ih hrest hmem
      exact ⟨b', List.mem_cons_of_mem b hb', hfilled⟩

theorem result_ofDocument (settings : Settings) (config : Config) (document : Text) :
    (ofDocument settings config document).result =
      (entries settings config (Block.blocks document)).result := by
  simp only [ofDocument, Outcome.result_andThen, Outcome.result_after]
  cases (entries settings config (Block.blocks document)).result <;> rfl

theorem result_extract {settings : Settings} {v : Value} {config : Config}
    (h : Config.merge? settings v = .ok config) (document origin : Text) :
    (extract settings document v origin).result =
      (entries settings (withOrigin origin config) (Block.blocks document)).result := by
  rw [extract, h]
  exact result_ofDocument ..

end Extraction
end MarkupCatalog
