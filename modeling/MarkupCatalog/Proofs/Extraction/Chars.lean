/-
Blocks that hold characters only. All that is read of a block comes from its source and from the
configuration, so if these hold characters only, so do its options, its lines and its view, and the
block has its identifiers (`Source.exists_ids?`).
-/
import MarkupCatalog.Proofs.Extraction
import MarkupCatalog.Proofs.Json
import MarkupCatalog.Proofs.Options.Reading

namespace MarkupCatalog

open Text (allChars_of_subset)

/-! ## Parts of a source -/

theorem Comment.subset_of_first? {s header body : Text} (h : first? s = some (header, body)) :
    header ⊆ s ∧ body ⊆ s := by
  rw [first?, Option.bind_eq_some_iff] at h
  obtain ⟨⟨before, inside⟩, hopen, hclose⟩ := h
  rw [Text.cut_eq_some hopen, show inside = header ++ closing ++ body from Text.cut_eq_some hclose]
  constructor
  · intro c hc
    simp [hc]
  · intro c hc
    simp [hc]

theorem Comment.inner_subset (s : Text) : inner s ⊆ s := by
  have hopening (s : Text) : withoutOpening s ⊆ s := by
    rw [withoutOpening]
    cases hafter : Text.after? opening (Text.trimLeft s) with
    | none => exact List.Subset.refl s
    | some rest =>
      have htrim : Text.trimLeft s ⊆ s := (List.dropWhile_sublist Text.isBlank).subset
      rw [Text.after?_eq_some.1 hafter] at htrim
      exact List.Subset.trans (List.subset_append_right opening rest) htrim
  have hclosing (s : Text) : withoutClosing s ⊆ s := by
    unfold withoutClosing
    dsimp only
    split
    · exact List.Subset.trans (List.take_subset _ _) (Text.dropTrailing_prefix Text.isBlank s).subset
    · exact List.Subset.refl s
  exact List.Subset.trans (hclosing _) (hopening s)

theorem EndMarker.removeAll_subset (s : Text) : removeAll s ⊆ s := by
  fun_induction removeAll s with
  | case1 => exact List.Subset.refl []
  | case2 c t m rest hread ih =>
    rw [read?_eq_some hread]
    exact List.Subset.trans ih (List.subset_append_right m.text rest)
  | case3 c t hread ih => exact List.cons_subset_cons c ih

theorem Block.text_subset {d : Text} {b : Block} (h : b ∈ blocks d) : b.text ⊆ d := by
  fun_induction blocks d with
  | case1 => cases h
  | case2 c t b' rest hread ih =>
    rw [read?_eq_some hread]
    rcases List.mem_cons.1 h with rfl | hmem
    · exact List.subset_append_left b.text rest
    · exact List.Subset.trans (ih hmem) (List.subset_append_right b'.text rest)
  | case3 c t hread ih => exact List.Subset.trans (ih h) (List.subset_cons_self c t)

theorem Source.subset_of_read? {src : Text} {source : Source} (h : read? src = .ok source) :
    source.text ⊆ src ∧ source.header ⊆ src ∧ source.body ⊆ src := by
  have hleft := EndMarker.removeAll_subset src
  obtain ⟨p, hsplit, rfl⟩ := Outcome.map_eq_ok_iff.1 h
  obtain ⟨hheader, hbody⟩ := Comment.subset_of_first? (Comment.split?_eq_ok_iff.1 hsplit)
  exact ⟨hleft, List.Subset.trans hheader hleft, List.Subset.trans hbody hleft⟩

/-! ## Options -/

/-- Both sides of the wrap hold characters only. -/
def Wrap.allChars (w : Wrap) : Bool :=
  Text.allChars w.before.content && Text.allChars w.after.content

/-- The texts of the option hold characters only. -/
def Setting.allChars : Setting → Bool
  | .text s => Text.allChars s
  | .parts ps => ps.all Text.allChars
  | .wrap w => w.allChars

/-- The keys and the texts of the options hold characters only. -/
def Options.AllChars (os : Options) : Prop :=
  ∀ o ∈ os, Text.allChars o.1 = true ∧ o.2.allChars = true

theorem Setting.allChars_toWrap {s : Setting} (h : s.allChars = true) : s.toWrap.allChars = true := by
  match s with
  | .text t =>
    have ht : Text.allChars t = true := h
    simp [toWrap, Wrap.both, Wrap.allChars, Label.content, ht]
  | .parts [] => rfl
  | .parts [p] => simpa [toWrap, Wrap.both, Wrap.allChars, Label.content, allChars] using h
  | .parts (p :: q :: ps) =>
    simp only [allChars, List.all_cons, Bool.and_eq_true] at h
    simp [toWrap, Wrap.allChars, Label.content, h.1, h.2.1]
  | .wrap w => exact h

theorem Options.allChars_of_get? {os : Options} (h : os.AllChars) {k : Text} {s : Setting}
    (hget : os.get? k = some s) : s.allChars = true := (h _ (mem_of_get?_eq_some hget)).2

theorem Mark.chars_read_subset (s : Text) : chars (read s) ⊆ s := by
  fun_induction read s with
  | case1 => exact List.Subset.refl []
  | case2 c => exact List.Subset.refl [c]
  | case3 d s ih => exact List.Subset.trans (List.cons_subset_cons d ih) (List.subset_cons_self _ _)
  | case4 c d s hc ih => exact List.cons_subset_cons c ih

theorem Mark.chars_subset {ms ms' : List Mark} (h : ms ⊆ ms') : chars ms ⊆ chars ms' :=
  List.map_subset char h

theorem Mark.parts_subset {ms : List Mark} {part : Text} (h : part ∈ parts ms) : part ⊆ chars ms := by
  obtain ⟨piece, hpiece, rfl⟩ := List.mem_map.1 h
  exact chars_subset (Text.subset_of_mem_pieces hpiece)

namespace Header

theorem subset_of_mem_scan {free : Bool} {ms : List Mark} {p : Text × List Mark}
    (h : p ∈ (scan free ms).assignments) : p.2 ⊆ ms := by
  have hall := marks_scan free ms
  rw [marks] at hall
  intro m hm
  rw [← hall, List.mem_append, List.mem_flatMap]
  exact .inr ⟨p, h, by simp [hm]⟩

theorem allChars_setting {ms : List Mark} (h : Text.allChars (Mark.chars ms) = true) (k : Text) :
    (setting k ms).allChars = true := by
  have htrim : Mark.chars (Mark.trim ms) ⊆ Mark.chars ms :=
    Mark.chars_subset
      (List.Subset.trans (Text.dropTrailing_prefix _ _).subset (List.dropWhile_sublist _).subset)
  have hchars : Text.allChars (Mark.chars (Mark.trim ms)) = true := allChars_of_subset htrim h
  have hparts : ∀ part ∈ Mark.parts (Mark.trim ms), Text.allChars part = true :=
    fun part hpart => allChars_of_subset (Mark.parts_subset hpart) hchars
  rw [setting]
  split
  · exact hchars
  · split
    next part heq => exact hparts part (by simp [heq])
    next => exact List.all_eq_true.2 hparts

/-- The options of a header come from its text and from the wrap that holds else. -/
theorem allChars_options {s : Text} {fallback : Wrap} (hs : Text.allChars s = true)
    (hw : fallback.allChars = true) : ((read s).options fallback).AllChars := by
  have hdeclared : (read s).declared.AllChars := by
    intro o ho
    obtain ha | hnil := Options.mem_or_mem_of_mem_putAll ho
    · obtain ⟨p, hp, rfl⟩ := List.mem_map.1 ha
      have hmarks : Mark.chars p.2 ⊆ s :=
        List.Subset.trans (Mark.chars_subset (subset_of_mem_scan hp))
          (List.Subset.trans (Mark.chars_read_subset _) (Comment.inner_subset s))
      exact ⟨allChars_of_mem_scan hp, allChars_setting (allChars_of_subset hmarks hs) p.1⟩
    · cases hnil
  have hwrap : ((read s).wrap?.getD fallback).allChars = true := by
    rw [wrap?]
    cases hget : (read s).declared.get? Key.wrap with
    | none => exact hw
    | some v =>
      rw [Option.filter_some]
      split
      · exact Setting.allChars_toWrap (Options.allChars_of_get? hdeclared hget)
      · exact hw
  intro o ho
  rcases Options.eq_or_mem_of_mem_put ho with rfl | hmem
  · exact ⟨(by decide : Text.allChars Key.wrap = true), hwrap⟩
  · exact hdeclared o hmem

end Header

/-! ## Layout -/

namespace Layout

theorem allChars_untab {indent line : Text} (hindent : Text.allChars indent = true)
    (h : Text.allChars line = true) : Text.allChars (untab indent line) = true := by
  induction line with
  | nil => rfl
  | cons c s ih =>
    rw [Text.allChars_cons, Bool.and_eq_true] at h
    rw [untab]
    split
    · rw [Text.allChars_append, hindent, h.2, Bool.and_true]
    · rw [Text.allChars_cons, h.1, ih h.2, Bool.and_true]

theorem subset_of_mem_content {body line : Text} (h : line ∈ content body) : line ⊆ body := by
  have hmem : line ∈ (Text.lines body).map Text.trimRight :=
    (List.dropWhile_sublist _).subset ((Text.dropTrailing_prefix _ _).subset h)
  obtain ⟨l, hl, rfl⟩ := List.mem_map.1 hmem
  exact List.Subset.trans (Text.dropTrailing_prefix _ l).subset (Text.subset_of_mem_pieces hl)

theorem crop_subset (width : Int) (line : Text) : crop width line ⊆ line := by
  unfold crop
  split <;> exact List.drop_subset _ _

theorem allChars_lines {indent body : Text} (hindent : Text.allChars indent = true)
    (hbody : Text.allChars body = true) : ∀ l ∈ lines indent body, Text.allChars l = true := by
  intro l hl
  obtain ⟨u, hu, rfl⟩ := List.mem_map.1 hl
  obtain ⟨line, hline, rfl⟩ := List.mem_map.1 hu
  exact allChars_of_subset (crop_subset _ _)
    (allChars_untab hindent (allChars_of_subset (subset_of_mem_content hline) hbody))

theorem allChars_view {w : Wrap} {ls : List Text} (hw : w.allChars = true)
    (h : ∀ l ∈ ls, Text.allChars l = true) : Text.allChars (view w ls) = true := by
  rw [Wrap.allChars, Bool.and_eq_true] at hw
  unfold view
  split
  · refine Text.allChars_unlines fun l hl => ?_
    simp only [List.mem_append, List.mem_cons, List.not_mem_nil, or_false] at hl
    rcases hl with ((rfl | rfl | rfl) | hl) | rfl | rfl
    · rfl
    · exact hw.1
    · rfl
    · obtain ⟨l', hl', rfl⟩ := List.mem_map.1 hl
      rw [Text.allChars_append, h l' hl']
      rfl
    · rfl
    · exact hw.2
  · exact Text.allChars_unlines h

theorem allChars_template {w : Wrap} {options : Text} {ls : List Text} (hw : w.allChars = true)
    (hoptions : Text.allChars options = true) (h : ∀ l ∈ ls, Text.allChars l = true) :
    Text.allChars (template w options ls) = true := by
  rw [Wrap.allChars, Bool.and_eq_true] at hw
  have hbefore : Text.allChars (Text.replaceAll placeholder options w.before.content) = true :=
    Text.allChars_replaceAll hoptions hw.1
  have hafter : Text.allChars (Text.replaceAll placeholder options w.after.content) = true :=
    Text.allChars_replaceAll hoptions hw.2
  unfold template
  refine Text.allChars_unlines fun l hl => ?_
  simp only [List.mem_append] at hl
  rcases hl with (hl | hl) | hl
  · cases hs : Text.replaceAll placeholder options w.before.content with
    | nil => simp [hs] at hl
    | cons c s =>
      rw [hs] at hl hbefore
      rwa [List.mem_singleton.1 hl]
  · exact h l hl
  · cases hs : Text.replaceAll placeholder options w.after.content with
    | nil => simp [hs] at hl
    | cons c s =>
      rw [hs] at hl hafter
      rwa [List.mem_singleton.1 hl]

end Layout

/-! ## Attributes -/

namespace Attributes

theorem allChars_value {s : Text} (h : Text.allChars s = true) : Text.allChars (value s) = true := by
  refine Text.allChars_iff.2 fun c hc => ?_
  obtain ⟨c', hc', rfl⟩ := List.mem_map.1 hc
  have hmem : c' ∈ s := (List.dropWhile_sublist _).subset ((Text.dropTrailing_prefix _ _).subset hc')
  split
  · rfl
  · exact Text.allChars_iff.1 h c' hmem

theorem allChars_settingText {s : Setting} (h : s.allChars = true) :
    Text.allChars (settingText s) = true := by
  cases s with
  | text s => exact h
  | parts ps => exact Json.allChars_compact_strings ps
  | wrap w => exact Json.allChars_quote_ascii w.literal

theorem allChars_ofOptions {os : Options} (h : os.AllChars) : Text.allChars (ofOptions os) = true := by
  have hattribute : ∀ a ∈ os.flatMap ofOption, Text.allChars a.1 = true ∧ Text.allChars a.2 = true := by
    intro a ha
    obtain ⟨o, ho, hao⟩ := List.mem_flatMap.1 ha
    obtain ⟨hkey, hsetting⟩ := h o ho
    rw [ofOption] at hao
    split at hao
    · have hwrap := Setting.allChars_toWrap hsetting
      rw [Wrap.allChars, Bool.and_eq_true] at hwrap
      simp only [ofWrap, List.mem_cons, List.not_mem_nil, or_false] at hao
      rcases hao with rfl | rfl
      · exact ⟨rfl, hwrap.1⟩
      · exact ⟨rfl, hwrap.2⟩
    · obtain rfl := List.mem_singleton.1 hao
      exact ⟨hkey, allChars_settingText hsetting⟩
  refine Text.allChars_joined rfl fun l hl => ?_
  obtain ⟨a, ha, rfl⟩ := List.mem_map.1 hl
  obtain ⟨hkey, htext⟩ := hattribute a ha
  simp only [written, Text.allChars_append, hkey, allChars_value htext]
  rfl

end Attributes

/-! ## Blocks -/

theorem allChars_of_identify? {s i : Text} (h : identify? s = .ok i) : Text.allChars i = true := by
  rw [identify?] at h
  split at h
  next => cases h
  next =>
    rw [← Except.ok.inj h]
    refine allChars_of_subset (List.take_subset _ _) (Text.allChars_iff.2 fun c hc => ?_)
    obtain ⟨w, -, hw⟩ := List.mem_flatMap.1 hc
    exact Text.allChars_iff.1 (Text.allChars_hex 8 w.toNat) c hw

/-- The texts of the configuration hold characters only; of its resources nothing is said. -/
structure Config.AllChars (c : Config) : Prop where
  indent : Text.allChars c.indent = true
  origin : Text.allChars c.origin = true
  wrap : c.wrap.allChars = true
  templateWrap : c.templateWrap.allChars = true

theorem Config.AllChars.withOrigin {config : Config} {origin : Text} (h : config.AllChars)
    (horigin : Text.allChars origin = true) : Config.AllChars { config with origin } :=
  ⟨h.indent, horigin, h.wrap, h.templateWrap⟩

namespace Source

variable {source : Source} {config : Config}

/-- The parts of a source hold characters only. -/
structure AllChars (source : Source) : Prop where
  text : Text.allChars source.text = true
  header : Text.allChars source.header = true
  body : Text.allChars source.body = true

theorem allChars_of_read? {src : Text} (hsrc : Text.allChars src = true)
    (h : read? src = .ok source) : source.AllChars := by
  obtain ⟨htext, hheader, hbody⟩ := subset_of_read? h
  exact ⟨allChars_of_subset htext hsrc, allChars_of_subset hheader hsrc,
    allChars_of_subset hbody hsrc⟩

theorem AllChars.options (h : source.AllChars) (hconfig : config.AllChars) :
    (source.options config).AllChars := Header.allChars_options h.header hconfig.wrap

theorem AllChars.lines (h : source.AllChars) (hconfig : config.AllChars) :
    ∀ l ∈ source.lines config, Text.allChars l = true :=
  Layout.allChars_lines hconfig.indent h.body

theorem AllChars.view (h : source.AllChars) (hconfig : config.AllChars) :
    Text.allChars (source.view config) = true := by
  refine Layout.allChars_view ?_ (h.lines hconfig)
  rw [Options.View.ofOptions]
  cases hget : (source.options config).get? Key.wrap with
  | none => rfl
  | some v => exact Setting.allChars_toWrap (Options.allChars_of_get? (h.options hconfig) hget)

/-- **A block of characters has its identifiers.** -/
theorem exists_ids? (h : source.AllChars) (hconfig : config.AllChars) :
    ∃ ids, source.ids? config = .ok ids := exists_ids?_iff.2 ⟨h.text, h.view hconfig⟩

end Source

theorem Entry.eq_noComment_of_process {e : Entry} {config : Config} {src : Text} {f : Fault}
    (hsrc : Text.allChars src = true) (hconfig : config.AllChars)
    (h : (e.process config src).result = .error f) : ∃ p, f = .noComment p := by
  rw [result_process] at h
  rcases Outcome.bind_eq_error_iff.1 h with hread | ⟨source, hread, hmade⟩
  · exact ⟨_, (Source.read?_eq_error_iff.1 hread).2⟩
  · obtain ⟨ids, hids⟩ := Source.exists_ids? (Source.allChars_of_read? hsrc hread) hconfig
    rw [made?, hids] at hmade
    split at hmade <;> cases hmade

/-- The only fault of a document of characters is that a block has no comment. -/
theorem Extraction.eq_noComment_of_result_ofDocument {settings : Settings} {config : Config}
    {document : Text} {f : Fault} (hdocument : Text.allChars document = true)
    (hconfig : config.AllChars) (h : (ofDocument settings config document).result = .error f) :
    ∃ p, f = .noComment p := by
  rw [result_ofDocument, result_entries_error_iff] at h
  obtain ⟨before, b, after, hblocks, -, hb⟩ := h
  have hmem : b ∈ Block.blocks document := by simp [hblocks]
  exact Entry.eq_noComment_of_process (allChars_of_subset (Block.text_subset hmem) hdocument)
    hconfig hb

end MarkupCatalog
