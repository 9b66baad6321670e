/-
The options that a header gives, by the assignments in its text. Each key stands where it came first
and holds what came last under it; the wrap holds if its last value is a list or not empty, and the
defaults give it otherwise (`shaped_parse`). The delimiters of a comment around a text make no
difference to any of this (`parse_enclosed`).
-/
import MarkupCatalog.Proofs.Comment
import MarkupCatalog.Proofs.Header.Marks
import MarkupCatalog.Proofs.Options.Assignments
import MarkupCatalog.Proofs.Options.Reading

namespace MarkupCatalog

namespace Header

open Options (last?)

/-! ## Values -/

/-- The text of a value that is not taken apart. -/
def whole (ms : List Mark) : Text := Mark.chars (Mark.trim ms)

/-- How many colons among the marks part a list. -/
def colons (ms : List Mark) : Nat := (Mark.trim ms).countP Mark.isColon

/-- The value is that of the marks after a key whose values may be lists: their text if no colon parts
it, else a list of at least two texts, which make up their text with colons between them. -/
def IsValueOf (ms : List Mark) (v : Setting) : Prop :=
  v = .text (whole ms) ∧ colons ms = 0 ∨
    ∃ ps, v = .parts ps ∧ 2 ≤ ps.length ∧ ps.length = colons ms + 1 ∧
      Text.joined [.char ':'] ps = whole ms

theorem joined_parts (ms : List Mark) : Text.joined [.char ':'] (Mark.parts ms) = Mark.chars ms := by
  refine Text.joined_map_pieces (fun m hm => ?_) ms
  rw [Mark.isColon, Mark.bare, Bool.and_eq_true, beq_iff_eq] at hm
  exact hm.2

theorem isValueOf_setting {k : Text} (hk : k ∉ Key.verbatim) (ms : List Mark) :
    IsValueOf ms (setting k ms) := by
  have hjoined := joined_parts (Mark.trim ms)
  have hlen : (Mark.parts (Mark.trim ms)).length = colons ms + 1 := by
    rw [Mark.parts, List.length_map, Text.length_pieces, colons]
  rw [setting, if_neg hk]
  split
  next part hpart =>
    rw [hpart] at hjoined hlen
    exact .inl ⟨congrArg Setting.text hjoined, (Nat.succ.inj hlen).symm⟩
  next hmany =>
    have htwo : 2 ≤ (Mark.parts (Mark.trim ms)).length := by
      by_contra hlt
      obtain ⟨part, hpart⟩ := List.length_eq_one_iff.1
        (show (Mark.parts (Mark.trim ms)).length = 1 by omega)
      exact hmany part hpart
    exact .inr ⟨_, rfl, htwo, hlen, hjoined⟩

/-- A value counts as given unless it is the empty text. -/
theorem IsValueOf.isGiven_iff {ms : List Mark} {v : Setting} (h : IsValueOf ms v) :
    v.isGiven = true ↔ v ≠ .text [] := by
  rcases h with ⟨rfl, -⟩ | ⟨ps, rfl, htwo, -⟩
  · simp [Setting.isGiven]
  · have hne : ps ≠ [] := by
      rintro rfl
      simp at htwo
    simp [Setting.isGiven, hne]

/-! ## Options by their assignments -/

theorem get?_declared (h : Header) (k : Text) :
    h.declared.get? k = (last? k h.assignments).map (setting k) := by
  rw [declared, Options.get?_putAll, settings, Options.last?_map, Options.get?, Option.or_none]

/-- The options of a header with these assignments, but for the value of the wrap. -/
structure Shaped (as : List (Text × List Mark)) (os : Options) : Prop where
  nodup : (os.map (·.1)).Nodup
  /-- keys in the order in which they first come, the wrap last if it does not come at all -/
  keys : os.map (·.1) = (as.map (·.1) ++ [Key.wrap]).eraseDups
  verbatim : ∀ k ∈ Key.verbatim, os.get? k = (last? k as).map fun ms => .text (whole ms)
  other : ∀ k, k ∉ Key.verbatim → k ≠ Key.wrap →
    ∀ ms, last? k as = some ms → ∃ v, os.get? k = some v ∧ IsValueOf ms v

theorem shaped_put_declared (h : Header) (w : Wrap) :
    Shaped h.assignments (h.declared.put Key.wrap (.wrap w)) := by
  have hother {k : Text} (hk : k ≠ Key.wrap) :
      (h.declared.put Key.wrap (.wrap w)).get? k = (last? k h.assignments).map (setting k) := by
    rw [Options.get?_put_other hk, get?_declared]
  -- the wrap is one assignment more, after all others
  have hput : h.declared.put Key.wrap (.wrap w) =
      Options.putAll (h.settings ++ [(Key.wrap, .wrap w)]) [] :=
    (Options.putAll_concat h.settings (Key.wrap, .wrap w) []).symm
  refine ⟨?_, ?_, fun k hk => ?_, fun k hk hwrap ms hms => ?_⟩
  · rw [hput]
    exact Options.nodup_keys_putAll _
  · rw [hput, Options.keys_putAll, List.map_append, settings, List.map_map]
    rfl
  · have hwrap : k ≠ Key.wrap := by
      rintro rfl
      revert hk
      decide
    rw [hother hwrap]
    exact congrArg (Option.map · _) (funext fun ms => setting_of_verbatim hk ms)
  · rw [hother hwrap, hms]
    exact ⟨_, rfl, isValueOf_setting hk ms⟩

/-- The wrap that holds for assignments and defaults: that of the last value under its key if that is a
list or not empty, else that of the defaults, which may fail. -/
inductive WrapFrom (as : List (Text × List Mark)) (defaults : Value) : Except Fault Wrap → Prop
  | declared {ms : List Mark} (hms : last? Key.wrap as = some ms)
      (hne : setting Key.wrap ms ≠ .text []) :
      WrapFrom as defaults (Wrap.ofValue? (setting Key.wrap ms).toValue)
  | default (hnone : ∀ ms, last? Key.wrap as = some ms → setting Key.wrap ms = .text []) :
      WrapFrom as defaults (defaultWrap? defaults)

theorem exists_wrapFrom (s : Text) (defaults : Value) :
    ∃ r, WrapFrom (read s).assignments defaults r ∧
      (parse s defaults).result =
        r.map fun w => (read s).declared.put Key.wrap (.wrap w) := by
  by_cases h : ∃ ms, last? Key.wrap (read s).assignments = some ms ∧
      setting Key.wrap ms ≠ .text []
  · obtain ⟨ms, hms, hne⟩ := h
    refine ⟨_, .declared hms hne, ?_⟩
    have hget : (read s).declared.get? Key.wrap = some (setting Key.wrap ms) := by
      rw [get?_declared, hms]
      rfl
    have hgiven := (isValueOf_setting (k := Key.wrap) (by decide) ms).isGiven_iff.2 hne
    rw [Wrap.ofValue?_toValue, result_parse_of_given defaults hget hgiven]
    rfl
  · simp only [not_exists, not_and, not_not] at h
    refine ⟨_, .default h, result_parse_of_not_given defaults fun v hv => ?_⟩
    rw [get?_declared, Option.map_eq_some_iff] at hv
    obtain ⟨ms, hms, rfl⟩ := hv
    rw [h ms hms]
    rfl

/-! ## Delimiters -/

theorem parse_enclosed {g g' s : Text} (hg : Text.allBlank g = true)
    (hg' : Text.allBlank g' = true) (hopen : ¬Comment.BeginsOpen s) (hclose : ¬Comment.EndsClosed s)
    (defaults : Value) :
    parse (g ++ (Comment.opening ++ (s ++ (Comment.closing ++ g')))) defaults = parse s defaults := by
  have hinner : Comment.inner (g ++ (Comment.opening ++ (s ++ (Comment.closing ++ g')))) =
      Comment.inner s := by
    rw [Comment.inner, Comment.withoutOpening_append hg, Comment.withoutClosing_append hg',
      Comment.inner_of_not_endsClosed hclose, Comment.withoutOpening_of_not hopen]
  rw [parse, parse, read, hinner]
  rfl

/-- **The options of a header have the shape of its assignments,** and the delimiters of a comment
around it make no difference. -/
theorem shaped_parse (s : Text) (defaults : Value) :
    (∃ r, WrapFrom (read s).assignments defaults r ∧
      (∀ f, r = .error f → (parse s defaults).result = .error f) ∧
        ∀ w, r = .ok w → ∃ os, (parse s defaults).result = .ok os ∧
          Shaped (read s).assignments os ∧ os.get? Key.wrap = some (.wrap w)) ∧
      ∀ g g', Text.allBlank g = true → Text.allBlank g' = true → ¬Comment.BeginsOpen s →
        ¬Comment.EndsClosed s →
          parse (g ++ (Comment.opening ++ (s ++ (Comment.closing ++ g')))) defaults =
            parse s defaults := by
  obtain ⟨r, hr, hresult⟩ := exists_wrapFrom s defaults
  refine ⟨⟨r, hr, ?_, ?_⟩, fun g g' hg hg' hopen hclose => parse_enclosed hg hg' hopen hclose defaults⟩
  · rintro f rfl
    exact hresult
  · rintro w rfl
    exact ⟨_, hresult, shaped_put_declared (read s) w, Options.get?_put_self ..⟩

/-- A wrap with two empty sides holds, and one that is an empty text does not. -/
example :
    (((read "wrap::".toText).options (.both (.text [.char 'x']))).get? Key.wrap,
        ((read "wrap:".toText).options (.both (.text [.char 'x']))).get? Key.wrap) =
      (some (.wrap .empty), some (.wrap (.both (.text [.char 'x'])))) := by
  cbv

/-- A header with delimiters inside, a key that comes again and a wrap that comes first. -/
def repeated : Text := "x wrap:: a:1:2 --> name:<!-- a:b wrap:u:v\\:w extract: --".toText

theorem shaped_parse_repeated :
    Text.allBlank "\n ".toText = true ∧ ¬Comment.BeginsOpen repeated ∧
      ¬Comment.EndsClosed repeated ∧
      parse ("\n ".toText ++ (Comment.opening ++ (repeated ++ (Comment.closing ++ "\n ".toText))))
        .null = parse repeated .null := by
  have hblank : Text.allBlank "\n ".toText = true := by decide
  have hopen : ¬Comment.BeginsOpen repeated := by decide
  have hclose : ¬Comment.EndsClosed repeated := by decide
  exact ⟨hblank, hopen, hclose, (shaped_parse repeated .null).2 _ _ hblank hblank hopen hclose⟩

end Header
end MarkupCatalog
