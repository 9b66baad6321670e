/-
Which keys a header holds, by what stands in its text. A key is found exactly where it stands with
its colon, as it is written and without a backslash, at the beginning of the text or after whitespace
without a backslash (`mem_keys_scan_iff`); and it is among the options exactly if it stands somewhere
(`declares_iff`).
-/
import MarkupCatalog.Proofs.Header.Written

namespace MarkupCatalog

/-! ## Keys of assignments -/

namespace Options

theorem mem_keys_put {k k' : Text} {s : Setting} {os : Options} :
    k ∈ (put k' s os).map (·.1) ↔ k ∈ os.map (·.1) ∨ k = k' := by
  rw [keys_put]
  split
  next h =>
    constructor
    · exact .inl
    · rintro (hk | rfl)
      · exact hk
      · exact h
  next => rw [List.mem_append, List.mem_singleton]

theorem mem_keys_putAll {k : Text} {assignments : List (Text × Setting)} {os : Options} :
    k ∈ (putAll assignments os).map (·.1) ↔ k ∈ os.map (·.1) ∨ k ∈ assignments.map (·.1) := by
  induction assignments generalizing os with
  | nil => simp [putAll]
  | cons a assignments ih =>
    show k ∈ (putAll assignments (put a.1 a.2 os)).map (·.1) ↔ _
    rw [ih, mem_keys_put, List.map_cons, List.mem_cons, or_assoc]

end Options

namespace Header

open Mark (plain colon)

/-! ## Keys by place -/

/-- The key stands among the marks with its colon, after whitespace or at their beginning; `free`
tells whether it may stand there. -/
def KeyFrom (free : Bool) (k : Text) (ms : List Mark) : Prop :=
  ∃ before after, ms = before ++ (plain k ++ colon :: after) ∧ (before = [] → free = true) ∧
    ∀ m, before.getLast? = some m → m.isGap = true

/-- The key stands among the marks of a text with its colon, at their beginning or after
whitespace. -/
def KeyStands (k : Text) (ms : List Mark) : Prop :=
  ∃ before after, ms = before ++ (plain k ++ colon :: after) ∧
    ∀ m, before.getLast? = some m → m.isGap = true

theorem keyFrom_true {k : Text} {ms : List Mark} : KeyFrom true k ms ↔ KeyStands k ms := by
  simp [KeyFrom, KeyStands]

theorem not_keyFrom_nil {free : Bool} {k : Text} : ¬KeyFrom free k [] := by
  intro h
  obtain ⟨before, after, hms, -⟩ := h
  simp at hms

theorem keyFrom_cons {free : Bool} {k : Text} {m : Mark} {ms : List Mark} :
    KeyFrom free k (m :: ms) ↔
      (free = true ∧ ∃ after, m :: ms = plain k ++ colon :: after) ∨ KeyFrom m.isGap k ms := by
  constructor
  · intro h
    obtain ⟨before, after, hms, hfree, hgap⟩ := h
    cases before with
    | nil => exact .inl ⟨hfree rfl, after, hms⟩
    | cons x before =>
      obtain ⟨rfl, rfl⟩ := List.cons_eq_cons.1 hms
      refine .inr ⟨before, after, rfl, ?_, fun y hy => hgap y ?_⟩
      · rintro rfl
        exact hgap m rfl
      · rw [List.getLast?_cons, hy, Option.getD_some]
  · rintro (⟨hfree, after, hms⟩ | ⟨before, after, rfl, hfree, hgap⟩)
    · exact ⟨[], after, hms, fun _ => hfree, by simp⟩
    · refine ⟨m :: before, after, rfl, by simp, fun y hy => ?_⟩
      rw [List.getLast?_cons, Option.some.injEq] at hy
      cases hlast : before.getLast? with
      | none =>
        rw [hlast, Option.getD_none] at hy
        exact hy ▸ hfree (List.getLast?_eq_none_iff.1 hlast)
      | some z =>
        rw [hlast, Option.getD_some] at hy
        exact hy ▸ hgap z hlast

/-- No key stands in marks without whitespace, or after them but after whitespace of its own. -/
theorem keyFrom_append {k : Text} {word ms : List Mark} (h : ∀ m ∈ word, m.isGap = false) :
    KeyFrom false k (word ++ ms) ↔ KeyFrom false k ms := by
  induction word with
  | nil => rfl
  | cons m word ih =>
    rw [List.cons_append, keyFrom_cons, h m List.mem_cons_self,
      ih fun m' hm' => h m' (List.mem_cons_of_mem _ hm')]
    simp

theorem isGap_eq_false_of_isWord {m : Mark} (h : m.isWord = true) : m.isGap = false := by
  rw [Mark.isWord, Mark.bare, Bool.and_eq_true] at h
  rw [Mark.isGap, Mark.bare, Text.isBlank_eq_false_of_isWord h.2, Bool.and_false]

/-- A key that is read is the only one that stands where it stands. -/
theorem keyFrom_of_key? {free : Bool} {k k' : Text} {m : Mark} {ms after : List Mark}
    (hne : k ≠ []) (hword : ∀ c ∈ k, Text.isWord c = true)
    (hkey : key? (m :: ms) = some (k', after)) :
    KeyFrom free k (m :: ms) ↔ (free = true ∧ k = k') ∨ KeyFrom false k after := by
  obtain ⟨word, dots, hms, hword', hisWord, hdots, rfl⟩ := key?_eq_some hkey
  have hrest : KeyFrom m.isGap k ms ↔ KeyFrom false k after := by
    cases word with
    | nil => exact absurd rfl hword'
    | cons x word =>
      obtain ⟨rfl, hrest⟩ := List.cons_eq_cons.1 hms
      have hms' : ms = (word ++ [dots]) ++ after := by
        rw [hrest, List.append_assoc]
        rfl
      have hgaps : ∀ y ∈ word ++ [dots], y.isGap = false := by
        intro y hy
        rcases List.mem_append.1 hy with hy | hy
        · exact isGap_eq_false_of_isWord (hisWord y (List.mem_cons_of_mem _ hy))
        · obtain rfl := List.mem_singleton.1 hy
          rw [Mark.isColon, Mark.bare, Bool.and_eq_true, beq_iff_eq] at hdots
          rw [Mark.isGap, Mark.bare, hdots.2]
          exact Bool.and_eq_false_iff.2 (.inr (by decide))
      rw [isGap_eq_false_of_isWord (hisWord m List.mem_cons_self), hms', keyFrom_append hgaps]
  rw [keyFrom_cons, hrest]
  refine or_congr_left (and_congr_right fun _ => ?_)
  constructor
  · intro h
    obtain ⟨after', hplain⟩ := h
    have hsame := key?_plain hne hword after'
    rw [← hplain, hkey, Option.some.injEq, Prod.mk.injEq] at hsame
    exact hsame.1.symm
  · rintro rfl
    refine ⟨after, ?_⟩
    rw [hms, Mark.eq_colon_of_isColon hdots, plain, map_chars_of_isWord hisWord]

/-- **A key is found exactly where it stands.** -/
theorem mem_keys_scan_iff {free : Bool} {k : Text} {ms : List Mark} (hne : k ≠ [])
    (hword : ∀ c ∈ k, Text.isWord c = true) :
    k ∈ (scan free ms).assignments.map (·.1) ↔ KeyFrom free k ms := by
  fun_induction scan free ms with
  | case1 => simp [not_keyFrom_nil]
  | case2 free m rest k' after hkey a ih =>
    split at hkey
    next hfree =>
      rw [List.map_cons, List.mem_cons, ih, keyFrom_of_key? hne hword hkey]
      simp [hfree]
    next => simp at hkey
  | case3 free m rest hnone a ih =>
    rw [ih, keyFrom_cons, or_iff_right]
    rintro ⟨rfl, after, hms⟩
    rw [dif_pos rfl, hms, key?_plain hne hword after] at hnone
    simp at hnone

/-- Where a key stands among the marks of a text, it stands in the text itself, with its colon and
after whitespace or at the beginning. -/
theorem KeyStands.exists_text {k s : Text} (h : KeyStands k (Mark.read s)) :
    ∃ before after, s = before ++ (k ++ .char ':' :: after) ∧
      ∀ c, before.getLast? = some c → Text.isBlank c = true := by
  obtain ⟨before, after, hms, hgap⟩ := h
  refine ⟨before.flatMap Mark.written, after.flatMap Mark.written, ?_, fun c hc => ?_⟩
  · rw [← Mark.flatMap_written_read s, hms, List.flatMap_append, List.flatMap_append,
      Mark.flatMap_written_plain, List.flatMap_cons]
    rfl
  · cases hlast : before.getLast? with
    | none => simp [List.getLast?_eq_none_iff.1 hlast] at hc
    | some m =>
      have hm := hgap m hlast
      obtain ⟨init, rfl⟩ := List.getLast?_eq_some_iff.1 hlast
      rw [Mark.isGap, Mark.bare, Bool.and_eq_true, Bool.not_eq_true'] at hm
      rw [List.flatMap_append, List.flatMap_singleton, Mark.written, hm.1] at hc
      simp only [Bool.false_eq_true, if_false, List.getLast?_concat, Option.some.injEq] at hc
      exact hc ▸ hm.2

/-! ## Keys of a header -/

/-- The header gives an option under the key, where no defaults are given. -/
def Declares (k s : Text) : Prop := ∃ os, (parse s .null).result = .ok os ∧ os.get? k ≠ none

theorem declares_iff_get? {k s : Text} (hk : k ≠ Key.wrap) (fallback : Wrap) :
    Declares k s ↔ ((read s).options fallback).get? k ≠ none := by
  have hsame (w : Wrap) : ((read s).options w).get? k = (read s).declared.get? k :=
    Options.get?_put_other hk _ _
  have hresult : ∃ w, (parse s .null).result = .ok ((read s).options w) := by
    simp only [parse, defaultWrap?]
    split <;> exact ⟨_, rfl⟩
  obtain ⟨w, hw⟩ := hresult
  rw [Declares, hw, hsame]
  constructor
  · rintro ⟨os, hos, hget⟩
    rwa [← Except.ok.inj hos, hsame] at hget
  · intro hget
    exact ⟨_, rfl, by rwa [hsame]⟩

/-- **A header gives an option exactly if its key stands in the text.** -/
theorem declares_iff {k s : Text} (hne : k ≠ []) (hword : ∀ c ∈ k, Text.isWord c = true)
    (hk : k ≠ Key.wrap) :
    Declares k s ↔ KeyStands k (Mark.read (Comment.inner s)) := by
  rw [declares_iff_get? hk .empty, options, Options.get?_put_other hk, declared, ne_eq,
    Options.get?_eq_none_iff, not_not, Options.mem_keys_putAll, ← keyFrom_true,
    ← mem_keys_scan_iff hne hword, settings, List.map_map, read]
  simp [Function.comp_def]

theorem isWord_extract : ∀ c ∈ Key.extract, Text.isWord c = true :=
  List.all_eq_true.1 (show Key.extract.all Text.isWord = true by decide +kernel)

theorem declares_extract_iff {s : Text} :
    Declares Key.extract s ↔ KeyStands Key.extract (Mark.read (Comment.inner s)) :=
  declares_iff (by decide) isWord_extract (by decide)

end Header
end MarkupCatalog
