/-
Attributes read back. Attributes are read from left to right, each up to the next double quote, and
with one space between each two (`readAll?`). No text in an option can end its attribute early or begin
another one (`readAll?_render`), so the attributes of the options of a header are read back one by one,
under their keys and in their order (`exists_readAll?_of_parse`).
-/
import Mathlib.Data.List.Nodup
import MarkupCatalog.Options.Attributes
import MarkupCatalog.Proofs.Header.Division
import MarkupCatalog.Proofs.Options.Assignments
import MarkupCatalog.Proofs.Options.Reading

namespace MarkupCatalog

/-! ## Reading attributes -/

namespace Attributes

/-- What begins an attribute. -/
def opening : Text := "data-".toText

/-- What stands between the name of an attribute and its value. -/
def equals : Text := "=\"".toText

/-- The attribute at the beginning of a text, with its value up to the next double quote, and what
follows that quote. -/
def read? (s : Text) : Option ((Text × Text) × Text) :=
  (Text.after? opening s).bind fun named =>
    (Text.cut equals named).bind fun p =>
      (Text.cut [.char '"'] p.2).map fun q => ((p.1, q.1), q.2)

theorem read?_length {s rest : Text} {a : Text × Text} (h : read? s = some (a, rest)) :
    rest.length < s.length := by
  simp only [read?, Option.bind_eq_some_iff, Option.map_eq_some_iff, Prod.mk.injEq] at h
  obtain ⟨named, hs, p, hname, q, hvalue, -, rfl⟩ := h
  have hquote := Text.cut_length_lt (by simp) hvalue
  have hequals := Text.cut_length_lt (by simp [equals]) hname
  rw [Text.after?_eq_some.1 hs, List.length_append]
  omega

/-- The attributes of a text that holds nothing else, with one space between each two of them. -/
def readAll? (s : Text) : Option (List (Text × Text)) :=
  match _h : read? s with
  | none => none
  | some (a, []) => some [a]
  | some (a, c :: rest) => if c = ' ' then (readAll? rest).map (a :: ·) else none
termination_by s.length
decreasing_by
  have := read?_length _h
  rw [List.length_cons] at this
  omega

theorem readAll?_of_read? {s : Text} {a : Text × Text} (h : read? s = some (a, [])) :
    readAll? s = some [a] := by
  rw [readAll?]
  split <;> simp_all

theorem readAll?_of_read?_space {s rest : Text} {a : Text × Text}
    (h : read? s = some (a, .char ' ' :: rest)) : readAll? s = (readAll? rest).map (a :: ·) := by
  rw [readAll?]
  split <;> simp_all

/-! ## What is written is read -/

theorem read?_written {k : Text} (hk : .char '=' ∉ k) (s r : Text) :
    read? (written (k, s) ++ r) = some ((k, value s), r) := by
  have hequals : Text.Unbordered equals := by
    intro j h0 hj
    obtain rfl : j = 1 := by
      have : equals.length = 2 := rfl
      omega
    decide
  have hquote : Text.Unbordered [.char '"'] := by
    intro j h0 hj
    rw [List.length_singleton] at hj
    omega
  have hname : ¬equals <:+: k := fun h => hk (h.subset List.mem_cons_self)
  have hvalue : ¬[.char '"'] <:+: value s :=
    fun h => quote_not_mem_value s (h.subset List.mem_cons_self)
  have htext : written (k, s) ++ r = opening ++ (k ++ equals ++ (value s ++ [.char '"'] ++ r)) := by
    unfold written opening equals
    rw [List.append_assoc, List.append_assoc, List.append_assoc, List.append_assoc,
      List.append_assoc, List.append_assoc]
  rw [read?, htext, Text.after?_append, Option.bind_some,
    Text.cut_append (by decide) hequals hname, Option.bind_some,
    Text.cut_append (by decide) hquote hvalue, Option.map_some]

theorem render_cons (a b : Text × Text) (as : List (Text × Text)) :
    render (a :: b :: as) = written a ++ .char ' ' :: render (b :: as) := by
  simp [render, Text.joined]

/-- **Attributes are read back as they are written,** one by one, whatever their texts are. -/
theorem readAll?_render {as : List (Text × Text)} (hne : as ≠ []) (h : ∀ a ∈ as, .char '=' ∉ a.1) :
    readAll? (render as) = some (as.map fun a => (a.1, value a.2)) := by
  induction as with
  | nil => exact absurd rfl hne
  | cons a as ih =>
    have ha := h a List.mem_cons_self
    cases as with
    | nil =>
      have hread := read?_written ha a.2 []
      rw [List.append_nil] at hread
      exact readAll?_of_read? hread
    | cons b as =>
      rw [render_cons, readAll?_of_read?_space (read?_written ha a.2 _),
        ih (by simp) fun a' ha' => h a' (List.mem_cons_of_mem _ ha')]
      rfl

/-! ## Values -/

/-- No value begins or ends with a quote. -/
theorem isQuote_value {s : Text} {c : CodePoint}
    (h : (value s).head? = some c ∨ (value s).getLast? = some c) : isQuote c = false := by
  have hkept {d : CodePoint} (hd : isQuote d = false) : (if d = '"' then .char '\'' else d) = d := by
    refine if_neg ?_
    rintro rfl
    revert hd
    decide
  rcases h with hfirst | hlast
  · rw [value, List.head?_map, Text.dropTrailing_dropWhile, Option.map_eq_some_iff] at hfirst
    obtain ⟨d, hd, rfl⟩ := hfirst
    have hnot := List.head?_dropWhile_not isQuote (Text.dropTrailing isQuote s)
    rw [hd] at hnot
    have hnot : isQuote d = false := by simpa using hnot
    rwa [hkept hnot]
  · rw [value, List.getLast?_map, Option.map_eq_some_iff] at hlast
    obtain ⟨d, hd, rfl⟩ := hlast
    have hnot := Text.getLast?_dropTrailing hd
    rwa [hkept hnot]

/-- The text can be the value of an attribute as it is: it holds no double quote, and no single quote
at its ends. -/
def Plain (s : Text) : Prop :=
  .char '"' ∉ s ∧ s.head? ≠ some (.char '\'') ∧ s.getLast? ≠ some (.char '\'')

theorem Plain.value_eq {s : Text} (h : Plain s) : value s = s := by
  obtain ⟨hdouble, hfirst, hlast⟩ := h
  have hquote {c : CodePoint} (hc : c ∈ s) (hsingle : c ≠ '\'') : isQuote c = false := by
    have hne : c ≠ '"' := fun he => hdouble (he ▸ hc)
    simp [isQuote, hne, hsingle]
  have hstart : s.dropWhile isQuote = s := by
    refine Text.dropWhile_eq_self fun c hc => hquote (List.mem_of_mem_head? hc) ?_
    rintro rfl
    exact hfirst hc
  have hend : Text.dropTrailing isQuote s = s := by
    refine Text.dropTrailing_eq_self fun c hc => hquote (List.mem_of_getLast? hc) ?_
    rintro rfl
    exact hlast hc
  rw [value, hstart, hend]
  refine (List.map_congr_left fun c hc => if_neg ?_).trans (List.map_id s)
  rintro rfl
  exact hdouble hc

/-! ## Names -/

/-- The names of the attributes of the option under a key. -/
def names (k : Text) : List Text :=
  if k = Key.wrap then ["wrap-before".toText, "wrap-after".toText] else [k]

theorem map_fst_ofOption (o : Text × Setting) : (ofOption o).map (·.1) = names o.1 := by
  unfold ofOption names
  split <;> rfl

theorem map_fst_flatMap_ofOption (os : Options) :
    (os.flatMap ofOption).map (·.1) = (os.map (·.1)).flatMap names := by
  rw [List.map_flatMap, List.flatMap_map]
  exact List.flatMap_congr fun o _ => map_fst_ofOption o

section Names

open Header (IsKey)

variable {k k' n : Text}

theorem dash_mem_of_mem_names_wrap (h : n ∈ names Key.wrap) : .char '-' ∈ n := by
  simp only [names, if_true, List.mem_cons, List.not_mem_nil, or_false] at h
  rcases h with rfl | rfl <;> decide

theorem eq_of_mem_names (hk : k ≠ Key.wrap) (h : n ∈ names k) : n = k := by
  rw [names, if_neg hk] at h
  exact List.mem_singleton.1 h

theorem equals_not_mem_of_mem_names (h : IsKey k) (hn : n ∈ names k) : .char '=' ∉ n := by
  by_cases hk : k = Key.wrap
  · simp only [names, if_pos hk, List.mem_cons, List.not_mem_nil, or_false] at hn
    rcases hn with rfl | rfl <;> decide
  · rw [eq_of_mem_names hk hn]
    exact h.not_mem (by decide +kernel)

/-- No name belongs to two keys: those of the wrap hold a dash, and no key does. -/
theorem key_eq_of_mem_names (h : IsKey k) (h' : IsKey k') (hn : n ∈ names k) (hn' : n ∈ names k') :
    k = k' := by
  have hdash {k : Text} (h : IsKey k) : .char '-' ∉ k := h.not_mem (by decide +kernel)
  by_cases hk : k = Key.wrap
  · by_cases hk' : k' = Key.wrap
    · rw [hk, hk']
    · rw [hk] at hn
      rw [eq_of_mem_names hk' hn'] at hn
      exact absurd (dash_mem_of_mem_names_wrap hn) (hdash h')
  · rw [eq_of_mem_names hk hn] at hn'
    by_cases hk' : k' = Key.wrap
    · rw [hk'] at hn'
      exact absurd (dash_mem_of_mem_names_wrap hn') (hdash h)
    · exact eq_of_mem_names hk' hn'

theorem nodup_names (k : Text) : (names k).Nodup := by
  unfold names
  split
  · decide
  · exact List.nodup_singleton k

theorem nodup_flatMap_names {ks : List Text} (hks : ks.Nodup) (h : ∀ k ∈ ks, IsKey k) :
    (ks.flatMap names).Nodup := by
  refine List.nodup_flatMap.2 ⟨fun k _ => nodup_names k, ?_⟩
  refine hks.imp_of_mem fun {k k'} hk hk' hne => ?_
  exact fun n hn hn' => hne (key_eq_of_mem_names (h k hk) (h k' hk') hn hn')

end Names

end Attributes

/-! ## The options of a header -/

/-- Options by their keys: each comes once and could be the key of an assignment, and a wrap stands
under its key and nowhere else. -/
structure Options.Keyed (os : Options) : Prop where
  nodup : (os.map (·.1)).Nodup
  isKey : ∀ k ∈ os.map (·.1), Header.IsKey k
  wrap : ∃ w, os.get? Key.wrap = some (.wrap w)
  no_other : ∀ o ∈ os, o.1 ≠ Key.wrap → ∀ w, o.2 ≠ .wrap w

theorem Options.Keyed.put_wrap {os : Options} (h : os.Keyed) (w : Wrap) :
    (os.put Key.wrap (.wrap w)).Keyed := by
  obtain ⟨w', hw'⟩ := h.wrap
  have hmem : Key.wrap ∈ os.map (·.1) := List.mem_map_of_mem (mem_of_get?_eq_some hw')
  refine ⟨nodup_keys_put h.nodup, ?_, ⟨w, get?_put_self ..⟩, fun o ho hk v => ?_⟩
  · rw [keys_put, if_pos hmem]
    exact h.isKey
  · rcases eq_or_mem_of_mem_put ho with rfl | hold
    · exact absurd rfl hk
    · exact h.no_other o hold hk v

namespace Header

theorem isKey_of_mem_assignments {s : Text} {p : Text × List Mark}
    (h : p ∈ (read s).assignments) : IsKey p.1 := by
  obtain ⟨d, htext, hd⟩ := Division.exists_proper [] (Comment.inner s)
  have hscan : scan true (Mark.read d.text) = d.header := scan_of_proper Mark.settled_nil hd
  rw [read, ← htext, hscan] at h
  obtain ⟨item, hitem, rfl⟩ := List.mem_map.1 h
  exact hd.isKey item hitem

theorem isKey_wrap : IsKey Key.wrap :=
  ⟨by decide, List.all_eq_true.1 (show Key.wrap.all Text.isWord = true by decide +kernel)⟩

theorem setting_ne_wrap (k : Text) (ms : List Mark) (w : Wrap) : setting k ms ≠ .wrap w := by
  unfold setting
  split
  · simp
  · dsimp only
    split <;> simp

theorem keyed_options (s : Text) (fallback : Wrap) : ((read s).options fallback).Keyed := by
  have hassigned {o : Text × Setting} (ho : o ∈ (read s).options fallback) :
      o.1 = Key.wrap ∨ ∃ p ∈ (read s).assignments, o = (p.1, setting p.1 p.2) := by
    rcases Options.eq_or_mem_of_mem_put ho with rfl | hdeclared
    · exact .inl rfl
    · rcases Options.mem_or_mem_of_mem_putAll hdeclared with hset | hnone
      · obtain ⟨p, hp, rfl⟩ := List.mem_map.1 hset
        exact .inr ⟨p, hp, rfl⟩
      · cases hnone
  constructor
  case nodup => exact Options.nodup_keys_put (Options.nodup_keys_putAll _)
  case isKey =>
    intro k hk
    obtain ⟨o, ho, rfl⟩ := List.mem_map.1 hk
    rcases hassigned ho with hwrap | ⟨p, hp, rfl⟩
    · rw [hwrap]
      exact isKey_wrap
    · exact isKey_of_mem_assignments hp
  case wrap => exact ⟨_, Options.get?_put_self ..⟩
  case no_other =>
    intro o ho hk w
    rcases hassigned ho with hwrap | ⟨p, -, rfl⟩
    · exact absurd hwrap hk
    · exact setting_ne_wrap p.1 p.2 w

end Header

namespace Attributes

/-- Attributes as they are to be read back from what is written of options. -/
structure Restates (os : Options) (as : List (Text × Text)) : Prop where
  /-- one attribute for each option, in order, and two for the wrap -/
  names : as.map (·.1) = (os.map (·.1)).flatMap names
  nodup : (as.map (·.1)).Nodup
  ends : ∀ a ∈ as, ∀ c, a.2.head? = some c ∨ a.2.getLast? = some c → isQuote c = false
  text : ∀ k s, k ≠ Key.wrap → os.get? k = some (.text s) → Plain s → (k, s) ∈ as
  wrap : ∃ w, os.get? Key.wrap = some (.wrap w) ∧
    (Plain w.before.content → ("wrap-before".toText, w.before.content) ∈ as) ∧
    (Plain w.after.content → ("wrap-after".toText, w.after.content) ∈ as)

/-- The attributes of options, with what stands in each for its text. -/
def shown (os : Options) : List (Text × Text) :=
  (os.flatMap ofOption).map fun a => (a.1, value a.2)

theorem map_fst_shown (os : Options) : (shown os).map (·.1) = (os.map (·.1)).flatMap names := by
  rw [← map_fst_flatMap_ofOption, shown, List.map_map]
  rfl

theorem mem_shown {os : Options} {k n t : Text} {s : Setting} (h : os.get? k = some s)
    (ha : (n, t) ∈ ofOption (k, s)) (ht : Plain t) : (n, t) ∈ shown os := by
  refine List.mem_map.2 ⟨(n, t), ?_, by rw [ht.value_eq]⟩
  exact List.mem_flatMap.2 ⟨(k, s), Options.mem_of_get?_eq_some h, ha⟩

theorem restates_shown {os : Options} (h : os.Keyed) : Restates os (shown os) := by
  obtain ⟨w, hw⟩ := h.wrap
  have hsides : ofOption (Key.wrap, .wrap w) = ofWrap w := if_pos rfl
  refine ⟨map_fst_shown os, ?_, fun a ha c hc => ?_, fun k s hk hs => ?_, w, hw, ?_, ?_⟩
  · rw [map_fst_shown]
    exact nodup_flatMap_names h.nodup h.isKey
  · obtain ⟨o, -, rfl⟩ := List.mem_map.1 ha
    exact isQuote_value hc
  · refine mem_shown hs ?_
    rw [ofOption, if_neg hk]
    exact List.mem_cons_self
  · refine mem_shown hw ?_
    rw [hsides]
    exact List.mem_cons_self
  · refine mem_shown hw ?_
    rw [hsides]
    exact List.mem_cons_of_mem _ List.mem_cons_self

theorem readAll?_ofOptions {os : Options} (h : os.Keyed) :
    readAll? (ofOptions os) = some (shown os) := by
  obtain ⟨w, hw⟩ := h.wrap
  refine readAll?_render ?_ fun a ha => ?_
  · have hside : ("wrap-before".toText, w.before.content) ∈ os.flatMap ofOption :=
      List.mem_flatMap.2 ⟨_, Options.mem_of_get?_eq_some hw, List.mem_cons_self⟩
    exact List.ne_nil_of_mem hside
  · have hname : a.1 ∈ (os.map (·.1)).flatMap names := by
      rw [← map_fst_flatMap_ofOption]
      exact List.mem_map_of_mem ha
    obtain ⟨k, hk, hn⟩ := List.mem_flatMap.1 hname
    exact equals_not_mem_of_mem_names (h.isKey k hk) hn

/-- **What is written of the options of a header is read back option by option.** -/
theorem exists_readAll?_of_parse {s : Text} {defaults : Value} {os : Options}
    (h : (Header.parse s defaults).result = .ok os) :
    ∃ t as, ofValue? os.toValue = .ok t ∧ readAll? t = some as ∧ Restates os as := by
  obtain ⟨fallback, rfl⟩ := Header.exists_options_of_parse h
  have hkeyed := Header.keyed_options s fallback
  exact ⟨_, _, ofValue?_toValue _, readAll?_ofOptions hkeyed, restates_shown hkeyed⟩

/-- A header whose values hold quotes, and text that looks like one more attribute. -/
def quoted : Text := "a:\" data-b=\"x c:'y':z wrap:\"':<i>".toText

theorem exists_readAll?_of_parse_quoted :
    ∃ os, (Header.parse quoted (Config.standard .standard).toValue).result = .ok os ∧
      ∃ t as, ofValue? os.toValue = .ok t ∧ readAll? t = some as ∧ Restates os as := by
  have h := Header.result_parse_config quoted (Config.standard .standard)
  exact ⟨_, h, exists_readAll?_of_parse h⟩

example : shown ((Header.read quoted).options .empty) =
    [("a".toText, " data-b='x".toText), ("c".toText, "[''y'', 'z']".toText),
      ("wrap-before".toText, []), ("wrap-after".toText, "<i>".toText)] := by
  decide +kernel

end Attributes
end MarkupCatalog
