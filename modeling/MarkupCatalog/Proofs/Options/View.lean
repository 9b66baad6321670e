/-
The view of the options of a header. Whatever the text declares, its options are accepted, and the view
tells all of them: those with a meaning of their own by name, and the others as they are
(`faithful_ofOptions`). Only the defaults can stand in the way of a view, where the text declares no wrap
and they have none to give (`viewed_parse`).
-/
import MarkupCatalog.Entry
import MarkupCatalog.Proofs.Header.Shape
import MarkupCatalog.Proofs.Value.Plain

namespace MarkupCatalog

/-! ## Wraps of defaults -/

namespace Header

open Options (last?)

/-- Defaults have no wrap to give: they are of a kind that has none, or the wrap in them is an entry
without a plain form. -/
inductive NoWrap : Value → Fault → Prop
  | kind {v : Value} (h : v.kind ∉ [Value.Kind.null, .map, .config]) :
      NoWrap v (.noMember v.kind .wrap)
  | entry {ps fields : Pairs} (hget : Pairs.get? Key.wrap ps = some (.entry fields))
      (hplain : Value.plainPairs? fields = .error .unkeyable) : NoWrap (.map ps) .unkeyable

theorem defaultWrap?_eq_error_iff {v : Value} {f : Fault} :
    defaultWrap? v = .error f ↔ NoWrap v f := by
  constructor
  · intro h
    cases v with
    | null | config => cases h
    | map ps =>
      rw [defaultWrap?, Value.ofValue?_eq_error_iff] at h
      obtain ⟨fields, hentry, hplain⟩ := h
      obtain rfl := Value.eq_unkeyable_of_plainPairs? hplain
      cases hget : Pairs.get? Key.wrap ps with
      | none =>
        rw [hget] at hentry
        cases hentry
      | some w =>
        rw [hget] at hentry
        obtain rfl : w = .entry fields := hentry
        exact .entry hget hplain
    | str l =>
      obtain rfl := Except.error.inj h
      exact .kind (by cases l <;> simp [Value.kind])
    | _ =>
      obtain rfl := Except.error.inj h
      exact .kind (by simp [Value.kind])
  · intro h
    cases h with
    | kind hkind =>
      cases v with
      | null | map | config => exact absurd (by simp [Value.kind]) hkind
      | _ => rfl
    | entry hget hplain =>
      rw [defaultWrap?, hget]
      exact Value.ofValue?_eq_error_iff.2 ⟨_, rfl, hplain⟩

/-- The text declares a wrap that holds: a list, or a text that is not empty. -/
def DeclaresWrap (s : Text) : Prop :=
  ∃ ms, last? Key.wrap (read s).assignments = some ms ∧ setting Key.wrap ms ≠ .text []

theorem result_parse_eq_error_iff {s : Text} {defaults : Value} {f : Fault} :
    (parse s defaults).result = .error f ↔ ¬DeclaresWrap s ∧ NoWrap defaults f := by
  obtain ⟨r, hr, hresult⟩ := exists_wrapFrom s defaults
  rw [hresult, Outcome.map_eq_error_iff]
  cases hr with
  | declared hms hne =>
    rw [Wrap.ofValue?_toValue]
    simp only [reduceCtorEq, false_iff, not_and]
    exact fun hno => absurd ⟨_, hms, hne⟩ hno
  | default hnone =>
    rw [defaultWrap?_eq_error_iff, and_iff_right]
    intro hdeclares
    obtain ⟨ms, hms, hne⟩ := hdeclares
    exact hne (hnone ms hms)

end Header

/-! ## Views -/

namespace Options.View

/-- A view tells all options. -/
structure Faithful (os : Options) (v : View) : Prop where
  /-- a field holds the text under its key, and nothing only if the key is not there -/
  extract : os.get? Key.extract = v.extract.map .text
  name : os.get? Key.name = v.name.map .text
  category : os.get? Key.category = v.category.map .text
  group : os.get? Key.group = v.group.map .text
  wrap : os.get? Key.wrap = some (.wrap v.wrap)
  /-- all other options, whatever their keys, in order and with their values -/
  extra : v.extra = (os.filter fun o => o.1 ∉ ownKeys).map fun o => (.text o.1, o.2.toValue)
  isExtraction_iff : v.isExtraction = true ↔ Key.extract ∈ os.map (·.1)
  label : v.isExtraction = true → ∃ s, v.label = some s ∧
    (os.get? Key.name = some (.text s) ∨
      os.get? Key.name = none ∧ os.get? Key.extract = some (.text s))

theorem faithful_ofOptions {os : Options} (h : os.Declarable) : Faithful os (ofOptions os) := by
  have hextract := h.textAt_eq (k := Key.extract) (by decide)
  have hname := h.textAt_eq (k := Key.name) (by decide)
  obtain ⟨w, hw⟩ := h.wrap
  refine ⟨hextract, hname, h.textAt_eq (by decide), h.textAt_eq (by decide), ?_, rfl, ?_, ?_⟩
  · rw [hw, ofOptions, hw]
    rfl
  · rw [h.isExtraction_iff, ne_eq, get?_eq_none_iff, not_not]
  · intro hask
    rw [hname, hextract]
    rw [h.isExtraction_iff, hextract] at hask
    unfold label ofOptions
    cases textAt Key.name os with
    | some s => exact ⟨s, rfl, .inl rfl⟩
    | none =>
      cases htext : textAt Key.extract os with
      | some s => exact ⟨s, rfl, .inr ⟨rfl, rfl⟩⟩
      | none => exact absurd (by rw [htext]; rfl) hask

end Options.View

namespace Header

open Options (View last?)

/-- What becomes of a header text under defaults: options that are accepted and a view that tells them
all, or the fault of defaults that have no wrap where the text declares none. -/
structure Viewed (s : Text) (defaults : Value) : Prop where
  accepted : (DeclaresWrap s ∨ ∀ f, ¬NoWrap defaults f) →
    ∃ os v, (parse s defaults).result = .ok os ∧ View.read? os.toValue = .ok v ∧ View.Faithful os v
  refused_iff : ∀ f, (parse s defaults).result = .error f ↔ ¬DeclaresWrap s ∧ NoWrap defaults f

/-- **A view loses nothing,** for every header text and all defaults that have a wrap where one is
needed. -/
theorem viewed_parse (s : Text) (defaults : Value) : Viewed s defaults := by
  refine ⟨fun hwrap => ?_, fun f => result_parse_eq_error_iff⟩
  cases hparse : (parse s defaults).result with
  | error f =>
    obtain ⟨hno, hf⟩ := result_parse_eq_error_iff.1 hparse
    rcases hwrap with hdeclares | hnone
    · exact absurd hdeclares hno
    · exact absurd hf (hnone f)
  | ok os =>
    obtain ⟨w, rfl⟩ := exists_options_of_parse hparse
    have hdeclarable := declarable_options s w
    exact ⟨_, _, rfl, View.read?_toValue hdeclarable, View.faithful_ofOptions hdeclarable⟩

/-- Defaults whose wrap is an entry in which a map has a wrap for a key. -/
def unreadable : Value :=
  .map [(.text Key.wrap,
    ((Entry.blank .standard).set .usage (.list [.map [(.wrap .empty, .int 1)]])).toValue)]

/-- There are no options, and so no view of any, under such defaults. -/
theorem result_parse_unreadable :
    (parse "extract:a".toText unreadable).result = .error .unkeyable ∧
      ¬∃ os v, (parse "extract:a".toText unreadable).result = .ok os ∧
        View.read? os.toValue = .ok v := by
  have hno : ¬DeclaresWrap "extract:a".toText := by
    intro h
    obtain ⟨ms, hms, -⟩ := h
    have hnone : last? Key.wrap (read "extract:a".toText).assignments = none := by decide +kernel
    rw [hnone] at hms
    cases hms
  have hfault : (parse "extract:a".toText unreadable).result = .error .unkeyable :=
    result_parse_eq_error_iff.2 ⟨hno, .entry rfl rfl⟩
  refine ⟨hfault, fun h => ?_⟩
  obtain ⟨os, v, hos, -⟩ := h
  rw [hfault] at hos
  cases hos

end Header
end MarkupCatalog
