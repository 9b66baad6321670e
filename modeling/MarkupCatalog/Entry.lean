/-
Catalog entries. A field takes any value; callers that go by a field's type use the typed setters.
An entry is known by what its fields hold (`ext_get`), and setting a field changes that field alone
(`get_set_self`, `get_set_other`).
-/
import MarkupCatalog.Config
import MarkupCatalog.Value.Plain

namespace MarkupCatalog

/-- A catalog entry. -/
structure Entry where
  category : Value
  group : Value
  name : Value
  id : Value
  viewId : Value
  lines : Value
  fragment : Value
  view : Value
  template : Value
  options : Value
  optionsText : Value
  origin : Value
  resources : Value
  usage : Value
deriving Repr

namespace Entry

/-- The entry before anything is known of it. -/
def blank (settings : Settings) : Entry where
  category := .text settings.category
  group := .text []
  name := .text []
  id := .text []
  viewId := .text []
  lines := .list []
  fragment := .text []
  view := .text []
  template := .text []
  options := .map []
  optionsText := .text []
  origin := .text []
  resources := .map Config.noResources
  usage := .list []

/-! ## Fields -/

/-- What a field holds. -/
def get (e : Entry) : Field → Value
  | .category => e.category
  | .group => e.group
  | .name => e.name
  | .id => e.id
  | .viewId => e.viewId
  | .lines => e.lines
  | .fragment => e.fragment
  | .view => e.view
  | .template => e.template
  | .options => e.options
  | .optionsText => e.optionsText
  | .origin => e.origin
  | .resources => e.resources
  | .usage => e.usage

/-- The entry with a value in a field. -/
def set (e : Entry) (f : Field) (v : Value) : Entry :=
  match f with
  | .category => { e with category := v }
  | .group => { e with group := v }
  | .name => { e with name := v }
  | .id => { e with id := v }
  | .viewId => { e with viewId := v }
  | .lines => { e with lines := v }
  | .fragment => { e with fragment := v }
  | .view => { e with view := v }
  | .template => { e with template := v }
  | .options => { e with options := v }
  | .optionsText => { e with optionsText := v }
  | .origin => { e with origin := v }
  | .resources => { e with resources := v }
  | .usage => { e with usage := v }

theorem get_set_self (e : Entry) (f : Field) (v : Value) : (e.set f v).get f = v := by
  cases f <;> rfl

theorem get_set_other {f g : Field} (h : g ≠ f) (e : Entry) (v : Value) :
    (e.set f v).get g = e.get g := by
  cases f <;> cases g <;> first | rfl | exact absurd rfl h

theorem ext_get {e e' : Entry} (h : ∀ f, e.get f = e'.get f) : e = e' := by
  cases e
  cases e'
  simp only [mk.injEq]
  exact ⟨h .category, h .group, h .name, h .id, h .viewId, h .lines, h .fragment, h .view,
    h .template, h .options, h .optionsText, h .origin, h .resources, h .usage⟩

/-- The fields under their keys, in order. -/
def pairs (e : Entry) : Pairs := Field.all.map fun f => (.text f.key, e.get f)

/-- The entry as a value. -/
def toValue (e : Entry) : Value := .entry e.pairs

/-- The entry as plain data. -/
def plain? (e : Entry) : Except Fault Pairs := Value.plainPairs? e.pairs

/-! ## Building and changing -/

/-- The entry with each field that a map names. Keys that name no field are passed over. -/
def ofPairs (settings : Settings) (ps : Pairs) : Entry :=
  Field.all.foldl
    (fun e f =>
      match Pairs.get? f.key ps with
      | some v => e.set f v
      | none => e)
    (blank settings)

/-- The entry that a value stands for: a map, or anything that does not count as given. -/
def ofValue? (settings : Settings) (v : Value) : Except Fault Entry :=
  if v.isGiven then
    match v with
    | .map ps => .ok (ofPairs settings ps)
    | v => .error (.noMember v.kind .items)
  else .ok (blank settings)

/-- The field that a value names: a field itself, or a text that is the key of one. -/
def fieldOf? : Value → Option Field
  | .str (.field f) => some f
  | .str (.text k) => Field.ofKey? k
  | _ => none

/-- The entry with a value in the field that `name` names, if it names one. -/
def setNamed? (e : Entry) (name v : Value) : Option Entry := (fieldOf? name).map (e.set · v)

/-- The fields that can be set by type. -/
inductive Typed where
  | category | group | name | origin | resources | usage
deriving DecidableEq, Repr

def Typed.field : Typed → Field
  | .category => .category
  | .group => .group
  | .name => .name
  | .origin => .origin
  | .resources => .resources
  | .usage => .usage

/-- The kind of values that the field takes when it is set by type. -/
def Typed.kind : Typed → Value.Kind
  | .category | .group | .name | .origin => .text
  | .resources => .map
  | .usage => .list

/-- The value is of a kind; a field counts as a text. -/
def hasKind (v : Value) (expected : Value.Kind) : Bool :=
  v.kind = expected || (v.kind = .field && expected = .text)

/-- The entry with a value in a field that takes values of its kind only. -/
def setTyped? (e : Entry) (t : Typed) (v : Value) : Except Fault Entry :=
  if hasKind v t.kind then .ok (e.set t.field v)
  else .error (.wrongKind t.field t.kind v.kind)

end Entry
end MarkupCatalog
