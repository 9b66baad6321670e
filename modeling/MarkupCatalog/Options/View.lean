/-
The options with a meaning of their own, by name, and all others as they are. `ofOptions` looks at
the options of a header; `read?` reads the same view from any value and tells everything that
is wrong in it.
-/
import MarkupCatalog.Options
import MarkupCatalog.Record
import MarkupCatalog.Wrap.Reading

namespace MarkupCatalog.Options

/-- A view of the options of a block. -/
structure View where
  extract : Option Text
  name : Option Text
  category : Option Text
  group : Option Text
  wrap : Wrap
  /-- the options without a meaning of their own, in order -/
  extra : Pairs
deriving Repr

namespace View

/-- The block is to become an entry. -/
def isExtraction (v : View) : Bool := v.extract.isSome

/-- What the block is called: its name, else the path that it is extracted to. -/
def label (v : View) : Option Text := v.name <|> v.extract

/-- The keys with a meaning of their own. -/
def ownKeys : List Text := [Key.extract, Key.name, Key.category, Key.group, Key.wrap]

/-! ## Looking at options -/

/-- The text under a key. -/
def textAt (k : Text) (os : Options) : Option Text :=
  match os.get? k with
  | some (.text s) => some s
  | _ => none

def ofOptions (os : Options) : View where
  extract := textAt Key.extract os
  name := textAt Key.name os
  category := textAt Key.category os
  group := textAt Key.group os
  wrap := ((os.get? Key.wrap).map Setting.toWrap).getD .empty
  extra := (os.filter fun o => o.1 ∉ ownKeys).map fun o => (.text o.1, o.2.toValue)

/-! ## Reading from a value -/

/-- A text that may be missing, or nothing in its place. -/
def text? (ps : Pairs) (k : Text) : Except (List Problem) (Option Text) :=
  match Pairs.get? k ps with
  | none | some .null => .ok none
  | some v => (Record.text? k v).map some

/-- A pair whose key has no meaning of its own. -/
def isExtra (p : Value × Value) : Bool := ownKeys.all fun k => !p.1.sameKey (.text k)

/-- The view that a value gives. A key that holds surrogates is told of alone. -/
def read? : Value → Except Fault View
  | .map ps => do
    let texts := [Key.extract, Key.name, Key.category, Key.group].map (text? ps)
    let wrap ← Wrap.ofValue? ((Pairs.get? Key.wrap ps).getD (.wrap .empty))
    if Record.hasUnicodeFault ps then throw (.invalid [⟨[], .noUnicode⟩])
    match texts, Record.keyProblems (fun k => ⟨[k], .noTextKey⟩) ps with
    | [.ok extract, .ok name, .ok category, .ok group], [] =>
      .ok ⟨extract, name, category, group, wrap, Record.textPairs (ps.filter isExtra)⟩
    | _, problems => .error (.invalid (texts.flatMap Record.problems ++ problems))
  | _ => .error (.invalid [⟨[], .noRecord .blockOptions⟩])

end View
end MarkupCatalog.Options
