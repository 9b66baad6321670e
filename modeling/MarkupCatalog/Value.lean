/-
Values: what callers hand over as a configuration, as an option or as the content of a field. They
are plain data, the library's own records, and three things that are no data at all. Those three
stand for one sort of object each, and what an object of any other type can do (refuse to be copied
or to be a key, compare equal to something else, show a text of its own) is not described here. A map
keeps its pairs in order; `Value.ofPairs` builds one from pairs in which keys may repeat.
-/
import MarkupCatalog.Number.Binary64
import MarkupCatalog.Wrap

namespace MarkupCatalog

/-- A value as a caller may give it. -/
inductive Value where
  | null
  | bool (b : Bool)
  | int (i : Int)
  | float (x : Binary64)
  /-- a text, or a field given for its key -/
  | str (l : Label)
  | list (items : List Value)
  | tuple (items : List Value)
  | map (pairs : List (Value × Value))
  | wrap (w : Wrap)
  /-- a catalog entry: its fields by key, in order -/
  | entry (fields : List (Value × Value))
  /-- a configuration -/
  | config (indent origin : Text) (resources : List (Value × Value)) (wrap templateWrap : Wrap)
  /-- a function defined by the caller: it can be a key that is equal to no other key, it has no plain
  or JSON form, and a copy of it is the function itself. Its text would name its place in memory; here
  it is `<function>`. -/
  | function
  /-- the type of wraps, in place of a wrap -/
  | wrapType
  /-- an object of the type that all others derive from, with neither fields nor items: it can be a
  key that is equal to no other key, it has no plain or JSON form, and a copy of it is another such
  object, which nothing tells from it. Its text would name its place in memory; here it is
  `<object>`. -/
  | object
deriving Repr

/-- The pairs of a map. -/
abbrev Pairs := List (Value × Value)

namespace Value

/-- Plain text as a value. -/
@[match_pattern] abbrev text (s : Text) : Value := .str (.text s)

/-- A list of texts as a value. -/
def texts (ss : List Text) : Value := .list (ss.map text)

/-! ## Kinds -/

/-- What sort of thing a value is. -/
inductive Kind where
  | null | bool | int | float | text | field | list | tuple | map | wrap | entry | config
  | function | type | object
deriving DecidableEq, Repr

/-- The name of a kind in messages. -/
def Kind.name : Kind → Text
  | .null => "NoneType".toText
  | .bool => "bool".toText
  | .int => "int".toText
  | .float => "float".toText
  | .text => "str".toText
  | .field => "EntryField".toText
  | .list => "list".toText
  | .tuple => "tuple".toText
  | .map => "dict".toText
  | .wrap => "WrapPair".toText
  | .entry => "CatalogEntry".toText
  | .config => "ProcessorConfig".toText
  | .function => "function".toText
  | .type => "type".toText
  | .object => "object".toText

def kind : Value → Kind
  | .null => .null
  | .bool _ => .bool
  | .int _ => .int
  | .float _ => .float
  | .str (.text _) => .text
  | .str (.field _) => .field
  | .list _ => .list
  | .tuple _ => .tuple
  | .map _ => .map
  | .wrap _ => .wrap
  | .entry _ => .entry
  | .config .. => .config
  | .function => .function
  | .wrapType => .type
  | .object => .object

/-- The value counts as given: it is neither nothing, false, zero, nor empty. -/
def isGiven : Value → Bool
  | .null => false
  | .bool b => b
  | .int i => i ≠ 0
  | .float x => !x.isZero
  | .str l => !l.content.isEmpty
  | .list items => !items.isEmpty
  | .tuple items => !items.isEmpty
  | .map pairs => !pairs.isEmpty
  | .wrap w => w.isSet
  | _ => true

/-! ## Keys -/

mutual

/-- Two keys that a map does not tell apart: equal texts, however given, and equal numbers, truth
values counting as 0 and 1. -/
def sameKey : Value → Value → Bool
  | .str l, .str m => l.content = m.content
  | .null, .null => true
  | .wrapType, .wrapType => true
  | .wrap v, .wrap w =>
    v.before.content = w.before.content && v.after.content = w.after.content
  | .tuple xs, .tuple ys => sameKeys xs ys
  | .float x, .float y => x.eq y
  | .float x, .int i => x.eqInt i
  | .float x, .bool b => x.eqInt b.toInt
  | .int i, .float x => x.eqInt i
  | .bool b, .float x => x.eqInt b.toInt
  | .int i, .int j => i = j
  | .int i, .bool b => i = b.toInt
  | .bool b, .int i => i = b.toInt
  | .bool b, .bool c => b = c
  | _, _ => false

/-- Two lists of keys that are the same one by one. -/
def sameKeys : List Value → List Value → Bool
  | [], [] => true
  | x :: xs, y :: ys => sameKey x y && sameKeys xs ys
  | _, _ => false

end

theorem sameKey_text (l : Label) (k : Text) :
    sameKey (.str l) (.text k) = decide (l.content = k) := rfl

end Value

namespace Pairs

/-- The pairs with `value` under `key`: in the place of that key if it is there, else at the end. -/
def put (key value : Value) : Pairs → Pairs
  | [] => [(key, value)]
  | p :: ps => if p.1.sameKey key then (p.1, value) :: ps else p :: put key value ps

/-- Pairs in which keys may repeat, as a map: each key stands where it came first, with the value
that came last. -/
def ofList (ps : List (Value × Value)) : Pairs := ps.foldl (fun m p => put p.1 p.2 m) []

/-- The value under a key that is a text, however the key was given. -/
def get? (key : Text) (ps : Pairs) : Option Value :=
  (ps.find? fun p => p.1.sameKey (.text key)).map (·.2)

end Pairs

/-- A map from pairs in which keys may repeat. -/
def Value.ofPairs (ps : List (Value × Value)) : Value := .map (Pairs.ofList ps)

end MarkupCatalog
