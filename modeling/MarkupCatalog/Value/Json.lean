/-
Values as JSON documents. Plain data has a JSON form of its own; a record, and what is no data at
all, becomes a string with the value's text. Only the keys of a map can be at fault.
-/
import MarkupCatalog.Fault
import MarkupCatalog.Json
import MarkupCatalog.Value.Literal

namespace MarkupCatalog.Value

/-- The key of an object member for a key of a map. -/
def jsonKey? : Value → Except Fault Text
  | .null => .ok "null".toText
  | .bool b => .ok (if b then "true".toText else "false".toText)
  | .int i => .ok (Text.ofInt i)
  | .float x => .ok (x.write .json)
  | .str l => .ok l.content
  | v => .error (.badKey v.kind)

mutual

/-- The JSON form of a value. -/
def json? : Value → Except Fault Json
  | .null => .ok .null
  | .bool b => .ok (.bool b)
  | .int i => .ok (.number (Text.ofInt i))
  | .float x => .ok (.number (x.write .json))
  | .str l => .ok (.string l.content)
  | .list items => (jsonItems? items).map .array
  | .tuple items => (jsonItems? items).map .array
  | .map pairs => (jsonMembers? pairs).map .object
  | v => .ok (.string v.display)

def jsonItems? : List Value → Except Fault (List Json)
  | [] => .ok []
  | v :: vs => do
    let j ← json? v
    return j :: (← jsonItems? vs)

def jsonMembers? : List (Value × Value) → Except Fault (List (Text × Json))
  | [] => .ok []
  | (k, v) :: ps => do
    let key ← jsonKey? k
    let j ← json? v
    return (key, j) :: (← jsonMembers? ps)

end

theorem json?_texts (ss : List Text) : json? (texts ss) = .ok (.array (ss.map .string)) := by
  have items : jsonItems? (ss.map text) = .ok (ss.map .string) := by
    induction ss with
    | nil => rfl
    | cons s ss ih => simp [jsonItems?, json?, ih, bind, Except.bind, pure, Except.pure, Label.content]
  simp [texts, json?, items, Except.map]

end MarkupCatalog.Value
