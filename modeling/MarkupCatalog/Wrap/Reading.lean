/-
The wrap that a value stands for. Text stands on both sides; a list and a map give the sides by
their first two values; an entry counts as the map of its fields. What has no shape of that sort
stands for the empty wrap, so reading fails only where an entry has no plain form.
-/
import MarkupCatalog.Value.Literal
import MarkupCatalog.Value.Plain

namespace MarkupCatalog

/-- One side of a wrap: nothing is the empty side, and what is no text is shown as text. -/
def Label.ofValue : Value → Label
  | .null => .text []
  | .str l => l
  | v => .text v.display

namespace Wrap

/-- A wrap from the items of a list. A single item stands on both sides. -/
def ofItems : List Value → Wrap
  | [] => .empty
  | [v] => .both (.ofValue v)
  | v :: w :: _ => ⟨.ofValue v, .ofValue w⟩

/-- A wrap from the values of a map. A second side that is missing or empty repeats the first. -/
def ofRecord : List Value → Wrap
  | [] => .empty
  | [v] => .both (.ofValue v)
  | v :: w :: _ =>
    let before := Label.ofValue v
    let after := Label.ofValue w
    ⟨before, if after.content.isEmpty then before else after⟩

/-- The wrap that a value stands for. -/
def ofValue? : Value → Except Fault Wrap
  | .wrap w => .ok w
  | .str l => .ok (if l.content.isEmpty then .empty else .both (.text l.display))
  | .int i => .ok (.both (.text (Text.ofInt i)))
  | .float x => .ok (.both (.text (x.write .plain)))
  | .list items => .ok (ofItems items)
  | .tuple items => .ok (ofItems items)
  | .map pairs => .ok (ofRecord (pairs.map (·.2)))
  | .entry fields => (Value.plainPairs? fields).map fun ps => ofRecord (ps.map (·.2))
  | _ => .ok .empty

end Wrap
end MarkupCatalog
