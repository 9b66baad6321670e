/-
Plain data: a value in which every wrap and every entry, at any depth of lists, tuples and maps, is
written as a map. A key of a map is written so too, and where that makes it a map it can be no key.
-/
import MarkupCatalog.Fault

namespace MarkupCatalog

/-- A wrap as a map of its two sides. -/
def Wrap.pairs (w : Wrap) : Pairs :=
  [(.text Wrap.beforeKey, .str w.before), (.text Wrap.afterKey, .str w.after)]

namespace Value

mutual

/-- A value that can be a key: it is no list, map or entry, and has none inside. -/
def isKeyable : Value → Bool
  | .list _ | .map _ | .entry _ | .config .. => false
  | .tuple items => areKeyable items
  | _ => true

def areKeyable : List Value → Bool
  | [] => true
  | v :: vs => isKeyable v && areKeyable vs

end

mutual

/-- The value as plain data. -/
def plain? : Value → Except Fault Value
  | .wrap w => .ok (.map w.pairs)
  | .list items => (plainItems? items).map .list
  | .tuple items => (plainItems? items).map .tuple
  | .map pairs => (plainPairs? pairs).map .map
  | .entry fields => (plainPairs? fields).map .map
  | v => .ok v

def plainItems? : List Value → Except Fault (List Value)
  | [] => .ok []
  | v :: vs => do
    let item ← plain? v
    return item :: (← plainItems? vs)

def plainPairs? : List (Value × Value) → Except Fault (List (Value × Value))
  | [] => .ok []
  | (k, v) :: ps => do
    let key ← plain? k
    let value ← plain? v
    let rest ← plainPairs? ps
    if key.isKeyable then return (key, value) :: rest else throw .unkeyable

end

end Value
end MarkupCatalog
