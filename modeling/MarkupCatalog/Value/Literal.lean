/-
The text of values: `literal` shows a value as it stands inside another one, `display` as it stands
alone. They differ for texts, which stand alone without quotes, and for configurations.
-/
import MarkupCatalog.Number.Shortest
import MarkupCatalog.Text.Quoted
import MarkupCatalog.Value

namespace MarkupCatalog

/-- A field as it stands inside another value: its symbol and its key. -/
def Field.literal (f : Field) : Text :=
  .char '<' :: f.symbol ++ ": ".toText ++ Text.quoted f.key ++ [.char '>']

def Label.literal : Label → Text
  | .text s => Text.quoted s
  | .field f => f.literal

/-- A label as it stands alone: a field is shown by its symbol. -/
def Label.display : Label → Text
  | .text s => s
  | .field f => f.symbol

namespace Value

/-- Items with commas between them. -/
def commas (items : List Text) : Text := Text.joined ", ".toText items

/-- A map: its pairs between braces. -/
def braced (pairs : List (Text × Text)) : Text :=
  .char '\x7b' :: commas (pairs.map fun p => p.1 ++ ": ".toText ++ p.2) ++ [.char '\x7d']

/-- Fields, each with its name before its value. -/
def named (fields : List (Text × Text)) : List Text := fields.map fun f => f.1 ++ .char '=' :: f.2

/-- A record: its name, and its fields with their values. -/
def record (name : String) (fields : List (Text × Text)) : Text :=
  name.toText ++ .char '(' :: commas (named fields) ++ [.char ')']

end Value

def Wrap.literal (w : Wrap) : Text :=
  Value.record "WrapPair"
    [(Wrap.beforeKey, w.before.literal), (Wrap.afterKey, w.after.literal)]

namespace Value

/-- The fields of a configuration, by name. -/
def configFields (indent origin : Text) (resources : List (Text × Text)) (w t : Wrap) :
    List (Text × Text) :=
  [("indent".toText, Text.quoted indent), ("origin".toText, Text.quoted origin),
   ("resources".toText, braced resources), ("wrap".toText, w.literal),
   ("template_wrap".toText, t.literal)]

mutual

/-- The value as it stands inside another one. -/
def literal : Value → Text
  | .null => "None".toText
  | .bool b => if b then "True".toText else "False".toText
  | .int i => Text.ofInt i
  | .float x => x.write .plain
  | .str l => l.literal
  | .list items => .char '[' :: commas (literals items) ++ [.char ']']
  | .tuple [item] => .char '(' :: literal item ++ ",)".toText
  | .tuple items => .char '(' :: commas (literals items) ++ [.char ')']
  | .map pairs => braced (literalPairs pairs)
  | .wrap w => w.literal
  | .entry fields => record "CatalogEntry" (fieldPairs fields)
  | .config indent origin resources w t =>
    record "ProcessorConfig" (configFields indent origin (literalPairs resources) w t)
  | .function => "<function>".toText
  | .wrapType => "<class 'inventory.wrap.WrapPair'>".toText
  | .object => "<object>".toText

def literals : List Value → List Text
  | [] => []
  | v :: vs => literal v :: literals vs

def literalPairs : List (Value × Value) → List (Text × Text)
  | [] => []
  | (k, v) :: ps => (literal k, literal v) :: literalPairs ps

/-- The fields of an entry with their values; a field is named without quotes. -/
def fieldPairs : List (Value × Value) → List (Text × Text)
  | [] => []
  | (.str l, v) :: ps => (l.content, literal v) :: fieldPairs ps
  | (_, _) :: ps => fieldPairs ps

end

/-- The value as it stands alone. -/
def display : Value → Text
  | .str l => l.display
  | .config indent origin resources w t =>
    Text.joined [.char ' '] (named (configFields indent origin (literalPairs resources) w t))
  | v => literal v

end Value
end MarkupCatalog
