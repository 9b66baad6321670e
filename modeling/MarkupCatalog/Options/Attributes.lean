/-
Options as markup attributes: `data-<key>="<value>"`, one after the other. A list is written as JSON
text, and a wrap as two attributes. No value holds a double quote, nor a quote of either kind at its
ends (`quote_not_mem_value`), so that an attribute ends where it is meant to end.
-/
import MarkupCatalog.Options
import MarkupCatalog.Value.Json
import MarkupCatalog.Wrap.Reading

namespace MarkupCatalog.Attributes

def isQuote (c : CodePoint) : Bool := c == '"' || c == '\''

/-- The value of an attribute for a text: without quotes at its ends, and with single quotes for the
double quotes inside. -/
def value (s : Text) : Text :=
  (Text.dropTrailing isQuote (s.dropWhile isQuote)).map fun c => if c = .char '"' then .char '\'' else c

theorem quote_not_mem_value (s : Text) : .char '"' ∉ value s := by
  intro h
  obtain ⟨c, -, hc⟩ := List.mem_map.1 h
  by_cases h : c = '"' <;> simp_all

/-- An attribute from a key and a text. -/
def written (a : Text × Text) : Text :=
  "data-".toText ++ a.1 ++ "=\"".toText ++ value a.2 ++ [.char '"']

/-- Attributes with a space between each two of them. -/
def render (as : List (Text × Text)) : Text := Text.joined [.char ' '] (as.map written)

/-- The two attributes of a wrap. -/
def ofWrap (w : Wrap) : List (Text × Text) :=
  [("wrap-before".toText, w.before.content), ("wrap-after".toText, w.after.content)]

/-! ## Of the options of a header -/

/-- The text of an option. -/
def settingText : Setting → Text
  | .text s => s
  | .parts ps => Json.compact (.array (ps.map .string))
  | .wrap w => Json.compact (.string w.literal)

/-- The attributes of an option. -/
def ofOption (o : Text × Setting) : List (Text × Text) :=
  if o.1 = Key.wrap then ofWrap o.2.toWrap else [(o.1, settingText o.2)]

/-- The options as markup attributes. -/
def ofOptions (os : Options) : Text := render (os.flatMap ofOption)

/-! ## Of any value -/

/-- A value that could be called, and is no option. -/
def isCallable : Value → Bool
  | .function | .wrapType => true
  | _ => false

/-- The text of a value: a text is its own, all else is written as JSON. -/
def valueText? : Value → Except Fault Text
  | .str l => .ok l.content
  | v => v.json?.map Json.compact

/-- The attributes of one pair of a map. -/
def ofPair? (p : Value × Value) : Except Fault (List (Text × Text)) :=
  if p.1.sameKey (.text Key.wrap) then (Wrap.ofValue? p.2).map ofWrap
  else if isCallable p.2 then .ok []
  else (valueText? p.2).map fun s => [(p.1.display, s)]

/-- The attributes of the pairs of a map, in order; the first fault ends them. -/
def ofPairs? : Pairs → Except Fault (List (Text × Text))
  | [] => .ok []
  | p :: ps => do
    let as ← ofPair? p
    return as ++ (← ofPairs? ps)

/-- A value as markup attributes: a map by its pairs, all else as none. -/
def ofValue? : Value → Except Fault Text
  | .map ps => (ofPairs? ps).map render
  | _ => .ok []

end MarkupCatalog.Attributes
