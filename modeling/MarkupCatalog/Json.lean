/-
JSON text, in the two layouts that the catalog uses: on one line with ASCII characters only, and
over several lines with every character as it is. Members of an object keep their order, and nothing
stops two of them from having the same key.
-/
import MarkupCatalog.Text.Digit
import MarkupCatalog.Text.Quoted

namespace MarkupCatalog

/-- A JSON document. Numbers are given as written. -/
inductive Json where
  | null
  | bool (b : Bool)
  | number (written : Text)
  | string (s : Text)
  | array (items : List Json)
  | object (members : List (Text × Json))
deriving Repr

namespace Json

/-- A code unit of 16 bits as an escape. -/
def unitEscape (n : Nat) : Text := .char '\\' :: .char 'u' :: Text.hex 4 n

/-- A character as an escape: above U+FFFF as two surrogates. -/
def escape (c : CodePoint) : Text :=
  let n := c.toNat
  if n < 0x10000 then unitEscape n
  else unitEscape (0xd800 + (n - 0x10000) / 0x400) ++ unitEscape (0xdc00 + (n - 0x10000) % 0x400)

/-- One character inside a string; `ascii` tells whether characters above ASCII are escaped. -/
def stringChar (ascii : Bool) (c : CodePoint) : Text :=
  if c = '"' ∨ c = '\\' then [.char '\\', c]
  else if c = '\n' then [.char '\\', .char 'n']
  else if c = '\r' then [.char '\\', .char 'r']
  else if c = '\t' then [.char '\\', .char 't']
  else if c = '\x08' then [.char '\\', .char 'b']
  else if c = '\x0c' then [.char '\\', .char 'f']
  else if c.toNat < 0x20 ∨ (ascii ∧ 0x7f ≤ c.toNat) then escape c
  else [c]

def quote (ascii : Bool) (s : Text) : Text := .char '"' :: s.flatMap (stringChar ascii) ++ [.char '"']

/-! ## On one line -/

mutual

/-- The document on one line, in ASCII, with a space after each comma and colon. -/
def compact : Json → Text
  | .null => "null".toText
  | .bool b => if b then "true".toText else "false".toText
  | .number written => written
  | .string s => quote true s
  | .array items => .char '[' :: Text.joined ", ".toText (compactItems items) ++ [.char ']']
  | .object members =>
    .char '\x7b' :: Text.joined ", ".toText (compactMembers members) ++ [.char '\x7d']

def compactItems : List Json → List Text
  | [] => []
  | j :: js => compact j :: compactItems js

def compactMembers : List (Text × Json) → List Text
  | [] => []
  | (k, j) :: ms => (quote true k ++ ": ".toText ++ compact j) :: compactMembers ms

end

/-! ## Over several lines -/

/-- A line break, and two spaces for each level. -/
def lineBreak (level : Nat) : Text := .char '\n' :: List.replicate (2 * level) ' '

/-- Parts between brackets, each on a line of its own; without parts nothing stands between. -/
def block (level : Nat) (opening closing : CodePoint) (parts : List Text) : Text :=
  if parts.isEmpty then [opening, closing]
  else
    opening :: lineBreak (level + 1) ++ Text.joined (.char ',' :: lineBreak (level + 1)) parts ++
      lineBreak level ++ [closing]

mutual

/-- The document over several lines, at a level of nesting. -/
def indented (level : Nat) : Json → Text
  | .null => "null".toText
  | .bool b => if b then "true".toText else "false".toText
  | .number written => written
  | .string s => quote false s
  | .array items => block level '[' ']' (indentedItems (level + 1) items)
  | .object members => block level '\x7b' '\x7d' (indentedMembers (level + 1) members)

def indentedItems (level : Nat) : List Json → List Text
  | [] => []
  | j :: js => indented level j :: indentedItems level js

def indentedMembers (level : Nat) : List (Text × Json) → List Text
  | [] => []
  | (k, j) :: ms => (quote false k ++ ": ".toText ++ indented level j) :: indentedMembers level ms

end

example : compact (.array [.string "é\n😀".toText, .null]) =
    "[\"\\u00e9\\n\\ud83d\\ude00\", null]".toText := by decide
example : indented 0 (.object [("a".toText, .array [.bool true]), ("b".toText, .array [])]) =
    "\x7b\n  \"a\": [\n    true\n  ],\n  \"b\": []\n\x7d".toText := by decide

end Json
end MarkupCatalog
