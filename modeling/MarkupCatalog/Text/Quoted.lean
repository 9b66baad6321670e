/-
Quoted literals: a text as it is shown in messages and inside lists. Single quotes are the rule;
double quotes take over when the text holds a single quote and no double one. A backslash, the
quote in use and every character that is not printable are escaped.
-/
import MarkupCatalog.Text.Printable

namespace MarkupCatalog.Text

/-- The digit of a hexadecimal number, in small letters. -/
def hexDigit (n : Nat) : CodePoint := "0123456789abcdef".toText.getD n '0'

/-- The last `width` hexadecimal digits of a number. -/
def hex : (width : Nat) → (n : Nat) → Text
  | 0, _ => []
  | width + 1, n => hex width (n / 16) ++ [hexDigit (n % 16)]

/-- One character between the quotes `quote`: line feed, carriage return and tab have an escape of
their own, other characters that are not printable are given by code point, in the shortest of
three widths. -/
def quotedChar (quote c : CodePoint) : Text :=
  if c = quote ∨ c = '\\' then [.char '\\', c]
  else if c = '\n' then [.char '\\', .char 'n']
  else if c = '\r' then [.char '\\', .char 'r']
  else if c = '\t' then [.char '\\', .char 't']
  else if isPrintable c then [c]
  else if c.toNat < 0x100 then .char '\\' :: .char 'x' :: hex 2 c.toNat
  else if c.toNat < 0x10000 then .char '\\' :: .char 'u' :: hex 4 c.toNat
  else .char '\\' :: .char 'U' :: hex 8 c.toNat

/-- The text with each surrogate given by its code point. -/
def legible (s : Text) : Text :=
  s.flatMap fun c => if c.isChar then [c] else .char '\\' :: .char 'u' :: hex 4 c.toNat

/-- The quote that a literal of this text is written with. -/
def quoteFor (s : Text) : CodePoint :=
  if .char '\'' ∈ s ∧ .char '"' ∉ s then .char '"' else .char '\''

/-- The text as a quoted literal. -/
def quoted (s : Text) : Text :=
  let quote := quoteFor s
  quote :: s.flatMap (quotedChar quote) ++ [quote]

example : quoted "it's".toText = "\"it's\"".toText := by decide +kernel
example : quoted "a\n\"'\u200b".toText = "'a\\n\"\\'\\u200b'".toText := by decide +kernel

end MarkupCatalog.Text
