/-
Binary floating-point numbers of 64 bits as exact values: a sign, a whole number below 2^53 and a
power of two. `ofDecimal` is the number nearest to a decimal, a tie going to the even mantissa;
`read?` reads the written form of a decimal.
-/
import MarkupCatalog.Text.Blank
import MarkupCatalog.Text.Digit

namespace MarkupCatalog

/-- A number `± mantissa · 2^exponent`, an infinity, or no number. A finite one is held with the
least exponent from -1074 up for which its mantissa is below 2^53. -/
inductive Binary64 where
  | nan
  | infinity (negative : Bool)
  | finite (negative : Bool) (mantissa : Nat) (exponent : Int)
deriving DecidableEq, Repr

namespace Binary64

/-- `n · 2^e` as a fraction; `e` may be negative. -/
def scaled (base n d : Nat) (e : Int) : Nat × Nat :=
  if e < 0 then (n, d * base.pow (-e).toNat) else (n * base.pow e.toNat, d)

/-- The whole number nearest to a fraction; a tie goes to the even one. -/
def nearest (f : Nat × Nat) : Nat :=
  let q := f.1 / f.2
  let r := f.1 % f.2
  if 2 * r < f.2 then q else if f.2 < 2 * r then q + 1 else q + q % 2

def zero (negative : Bool) : Binary64 := .finite negative 0 (-1074)

/-- The number nearest to the positive fraction `n / d`. -/
def ofFraction (negative : Bool) (n d : Nat) : Binary64 :=
  let guess : Int := (n.log2 : Int) - d.log2 - 53
  let units (e : Int) : Nat × Nat := scaled 2 n d (-e)
  let e : Int := max (if (units guess).1 / (units guess).2 < Nat.pow 2 53 then guess else guess + 1)
    (-1074)
  let m := nearest (units e)
  let (m, e) := if m = Nat.pow 2 53 then (Nat.pow 2 52, e + 1) else (m, e)
  if 971 < e then .infinity negative else .finite negative m e

/-- The number nearest to `± digits · 10^exponent`. From 10^309 up that is an infinity, below
10^-324 it is zero, so that no larger power of ten is ever computed. -/
def ofDecimal (negative : Bool) (digits : Nat) (exponent : Int) : Binary64 :=
  let size : Int := (Nat.toDigits 10 digits).length + exponent
  if digits = 0 then zero negative
  else if 309 < size then .infinity negative
  else if size < -323 then zero negative
  else
    let f := scaled 10 digits 1 exponent
    ofFraction negative f.1 f.2

/-! ## Reading -/

/-- The text without the underscores that stand between two digits; `afterDigit` tells what comes
before it. -/
def ungrouped (afterDigit : Bool) : Text → Text
  | [] => []
  | [c] => [c]
  | c :: d :: s =>
    if c = '_' ∧ afterDigit ∧ (Text.digit? d).isSome then ungrouped false (d :: s)
    else c :: ungrouped (Text.digit? c).isSome (d :: s)

/-- The digits at the beginning of a text, and what follows them. -/
def digits : Text → List Nat × Text
  | [] => ([], [])
  | c :: s =>
    match Text.digit? c with
    | some d => (d :: (digits s).1, (digits s).2)
    | none => ([], c :: s)

/-- The number that has these decimal digits. -/
def ofDigits (ds : List Nat) : Nat := ds.foldl (fun n d => 10 * n + d) 0

/-- A sign at the beginning, and what follows it. -/
def sign : Text → Bool × Text
  | .char '-' :: s => (true, s)
  | .char '+' :: s => (false, s)
  | s => (false, s)

/-- The exponent that may end a decimal: `e` or `E`, a sign, and at least one digit. -/
def exponent? : Text → Option Int
  | [] => some 0
  | c :: s =>
    if c = 'e' ∨ c = 'E' then
      let (negative, s) := sign s
      match digits s with
      | ([], _) => none
      | (ds, []) => some (if negative then -(ofDigits ds : Int) else ofDigits ds)
      | _ => none
    else none

/-- A decimal without its sign: digits with at most one point among or beside them, and an exponent
that may follow. -/
def magnitude? (negative : Bool) (s : Text) : Option Binary64 :=
  let (whole, s) := digits s
  let (part, s) :=
    match s with
    | .char '.' :: s => digits s
    | s => ([], s)
  if whole.isEmpty && part.isEmpty then none
  else
    (exponent? s).map fun e => ofDecimal negative (ofDigits (whole ++ part)) (e - part.length)

/-- The number that a text writes: a decimal or the words `inf`, `infinity` and `nan` in any case,
with a sign before it and whitespace around it if need be. Digits may be grouped by single
underscores. -/
def read? (s : Text) : Option Binary64 :=
  let (negative, s) := sign (ungrouped false (Text.trim s))
  let word (w : String) : Bool := Text.afterWord? w.toText s = some []
  if word "inf" || word "infinity" then some (.infinity negative)
  else if word "nan" then some .nan
  else magnitude? negative s

example : read? "-0.0".toText = some (.finite true 0 (-1074)) := by decide
example : read? " 1_0.5e-1 ".toText = some (ofDecimal false 105 (-2)) := by decide
example : read? "1__0".toText = none ∧ read? ".".toText = none := by decide

/-! ## Comparing -/

/-- The number is a zero of either sign. -/
def isZero : Binary64 → Bool
  | .finite _ m _ => m = 0
  | _ => false

/-- The number equals an integer. -/
def eqInt (x : Binary64) (i : Int) : Bool :=
  match x with
  | .finite negative m e =>
    let f := scaled 2 m 1 e
    decide (f.1 = i.natAbs * f.2) && (m = 0 || negative == decide (i < 0))
  | _ => false

/-- The numbers are equal. The two zeros are, and what is no number equals nothing. -/
def eq (x y : Binary64) : Bool :=
  match x, y with
  | .nan, _ => false
  | _, .nan => false
  | x, y => x = y || (x.isZero && y.isZero)

end Binary64
end MarkupCatalog
