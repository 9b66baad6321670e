/-
The written form of a binary floating-point number: the fewest decimal digits that read back as
the same number, and of those digits the ones nearest to it.
-/
import MarkupCatalog.Number.Binary64

namespace MarkupCatalog.Binary64

/-- The exponent `k` with `10^(k-1) ≤ n / d < 10^k`, for a positive fraction: one of five candidates
around the estimate that the powers of two give. -/
def decimalExponent (n d : Nat) : Int :=
  let low : Int := ((n.log2 : Int) - d.log2 - 1) * 30103 / 100000 - 1
  let below (k : Int) : Bool :=
    let f := scaled 10 1 1 k
    n * f.2 < d * f.1
  (([0, 1, 2, 3].map (low + ·)).find? below).getD (low + 4)

/-- The `count`-digit decimal nearest to `n / d` among the two neighbours of it that read back as
`x`, as a whole number of units `10^(k - count)`; a tie goes to the even one. -/
def neighbour? (x : Binary64) (n d : Nat) (k : Int) (count : Nat) : Option Nat :=
  let f := scaled 10 n d (count - k)
  let q := f.1 / f.2
  let readsBack (c : Nat) : Bool := ofDecimal false c (k - count) = x
  match readsBack q, readsBack (q + 1) with
  | true, true => some (nearest f)
  | true, false => some q
  | false, true => some (q + 1)
  | false, false => none

/-- The shortest digits of the positive number `m · 2^e`, and the exponent `p` for which the number
reads `0.digits · 10^p`. Seventeen digits always read back. -/
def shortest (m : Nat) (e : Int) : Text × Int :=
  let f := scaled 2 m 1 e
  let k := decimalExponent f.1 f.2
  let found := (List.range 17).findSome? fun i =>
    (neighbour? (.finite false m e) f.1 f.2 k (i + 1)).map fun c => (c, k - (i + 1))
  let (c, unit) := found.getD (0, 0)
  let ds := Text.ofNat c
  ((ds.reverse.dropWhile (· == .char '0')).reverse, ds.length + unit)

/-- A number with these digits and this exponent, as `shortest` gives them: positional from 0.0001 up
to below 10^16, with at least one digit on each side of the point; else one digit before the point,
and an exponent with its sign and at least two digits. -/
def layOut (ds : Text) (p : Int) : Text :=
  if -4 < p ∧ p ≤ 0 then "0.".toText ++ List.replicate (-p).toNat (.char '0') ++ ds
  else if 0 < p ∧ p ≤ 16 then
    if ds.length ≤ p.toNat then ds ++ List.replicate (p.toNat - ds.length) (.char '0') ++ ".0".toText
    else ds.take p.toNat ++ .char '.' :: ds.drop p.toNat
  else
    let power := Text.ofNat (p - 1).natAbs
    let power := if power.length < 2 then .char '0' :: power else power
    let mantissa := if ds.length ≤ 1 then ds else ds.take 1 ++ .char '.' :: ds.drop 1
    mantissa ++ [.char 'e', if p - 1 < 0 then .char '-' else .char '+'] ++ power

/-- How the three values that are no finite number are written. -/
structure Names where
  nan : Text
  infinity : Text

/-- The number in its shortest form. -/
def write (names : Names) : Binary64 → Text
  | .nan => names.nan
  | .infinity negative => if negative then .char '-' :: names.infinity else names.infinity
  | .finite negative m e =>
    let digits :=
      if m = 0 then "0.0".toText
      else
        let (ds, p) := shortest m e
        layOut ds p
    if negative then .char '-' :: digits else digits

/-- The names in messages and in the text of values. -/
def Names.plain : Names := ⟨"nan".toText, "inf".toText⟩

/-- The names in JSON text. -/
def Names.json : Names := ⟨"NaN".toText, "Infinity".toText⟩

end MarkupCatalog.Binary64
