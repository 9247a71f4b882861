import VocabPhp.Number.Binary64

/-!
# The shortest decimal text of a number

The text of a binary64 number has the fewest significant digits that read back as the number, and of
those the nearest to its value (a tie goes to the even digit). It always has a fraction digit, or an
exponent.

* `Decimal.shortest`: the digits, as a multiple of a power of ten.
* `Decimal.text`: positional notation from `0.00001` up to sixteen digits before the point, and an
  exponent without plus sign or leading zeros outside that range.
-/

namespace VocabPhp

/-- A decimal number `digits * 10 ^ exponent`. -/
structure Decimal where
  digits : Nat
  exponent : Int
  deriving DecidableEq, Repr

namespace Decimal

/-- The number of decimal digits of a natural number. -/
def digitCount (n : Nat) : Nat := (Nat.toDigits 10 n).length

/-- The exponent of the first significant digit of the quotient of two positive numbers. -/
def leadingExponent (num den : Nat) : Int :=
  if den ≤ num then digitCount (num / den) - 1 else -(digitCount ((den - 1) / num) : Int)

/-- The reals that round to a number, with the number itself, in quarters of its last place. -/
structure Interval where
  low : Nat
  middle : Nat
  high : Nat
  withEnds : Bool

/-- The interval of a positive number. Below a power of two the neighbouring numbers lie closer. -/
def intervalOf (x : Binary64) : Interval :=
  let m := 4 * x.significand
  let closer := x.significand = Binary64.leastNormal ∧ Binary64.minExponent < x.exponent
  ⟨if closer then m - 1 else m - 2, m, m + 2, x.significand % 2 = 0⟩

/-- The better one of the two multiples of `10 ^ g` next to a number, if one of them reads back. -/
def onGrid? (x : Binary64) (g : Int) : Option Decimal :=
  let i := intervalOf x
  let scale := powerOfTen (-g).toNat <<< x.exponent.toNat
  let den := 4 * powerOfTen g.toNat <<< (-x.exponent).toNat
  let v := i.middle * scale
  let c := v / den
  let inside (n : Nat) : Bool :=
    if i.withEnds then i.low * scale ≤ n && n ≤ i.high * scale
    else i.low * scale < n && n < i.high * scale
  let below := c ≠ 0 && inside (c * den)
  let above := inside ((c + 1) * den)
  if below && above then
    let down := v - c * den
    let up := (c + 1) * den - v
    some ⟨if down < up || (down = up && c % 2 = 0) then c else c + 1, g⟩
  else if below then some ⟨c, g⟩
  else if above then some ⟨c + 1, g⟩
  else none

/-- The number without zeros at the end of its digits. -/
def normalize (d : Decimal) : Decimal :=
  if d.digits ≠ 0 ∧ d.digits % 10 = 0 then normalize ⟨d.digits / 10, d.exponent + 1⟩ else d
termination_by d.digits
decreasing_by omega

/-- The shortest decimal number that reads back as a positive binary64 number, and of those the
nearest. Seventeen digits always read back. -/
def shortest (x : Binary64) : Decimal :=
  let k := leadingExponent x.quotient.1 x.quotient.2
  let found := (List.range 17).findSome? fun (n : Nat) => onGrid? x (k - (n : Int))
  normalize (found.getD ⟨x.significand, x.exponent⟩)

/-- The text of a decimal number without trailing zeros in its digits. -/
def text (d : Decimal) : String :=
  let ds := Nat.toDigits 10 d.digits
  let point : Int := ds.length + d.exponent
  let zeros (n : Nat) := List.replicate n '0'
  let chars :=
    if 0 ≤ d.exponent ∧ point ≤ 16 then ds ++ zeros d.exponent.toNat ++ ['.', '0']
    else if 0 < point ∧ point ≤ 16 then ds.take point.toNat ++ '.' :: ds.drop point.toNat
    else if -5 < point ∧ point ≤ 0 then '0' :: '.' :: zeros (-point).toNat ++ ds
    else
      ds.take 1 ++ (if ds.length = 1 then [] else '.' :: ds.drop 1) ++
        'e' :: (toString (point - 1)).toList
  String.ofList chars

end Decimal

/-- The text of a binary64 number: its sign and its shortest decimal text. -/
def Binary64.text (x : Binary64) : String :=
  (if x.negative then "-" else "") ++
    if x.significand = 0 then "0.0" else (Decimal.shortest x).text

end VocabPhp
