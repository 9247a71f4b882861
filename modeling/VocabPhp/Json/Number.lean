import VocabPhp.Json.Basic

/-!
# Numerals of a JSON text

A `Numeral` is the spelling of a number: sign, digits, fraction, exponent. Its value is an integer
if it has neither fraction nor exponent and fits into 64 bits; any other numeral is a binary64
number, read from as many leading digits as fit into 64 bits.
-/

namespace VocabPhp.Json

/-- The spelling of a number. -/
structure Numeral where
  negative : Bool
  whole : List Char
  fraction : Option (List Char)
  exponent : Option Int
  deriving DecidableEq, Repr

namespace Numeral

/-- The value of a decimal digit. -/
def digitValue (c : Char) : Nat := c.toNat - 48

/-- The number that decimal digits write. -/
def digitsValue (ds : List Char) : Nat := ds.foldl (fun n d => n * 10 + digitValue d) 0

/-- Appends digits to a number for as long as it fits into 64 bits; the other digits are left. -/
def appendFitting (n : Nat) : List Char → Nat × List Char
  | [] => (n, [])
  | d :: ds =>
    let m := n * 10 + digitValue d
    if m < 1 <<< 64 then appendFitting m ds else (n, d :: ds)

/-- The value of a whole number of at most 64 bits. A negative one that needs more, and minus zero,
are binary64 numbers. -/
def wholeValue? (negative : Bool) (n : Nat) : Option Number :=
  if !negative then some (.integer n)
  else if n = 0 ∨ 1 <<< 63 < n then
    (Binary64.ofQuotient? n 1).map fun x => .real (x.withSign true)
  else some (.integer (-n))

/-- The value of a numeral, unless it is past the largest finite number. -/
def value? (m : Numeral) : Option Number :=
  let (n, left) := appendFitting 0 m.whole
  if m.fraction.isNone ∧ m.exponent.isNone ∧ left = [] then wholeValue? m.negative n
  else
    let fraction := m.fraction.getD []
    let (n, unused) := appendFitting n fraction
    let scale : Int := left.length - (fraction.length - unused.length) + m.exponent.getD 0
    (Binary64.scaled? n scale).map fun x => .real (x.withSign m.negative)

end Numeral

end VocabPhp.Json
