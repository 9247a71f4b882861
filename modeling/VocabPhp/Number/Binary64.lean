/-!
# Binary64 numbers

A finite binary64 number is a sign, a significand below `2 ^ 53` and a power of two. All arithmetic
is on natural numbers: an operation takes the exact quotient of its result and rounds it once, half
to even.

* `roundQuotient`: the nearest natural number to a quotient, a half going to the even neighbour.
* `powerOfTen`: the powers of ten. Powers of two are shifts.
* `Binary64.ofQuotient?`: the nearest binary64 number to a quotient, or `none` past the largest.
* `Binary64.scaled?`: the reading of a decimal number, which rounds the significand, the power of
  ten and their product or quotient, each to binary64.
-/

namespace VocabPhp

/-- A finite binary64 number `± significand * 2 ^ exponent`. -/
structure Binary64 where
  negative : Bool
  significand : Nat
  exponent : Int
  deriving DecidableEq, Repr

/-- The nearest natural number to `num / den`, a half going to the even neighbour. -/
def roundQuotient (num den : Nat) : Nat :=
  let q := num / den
  let r := num % den
  if 2 * r < den then q
  else if den < 2 * r then q + 1
  else q + q % 2

/-- The natural number `10 ^ k`. -/
def powerOfTen (k : Nat) : Nat := Nat.pow 10 k

namespace Binary64

/-- The least significand of a number that is not below the normal range: `2 ^ 52`. -/
def leastNormal : Nat := 1 <<< 52

/-- The least exponent of a binary64 number. -/
def minExponent : Int := -1074

/-- The greatest exponent of a binary64 number. -/
def maxExponent : Int := 971

/-- Zero without a sign. -/
def zero : Binary64 := ⟨false, 0, minExponent⟩

/-- The number with its sign set. -/
def withSign (x : Binary64) (negative : Bool) : Binary64 := { x with negative }

/-- The numerator and denominator of `num / den / 2 ^ e`. -/
def shiftQuotient (num den : Nat) (e : Int) : Nat × Nat :=
  if 0 ≤ e then (num, den <<< e.toNat) else (num <<< (-e).toNat, den)

/-- The exponent that gives the quotient of two positive numbers a significand of 53 bits, or the
least exponent if that is greater. -/
def exponentFor (num den : Nat) : Int :=
  let e : Int := (num.log2 : Int) - den.log2 - 52
  let (n, d) := shiftQuotient num den e
  let e := if n < d * leastNormal then e - 1 else e
  if e < minExponent then minExponent else e

/-- The nearest binary64 number to `num / den`, unless it is past the largest finite one. -/
def ofQuotient? (num den : Nat) : Option Binary64 :=
  if num = 0 then some zero
  else
    let e := exponentFor num den
    let (n, d) := shiftQuotient num den e
    let m := roundQuotient n d
    let (m, e) := if m = 2 * leastNormal then (leastNormal, e + 1) else (m, e)
    if e ≤ maxExponent then some ⟨false, m, e⟩ else none

/-- The value of a number without its sign, as a quotient. -/
def quotient (x : Binary64) : Nat × Nat :=
  if 0 ≤ x.exponent then (x.significand <<< x.exponent.toNat, 1)
  else (x.significand, 1 <<< (-x.exponent).toNat)

/-- The product of two numbers without their signs, rounded. -/
def mul? (x y : Binary64) : Option Binary64 :=
  ofQuotient? (x.quotient.1 * y.quotient.1) (x.quotient.2 * y.quotient.2)

/-- The quotient of two numbers without their signs, rounded. -/
def div? (x y : Binary64) : Option Binary64 :=
  ofQuotient? (x.quotient.1 * y.quotient.2) (x.quotient.2 * y.quotient.1)

/-- The greatest power of ten, by its exponent, that is a finite binary64 number. -/
def maxPowerOfTen : Nat := 308

/-- A number divided by a power of ten; a power past the greatest one is divided by in steps. -/
def divPowerOfTen? (x : Binary64) (k : Nat) : Option Binary64 :=
  if k ≤ maxPowerOfTen then (ofQuotient? (powerOfTen k) 1).bind x.div?
  else if x.significand = 0 then some x
  else do
    let y ← (ofQuotient? (powerOfTen maxPowerOfTen) 1).bind x.div?
    divPowerOfTen? y (k - maxPowerOfTen)
termination_by k
decreasing_by simp [maxPowerOfTen] at *; omega

/-- The reading of `significand * 10 ^ exponent`, unless it is past the largest finite number. The
significand is rounded, then the power of ten, then their product or quotient. -/
def scaled? (significand : Nat) (exponent : Int) : Option Binary64 := do
  let x ← ofQuotient? significand 1
  if exponent < 0 then x.divPowerOfTen? (-exponent).toNat
  else if exponent ≤ maxPowerOfTen then (ofQuotient? (powerOfTen exponent.toNat) 1).bind x.mul?
  else if x.significand = 0 then some x
  else none

end Binary64

end VocabPhp
