/-!
# Double precision numbers

A double is its word of 64 bits: a sign, an exponent field of 11 bits and a fraction of 52. The word
is all there is to it, so two doubles are the same when their words are, while the comparison of
the numbers they stand for (`Binary64.eq`) is another one: no NaN equals anything and the two zeros
equal each other. All arithmetic on the values is exact arithmetic on integers.
-/

namespace AnnotatedText

/-- A double, as its word. -/
structure Binary64 where
  bits : UInt64
  deriving DecidableEq

namespace Binary64

/-- The double with the given sign whose other 63 bits are `magnitude`. -/
def ofMagnitude (negative : Bool) (magnitude : Nat) : Binary64 :=
  ⟨UInt64.ofNat ((if negative then 1 <<< 63 else 0) + magnitude)⟩

/-- The 63 bits behind the sign. -/
def magnitude (x : Binary64) : Nat := x.bits.toNat % 1 <<< 63

/-- Whether the sign bit is set. -/
def isNegative (x : Binary64) : Bool := decide (1 <<< 63 ≤ x.bits.toNat)

/-- The magnitude of the infinities; every greater one is a NaN's. -/
def infinityMagnitude : Nat := 2047 <<< 52

def isNaN (x : Binary64) : Bool := decide (infinityMagnitude < x.magnitude)

def isInfinite (x : Binary64) : Bool := decide (x.magnitude = infinityMagnitude)

def isZero (x : Binary64) : Bool := decide (x.magnitude = 0)

/-- The infinity of the given sign. -/
def infinity (negative : Bool) : Binary64 := ofMagnitude negative infinityMagnitude

/-- The NaN of the given sign with only the first bit of its fraction set. -/
def nan (negative : Bool) : Binary64 := ofMagnitude negative (infinityMagnitude + 1 <<< 51)

/-- The least exponent of a double's significand. -/
def leastExponent : Int := -1074

/-- The significand `m` and the exponent `e` of a finite double, whose absolute value is
`m * 2 ^ e`. -/
def parts (x : Binary64) : Nat × Int :=
  let field : Nat := x.magnitude / 1 <<< 52
  let fraction : Nat := x.magnitude % 1 <<< 52
  if field = 0 then (fraction, leastExponent) else (1 <<< 52 + fraction, Int.ofNat field - 1075)

/-- Whether two doubles stand for the same number. -/
def eq (x y : Binary64) : Bool :=
  !x.isNaN && !y.isNaN && (x == y || (x.isZero && y.isZero))

/-- `n / d` rounded to a whole number, halves to the even neighbour. -/
def roundHalfEven (n d : Nat) : Nat :=
  let q := n / d
  let r := n % d
  if 2 * r > d ∨ (2 * r = d ∧ q % 2 = 1) then q + 1 else q

/-- Numerator and denominator of `n / d` divided by `2 ^ e`. -/
def scaled (n d : Nat) (e : Int) : Nat × Nat := (n <<< (-e).toNat, d <<< e.toNat)

/-- The exponent with which the significand of `n / d` has 53 bits, or fewer at the least one. -/
def exponentOf (n d : Nat) : Int :=
  let guess : Int := (n.log2 : Int) - (d.log2 : Int) - 53
  let (n', d') := scaled n d guess
  max (if n' / d' < 1 <<< 53 then guess else guess + 1) leastExponent

/-- The double nearest to the quotient `n / d` of positive numbers. A significand that rounding
carries to the next power of two carries into the exponent field by itself, because the word of a
positive double grows with its value. -/
def nearest (negative : Bool) (n d : Nat) : Binary64 :=
  let e := exponentOf n d
  let (n', d') := scaled n d e
  let magnitude := (e - leastExponent).toNat <<< 52 + roundHalfEven n' d'
  ofMagnitude negative (min magnitude infinityMagnitude)

/-- The double of a whole number. -/
def ofInt (i : Int) : Binary64 :=
  if i = 0 then ofMagnitude false 0 else nearest (decide (i < 0)) i.natAbs 1

example : (ofInt 1).bits = 0x3FF0000000000000 ∧ (nearest false 3 2).bits = 0x3FF8000000000000 := by
  decide

end Binary64

end AnnotatedText
