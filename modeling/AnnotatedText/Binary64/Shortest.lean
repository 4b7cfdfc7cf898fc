import AnnotatedText.Binary64.Basic

/-!
# Shortest decimals

A double is written with as few digits as still read back as the same double. The real numbers that
round to a double form an interval around it, whose ends belong to it if the significand is even;
the digits are found on the coarsest decimal grid that has a point in the interval next to the
double. Of two such points the nearer one is taken, and the greater one when they are equally near.

How the digits are laid out is a matter of two fields, `Layout`.
-/

namespace AnnotatedText.Binary64

/-- Digits with the place of the point: the number `0.d₁d₂… * 10 ^ point`. -/
structure Decimal where
  digits : List Nat
  point : Int

/-- The interval of a finite double that is not zero, as multiples of `2 ^ (e - 2)`: its lower end,
the double itself and its upper end. Below a power of two the grid of doubles is finer. -/
def interval (m : Nat) (e : Int) : Nat × Nat × Nat :=
  if m = 1 <<< 52 ∧ leastExponent < e then (4 * m - 1, 4 * m, 4 * m + 2)
  else (4 * m - 2, 4 * m, 4 * m + 2)

/-- `n * 2 ^ e / 10 ^ g` as a numerator and a denominator. -/
def onGrid (n : Nat) (e g : Int) : Nat × Nat :=
  (n <<< e.toNat * Nat.pow 10 (-g).toNat, 1 <<< (-e).toNat * Nat.pow 10 g.toNat)

/-- The point of the grid `10 ^ g` next to the double that lies in its interval, if there is one. -/
def gridPoint? (m : Nat) (e g : Int) : Option Nat :=
  let (low, value, high) := interval m e
  let closed := m % 2 = 0
  let (n, d) := onGrid value (e - 2) g
  let (ln, _) := onGrid low (e - 2) g
  let (hn, _) := onGrid high (e - 2) g
  let below := n / d
  let above := below + 1
  let lowFits := 0 < below ∧ (ln < below * d ∨ (closed ∧ ln = below * d))
  let highFits := above * d < hn ∨ (closed ∧ above * d = hn)
  if n % d = 0 then some below
  else if lowFits ∧ (¬highFits ∨ 2 * (n % d) < d) then some below
  else if highFits then some above
  else none

/-- The number of decimal digits before the point of `m * 2 ^ e`, which is not positive for numbers
below one tenth. -/
def decimalPlaces (m : Nat) (e : Int) : Int :=
  let n := m <<< e.toNat
  let d := 1 <<< (-e).toNat
  if d ≤ n then (Nat.toDigits 10 (n / d)).length
  else 1 - ((Nat.toDigits 10 ((d + n - 1) / n - 1)).length : Int)

/-- Tries the grids from `10 ^ g` on, each ten times as fine as the one before. -/
def refine (m : Nat) (e g : Int) : Nat → Nat × Int
  | 0 => ((gridPoint? m e g).getD 0, g)
  | tries + 1 =>
    match gridPoint? m e g with
    | some p => (p, g)
    | none => refine m e (g - 1) tries

/-- The digits of a number, without the zeros at its end. -/
def significantDigits (n : Nat) : List Nat :=
  (((Nat.toDigits 10 n).map (fun c => c.toNat - '0'.toNat)).reverse.dropWhile (· == 0)).reverse

/-- The shortest decimal of a finite double that is not zero. -/
def shortest (x : Binary64) : Decimal :=
  let (m, e) := x.parts
  let (p, g) := refine m e (decimalPlaces m e - 1) 17
  ⟨significantDigits p, ((Nat.toDigits 10 p).length : Int) + g⟩

/-! ### Layout -/

/-- How a number is laid out. -/
structure Layout where
  /-- Whether numbers below `10 ^ (-4)` and from `10 ^ 16` on are written with an exponent. -/
  exponents : Bool
  /-- Whether a whole number is written with a zero behind the point. -/
  pointZero : Bool

/-- The layout in diagnostics: `1.0`, `1e21`, `1.5e-7`. -/
def Layout.precise : Layout := ⟨true, true⟩

/-- The layout of plain text: `1`, and all digits of large and small numbers. -/
def Layout.plain : Layout := ⟨false, false⟩

/-- The character of a digit. -/
def digitChars (ds : List Nat) : List Char := ds.map Nat.digitChar

/-- The decimal with an exponent: one digit before the point. -/
def Decimal.scientific (x : Decimal) : List Char :=
  let mantissa := match digitChars x.digits with
    | [] => []
    | [d] => [d]
    | d :: rest => d :: '.' :: rest
  mantissa ++ 'e' :: (toString (x.point - 1)).toList

/-- The decimal without an exponent. -/
def Decimal.positional (x : Decimal) (pointZero : Bool) : List Char :=
  let ds := digitChars x.digits
  if x.point ≤ 0 then '0' :: '.' :: List.replicate (-x.point).toNat '0' ++ ds
  else
    let places := x.point.toNat
    if ds.length ≤ places then
      ds ++ List.replicate (places - ds.length) '0' ++ (if pointZero then ['.', '0'] else [])
    else ds.take places ++ '.' :: ds.drop places

/-- The text of a double without its sign. -/
def unsignedText (layout : Layout) (x : Binary64) : List Char :=
  if x.isInfinite then ['i', 'n', 'f']
  else if x.isZero then if layout.pointZero then ['0', '.', '0'] else ['0']
  else
    let decimal := x.shortest
    if layout.exponents ∧ (decimal.point < -3 ∨ 17 ≤ decimal.point) then decimal.scientific
    else decimal.positional layout.pointZero

/-- The text of a double. -/
def text (layout : Layout) (x : Binary64) : String :=
  if x.isNaN then "NaN"
  else String.ofList ((if x.isNegative then ['-'] else []) ++ unsignedText layout x)

end AnnotatedText.Binary64
