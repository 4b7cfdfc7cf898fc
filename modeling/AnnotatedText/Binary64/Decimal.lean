import AnnotatedText.Binary64.Basic
import AnnotatedText.Text.Number

/-!
# Doubles written in decimal

The grammar of a decimal literal: an optional sign, then either a number with digits before or
behind an optional point and an optional exponent, or one of the words `inf`, `infinity` and `nan`
in any case. The value is the double nearest to the number written, a half going to the even
neighbour.
-/

namespace AnnotatedText.Binary64

/-- The digits a text begins with, and the rest of it. -/
def spanDigits (cs : List Char) : List Char × List Char := cs.span Char.isDigit

/-- The number that a list of digits writes. -/
def digitsValue (ds : List Char) : Nat := ds.foldl (fun n c => n * 10 + (c.toNat - '0'.toNat)) 0

/-- A number written in decimal: `digits * 10 ^ exponent`. -/
structure Literal where
  digits : Nat
  exponent : Int

/-- Reads the exponent behind the mark: an optional sign and at least one digit. -/
def readExponent (cs : List Char) : Option Int :=
  let (negative, ds) := match cs with
    | '-' :: rest => (true, rest)
    | '+' :: rest => (false, rest)
    | _ => (false, cs)
  if ds ≠ [] ∧ ds.all Char.isDigit then
    some (if negative then -(digitsValue ds : Int) else digitsValue ds)
  else none

/-- Reads what may follow the digits: nothing or an exponent. -/
def readTail : List Char → Option Int
  | [] => some 0
  | c :: rest => if c = 'e' ∨ c = 'E' then readExponent rest else none

/-- Reads a number without its sign. -/
def readLiteral (cs : List Char) : Option Literal :=
  let (whole, rest) := spanDigits cs
  let (fraction, tail) := match rest with
    | '.' :: behind => spanDigits behind
    | _ => ([], rest)
  if whole = [] ∧ fraction = [] then none
  else (readTail tail).map fun e =>
    ⟨digitsValue (whole ++ fraction), e - (fraction.length : Int)⟩

/-- The double nearest to a literal. Literals far outside the range of doubles are settled by the
number of their digits, before any power is taken. -/
def ofLiteral (negative : Bool) (x : Literal) : Binary64 :=
  if x.digits = 0 then ofMagnitude negative 0
  else
    let size : Int := ((Nat.toDigits 10 x.digits).length : Int) + x.exponent
    if size > 310 then infinity negative
    else if size < -330 then ofMagnitude negative 0
    else nearest negative (x.digits * Nat.pow 10 x.exponent.toNat) (Nat.pow 10 (-x.exponent).toNat)

/-- Reads one of the words for the values that are no numbers. -/
def readWord (negative : Bool) (cs : List Char) : Option Binary64 :=
  let word := cs.map Char.toLower
  if word = ['i', 'n', 'f'] ∨ word = ['i', 'n', 'f', 'i', 'n', 'i', 't', 'y'] then
    some (infinity negative)
  else if word = ['n', 'a', 'n'] then some (nan negative)
  else none

/-- Reads a double without its sign. -/
def readUnsigned (negative : Bool) (cs : List Char) : Option Binary64 :=
  match readLiteral cs with
  | some x => some (ofLiteral negative x)
  | none => readWord negative cs

/-- Reads a double. -/
def read : List Char → Option Binary64
  | '-' :: rest => readUnsigned true rest
  | '+' :: rest => readUnsigned false rest
  | cs => readUnsigned false cs

end AnnotatedText.Binary64
