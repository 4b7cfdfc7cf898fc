/-!
# Whole numbers in a text

Decimal whole numbers, read from left to right. The first character that is no digit, or the first
digit with which the number exceeds its limit, ends the reading with an error; which of the two is
met first decides. A sign may stand in front, but only before a digit.
-/

namespace AnnotatedText.Text

/-- Why a text is no whole number. -/
inductive NumberError where
  | empty
  | invalidDigit
  | tooLarge
  deriving DecidableEq

/-- The wording of the error. -/
def NumberError.message : NumberError → String
  | .empty => "cannot parse integer from empty string"
  | .invalidDigit => "invalid digit found in string"
  | .tooLarge => "number too large to fit in target type"

/-- The value of a decimal digit. -/
def digit? (c : Char) : Option Nat := if c.isDigit then some (c.toNat - '0'.toNat) else none

/-- The number that the digits add to `acc`, unless it comes to exceed `limit`. -/
def readDigits (limit : Nat) : Nat → List Char → Except NumberError Nat
  | acc, [] => .ok acc
  | acc, c :: rest =>
    match digit? c with
    | none => .error .invalidDigit
    | some d => if acc * 10 + d ≤ limit then readDigits limit (acc * 10 + d) rest
      else .error .tooLarge

/-- The greatest number of an unsigned word of 64 bits. -/
def wordLimit : Nat := UInt64.size - 1

/-- Reads a number from 0 to `limit`; a plus sign may precede it. -/
def readNatural (limit : Nat) : List Char → Except NumberError Nat
  | [] => .error .empty
  | '+' :: [] => .error .invalidDigit
  | '+' :: rest => readDigits limit 0 rest
  | cs => readDigits limit 0 cs

/-- Reads a number of a signed word whose least value is `-2 ^ bits`; a sign may precede it. -/
def readInteger (bits : Nat) : List Char → Option Int
  | [] => none
  | '-' :: [] => none
  | '-' :: rest => (readDigits (1 <<< bits) 0 rest).toOption.map (fun n => -(n : Int))
  | '+' :: [] => none
  | '+' :: rest => (readDigits (1 <<< bits - 1) 0 rest).toOption.map (fun n => (n : Int))
  | cs => (readDigits (1 <<< bits - 1) 0 cs).toOption.map (fun n => (n : Int))

end AnnotatedText.Text
