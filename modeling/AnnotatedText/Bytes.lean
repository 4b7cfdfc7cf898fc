/-!
# Bytes

Byte strings, the little-endian form of numbers, and the hexadecimal text of bytes.
-/

namespace AnnotatedText

/-- A byte string. -/
abbrev Bytes := List UInt8

namespace Bytes

/-- The `count` lowest bytes of `n`, least significant first. -/
def littleEndian : Nat → Nat → Bytes
  | 0, _ => []
  | count + 1, n => UInt8.ofNat (n % 256) :: littleEndian count (n / 256)

/-- The number whose bytes these are, least significant first. -/
def toNat : Bytes → Nat
  | [] => 0
  | b :: rest => b.toNat + 256 * toNat rest

@[simp] theorem length_littleEndian (count n : Nat) : (littleEndian count n).length = count := by
  induction count generalizing n with
  | zero => rfl
  | succ count ih => simp [littleEndian, ih]

/-- The two lower-case hexadecimal digits of a byte. -/
def hexDigits (b : UInt8) : List Char :=
  [Nat.digitChar (b.toNat / 16), Nat.digitChar (b.toNat % 16)]

/-- The hexadecimal text of a byte string. -/
def hex (bytes : Bytes) : String := String.ofList (bytes.flatMap hexDigits)

end Bytes

end AnnotatedText
