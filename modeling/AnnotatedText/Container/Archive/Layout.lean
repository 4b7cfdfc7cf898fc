import AnnotatedText.Text.Utf8

/-!
# Layouts of an archive

An archive stores values so that they can be looked at in place: each value has a part of fixed size
and refers to further parts by offsets relative to the place of the reference. The further parts of
a value are written before its fixed part, those of a sequence in the order of its elements, and
then the elements themselves. A reader follows the references in the same order and claims what they
refer to: the parts of a value must lie between what is claimed already and the place of the value,
so no byte is claimed twice and no circle can be read.

A `Layout` says for the values of a type how they are written and read. Layouts are put together
from those of numbers, texts, pairs and sequences.
-/

namespace AnnotatedText.Archive

/-- The places that may still be claimed: from `low` on, before `high`. -/
structure Window where
  low : Nat
  high : Nat

/-- How values of a type are stored. -/
structure Layout (α : Type) where
  /-- The size of the fixed part. -/
  size : Nat
  /-- The places of fixed parts are multiples of this. -/
  align : Nat
  /-- The further parts, written from a place on. -/
  parts : Nat → α → Bytes
  /-- The fixed part at a place, if the further parts were written from another place on. -/
  fixed : Nat → Nat → α → Bytes
  /-- Reads the value whose fixed part is at a place. -/
  read : Array UInt8 → Nat → Window → Option (α × Window)

/-- The bytes at a place, if there are so many. -/
def bytesAt (buffer : Array UInt8) (place count : Nat) : Option Bytes :=
  if place + count ≤ buffer.size then some (buffer.extract place (place + count)).toList else none

/-- The place that an offset of 32 bits with a sign leads to. -/
def placeAt (origin : Nat) (offset : Nat) : Option Nat :=
  let target : Int := origin + (if offset < 1 <<< 31 then (offset : Int) else (offset : Int) - UInt32.size)
  if 0 ≤ target then some target.toNat else none

/-- The offset from a place to another, as four bytes. -/
def offsetBytes (origin target : Nat) : Bytes :=
  Bytes.littleEndian 4 (((target : Int) - origin) % UInt32.size).toNat

/-- Claims `count` bytes at a place and reads what is in them; what they refer to must lie before
them. Further claims begin behind them. -/
def Window.claim {α : Type} (w : Window) (place count align : Nat)
    (body : Window → Option (α × Window)) : Option (α × Window) :=
  if w.low ≤ place ∧ place + count ≤ w.high ∧ place % align = 0 then
    match body ⟨w.low, place⟩ with
    | some (x, _) => some (x, ⟨place + count, w.high⟩)
    | none => none
  else none

/-- The number of bytes from a place to the next multiple of `align`. -/
def padding (align place : Nat) : Nat := (align - place % align) % align

namespace Layout

/-- Values without further parts. -/
def plain {α : Type} (size align : Nat) (encode : α → Bytes) (decode : Bytes → Option α) :
    Layout α where
  size := size
  align := align
  parts _ _ := []
  fixed _ _ x := encode x
  read buffer place w := do
    let bytes ← bytesAt buffer place size
    let x ← decode bytes
    some (x, w)

/-- A number of 32 bits. -/
def word : Layout Nat := plain 4 4 (Bytes.littleEndian 4) fun bytes => some (Bytes.toNat bytes)

/-- A truth value with the zeros behind it. -/
def flag (size : Nat) : Layout Bool :=
  plain size 1 (fun b => (if b then 1 else 0) :: List.replicate (size - 1) 0) fun
    | 0 :: _ => some false
    | 1 :: _ => some true
    | _ => none

/-- A value next to another. -/
def pair {α β : Type} (a : Layout α) (b : Layout β) : Layout (α × β) where
  size := a.size + b.size
  align := max a.align b.align
  parts start x :=
    let first := a.parts start x.1
    first ++ b.parts (start + first.length) x.2
  fixed place start x :=
    a.fixed place start x.1 ++
      b.fixed (place + a.size) (start + (a.parts start x.1).length) x.2
  read buffer place w := do
    let (x, w) ← a.read buffer place w
    let (y, w) ← b.read buffer (place + a.size) w
    some ((x, y), w)

/-- Values that are stored as others. -/
def via {α β : Type} (a : Layout α) (toStored : β → α) (ofStored : α → β) : Layout β where
  size := a.size
  align := a.align
  parts start x := a.parts start (toStored x)
  fixed place start x := a.fixed place start (toStored x)
  read buffer place w := (a.read buffer place w).map fun (x, w) => (ofStored x, w)

/-! ### Texts -/

/-- The greatest number of bytes of a text that is stored in its fixed part. -/
def inlineLimit : Nat := 8

/-- The length of a text as it is stored: the two highest bits of its lowest byte, which no byte
that begins a text has, mark a text that is not in place. -/
def lengthWord (n : Nat) : Nat := n / 64 * 256 + 128 + n % 64

/-- The length that `lengthWord` stores. -/
def ofLengthWord (w : Nat) : Nat := w / 256 * 64 + w % 64

/-- A text: up to eight bytes in place, otherwise its length and an offset. -/
def text : Layout String where
  size := 8
  align := 4
  parts _ s := if (Text.encode s).length ≤ inlineLimit then [] else Text.encode s
  fixed place start s :=
    let bytes := Text.encode s
    if bytes.length ≤ inlineLimit then
      bytes ++ List.replicate (inlineLimit - bytes.length) 0xFF
    else Bytes.littleEndian 4 (lengthWord bytes.length) ++ offsetBytes place start
  read buffer place w := do
    let bytes ← bytesAt buffer place 8
    let first := (bytes.headD 0).toNat
    if first / 64 = 2 then
      let count := ofLengthWord (Bytes.toNat (bytes.take 4))
      if count ≤ inlineLimit then none
      else
        let target ← placeAt place (Bytes.toNat (bytes.drop 4))
        w.claim target count 1 fun inner => do
          let content ← bytesAt buffer target count
          let s ← (Text.decode content).toOption
          some (s, inner)
    else
      let s ← (Text.decode (bytes.takeWhile (· != 0xFF))).toOption
      some (s, w)

/-! ### Sequences -/

/-- The further parts of elements, written from a place on. -/
def partsOfAll {α : Type} (a : Layout α) : Nat → List α → Bytes
  | _, [] => []
  | start, x :: rest =>
    let first := a.parts start x
    first ++ partsOfAll a (start + first.length) rest

/-- The fixed parts of elements at a place, if their further parts were written from another on. -/
def fixedOfAll {α : Type} (a : Layout α) : Nat → Nat → List α → Bytes
  | _, _, [] => []
  | place, start, x :: rest =>
    a.fixed place start x ++
      fixedOfAll a (place + a.size) (start + (a.parts start x).length) rest

/-- Reads `count` elements from a place on. -/
def readAll {α : Type} (a : Layout α) (buffer : Array UInt8) :
    Nat → Nat → Window → Option (List α × Window)
  | 0, _, w => some ([], w)
  | count + 1, place, w => do
    let (x, w) ← a.read buffer place w
    let (rest, w) ← readAll a buffer count (place + a.size) w
    some (x :: rest, w)

/-- The place of elements whose further parts are written from a place on. -/
def elementsPlace {α : Type} (a : Layout α) (start : Nat) (xs : List α) : Nat :=
  let stop := start + (partsOfAll a start xs).length
  stop + padding a.align stop

/-- A sequence: an offset to its elements and their number. -/
def sequence {α : Type} (a : Layout α) : Layout (List α) where
  size := 8
  align := 4
  parts start xs :=
    let further := partsOfAll a start xs
    further ++ List.replicate (padding a.align (start + further.length)) 0 ++
      fixedOfAll a (elementsPlace a start xs) start xs
  fixed place start xs :=
    offsetBytes place (elementsPlace a start xs) ++ Bytes.littleEndian 4 xs.length
  read buffer place w := do
    let bytes ← bytesAt buffer place 8
    let target ← placeAt place (Bytes.toNat (bytes.take 4))
    let count := Bytes.toNat (bytes.drop 4)
    w.claim target (count * a.size) a.align fun inner => a.readAll buffer count target inner

/-! ### Whole archives -/

/-- The archive of a value: its further parts and, at the end, its fixed part. -/
def encode {α : Type} (a : Layout α) (x : α) : Bytes :=
  let further := a.parts 0 x
  let gap := padding a.align further.length
  further ++ List.replicate gap 0 ++ a.fixed (further.length + gap) 0 x

/-- The value of an archive. -/
def decode {α : Type} (a : Layout α) (bytes : Bytes) : Option α :=
  if bytes.length < a.size then none
  else
    let buffer := bytes.toArray
    let place := bytes.length - a.size
    let window : Window := ⟨0, bytes.length⟩
    (window.claim place a.size a.align (a.read buffer place)).map Prod.fst

end Layout

end AnnotatedText.Archive
