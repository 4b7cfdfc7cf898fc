import AnnotatedText.Bytes

/-!
# Compressed frames

A compressed body is a sequence of Zstandard frames. The frames written here store their content in
raw blocks; read are frames of raw blocks and of blocks that repeat one byte, without a dictionary
and without a checksum of their content. Any other frame is undecodable, and so is an input that
ends inside a frame or holds none.
-/

namespace AnnotatedText.Frame

/-- The bytes a frame begins with. -/
def magic : Bytes := [0x28, 0xB5, 0x2F, 0xFD]

/-- The greatest number of bytes that a block may hold, whatever the window. -/
def blockLimit : Nat := 128 * 1024

/-- The greatest window that is accepted. -/
def windowLimit : Nat := 128 * 1024 * 1024

/-- The three bytes in front of a block's content. -/
def blockHeader (isLast : Bool) (size : Nat) : Bytes :=
  Bytes.littleEndian 3 ((if isLast then 1 else 0) + 8 * size)

/-- The content as raw blocks; `fuel` bounds their number. -/
def rawBlocks : Nat → Bytes → Bytes
  | 0, content => blockHeader true content.length ++ content
  | fuel + 1, content =>
    if content.length ≤ blockLimit then blockHeader true content.length ++ content
    else blockHeader false blockLimit ++ content.take blockLimit ++
      rawBlocks fuel (content.drop blockLimit)

/-- The content as a frame with a window of two mebibytes. -/
def encode (content : Bytes) : Bytes :=
  magic ++ [0x00, 0x58] ++ rawBlocks (content.length / blockLimit) content

/-- What the header of a frame says: the size of its window and the size of its content. -/
structure Header where
  window : Nat
  contentSize? : Option Nat

/-- The number that the first `count` bytes are, and the bytes behind them. -/
def takeNumber (count : Nat) (bytes : Bytes) : Option (Nat × Bytes) :=
  if count ≤ bytes.length then some (Bytes.toNat (bytes.take count), bytes.drop count) else none

/-- The window that its descriptor stands for. -/
def windowOf (descriptor : Nat) : Nat :=
  let base := 1024 <<< (descriptor / 8)
  base + base / 8 * (descriptor % 8)

/-- Reads the size of the content, in a field that its flag and the kind of frame determine. -/
def readContentSize (flag : Nat) (single : Bool) (bytes : Bytes) :
    Option (Option Nat × Bytes) :=
  match flag, single with
  | 0, false => some (none, bytes)
  | 0, true => (takeNumber 1 bytes).map fun (n, rest) => (some n, rest)
  | 1, _ => (takeNumber 2 bytes).map fun (n, rest) => (some (n + 256), rest)
  | 2, _ => (takeNumber 4 bytes).map fun (n, rest) => (some n, rest)
  | _, _ => (takeNumber 8 bytes).map fun (n, rest) => (some n, rest)

/-- Reads the header behind the magic bytes. -/
def readHeader (bytes : Bytes) : Option (Header × Bytes) := do
  let (descriptor, rest) ← takeNumber 1 bytes
  let single := descriptor / 32 % 2 = 1
  -- neither the reserved bit, nor a checksum, nor a dictionary
  if descriptor % 16 ≠ 0 then none
  else if single then
    let (size?, rest) ← readContentSize (descriptor / 64) true rest
    some (⟨size?.getD 0, size?⟩, rest)
  else
    let (window, rest) ← takeNumber 1 rest
    if windowOf window ≤ windowLimit then
      let (size?, rest) ← readContentSize (descriptor / 64) false rest
      some (⟨windowOf window, size?⟩, rest)
    else none

/-- Reads blocks up to the last one of a frame; `fuel` bounds their number. -/
def readBlocks (limit : Nat) : Nat → Bytes → Option (Bytes × Bytes)
  | 0, _ => none
  | fuel + 1, bytes => do
    let (header, rest) ← takeNumber 3 bytes
    let size := header / 8
    let (content, rest) ←
      match header / 2 % 4 with
      | 0 =>
        if size ≤ limit ∧ size ≤ rest.length then some (rest.take size, rest.drop size) else none
      | 1 =>
        match rest with
        | b :: rest => if size ≤ limit then some (List.replicate size b, rest) else none
        | [] => none
      | _ => none
    if header % 2 = 1 then some (content, rest)
    else
      let (more, rest) ← readBlocks limit fuel rest
      some (content ++ more, rest)

/-- Reads one frame. -/
def readFrame (bytes : Bytes) : Option (Bytes × Bytes) := do
  if bytes.take 4 ≠ magic then none
  else
    let (header, rest) ← readHeader (bytes.drop 4)
    let (content, rest) ← readBlocks (min header.window blockLimit) rest.length rest
    if header.contentSize?.all (· == content.length) then some (content, rest) else none

/-- Reads frames up to the end of the input; `fuel` bounds their number. -/
def readFrames : Nat → Bytes → Option Bytes
  | 0, _ => none
  | fuel + 1, bytes => do
    let (content, rest) ← readFrame bytes
    if rest = [] then some content
    else
      let more ← readFrames fuel rest
      some (content ++ more)

/-- The content of a sequence of frames. -/
def decode (bytes : Bytes) : Option Bytes := readFrames bytes.length bytes

end AnnotatedText.Frame
