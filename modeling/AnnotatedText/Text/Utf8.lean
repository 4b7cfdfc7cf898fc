import AnnotatedText.Bytes

/-!
# UTF-8

A byte string is cut into pieces: each piece is a character, a part that cannot begin any encoded
character, or an encoding that the end of the input cuts off. A part of the second kind is as long
as it can be while it still agrees with the beginning of some character. The two readings of a
byte string differ only in what they do with the pieces that are no characters: `decode` reports
the first of them, `decodeLossy` puts the replacement character in place of each.

Positions in a text are byte offsets into its encoding, and `slice?` cuts a text at such offsets.
-/

namespace AnnotatedText.Text

/-- A piece of a byte string. -/
inductive Piece where
  | char (c : Char)
  /-- Bytes that begin no character, `length` of them. -/
  | invalid (length : Nat)
  /-- The beginning of a character whose other bytes are missing. -/
  | incomplete
  deriving DecidableEq

/-- Whether the byte may stand inside a character. -/
def isContinuation (b : UInt8) : Bool := b &&& 0xC0 == 0x80

/-- Whether `b` may be the second byte after the leading byte `a` of three or four: overlong forms,
surrogates and code points beyond the last are excluded here. -/
def secondFits (a b : UInt8) : Bool :=
  isContinuation b &&
    !(a == 0xE0 && b < 0xA0) && !(a == 0xED && b > 0x9F) &&
    !(a == 0xF0 && b < 0x90) && !(a == 0xF4 && b > 0x8F)

/-- The character whose leading byte carries `high` and whose further bytes are `rest`. -/
def assemble (high : Nat) (rest : List UInt8) : Char :=
  Char.ofNat (rest.foldl (fun n b => n * 64 + b.toNat % 64) high)

/-- The pieces of a byte string, in order. -/
def pieces : List UInt8 → List Piece
  | [] => []
  | a :: r =>
    if a < 0x80 then .char (Char.ofNat a.toNat) :: pieces r
    else if a < 0xC2 then .invalid 1 :: pieces r
    else if a < 0xE0 then
      match r with
      | [] => [.incomplete]
      | b :: s =>
        if isContinuation b then .char (assemble (a.toNat % 32) [b]) :: pieces s
        else .invalid 1 :: pieces (b :: s)
    else if a < 0xF0 then
      match r with
      | [] => [.incomplete]
      | b :: s =>
        if secondFits a b then
          match s with
          | [] => [.incomplete]
          | c :: t =>
            if isContinuation c then .char (assemble (a.toNat % 16) [b, c]) :: pieces t
            else .invalid 2 :: pieces (c :: t)
        else .invalid 1 :: pieces (b :: s)
    else if a < 0xF5 then
      match r with
      | [] => [.incomplete]
      | b :: s =>
        if secondFits a b then
          match s with
          | [] => [.incomplete]
          | c :: t =>
            if isContinuation c then
              match t with
              | [] => [.incomplete]
              | d :: u =>
                if isContinuation d then .char (assemble (a.toNat % 8) [b, c, d]) :: pieces u
                else .invalid 3 :: pieces (d :: u)
            else .invalid 2 :: pieces (c :: t)
        else .invalid 1 :: pieces (b :: s)
    else .invalid 1 :: pieces r

/-- Why a byte string is no UTF-8 text. -/
inductive Utf8Error where
  /-- `length` bytes at the offset `index` begin no character. -/
  | invalid (length index : Nat)
  /-- The input ends inside the character that begins at the offset `index`. -/
  | incomplete (index : Nat)
  deriving DecidableEq

/-- The wording of the error. -/
def Utf8Error.message : Utf8Error → String
  | .invalid length index => s!"invalid utf-8 sequence of {length} bytes from index {index}"
  | .incomplete index => s!"incomplete utf-8 byte sequence from index {index}"

/-- The characters of pieces that begin at the offset `index`, if all of them are characters. -/
def charsFrom (index : Nat) : List Piece → Except Utf8Error (List Char)
  | [] => .ok []
  | .char c :: rest => (charsFrom (index + c.utf8Size) rest).map (c :: ·)
  | .invalid length :: _ => .error (.invalid length index)
  | .incomplete :: _ => .error (.incomplete index)

/-- The text that the bytes encode. -/
def decode (bytes : List UInt8) : Except Utf8Error String :=
  (charsFrom 0 (pieces bytes)).map String.ofList

/-- The character shown for a piece when none may be refused. -/
def Piece.shown : Piece → Char
  | .char c => c
  | .invalid _ | .incomplete => '\ufffd'

/-- The text that the bytes encode, with a replacement character for each piece that is none. -/
def decodeLossy (bytes : List UInt8) : String := String.ofList ((pieces bytes).map Piece.shown)

/-- The bytes that encode a list of characters. -/
def encodeChars (cs : List Char) : List UInt8 := cs.flatMap String.utf8EncodeChar

/-- The bytes that encode a text. -/
def encode (s : String) : List UInt8 := encodeChars s.toList

/-- The bytes without one byte order mark in front. -/
def dropByteOrderMark (bytes : List UInt8) : List UInt8 :=
  match bytes with
  | 0xEF :: 0xBB :: 0xBF :: rest => rest
  | _ => bytes

/-! ### Byte offsets -/

/-- The number of bytes that encode the characters. -/
def byteLength : List Char → Nat
  | [] => 0
  | c :: rest => c.utf8Size + byteLength rest

/-- The characters from the byte offset `n` on, if a character begins there or the text ends. -/
def dropBytes : Nat → List Char → Option (List Char)
  | 0, cs => some cs
  | _ + 1, [] => none
  | n + 1, c :: rest => if c.utf8Size ≤ n + 1 then dropBytes (n + 1 - c.utf8Size) rest else none

/-- The characters before the byte offset `n`, if a character begins there or the text ends. -/
def takeBytes : Nat → List Char → Option (List Char)
  | 0, _ => some []
  | _ + 1, [] => none
  | n + 1, c :: rest =>
    if c.utf8Size ≤ n + 1 then (takeBytes (n + 1 - c.utf8Size) rest).map (c :: ·) else none

/-- The characters between two byte offsets, if the offsets are in order and at boundaries. -/
def sliceChars? (cs : List Char) (start stop : Nat) : Option (List Char) :=
  if start ≤ stop then (dropBytes start cs).bind (takeBytes (stop - start)) else none

/-- The text between two byte offsets, if the offsets are in order and at character boundaries. -/
def slice? (s : String) (start stop : Nat) : Option String :=
  (sliceChars? s.toList start stop).map String.ofList

/-- A character takes at least one byte. -/
theorem utf8Size_pos (c : Char) : 0 < c.utf8Size := c.utf8Size_pos

@[simp] theorem byteLength_nil : byteLength [] = 0 := rfl

@[simp] theorem byteLength_cons (c : Char) (cs : List Char) :
    byteLength (c :: cs) = c.utf8Size + byteLength cs := rfl

@[simp] theorem byteLength_append (cs ds : List Char) :
    byteLength (cs ++ ds) = byteLength cs + byteLength ds := by
  induction cs with
  | nil => simp
  | cons c cs ih => simp [ih, Nat.add_assoc]

/-- What is dropped after a text is what follows the text. -/
@[simp] theorem dropBytes_append (cs ds : List Char) :
    dropBytes (byteLength cs) (cs ++ ds) = some ds := by
  induction cs with
  | nil => simp [dropBytes]
  | cons c cs ih =>
    have := c.utf8Size_pos
    obtain ⟨k, hk⟩ : ∃ k, c.utf8Size + byteLength cs = k + 1 := ⟨_, (Nat.succ_pred (by omega)).symm⟩
    have hsub : k + 1 - c.utf8Size = byteLength cs := by omega
    have hle : c.utf8Size ≤ k + 1 := by omega
    rw [byteLength_cons, hk, List.cons_append, dropBytes, if_pos hle, hsub, ih]

/-- What is taken up to the length of a text is the text. -/
@[simp] theorem takeBytes_append (cs ds : List Char) :
    takeBytes (byteLength cs) (cs ++ ds) = some cs := by
  induction cs with
  | nil => simp [takeBytes]
  | cons c cs ih =>
    have := c.utf8Size_pos
    obtain ⟨k, hk⟩ : ∃ k, c.utf8Size + byteLength cs = k + 1 := ⟨_, (Nat.succ_pred (by omega)).symm⟩
    have hsub : k + 1 - c.utf8Size = byteLength cs := by omega
    have hle : c.utf8Size ≤ k + 1 := by omega
    rw [byteLength_cons, hk, List.cons_append, takeBytes, if_pos hle, hsub, ih]
    rfl

/-- The slice between the lengths of two beginnings of a text is what lies between them. -/
theorem sliceChars?_append (cs ds es : List Char) :
    sliceChars? (cs ++ ds ++ es) (byteLength cs) (byteLength cs + byteLength ds) = some ds := by
  simp [sliceChars?, List.append_assoc]

end AnnotatedText.Text
