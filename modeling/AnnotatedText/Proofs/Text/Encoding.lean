import AnnotatedText.Text.Utf8

/-!
# Encoded texts

The bytes that encode a text are cut into its characters again, whatever stands behind them, so both
readings of the bytes give the text back: nothing of it is faulty and nothing is replaced.

A character is encoded in one of four sizes. In each of them the leading byte tells the size, all
further bytes are continuations, and the second byte is never one that the leading byte excludes,
since a character is neither a surrogate nor beyond the last code point.

## Main results

* `Text.pieces_encodeChars_append`: the pieces of an encoding are its characters.
* `Text.decode_encode`, `Text.decodeLossy_encode`: a text is read back from its encoding.
-/

namespace AnnotatedText.Text

/-- The further bytes of an encoding are continuations. -/
theorem isContinuation_ofNat (n : Nat) : isContinuation (UInt8.ofNat (n % 64 + 128)) = true := by
  have h : ∀ m < 64, isContinuation (UInt8.ofNat (m + 128)) = true := by decide
  exact h _ (Nat.mod_lt n (by decide))

/-- A number below 256 is its own byte. -/
theorem toNat_ofNat {n : Nat} (h : n < 256) : (UInt8.ofNat n).toNat = n := by
  rw [UInt8.toNat_ofNat']
  exact Nat.mod_eq_of_lt h

theorem ofNat_lt_iff {n : Nat} (h : n < 256) (b : UInt8) : UInt8.ofNat n < b ↔ n < b.toNat := by
  rw [UInt8.lt_iff_toNat_lt, toNat_ofNat h]

theorem ofNat_eq_iff {n : Nat} (h : n < 256) (b : UInt8) : UInt8.ofNat n = b ↔ n = b.toNat := by
  rw [← UInt8.toNat_inj, toNat_ofNat h]

variable {c : Char} (rest : List UInt8)

/-- The code point of a character is no surrogate and not beyond the last one. -/
theorem codePoint_cases (c : Char) :
    c.toNat < 0xD800 ∨ (0xDFFF < c.toNat ∧ c.toNat < 0x110000) := c.valid

/-- A byte below 0x80 is a character. -/
theorem pieces_one (h : c.toNat ≤ 0x7F) :
    pieces (UInt8.ofNat c.toNat :: rest) = .char c :: pieces rest := by
  have hsmall : UInt8.ofNat c.toNat < 0x80 := by
    rw [ofNat_lt_iff (by omega)]
    exact Nat.lt_succ_of_le h
  rw [pieces.eq_def]
  simp only [hsmall, if_true, toNat_ofNat (Nat.lt_of_le_of_lt h (by decide)), Char.ofNat_toNat]

/-- The two bytes of a character below 0x800 are read as this character. -/
theorem pieces_two (hlow : 0x7F < c.toNat) (h : c.toNat ≤ 0x7FF) :
    pieces (UInt8.ofNat (c.toNat / 64 % 32 + 192) :: UInt8.ofNat (c.toNat % 64 + 128) :: rest) =
      .char c :: pieces rest := by
  have ha : c.toNat / 64 % 32 + 192 < 256 := by omega
  have hb : c.toNat % 64 + 128 < 256 := by omega
  have hlead : ¬ UInt8.ofNat (c.toNat / 64 % 32 + 192) < 0x80 ∧
      ¬ UInt8.ofNat (c.toNat / 64 % 32 + 192) < 0xC2 ∧
      UInt8.ofNat (c.toNat / 64 % 32 + 192) < 0xE0 := by
    simp only [ofNat_lt_iff ha, UInt8.reduceToNat]
    omega
  have hchar : assemble ((c.toNat / 64 % 32 + 192) % 32) [UInt8.ofNat (c.toNat % 64 + 128)] = c := by
    simp only [assemble, List.foldl, toNat_ofNat hb]
    rw [show (c.toNat / 64 % 32 + 192) % 32 * 64 + (c.toNat % 64 + 128) % 64 = c.toNat by omega,
      Char.ofNat_toNat]
  rw [pieces.eq_def]
  simp only [hlead, if_true, if_false, isContinuation_ofNat, toNat_ofNat ha, hchar]

/-- The three bytes of a character below 0x10000 are read as this character. -/
theorem pieces_three (hlow : 0x7FF < c.toNat) (h : c.toNat ≤ 0xFFFF) :
    pieces (UInt8.ofNat (c.toNat / 4096 % 16 + 224) :: UInt8.ofNat (c.toNat / 64 % 64 + 128) ::
      UInt8.ofNat (c.toNat % 64 + 128) :: rest) = .char c :: pieces rest := by
  have hvalid := codePoint_cases c
  have ha : c.toNat / 4096 % 16 + 224 < 256 := by omega
  have hb : c.toNat / 64 % 64 + 128 < 256 := by omega
  have hd : c.toNat % 64 + 128 < 256 := by omega
  have hlead : ¬ UInt8.ofNat (c.toNat / 4096 % 16 + 224) < 0x80 ∧
      ¬ UInt8.ofNat (c.toNat / 4096 % 16 + 224) < 0xC2 ∧
      ¬ UInt8.ofNat (c.toNat / 4096 % 16 + 224) < 0xE0 ∧
      UInt8.ofNat (c.toNat / 4096 % 16 + 224) < 0xF0 := by
    simp only [ofNat_lt_iff ha, UInt8.reduceToNat]
    omega
  have hsecond : secondFits (UInt8.ofNat (c.toNat / 4096 % 16 + 224))
      (UInt8.ofNat (c.toNat / 64 % 64 + 128)) = true := by
    simp only [secondFits, isContinuation_ofNat, Bool.true_and, Bool.and_eq_true,
      Bool.not_eq_true', Bool.and_eq_false_iff, beq_eq_false_iff_ne, ne_eq, ofNat_eq_iff ha,
      decide_eq_false_iff_not, ofNat_lt_iff hb, gt_iff_lt, UInt8.lt_iff_toNat_lt, toNat_ofNat hb,
      UInt8.reduceToNat]
    omega
  have hchar : assemble ((c.toNat / 4096 % 16 + 224) % 16)
      [UInt8.ofNat (c.toNat / 64 % 64 + 128), UInt8.ofNat (c.toNat % 64 + 128)] = c := by
    simp only [assemble, List.foldl, toNat_ofNat hb, toNat_ofNat hd]
    rw [show ((c.toNat / 4096 % 16 + 224) % 16 * 64 + (c.toNat / 64 % 64 + 128) % 64) * 64 +
      (c.toNat % 64 + 128) % 64 = c.toNat by omega, Char.ofNat_toNat]
  rw [pieces.eq_def]
  simp only [hlead, if_true, if_false, hsecond, isContinuation_ofNat, toNat_ofNat ha, hchar]

/-- The four bytes of any other character are read as this character. -/
theorem pieces_four (hlow : 0xFFFF < c.toNat) :
    pieces (UInt8.ofNat (c.toNat / 262144 % 8 + 240) :: UInt8.ofNat (c.toNat / 4096 % 64 + 128) ::
      UInt8.ofNat (c.toNat / 64 % 64 + 128) :: UInt8.ofNat (c.toNat % 64 + 128) :: rest) =
      .char c :: pieces rest := by
  have hvalid := codePoint_cases c
  have ha : c.toNat / 262144 % 8 + 240 < 256 := by omega
  have hb : c.toNat / 4096 % 64 + 128 < 256 := by omega
  have hd : c.toNat / 64 % 64 + 128 < 256 := by omega
  have he : c.toNat % 64 + 128 < 256 := by omega
  have hlead : ¬ UInt8.ofNat (c.toNat / 262144 % 8 + 240) < 0x80 ∧
      ¬ UInt8.ofNat (c.toNat / 262144 % 8 + 240) < 0xC2 ∧
      ¬ UInt8.ofNat (c.toNat / 262144 % 8 + 240) < 0xE0 ∧
      ¬ UInt8.ofNat (c.toNat / 262144 % 8 + 240) < 0xF0 ∧
      UInt8.ofNat (c.toNat / 262144 % 8 + 240) < 0xF5 := by
    simp only [ofNat_lt_iff ha, UInt8.reduceToNat]
    omega
  have hsecond : secondFits (UInt8.ofNat (c.toNat / 262144 % 8 + 240))
      (UInt8.ofNat (c.toNat / 4096 % 64 + 128)) = true := by
    simp only [secondFits, isContinuation_ofNat, Bool.true_and, Bool.and_eq_true,
      Bool.not_eq_true', Bool.and_eq_false_iff, beq_eq_false_iff_ne, ne_eq, ofNat_eq_iff ha,
      decide_eq_false_iff_not, ofNat_lt_iff hb, gt_iff_lt, UInt8.lt_iff_toNat_lt, toNat_ofNat hb,
      UInt8.reduceToNat]
    omega
  have hchar : assemble ((c.toNat / 262144 % 8 + 240) % 8)
      [UInt8.ofNat (c.toNat / 4096 % 64 + 128), UInt8.ofNat (c.toNat / 64 % 64 + 128),
        UInt8.ofNat (c.toNat % 64 + 128)] = c := by
    simp only [assemble, List.foldl, toNat_ofNat hb, toNat_ofNat hd, toNat_ofNat he]
    rw [show (((c.toNat / 262144 % 8 + 240) % 8 * 64 + (c.toNat / 4096 % 64 + 128) % 64) * 64 +
      (c.toNat / 64 % 64 + 128) % 64) * 64 + (c.toNat % 64 + 128) % 64 = c.toNat by omega,
      Char.ofNat_toNat]
  rw [pieces.eq_def]
  simp only [hlead, if_true, if_false, hsecond, isContinuation_ofNat, toNat_ofNat ha, hchar]

/-- **The encoding of a character is one piece**, whatever stands behind it. -/
theorem pieces_encodeChar_append (c : Char) :
    pieces (String.utf8EncodeChar c ++ rest) = .char c :: pieces rest := by
  have hval : c.val.toNat = c.toNat := rfl
  simp only [String.utf8EncodeChar, hval]
  split
  · rename_i h
    exact pieces_one rest h
  · rename_i hone
    split
    · rename_i h
      exact pieces_two rest (by omega) h
    · rename_i htwo
      split
      · rename_i h
        exact pieces_three rest (by omega) h
      · exact pieces_four rest (by omega)

/-- **The pieces of an encoding are its characters.** -/
theorem pieces_encodeChars (cs : List Char) : pieces (encodeChars cs) = cs.map .char := by
  induction cs with
  | nil => rfl
  | cons c cs ih =>
      rw [encodeChars, List.flatMap_cons, pieces_encodeChar_append, List.map_cons]
      exact congrArg _ ih

/-- Pieces that all are characters are a text. -/
theorem charsFrom_map_char (index : Nat) (cs : List Char) :
    charsFrom index (cs.map .char) = .ok cs := by
  induction cs generalizing index with
  | nil => rfl
  | cons c cs ih => rw [List.map_cons, charsFrom, ih, Except.map]

/-- **A text is read back from its encoding.** -/
theorem decode_encode (s : String) : decode (encode s) = .ok s := by
  rw [decode, encode, pieces_encodeChars, charsFrom_map_char, Except.map, String.ofList_toList]

/-- Where nothing is faulty nothing is replaced. -/
theorem decodeLossy_encodeChars (cs : List Char) :
    decodeLossy (encodeChars cs) = String.ofList cs := by
  rw [decodeLossy, pieces_encodeChars, List.map_map]
  exact congrArg String.ofList (List.map_id cs)

/-! ### Bytes of characters -/

/-- A character of ASCII is encoded as the byte of its code point. -/
theorem utf8EncodeChar_of_lt (h : c.toNat < 0x80) :
    String.utf8EncodeChar c = [UInt8.ofNat c.toNat] := by
  have hval : c.val.toNat = c.toNat := rfl
  simp only [String.utf8EncodeChar, hval, if_pos (Nat.le_of_lt_succ h)]

/-- All bytes of any other character lie beyond ASCII. -/
theorem le_of_mem_utf8EncodeChar (h : 0x80 ≤ c.toNat) :
    ∀ b ∈ String.utf8EncodeChar c, 0x80 ≤ b.toNat := by
  have hval : c.val.toNat = c.toNat := rfl
  have hbyte {n : Nat} (hlow : 128 ≤ n) (hn : n < 256) : 128 ≤ (UInt8.ofNat n).toNat := by
    rwa [toNat_ofNat hn]
  simp only [String.utf8EncodeChar, hval]
  split
  · omega
  · split
    · simp only [List.forall_mem_cons]
      exact ⟨hbyte (by omega) (by omega), hbyte (by omega) (by omega), nofun⟩
    · split
      · simp only [List.forall_mem_cons]
        exact ⟨hbyte (by omega) (by omega), hbyte (by omega) (by omega),
          hbyte (by omega) (by omega), nofun⟩
      · simp only [List.forall_mem_cons]
        exact ⟨hbyte (by omega) (by omega), hbyte (by omega) (by omega),
          hbyte (by omega) (by omega), hbyte (by omega) (by omega), nofun⟩

/-- **An ASCII byte in an encoding is the character of its code point.** -/
theorem eq_of_mem_utf8EncodeChar {b : UInt8} (h : b < 0x80)
    (hb : b ∈ String.utf8EncodeChar c) : c = Char.ofNat b.toNat := by
  have hsmall : b.toNat < 0x80 := UInt8.lt_iff_toNat_lt.mp h
  rcases Nat.lt_or_ge c.toNat 0x80 with hc | hc
  · rw [utf8EncodeChar_of_lt hc] at hb
    rw [List.mem_singleton.mp hb, toNat_ofNat (by omega), Char.ofNat_toNat]
  · have hle := le_of_mem_utf8EncodeChar hc b hb
    omega

/-- The character of an ASCII byte is encoded as that byte. -/
theorem utf8EncodeChar_ofNat {b : UInt8} (h : b < 0x80) :
    String.utf8EncodeChar (Char.ofNat b.toNat) = [b] := by
  have hsmall : b.toNat < 0x80 := UInt8.lt_iff_toNat_lt.mp h
  have hvalid : b.toNat.isValidChar := Or.inl (Nat.lt_trans hsmall (by decide))
  have hchar : (Char.ofNat b.toNat).toNat = b.toNat := by
    rw [Char.ofNat, dif_pos hvalid]
    rfl
  rw [utf8EncodeChar_of_lt (by omega), hchar, UInt8.ofNat_toNat]

@[simp] theorem encodeChars_nil : encodeChars [] = [] := rfl

@[simp] theorem encodeChars_cons (c : Char) (cs : List Char) :
    encodeChars (c :: cs) = String.utf8EncodeChar c ++ encodeChars cs :=
  List.flatMap_cons

/-- The bytes of a text behind another stand behind the bytes of that. -/
@[simp] theorem encodeChars_append (cs ds : List Char) :
    encodeChars (cs ++ ds) = encodeChars cs ++ encodeChars ds :=
  List.flatMap_append

/-- An encoding begins with a byte order mark only if the text begins with its character. -/
theorem dropByteOrderMark_encodeChars {cs : List Char} (h : cs.head? ≠ some '\ufeff') :
    dropByteOrderMark (encodeChars cs) = encodeChars cs := by
  unfold dropByteOrderMark
  split
  · rename_i rest heq
    have hpieces : cs.map Piece.char = .char '\ufeff' :: pieces rest := by
      rw [← pieces_encodeChars, heq]
      exact pieces_encodeChar_append rest '\ufeff'
    cases cs with
    | nil => cases hpieces
    | cons c cs =>
        obtain rfl : c = '\ufeff' := Piece.char.inj (List.cons.inj hpieces).1
        exact absurd rfl h
  · rfl

end AnnotatedText.Text
