import AnnotatedText.Proofs.Dictionary.Obtained

/-!
# Containers read back

What is written of an obtained dictionary is read back as that dictionary. The reader asks for much
that the writer does not look at: that edges and markers are sorted, that children stand behind
their parents, that attributes fit their columns. An obtained dictionary has all of it, whichever
calls built it, so the check of its trie cannot fail.

What is asked of the codec is that its decoders undo its encoders on the content at hand, and that
the content is not too large for a compressed body.

## Main results

* `Container.Header.read_write_append`: a header is read back.
* `Container.Codec.read_write`: a container is read back if its trie is well-formed.
* `Container.Codec.eq_of_read_write`: it is never read as another dictionary.
-/

namespace AnnotatedText.Container

/-! ### Headers -/

/-- A word of the digest is four bytes long. -/
theorem length_wordBytes (w : UInt32) : (Digest.wordBytes w).length = 4 := by
  simp [Digest.wordBytes]

/-- A digest has 32 bytes. -/
theorem length_sha256 (message : Bytes) : (Digest.sha256 message).length = 32 := by
  simp [Digest.sha256, length_wordBytes]

theorem length_magic : magic.length = 14 := by decide

/-- The flags of a header tell whether the body is compressed, and nothing else. -/
theorem flags_spec (compressed : Bool) :
    Header.flags compressed &&& 0xFE = 0 ∧ compressed = (Header.flags compressed &&& 1 == 1) := by
  cases compressed <;> decide

/-- The bytes of a container from the places on at which its parts begin. -/
theorem Header.drop_write_append {h : Header} (hdigest : h.digest.length = 32) (stored : Bytes) :
    (h.write ++ stored).take 14 = magic ∧
      ((h.write ++ stored).drop 14).take 2 = Bytes.littleEndian 2 h.version ∧
      (h.write ++ stored)[16]? = some (flags h.compressed) ∧
      ((h.write ++ stored).drop 17).take 32 = h.digest ∧
      (h.write ++ stored).drop headerSize = stored := by
  have hparts : h.write ++ stored = magic ++ (Bytes.littleEndian 2 h.version ++
      (flags h.compressed :: (h.digest ++ (List.replicate 15 0xFF ++ stored)))) := by
    simp [write]
  have h14 : (h.write ++ stored).drop 14 = Bytes.littleEndian 2 h.version ++
      (flags h.compressed :: (h.digest ++ (List.replicate 15 0xFF ++ stored))) := by
    rw [hparts]
    exact List.drop_left' length_magic
  have h16 : (h.write ++ stored).drop 16 =
      flags h.compressed :: (h.digest ++ (List.replicate 15 0xFF ++ stored)) := by
    rw [← List.drop_drop (i := 2) (j := 14), h14]
    exact List.drop_left' (Bytes.length_littleEndian 2 _)
  have h17 : (h.write ++ stored).drop 17 = h.digest ++ (List.replicate 15 0xFF ++ stored) := by
    rw [← List.drop_drop (i := 1) (j := 16), h16]
    rfl
  refine ⟨?_, ?_, ?_, ?_, ?_⟩
  · rw [hparts]
    exact List.take_left' length_magic
  · rw [h14]
    exact List.take_left' (Bytes.length_littleEndian 2 _)
  · have hhead : ((h.write ++ stored).drop 16)[0]? = (h.write ++ stored)[16]? :=
      List.getElem?_drop
    rw [← hhead, h16]
    rfl
  · rw [h17]
    exact List.take_left' hdigest
  · have hdrop : (h.write ++ stored).drop 64 =
        ((h.digest ++ (List.replicate 15 0xFF ++ stored)).drop 32).drop 15 := by
      rw [← h17, List.drop_drop, List.drop_drop]
    rw [headerSize, hdrop, List.drop_left' hdigest]
    exact List.drop_left' (by simp)

/-- **A header is read back**, whatever stands behind it. -/
theorem Header.read_write_append {h : Header} (hversion : h.version = formatVersion)
    (hdigest : h.digest.length = 32) (stored : Bytes) :
    Header.read (h.write ++ stored) = .ok h := by
  obtain ⟨hmagic, hnumber, hflags, hread, -⟩ := drop_write_append hdigest stored
  obtain ⟨hreserved, hcompressed⟩ := flags_spec h.compressed
  refine read_eq_ok_iff.mpr ⟨?_, hmagic, ?_, ⟨_, hflags, hreserved, hcompressed⟩, hversion,
    hread.symm⟩
  · simp [headerSize, write, length_magic, hdigest]
    omega
  · rw [hnumber, hversion]
    decide

/-! ### Containers -/

namespace Codec

/-- **A stored body is read back** if the codec undoes its compression of the archive. -/
theorem readBody_body {k : Codec} {d : Dictionary}
    (hframe : d.compress = true → ∀ limit,
      k.decompress limit (k.compress (k.encode (content d))) =
        some ((k.encode (content d)).take limit))
    (hlimit : d.compress = true → (k.encode (content d)).length ≤ bodyLimit) :
    k.readBody d.compress (k.body d) = .ok (k.encode (content d)) := by
  cases hc : d.compress with
  | false => simp [readBody, body, hc]
  | true =>
      have hsize := hlimit hc
      have hwhole : (k.encode (content d)).take (bodyLimit + 1) = k.encode (content d) :=
        List.take_of_length_le (Nat.le_succ_of_le hsize)
      simp [readBody, body, hc, hframe hc, hwhole, hsize]

/-- **A container is read back** if the trie of its dictionary is well-formed. -/
theorem read_write {k : Codec} {d : Dictionary} (hwf : d.trie.WellFormed d.columns)
    (harchive : k.decode (k.encode (content d)) = some (content d))
    (hframe : d.compress = true → ∀ limit,
      k.decompress limit (k.compress (k.encode (content d))) =
        some ((k.encode (content d)).take limit))
    (hlimit : d.compress = true → (k.encode (content d)).length ≤ bodyLimit) :
    k.read (k.write d) = .ok d := by
  have hdigest := length_sha256 (k.body d)
  let header : Header := ⟨formatVersion, d.compress, Digest.sha256 (k.body d)⟩
  have hheader : Header.read (k.write d) = .ok header := Header.read_write_append rfl hdigest _
  obtain ⟨-, -, -, -, hstored⟩ := Header.drop_write_append (h := header) hdigest (k.body d)
  have hbody : (k.write d).drop headerSize = k.body d := hstored
  refine read_eq_ok_iff.mpr ⟨⟨header, Header.read_eq_ok_iff.mp hheader, rfl, ?_⟩,
    ⟨k.encode (content d), ?_, harchive⟩, hwf⟩
  · rw [hbody]
  · rw [hbody]
    exact readBody_body hframe hlimit

/-- A stored body is never read as another archive: one that is too large is refused. -/
theorem eq_of_readBody_body {k : Codec} {d : Dictionary} {archive : Bytes}
    (hframe : d.compress = true → ∀ limit,
      k.decompress limit (k.compress (k.encode (content d))) =
        some ((k.encode (content d)).take limit))
    (h : k.readBody d.compress (k.body d) = .ok archive) : archive = k.encode (content d) := by
  have hlimit : d.compress = true → (k.encode (content d)).length ≤ bodyLimit := by
    intro hc
    refine Nat.le_of_not_lt fun hlarge => ?_
    have htake : ¬ ((k.encode (content d)).take (bodyLimit + 1)).length ≤ bodyLimit := by
      rw [List.length_take]
      omega
    rw [readBody, body, hc, if_pos rfl, if_pos rfl, hframe hc] at h
    simp only [htake, if_false] at h
    cases h
  exact Except.ok.inj (h.symm.trans (readBody_body hframe hlimit))

/-- A dictionary is its content and the choice of whether it is compressed. -/
theorem eq_of_content_eq {d e : Dictionary} (hcontent : content d = content e)
    (hcompress : d.compress = e.compress) : d = e := by
  obtain ⟨hcase, hlists, hnodes⟩ := Archive.Content.mk.inj hcontent
  have htrie : d.trie = e.trie := congrArg Trie.mk (Array.toList_inj.mp hnodes)
  cases d
  cases e
  exact (Dictionary.mk.injEq ..).mpr ⟨hcase, hlists, htrie, hcompress⟩

/-- **What is written of a dictionary is read as that dictionary or refused**, whatever its trie
is. -/
theorem eq_of_read_write {k : Codec} {d e : Dictionary}
    (harchive : k.decode (k.encode (content d)) = some (content d))
    (hframe : d.compress = true → ∀ limit,
      k.decompress limit (k.compress (k.encode (content d))) =
        some ((k.encode (content d)).take limit))
    (h : k.read (k.write d) = .ok e) : e = d := by
  obtain ⟨⟨header, hheader, hcompressed, -⟩, ⟨archive, hbody, hdecode⟩, -⟩ := read_eq_ok_iff.mp h
  let written : Header := ⟨formatVersion, d.compress, Digest.sha256 (k.body d)⟩
  have hdigest : written.digest.length = 32 := length_sha256 (k.body d)
  have hsame : written = header := Except.ok.inj <|
    (Header.read_write_append rfl hdigest (k.body d)).symm.trans (Header.read_eq_ok_iff.mpr hheader)
  have hcompress : e.compress = d.compress := by rw [← hcompressed, ← hsame]
  obtain ⟨-, -, -, -, hstored⟩ := Header.drop_write_append hdigest (k.body d)
  have hstored : (k.write d).drop headerSize = k.body d := hstored
  rw [hcompress, hstored] at hbody
  obtain rfl := eq_of_readBody_body hframe hbody
  exact eq_of_content_eq (Option.some.inj (hdecode.symm.trans harchive)) hcompress

/-- **An obtained dictionary passes the check of its trie and is read back as it was written**,
whether it is written compressed or not. -/
theorem read_write_of_obtained {k : Codec} {d : Dictionary} (hd : Dictionary.Obtained k d)
    (compress : Bool) (harchive : k.decode (k.encode (content d)) = some (content d))
    (hframe : compress = true → ∀ limit,
      k.decompress limit (k.compress (k.encode (content d))) =
        some ((k.encode (content d)).take limit))
    (hlimit : compress = true → (k.encode (content d)).length ≤ bodyLimit) :
    d.trie.verify d.columns = .ok () ∧
      k.read (k.write (d.withCompression compress)) = .ok (d.withCompression compress) :=
  ⟨Trie.verify_eq_ok_iff.mpr hd.wellFormed,
    read_write (d := d.withCompression compress) hd.wellFormed harchive hframe hlimit⟩

/-- What the standard codec compresses is decompressed up to the limit. -/
theorem decompress_standard {bytes : Bytes} (h : Frame.decode (Frame.encode bytes) = some bytes)
    (limit : Nat) :
    standard.decompress limit (standard.compress bytes) = some (bytes.take limit) := by
  simp [standard, h]

/-- A compressed container of some cities is read back by the standard codec. -/
theorem read_write_cities :
    standard.read (standard.write
        ((DictionaryBuilder.dictionary .standard [Sample.cities]).withCompression true)) =
      .ok ((DictionaryBuilder.dictionary .standard [Sample.cities]).withCompression true) := by
  have harchive : standard.decode (standard.encode
      (content (DictionaryBuilder.dictionary .standard [Sample.cities]))) =
        some (content (DictionaryBuilder.dictionary .standard [Sample.cities])) := by
    decide +kernel
  have hframe : Frame.decode (Frame.encode (standard.encode
      (content (DictionaryBuilder.dictionary .standard [Sample.cities])))) =
        some (standard.encode
          (content (DictionaryBuilder.dictionary .standard [Sample.cities]))) := by
    decide +kernel
  have hlimit : (standard.encode
      (content (DictionaryBuilder.dictionary .standard [Sample.cities]))).length ≤ bodyLimit := by
    decide +kernel
  have hobtained : Dictionary.Obtained standard
      (DictionaryBuilder.dictionary .standard [Sample.cities]) :=
    .built .standard [Sample.cities]
  exact (read_write_of_obtained hobtained true harchive (fun _ => decompress_standard hframe)
    fun _ => hlimit).2

end Codec

end AnnotatedText.Container
