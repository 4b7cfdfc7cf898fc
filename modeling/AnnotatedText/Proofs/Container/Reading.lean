import AnnotatedText.Container.Basic
import AnnotatedText.Proofs.Trie.WellFormed

/-!
# Reading hostile bytes

A reader of containers meets arbitrary bytes. `Codec.readChecked` reads them through accesses that
fail where a byte or a range is not there, and is undefined as soon as one of them fails;
`readChecked_eq` says that none ever does, because the length is asked for first. What the reader
accepts is said without the order of its checks by `Codec.IsContainer`: the header, the digest, the
body and the trie, each as it has to be.

Nothing is assumed of the codec. Its decoders may accept or refuse what they like, so nothing that
is said of an accepted trie comes from them.

## Main results

* `Container.Codec.readChecked_eq`: no access of the reader is out of range.
* `Container.Codec.read_eq_ok_iff`: the reader accepts exactly the containers.
-/

namespace AnnotatedText

/-- The bytes from one place to another; none if the range is reversed or ends outside. -/
def Bytes.slice? (bytes : Bytes) (start stop : Nat) : Option Bytes :=
  if start ≤ stop ∧ stop ≤ bytes.length then some ((bytes.drop start).take (stop - start)) else none

/-- A slice inside the bytes is what is dropped and taken. -/
theorem Bytes.slice?_eq_some {bytes : Bytes} {start stop : Nat} (h : start ≤ stop)
    (hs : stop ≤ bytes.length) :
    bytes.slice? start stop = some ((bytes.drop start).take (stop - start)) :=
  if_pos ⟨h, hs⟩

namespace Container

/-! ### Headers -/

/-- **Reads a header through checked accesses**; none if one of them is out of range or the digest
has another size than the place it is copied to. -/
def Header.readChecked (bytes : Bytes) : Option (Except Fault Header) := do
  if bytes.length < headerSize then return .error (.truncated bytes.length)
  let start ← bytes.slice? 0 14
  if start ≠ magic then return .error .badMagic
  let low ← bytes[14]?
  let high ← bytes[15]?
  let version := Bytes.toNat [low, high]
  if version ≠ formatVersion then return .error (.unsupportedVersion version)
  let flags ← bytes[16]?
  if flags &&& 0xFE ≠ 0 then return .error (.unknownFlags flags)
  let digest ← bytes.slice? 17 49
  if digest.length ≠ 32 then none
  else return .ok ⟨version, flags &&& 1 == 1, digest⟩

/-- A byte string as long as a header, with the parts that a reader looks at. -/
theorem exists_parts {bytes : Bytes} (h : headerSize ≤ bytes.length) :
    ∃ low high flags, bytes[14]? = some low ∧ bytes[15]? = some high ∧ bytes[16]? = some flags ∧
      (bytes.drop 14).take 2 = [low, high] ∧ (bytes.drop 16).headD 0 = flags := by
  have hsize : 64 ≤ bytes.length := h
  refine ⟨bytes[14], bytes[15], bytes[16], List.getElem?_eq_getElem _, List.getElem?_eq_getElem _,
    List.getElem?_eq_getElem _, ?_, ?_⟩
  · rw [List.drop_eq_getElem_cons (by omega : 14 < bytes.length),
      List.drop_eq_getElem_cons (by omega : 15 < bytes.length)]
    rfl
  · rw [List.drop_eq_getElem_cons (by omega : 16 < bytes.length)]
    rfl

/-- **No access to a header is out of range.** -/
theorem Header.readChecked_eq (bytes : Bytes) :
    Header.readChecked bytes = some (Header.read bytes) := by
  by_cases hsize : bytes.length < headerSize
  · simp [readChecked, Header.read, hsize]
  · have hlong : headerSize ≤ bytes.length := Nat.le_of_not_lt hsize
    have h64 : 64 ≤ bytes.length := hlong
    obtain ⟨low, high, flags, hlow, hhigh, hflags, hversion, hhead⟩ := exists_parts hlong
    have hstart : bytes.slice? 0 14 = some (bytes.take 14) :=
      Bytes.slice?_eq_some (by omega) (by omega)
    have hdigest : bytes.slice? 17 49 = some ((bytes.drop 17).take 32) :=
      Bytes.slice?_eq_some (by omega) (by omega)
    have hlength : ((bytes.drop 17).take 32).length = 32 := by
      rw [List.length_take, List.length_drop]
      omega
    simp only [readChecked, Header.read, if_neg hsize, hstart, hlow, hhigh, hflags, hversion, hhead,
      hdigest]
    by_cases hmagic : bytes.take 14 = magic
    · by_cases hv : Bytes.toNat [low, high] = formatVersion
      · by_cases hf : flags &&& 0xFE = 0
        · simp [hmagic, hv, hf, hlength]
        · simp [hmagic, hv, hf]
      · simp [hmagic, hv]
    · simp [hmagic]

/-- **What a header has to be**: the magic bytes, the version and no flag but the lowest one. -/
structure Header.IsRead (h : Header) (bytes : Bytes) : Prop where
  long_enough : headerSize ≤ bytes.length
  magic_eq : bytes.take 14 = magic
  version_eq : Bytes.toNat ((bytes.drop 14).take 2) = formatVersion
  flags_eq : ∃ flags, bytes[16]? = some flags ∧ flags &&& 0xFE = 0 ∧
    h.compressed = (flags &&& 1 == 1)
  header_version : h.version = formatVersion
  digest_eq : h.digest = (bytes.drop 17).take 32

/-- **A header is read if and only if the bytes are what a header has to be.** -/
theorem Header.read_eq_ok_iff {bytes : Bytes} {h : Header} :
    Header.read bytes = .ok h ↔ h.IsRead bytes := by
  unfold Header.read
  constructor
  · intro hread
    split at hread
    · cases hread
    · rename_i hsize
      split at hread
      · cases hread
      · rename_i hmagic
        dsimp only at hread
        split at hread
        · cases hread
        · rename_i hversion
          split at hread
          · cases hread
          · rename_i hflags
            have hlong : headerSize ≤ bytes.length := Nat.le_of_not_lt hsize
            obtain ⟨-, -, flags, -, -, hat, -, hhead⟩ := exists_parts hlong
            rw [hhead] at hflags hread
            obtain rfl := Except.ok.inj hread
            exact ⟨hlong, Decidable.not_not.mp hmagic, Decidable.not_not.mp hversion,
              ⟨flags, hat, Decidable.not_not.mp hflags, rfl⟩, Decidable.not_not.mp hversion, rfl⟩
  · rintro ⟨hlong, hmagic, hversion, ⟨flags, hat, hflags, hcompressed⟩, hv, hdigest⟩
    obtain ⟨version, compressed, digest⟩ := h
    simp only at hcompressed hv hdigest
    subst hcompressed hv hdigest
    simp [Nat.not_lt.mpr hlong, hmagic, hversion, hat, hflags]

/-! ### Containers -/

namespace Codec

/-- **Reads a container through checked accesses.** The decoders of the codec are total. -/
def readChecked (k : Codec) (bytes : Bytes) : Option (Except Fault Dictionary) := do
  match ← Header.readChecked bytes with
  | .error fault => return .error fault
  | .ok header =>
    let stored ← bytes.slice? headerSize bytes.length
    if Digest.sha256 stored ≠ header.digest then return .error .checksumMismatch
    match k.readBody header.compressed stored with
    | .error fault => return .error fault
    | .ok archive => return k.readArchive header.compressed archive

/-- **No access to a container is out of range.** -/
theorem readChecked_eq (k : Codec) (bytes : Bytes) : k.readChecked bytes = some (k.read bytes) := by
  rw [readChecked, Header.readChecked_eq, read]
  cases hread : Header.read bytes with
  | error fault => rfl
  | ok header =>
      have hlong := (Header.read_eq_ok_iff.mp hread).long_enough
      have hstored : bytes.slice? headerSize bytes.length = some (bytes.drop headerSize) := by
        have hall : (bytes.drop headerSize).length ≤ bytes.length - headerSize :=
          Nat.le_of_eq List.length_drop
        rw [Bytes.slice?_eq_some hlong (Nat.le_refl _), List.take_of_length_le hall]
      simp only [hstored]
      by_cases hdigest : Digest.sha256 (bytes.drop headerSize) = header.digest
      · cases hbody : k.readBody header.compressed (bytes.drop headerSize) with
        | error fault => simp [hdigest, hbody]
        | ok archive => simp [hdigest, hbody]
      · simp [hdigest]

/-- **What a container of a dictionary has to be.** -/
structure IsContainer (k : Codec) (bytes : Bytes) (d : Dictionary) : Prop where
  header : ∃ h : Header, h.IsRead bytes ∧ h.compressed = d.compress ∧
    h.digest = Digest.sha256 (bytes.drop headerSize)
  /-- The body is an archive of the content, compressed if the header says so. -/
  body : ∃ archive, k.readBody d.compress (bytes.drop headerSize) = .ok archive ∧
    k.decode archive = some (content d)
  trie_wellFormed : d.trie.WellFormed d.columns

/-- An archive is read as a dictionary whose content it is and whose trie is well-formed. -/
theorem readArchive_eq_ok_iff {k : Codec} {compressed : Bool} {archive : Bytes} {d : Dictionary} :
    k.readArchive compressed archive = .ok d ↔
      compressed = d.compress ∧ k.decode archive = some (content d) ∧
        d.trie.WellFormed d.columns := by
  unfold readArchive
  constructor
  · intro h
    split at h
    · cases h
    · rename_i c hdecode
      simp only at h
      split at h
      · cases h
      · rename_i hverify
        obtain rfl := Except.ok.inj h
        exact ⟨rfl, by simp [hdecode, content], Trie.verify_eq_ok_iff.mp hverify⟩
  · rintro ⟨rfl, hdecode, hwf⟩
    have hverify : Trie.verify ⟨(content d).nodes.toArray⟩
        ((content d).lists.map SourceList.columns) = .ok () := by
      simpa [content, Dictionary.columns] using Trie.verify_eq_ok_iff.mpr hwf
    simp only [hdecode, hverify]
    rfl

/-- **The reader accepts exactly the containers.** -/
theorem read_eq_ok_iff {k : Codec} {bytes : Bytes} {d : Dictionary} :
    k.read bytes = .ok d ↔ k.IsContainer bytes d := by
  unfold read
  constructor
  · intro h
    split at h
    · cases h
    · rename_i header hheader
      simp only at h
      split at h
      · cases h
      · rename_i hdigest
        split at h
        · cases h
        · rename_i archive hbody
          obtain ⟨hcompressed, hdecode, hwf⟩ := readArchive_eq_ok_iff.mp h
          refine ⟨⟨header, Header.read_eq_ok_iff.mp hheader, hcompressed, ?_⟩, ⟨archive, ?_, hdecode⟩,
            hwf⟩
          · exact (Decidable.not_not.mp hdigest).symm
          · rwa [← hcompressed]
  · rintro ⟨⟨header, hheader, hcompressed, hdigest⟩, ⟨archive, hbody, hdecode⟩, hwf⟩
    rw [Header.read_eq_ok_iff.mpr hheader]
    simp only [← hdigest, ne_eq, not_true_eq_false, if_false, hcompressed, hbody]
    exact readArchive_eq_ok_iff.mpr ⟨rfl, hdecode, hwf⟩

/-- **Every byte string is read without an access out of range, to a fault or to a dictionary**; it
is read to a dictionary only if its header and its digest are right and the trie is well-formed. -/
theorem read_fault_or_dictionary (k : Codec) (bytes : Bytes) :
    k.readChecked bytes = some (k.read bytes) ∧
      ((∃ fault, k.read bytes = .error fault) ∨
        ∃ d, k.read bytes = .ok d ∧ 64 ≤ bytes.length ∧ bytes.take 14 = magic ∧
          Bytes.toNat ((bytes.drop 14).take 2) = 1 ∧
          (∃ flags, bytes[16]? = some flags ∧ flags &&& 0xFE = 0) ∧
          (bytes.drop 17).take 32 = Digest.sha256 (bytes.drop 64) ∧
          d.trie.WellFormed d.columns) := by
  refine ⟨k.readChecked_eq bytes, ?_⟩
  cases hread : k.read bytes with
  | error fault => exact Or.inl ⟨fault, rfl⟩
  | ok d =>
      obtain ⟨⟨h, hheader, -, hdigest⟩, -, hwf⟩ := read_eq_ok_iff.mp hread
      obtain ⟨flags, hat, hflags, -⟩ := hheader.flags_eq
      exact Or.inr ⟨d, rfl, hheader.long_enough, hheader.magic_eq, hheader.version_eq,
        ⟨flags, hat, hflags⟩, hheader.digest_eq.symm.trans hdigest, hwf⟩

end Codec

end Container

end AnnotatedText
