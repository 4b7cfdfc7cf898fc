import AnnotatedText.Container.Archive.Dictionary
import AnnotatedText.Container.Digest
import AnnotatedText.Container.Frame
import AnnotatedText.Dictionary.Basic

/-!
# Containers

A container is the written form of a dictionary: a header of 64 bytes and a body. The header names
the format and its version, says whether the body is compressed and holds the digest of the body as
it is stored; the body is the archive of the dictionary.

A reader checks everything that it is going to rely on, in the order in which it needs it: the
header, the digest, the compression, the archive and at last the trie. What an archive and a
compressed form look like is left to a `Codec`, with which containers are written and read.
-/

namespace AnnotatedText.Container

/-- The bytes a container begins with. -/
def magic : Bytes := Text.encode "TextMarkerMTWL"

/-- The version of the format. -/
def formatVersion : Nat := 1

/-- The size of the header, with its padding. -/
def headerSize : Nat := 64

/-- The greatest size of a body that was compressed. -/
def bodyLimit : Nat := 1024 * 1024 * 1024

/-- Why a byte string is no container. -/
inductive Fault where
  | truncated (size : Nat)
  | badMagic
  | unsupportedVersion (version : Nat)
  | unknownFlags (flags : UInt8)
  | checksumMismatch
  | undecodableBody
  | oversizedBody
  | invalidArchive
  | badTrie (fault : TrieFault)
  deriving DecidableEq

/-- The wording of the fault. -/
def Fault.message : Fault → String
  | truncated size => s!"the dictionary is truncated: {size} bytes is shorter than the header"
  | badMagic => "the magic number of the input dictionary mismatches"
  | unsupportedVersion version => s!"unsupported format version: {version}"
  | unknownFlags flags => "unknown header flags: 0x" ++ Bytes.hex [flags]
  | checksumMismatch => "checksum mismatch: the body is truncated or corrupted"
  | undecodableBody => "undecodable zstd stream"
  | oversizedBody => s!"the decompressed body is too large: more than {bodyLimit} bytes"
  | invalidArchive =>
    "rkyv validation failed. The dictionary file may be corrupted or incompatible."
  | badTrie fault => fault.message

/-- What the header of a container says. -/
structure Header where
  version : Nat
  compressed : Bool
  digest : Bytes
  deriving DecidableEq

namespace Header

/-- The flags of a header. Only the lowest bit has a meaning. -/
def flags (compressed : Bool) : UInt8 := if compressed then 1 else 0

/-- The bytes of a header, with its padding. -/
def write (h : Header) : Bytes :=
  magic ++ Bytes.littleEndian 2 h.version ++ [flags h.compressed] ++ h.digest ++
    List.replicate 15 0xFF

/-- Reads the header at the beginning of a container. -/
def read (bytes : Bytes) : Except Fault Header :=
  let version := Bytes.toNat ((bytes.drop 14).take 2)
  let flags := (bytes.drop 16).headD 0
  if bytes.length < headerSize then .error (.truncated bytes.length)
  else if bytes.take 14 ≠ magic then .error .badMagic
  else if version ≠ formatVersion then .error (.unsupportedVersion version)
  else if flags &&& 0xFE ≠ 0 then .error (.unknownFlags flags)
  else .ok ⟨version, flags &&& 1 == 1, (bytes.drop 17).take 32⟩

end Header

/-- The content of a dictionary's archive. -/
def content (d : Dictionary) : Archive.Content := ⟨d.caseSensitive, d.lists, d.trie.nodes.toList⟩

/-! ### Bodies -/

/-- The two formats that a body is made of: archives of contents, and compressed byte strings. -/
structure Codec where
  /-- The archive of a content. -/
  encode : Archive.Content → Bytes
  /-- The content of an archive, if it is one. -/
  decode : Bytes → Option Archive.Content
  /-- The compressed form of a byte string. -/
  compress : Bytes → Bytes
  /-- The first bytes, up to the given number, of what a byte string is the compressed form of; none
  if it is found to be no compressed form on the way to them. -/
  decompress : Nat → Bytes → Option Bytes

/-- A codec of its own: archives as they are laid out here, compressed to frames. -/
def Codec.standard : Codec where
  encode := Archive.contentLayout.encode
  decode := Archive.contentLayout.decode
  compress := Frame.encode
  decompress limit bytes := (Frame.decode bytes).map (List.take limit)

namespace Codec

/-- The body of a container, as it is stored. -/
def body (k : Codec) (d : Dictionary) : Bytes :=
  let archive := k.encode (content d)
  if d.compress then k.compress archive else archive

/-- The container of a dictionary. -/
def write (k : Codec) (d : Dictionary) : Bytes :=
  let stored := k.body d
  (Header.mk formatVersion d.compress (Digest.sha256 stored)).write ++ stored

/-- The archive in a stored body. No more of it is decompressed than shows that it is too large. -/
def readBody (k : Codec) (compressed : Bool) (stored : Bytes) : Except Fault Bytes :=
  if compressed then
    match k.decompress (bodyLimit + 1) stored with
    | none => .error .undecodableBody
    | some archive => if archive.length ≤ bodyLimit then .ok archive else .error .oversizedBody
  else .ok stored

/-- The dictionary of an archive. -/
def readArchive (k : Codec) (compressed : Bool) (archive : Bytes) : Except Fault Dictionary :=
  match k.decode archive with
  | none => .error .invalidArchive
  | some c =>
    let trie : Trie := ⟨c.nodes.toArray⟩
    match trie.verify (c.lists.map SourceList.columns) with
    | .error fault => .error (.badTrie fault)
    | .ok _ => .ok ⟨c.caseSensitive, c.lists, trie, compressed⟩

/-- Reads a container. -/
def read (k : Codec) (bytes : Bytes) : Except Fault Dictionary :=
  match Header.read bytes with
  | .error fault => .error fault
  | .ok header =>
    let stored := bytes.drop headerSize
    if Digest.sha256 stored ≠ header.digest then .error .checksumMismatch
    else
      match k.readBody header.compressed stored with
      | .error fault => .error fault
      | .ok archive => k.readArchive header.compressed archive

end Codec

end AnnotatedText.Container
