import ReticulumFirmware.Nor.Action

/-!
# The device-identity partition format

One record of `product_identity.rs` occupies the first 256 bytes of a mirror sector:
claim marker, header, private key, zeroed reserve, digest and commit marker. This file
gives the record codec, the classification of a scanned sector and the selection between
the two mirrors. The hash function is a parameter.
-/

namespace ProductIdentity

open Nor

/-- Bytes of one combined private key. -/
abbrev privateKeySize : ℕ := 64

/-- Bytes of the identity partition. -/
abbrev partitionSize : ℕ := 0x2000

/-- Bytes of one mirror and of one erase sector. -/
abbrev mirrorSectorSize : ℕ := 0x1000

/-- Bytes of a committed record. -/
abbrev recordSize : ℕ := 0x100

/-- On-flash format version. -/
abbrev physicalFormatVersion : ℕ := 1

abbrev claimOffset : ℕ := 0x000
abbrev claimSize : ℕ := 32
abbrev headerOffset : ℕ := 0x020
abbrev privateKeyOffset : ℕ := 0x040
abbrev reservedOffset : ℕ := 0x080
abbrev reservedSize : ℕ := 64
abbrev digestOffset : ℕ := 0x0c0
abbrev digestSize : ℕ := 32
abbrev commitOffset : ℕ := 0x0e0
abbrev commitSize : ℕ := 32
abbrev bodyWriteSize : ℕ := commitOffset - headerOffset

/-- Bytes of one read behind a record. -/
abbrev tailScanChunkSize : ℕ := 32

/-- The only format of a private key. -/
abbrev keyFormatRnsCombinedPrivate : ℕ := 1

/-- The only generation of an identity. -/
abbrev identityGeneration : ℕ := 1

/-- Magic of the record header. -/
def headerMagic : List Byte := ascii "RTIDREC1"

/-- Domain separation of the record digest. -/
def digestDomain : List Byte := ascii "reticulum-rs-firmware/device-identity/record/v1\x00"

/-- Marker programmed first. -/
def claimMarker : List Byte := [
  0x8d, 0x21, 0xe6, 0x4a, 0x93, 0x5c, 0x17, 0xb8, 0x2f, 0xc0, 0x69, 0xd4, 0x35, 0x7a, 0xa1, 0x0e,
  0xf2, 0x48, 0x9b, 0x63, 0x1d, 0xc7, 0x54, 0xae, 0x70, 0x06, 0xdb, 0x39, 0x85, 0xec, 0x12, 0x5f]

/-- Marker programmed last. -/
def commitMarker : List Byte := [
  0x47, 0xb2, 0x0c, 0xf1, 0x68, 0x9d, 0x35, 0xe4, 0x1a, 0x73, 0xc8, 0x56, 0xaf, 0x04, 0xdb, 0x91,
  0x2e, 0x65, 0xf9, 0x18, 0x83, 0x4c, 0xb7, 0x20, 0xda, 0x5b, 0x0f, 0xe6, 0x74, 0xa9, 0x31, 0xcd]

/-- The claim marker has 32 bytes. -/
@[simp] theorem length_claimMarker : claimMarker.length = 32 := rfl

/-- The commit marker has 32 bytes. -/
@[simp] theorem length_commitMarker : commitMarker.length = 32 := rfl

/-- One combined private key. -/
abbrev PrivateKey := Vector Byte privateKeySize

/-- One physical mirror sector. -/
inductive IdentityMirror where
  /-- The sector at offset zero. -/
  | a
  /-- The sector at offset 4 KiB. -/
  | b
  deriving DecidableEq, Repr

namespace IdentityMirror

/-- First byte of a mirror. -/
def offset : IdentityMirror → ℕ
  | a => 0
  | b => mirrorSectorSize

/-- The first mirror is at the start. -/
@[simp] theorem offset_a : a.offset = 0 := rfl

/-- The second mirror is in the next sector. -/
@[simp] theorem offset_b : b.offset = 4096 := rfl

/-- The peer of a mirror. -/
def other : IdentityMirror → IdentityMirror
  | a => b
  | b => a

/-- The other mirror of the other one is the mirror. -/
@[simp] theorem other_other (mirror : IdentityMirror) : mirror.other.other = mirror := by
  cases mirror <;> rfl

/-- A mirror that is not the given one is its peer. -/
theorem eq_other_of_ne {mirror mirror' : IdentityMirror} (h : mirror' ≠ mirror) :
    mirror' = mirror.other := by
  cases mirror <;> cases mirror' <;> first | rfl | exact absurd rfl h

end IdentityMirror

/-- What a scan finds in one sector. -/
inductive SectorState where
  | erased
  | torn
  | valid (record : PrivateKey)
  | committedCorrupt
  | unknown
  deriving DecidableEq

/-- What the two sectors together amount to. -/
inductive Selection where
  | redundant (record : PrivateKey)
  | single (authoritative : IdentityMirror) (record : PrivateKey) (other : SectorState)
  | vacant (a b : SectorState)
  deriving DecidableEq

/-- Why no selection is possible. -/
inductive SelectionError where
  | committedCorrupt (mirror : IdentityMirror)
  | unknown (mirror : IdentityMirror)
  | conflict
  deriving DecidableEq

section Codec

variable (sha256 : Sha256)

/-- The digest of everything before the digest field. -/
def recordDigest (record : List Byte) : List Byte :=
  (sha256 (digestDomain ++ record.take digestOffset)).toList

/-- The fields before the digest, in offset order. -/
def digestedFields (privateKey : PrivateKey) : List (List Byte) := [
  claimMarker,
  headerMagic,
  leBytes 2 physicalFormatVersion,
  leBytes 2 keyFormatRnsCombinedPrivate,
  leBytes 2 recordSize,
  leBytes 2 privateKeySize,
  leBytes 8 identityGeneration,
  List.replicate 8 0,
  privateKey.toList,
  List.replicate reservedSize 0]

/-- All fields of a record, in offset order. -/
def recordFields (privateKey : PrivateKey) : List (List Byte) :=
  digestedFields privateKey ++
    [recordDigest sha256 (digestedFields privateKey).flatten, commitMarker]

/-- The record of a private key. -/
def encodeRecord (privateKey : PrivateKey) : List Byte := (recordFields sha256 privateKey).flatten

/-- The private key of a canonical record. -/
def decodeRecord (record : List Byte) : Option PrivateKey :=
  if record.length ≠ recordSize
    ∨ slice record claimOffset claimSize ≠ claimMarker
    ∨ slice record headerOffset 8 ≠ headerMagic
    ∨ leNat (slice record (headerOffset + 8) 2) ≠ physicalFormatVersion
    ∨ leNat (slice record (headerOffset + 10) 2) ≠ keyFormatRnsCombinedPrivate
    ∨ leNat (slice record (headerOffset + 12) 2) ≠ recordSize
    ∨ leNat (slice record (headerOffset + 14) 2) ≠ privateKeySize
    ∨ leNat (slice record (headerOffset + 16) 8) ≠ identityGeneration
    ∨ (slice record (headerOffset + 24) 8).any (· != 0)
    ∨ (slice record reservedOffset reservedSize).any (· != 0)
    ∨ slice record commitOffset commitSize ≠ commitMarker
    ∨ slice record digestOffset digestSize ≠ recordDigest sha256 record
  then none
  else some (copyArray privateKeySize (slice record privateKeyOffset privateKeySize))

/-- Whether the bytes are a strict intermediate of programming `expected`. -/
def monotonicPartial (actual expected : List Byte) : Bool :=
  actual != expected && covers actual expected

/-- The state of a sector with this record area and this answer of the tail scan. -/
def classify (record : List Byte) (tailIsErased : Bool) : SectorState :=
  if record.all (· == erasedByte) && tailIsErased then .erased
  else if !tailIsErased then .unknown
  else if slice record claimOffset claimSize ≠ claimMarker then
    if monotonicPartial (slice record claimOffset claimSize) claimMarker
        && (record.drop headerOffset).all (· == erasedByte) then .torn
    else .unknown
  else if slice record commitOffset commitSize = commitMarker then
    match decodeRecord sha256 record with
    | some privateKey => .valid privateKey
    | none => .committedCorrupt
  else if monotonicPartial (slice record commitOffset commitSize) commitMarker then .torn
  else .unknown

end Codec

/-- Decide between the two sectors. -/
def select : SectorState → SectorState → Except SelectionError Selection
  | .valid a, .valid b => if a = b then .ok (.redundant a) else .error .conflict
  | .valid record, other => .ok (.single .a record other)
  | other, .valid record => .ok (.single .b record other)
  | a, b =>
    if a = .committedCorrupt then .error (.committedCorrupt .a)
    else if b = .committedCorrupt then .error (.committedCorrupt .b)
    else if a = .unknown then .error (.unknown .a)
    else if b = .unknown then .error (.unknown .b)
    else .ok (.vacant a b)

end ProductIdentity
