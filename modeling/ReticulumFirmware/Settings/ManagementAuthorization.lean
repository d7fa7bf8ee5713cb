import ReticulumFirmware.Settings.Atomic

/-!
# The management allow-list record

`management_authorization.rs`: up to eight distinct Reticulum identity hashes in a mirrored
record, with the codec of the list and the two operations of its owner.
-/

namespace Management

open Nor Settings

/-- Maximum number of authorized identities. -/
abbrev managementIdentityCapacity : ℕ := 8

/-- Bytes of one identity hash. -/
abbrev identityBytes : ℕ := 16

/-- Policy faults of this owner. -/
inductive EnrollmentFault where
  | full
  deriving DecidableEq

/-- One Reticulum identity hash. -/
abbrev ManagementIdentity := Vector Byte identityBytes

/-- The hash that fills unused slots. -/
def emptyIdentity : ManagementIdentity := Vector.replicate identityBytes 0

/-- The authorized identities in enrollment order. -/
structure Identities where
  list : List ManagementIdentity
  bounded : list.length ≤ managementIdentityCapacity
  distinct : list.Nodup
  deriving DecidableEq

namespace Identities

/-- No identity. -/
def empty : Identities := ⟨[], by decide, List.nodup_nil⟩

/-- Append a new identity to a list with room. -/
def push (identities : Identities) (identity : ManagementIdentity)
    (hnew : identity ∉ identities.list)
    (hroom : identities.list.length ≠ managementIdentityCapacity) : Identities where
  list := identities.list ++ [identity]
  bounded := by
    have hbound : identities.list.length ≤ 8 := identities.bounded
    have hroom : identities.list.length ≠ 8 := hroom
    rw [List.length_append, List.length_singleton]
    exact (show identities.list.length + 1 ≤ 8 by omega)
  distinct := List.nodup_append.mpr ⟨identities.distinct, by simp, by
    intro a ha b hb hab
    rw [List.mem_singleton] at hb
    exact hnew (hb ▸ hab ▸ ha)⟩

/-- The eight slots of a record. -/
def slots (identities : Identities) : List ManagementIdentity :=
  identities.list ++
    List.replicate (managementIdentityCapacity - identities.list.length) emptyIdentity

/-- There are eight slots. -/
theorem length_slots (identities : Identities) : identities.slots.length = 8 := by
  have hbound : identities.list.length ≤ 8 := identities.bounded
  rw [slots, List.length_append, List.length_replicate]
  exact Nat.add_sub_of_le hbound

end Identities

/-- The identities of a record, with its unused slots checked. -/
def parseIdentities (record : List Byte) : Option Identities :=
  let count := beNat (slice record extraOffset 4)
  if hcount : managementIdentityCapacity < count then none
  else
    let identities := (List.range managementIdentityCapacity).map fun index =>
      copyArray identityBytes (slice record (payloadOffset + index * identityBytes) identityBytes)
    if (identities.drop count).any (· != emptyIdentity) then none
    else if hdistinct : (identities.take count).Nodup then
      some ⟨identities.take count, by simp; omega, hdistinct⟩
    else none

/-- Each slot has 16 bytes. -/
theorem slots_widths (identities : Identities) :
    (identities.slots.map Vector.toList).map List.length = List.replicate 8 16 := by
  rw [← identities.length_slots, List.map_map]
  exact List.map_eq_replicate_iff.mpr fun identity _ => by simp

/-- A record with the slots of a list is parsed to it. -/
theorem parseIdentities_of_fields (identities : Identities) (record : List Byte)
    (hextra : slice record 12 4 = beBytes 4 identities.list.length)
    (hpayload : slice record 64 128 = (identities.slots.map Vector.toList).flatten) :
    parseIdentities record = some identities := by
  have hbound : identities.list.length ≤ 8 := identities.bounded
  have hcount : beNat (slice record 12 4) = identities.list.length := by
    rw [hextra]
    exact beNat_beBytes_of_lt (by omega)
  have hslots : (List.range 8).map (fun index =>
      copyArray 16 (slice record (64 + index * 16) 16)) = identities.slots := by
    apply List.ext_getElem
    · simp [identities.length_slots]
    · intro i hi hi'
      have hlt : i < 8 := by simpa using hi
      have hslice : slice record (64 + i * 16) 16 = (identities.slots[i]).toList := by
        have hinside : i * 16 + 16 ≤ 128 := by omega
        rw [← slice_slice hinside, hpayload]
        apply slice_flatten (i := i) (slots_widths identities)
        · rw [List.getElem?_map, List.getElem?_eq_getElem hi']
          rfl
        · rw [List.take_replicate, Nat.min_eq_left hlt.le, List.sum_replicate_nat]
        · simp
      rw [List.getElem_map, List.getElem_range, hslice, copyArray_toList]
  have htake : identities.slots.take identities.list.length = identities.list := by
    simp [Identities.slots]
  have hdrop : (identities.slots.drop identities.list.length).any (· != emptyIdentity) = false := by
    simp [Identities.slots]
  unfold parseIdentities
  simp only [hcount, hslots, htake]
  rw [dif_neg (Nat.not_lt.mpr hbound), if_neg (by simp [hdrop]), dif_pos identities.distinct]

/-- The management allow-list format. -/
def format : Format Identities where
  magic := ascii "E290MGT1"
  commitMarker := [
    0x36, 0xa9, 0x51, 0x0c, 0xe2, 0x47, 0x8b, 0x5d, 0x19, 0xf0, 0x62, 0xad, 0x84, 0x33, 0xc7, 0x5a,
    0x91, 0x2e, 0x48, 0xb6, 0x07, 0xdc, 0x69, 0x14, 0xfa, 0x25, 0x80, 0x4d, 0xb3, 0x7e, 0x01, 0xcc]
  empty := .empty
  extra identities := beBytes 4 identities.list.length
  payload identities := (identities.slots.map Vector.toList).flatten
  parsePayload := parseIdentities
  length_magic := by decide
  length_commitMarker := by decide
  length_extra _ := length_beBytes ..
  length_payload identities := by
    rw [List.length_flatten, slots_widths]
    decide
  commitMarker_ne_erased := by decide
  parsePayload_of_fields := parseIdentities_of_fields

/-- The mounted allow-list; the value is the list of identities. -/
abbrev ManagementAllowlist := Generation Identities

/-- Result of one enrollment. -/
inductive EnrollmentCommit where
  | alreadyPresent
  | added (generation identityCount : ℕ)
  deriving DecidableEq

section Programs

variable {ε : Type} (sha256 : Sha256) (geometry : Geometry)

/-- Mount the newest valid allow-list without changing the flash. -/
def mountManagementAllowlist : SettingsAction ε EnrollmentFault ManagementAllowlist :=
  mount format sha256 geometry

/-- Add one identity with the inactive mirror and a commit-last record. The answer carries the
list that `current` is left with. -/
def enrollManagementIdentity (current : ManagementAllowlist) (identity : ManagementIdentity) :
    SettingsAction ε EnrollmentFault (EnrollmentCommit × ManagementAllowlist) := do
  validateGeometry geometry
  if hpresent : identity ∈ current.value.list then pure (.alreadyPresent, current)
  else if hfull : current.value.list.length = managementIdentityCapacity then
    throw (.fault (.policy .full))
  else
    let identities := current.value.push identity hpresent hfull
    let mounted ← commitSuccessor format sha256 geometry current identities fun value =>
      value.list.length = identities.list.length ∧ identity ∈ value.list
    pure (.added (current.generation + 1) mounted.value.list.length, mounted)

end Programs

end Management
