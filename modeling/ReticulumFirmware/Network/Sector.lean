import ReticulumFirmware.Network.Store
import ReticulumFirmware.Network.Codec

/-!
# Sector statuses of the network configuration store

Scanning a sector without backend errors gives a function of its contents. This file relates
that function to the bytes that a commit and an erase leave, shows that an encoded record is
scanned as the snapshot it was written for, and says what a successful mount found.
-/

namespace Network

open Nor

variable {ε : Type} {sha256 : Sha256} {binding : NetworkConfigStoreBinding}
  {access : BoundNetworkConfigStore} {sector : NetworkConfigStoreSector} {f g : Flash}

/-- Two configurations retain the same values. -/
structure NetworkConfig.Same (left right : NetworkConfig) : Prop where
  wifiProfiles : left.wifiProfiles = right.wifiProfiles
  tcpPeer : left.tcpPeer = right.tcpPeer
  wifiTransportEnabled : left.wifiTransportEnabled = right.wifiTransportEnabled
  automaticAnnouncesEnabled : left.automaticAnnouncesEnabled = right.automaticAnnouncesEnabled
  rmapDiscoveryEnabled : left.rmapDiscoveryEnabled = right.rmapDiscoveryEnabled
  rmapShareLocation : left.rmapShareLocation = right.rmapShareLocation
  phoneLocation : left.phoneLocation = right.phoneLocation
  loraProfile : left.loraProfile = right.loraProfile

/-- A compact configuration is the same one. -/
theorem NetworkConfig.compact_same (configuration : NetworkConfig) :
    configuration.compact.Same configuration :=
  ⟨configuration.wifiProfiles_compact, rfl, rfl, rfl, rfl, rfl, rfl, rfl⟩

/-- Accumulated differences vanish only when the secrets are equal. -/
theorem foldl_difference {left right : List Byte} (hlength : left.length = right.length)
    (difference : Byte) :
    (left.zip right).foldl (fun difference (l, r) => difference ||| (l ^^^ r)) difference = 0 ↔
      difference = 0 ∧ left = right := by
  induction left generalizing right difference with
  | nil =>
    cases right with
    | nil => simp
    | cons r right => cases hlength
  | cons l left ih =>
    cases right with
    | nil => cases hlength
    | cons r right =>
      rw [List.zip_cons_cons, List.foldl_cons, ih (Nat.succ.inj hlength), List.cons.injEq]
      constructor
      · rintro ⟨hor, htail⟩
        obtain ⟨hdifference, hxor⟩ := BitVec.or_eq_zero_iff.mp hor
        exact ⟨hdifference, BitVec.xor_eq_zero_iff.mp hxor, htail⟩
      · rintro ⟨rfl, rfl, htail⟩
        exact ⟨by simp, htail⟩

/-- The comparison in constant time is equality. -/
@[simp] theorem constantTimeEq_iff {left right : List Byte} :
    constantTimeEq left right = true ↔ left = right := by
  unfold constantTimeEq
  split
  · next hlength =>
    constructor
    · intro h
      cases h
    · rintro rfl
      exact absurd rfl hlength
  · next hlength =>
    rw [beq_iff_eq, foldl_difference (not_not.mp hlength)]
    exact and_iff_right rfl

/-- Comparing two lists position by position decides their equality. -/
theorem zip_all_iff {α : Type} {same : α → α → Bool} (hsame : ∀ a b, same a b = true ↔ a = b)
    {left right : List α} (hlength : left.length = right.length) :
    (left.zip right).all (fun (l, r) => same l r) = true ↔ left = right := by
  induction left generalizing right with
  | nil =>
    cases right with
    | nil => simp
    | cons r right => cases hlength
  | cons l left ih =>
    cases right with
    | nil => cases hlength
    | cons r right =>
      rw [List.zip_cons_cons, List.all_cons, Bool.and_eq_true, hsame, ih (Nat.succ.inj hlength),
        List.cons.injEq]

/-- The comparison of a profile covers all of its values. -/
theorem profile_eq_iff (left right : WifiProfile) :
    (left.id == right.id && left.ssid == right.ssid &&
      constantTimeEq left.password right.password && left.enabled == right.enabled &&
      left.priority == right.priority) = true ↔ left = right := by
  cases left
  cases right
  simp only [Bool.and_eq_true, beq_iff_eq, constantTimeEq_iff, WifiProfile.mk.injEq]
  tauto

/-- The comparison of the store decides `Same`. -/
theorem configurationEq_iff {left right : NetworkConfig} :
    configurationEq left right = true ↔ left.Same right := by
  unfold configurationEq
  split
  · next hne =>
    constructor
    · intro h
      cases h
    · intro h
      have hcount : left.wifiProfileCount = right.wifiProfileCount :=
        congrArg List.length h.wifiProfiles
      exact absurd hne (by simp [hcount, h.tcpPeer, h.wifiTransportEnabled,
        h.automaticAnnouncesEnabled, h.rmapDiscoveryEnabled, h.rmapShareLocation,
        h.phoneLocation, h.loraProfile])
  · next hne =>
    simp only [not_or, not_not] at hne
    obtain ⟨hcount, hpeer, hwifi, hannounces, hdiscovery, hshare, hlocation, hlora⟩ := hne
    rw [zip_all_iff profile_eq_iff hcount]
    exact ⟨fun h => ⟨h, hpeer, hwifi, hannounces, hdiscovery, hshare, hlocation, hlora⟩,
      fun h => h.wifiProfiles⟩

/-- The status of a sector as a function of the flash contents. -/
def statusOf (sha256 : Sha256) (binding : NetworkConfigStoreBinding) (f : Flash)
    (sector : NetworkConfigStoreSector) : SectorStatus :=
  sectorStatus sha256 binding sector (f.read sector.offset 1088)
    ((f.read (sector.offset + 1088) 3008).all (· == erasedByte))

/-- A region scan without backend errors answers whether the region is erased. -/
theorem eval_regionIsErased (offset length : ℕ) (f : Flash) :
    (regionIsErased offset length : NetworkConfigAction ε Bool).eval f =
      (.ok ((f.read offset length).all (· == erasedByte)), f) := by
  unfold regionIsErased
  rw [Action.eval_chunksErased, Action.sum_chunkLengths]

/-- A region scan only reads. -/
theorem query_regionIsErased (offset length : ℕ) :
    Query .backend (regionIsErased offset length : NetworkConfigAction ε Bool).run :=
  Action.query_chunksErased ..

/-- A scan without backend errors returns the status of the sector. -/
theorem eval_scanSector (sector : NetworkConfigStoreSector) (f : Flash) :
    (scanSector sha256 binding sector : NetworkConfigAction ε _).eval f =
      (.ok (statusOf sha256 binding f sector), f) := by
  unfold scanSector
  rw [Action.eval_bind_ok (Action.eval_read ..), Action.eval_bind_ok (eval_regionIsErased ..)]
  rfl

/-- A scan only reads. -/
theorem query_scanSector (sector : NetworkConfigStoreSector) :
    Query .backend (scanSector sha256 binding sector : NetworkConfigAction ε _).run :=
  .bind (.readAction ..) fun _ => .bind (query_regionIsErased ..) fun _ => .pureAction ..

/-- The mounted configuration as a function of the flash contents. -/
def mounted (sha256 : Sha256) (binding : NetworkConfigStoreBinding) (f : Flash) :
    Except NetworkConfigStoreFault MountedNetworkConfigStore :=
  select (statusOf sha256 binding f .a) (statusOf sha256 binding f .b)

/-- A mount without backend errors returns the mounted configuration. -/
theorem eval_mount (haccess : validateReadBinding access = .ok ()) (f : Flash) :
    (mount sha256 access : NetworkConfigAction ε _).eval f =
      ((mounted sha256 access.binding f).mapError .fault, f) := by
  unfold mount
  rw [haccess]
  change Action.eval (scanSector sha256 access.binding .a >>= _) f = _
  rw [Action.eval_bind_ok (eval_scanSector ..), Action.eval_bind_ok (eval_scanSector ..)]
  unfold mounted
  cases select (statusOf sha256 access.binding f .a) (statusOf sha256 access.binding f .b) with
  | ok mounted => rfl
  | error fault => rfl

/-- A mount of a rejected view fails without I/O. -/
theorem eval_mount_binding {error : NetworkConfigStoreBindingError}
    (haccess : validateReadBinding access = .error error) (f : Flash) :
    (mount sha256 access : NetworkConfigAction ε _).eval f = (.error (.binding error), f) := by
  unfold mount
  rw [haccess]
  rfl

/-- A binding check only fails or passes. -/
theorem query_requireBinding (check : Except NetworkConfigStoreBindingError Unit) :
    Query .backend (requireBinding check : NetworkConfigAction ε Unit).run := by
  unfold requireBinding
  split
  · exact .pureAction ..
  · exact .throwAction ..

/-- A mount only reads. -/
theorem query_mount : Query .backend (mount sha256 access : NetworkConfigAction ε _).run := by
  refine .bind (query_requireBinding _) fun _ => .bind (query_scanSector .a) fun a =>
    .bind (query_scanSector .b) fun b => ?_
  cases select a b with
  | ok mounted => exact .pureAction ..
  | error fault => exact .throwAction ..

/-- The write checks include the read checks. -/
theorem validateReadBinding_of_write (h : validateWriteBinding access = .ok ()) :
    validateReadBinding access = .ok () := by
  unfold validateWriteBinding at h
  cases hread : validateReadBinding access with
  | ok u => rfl
  | error error =>
    rw [hread] at h
    cases h

/-- What classifies a sector, in terms of the flash contents. -/
theorem statusOf_cases (sha256 : Sha256) (binding : NetworkConfigStoreBinding) (f : Flash)
    (sector : NetworkConfigStoreSector) :
    (f.Erased sector.offset 4096 ∧ statusOf sha256 binding f sector = .erased) ∨
    (f.Erased (sector.offset + 1088) 3008 ∧ f.read (sector.offset + 1056) 32 = commitMarker ∧
      statusOf sha256 binding f sector =
        decodeCommitted sha256 binding sector (f.read sector.offset 1088)) ∨
    (f.Erased (sector.offset + 1088) 3008 ∧ f.read (sector.offset + 1056) 32 ≠ commitMarker ∧
      f.Covers (sector.offset + 1056) commitMarker ∧
      statusOf sha256 binding f sector = .uncommitted sector) ∨
    ((¬ f.Erased (sector.offset + 1088) 3008 ∨
        ¬ f.Covers (sector.offset + 1056) commitMarker) ∧
      statusOf sha256 binding f sector = .invalid sector .unknown) := by
  have hcommit : slice (f.read sector.offset 1088) 1056 32 = f.read (sector.offset + 1056) 32 :=
    Flash.slice_read (by decide)
  have hcovers : covers (f.read (sector.offset + 1056) 32) commitMarker = true ↔
      f.Covers (sector.offset + 1056) commitMarker := by
    rw [← Flash.covers_read]
    rfl
  unfold statusOf sectorStatus monotonicProgrammingCompatible
  simp only [show commitOffset = 1056 from rfl, show commitSize = 32 from rfl, hcommit]
  by_cases htail : f.Erased (sector.offset + 1088) 3008
  · rw [Flash.read_all_erased.mpr htail, Bool.and_true]
    by_cases hrecord : f.Erased sector.offset 1088
    · left
      refine ⟨fun i hi => ?_, if_pos (Flash.read_all_erased.mpr hrecord)⟩
      by_cases hi' : i < 1088
      · exact hrecord i hi'
      · have := htail (i - 1088) (by omega)
        rwa [show sector.offset + 1088 + (i - 1088) = sector.offset + i by omega] at this
    · rw [if_neg (mt Flash.read_all_erased.mp hrecord), if_neg (by simp)]
      by_cases hmarker : f.read (sector.offset + 1056) 32 = commitMarker
      · exact Or.inr (Or.inl ⟨htail, hmarker, if_neg (not_not.mpr hmarker)⟩)
      · rw [if_pos hmarker]
        by_cases hpart : f.Covers (sector.offset + 1056) commitMarker
        · exact Or.inr (Or.inr (Or.inl ⟨htail, hmarker, hpart, if_pos (hcovers.mpr hpart)⟩))
        · exact Or.inr (Or.inr (Or.inr ⟨Or.inr hpart, if_neg (mt hcovers.mp hpart)⟩))
  · have hfalse : (f.read (sector.offset + 1088) 3008).all (· == erasedByte) = false :=
      Bool.eq_false_iff.mpr (mt Flash.read_all_erased.mp htail)
    rw [hfalse, Bool.and_false]
    exact Or.inr (Or.inr (Or.inr ⟨Or.inl htail, by rw [if_neg (by simp), if_pos rfl]⟩))

/-- A sector's status depends on its own bytes only. -/
theorem statusOf_congr (h : f.Agree g sector.offset (sector.offset + 4096)) :
    statusOf sha256 binding g sector = statusOf sha256 binding f sector := by
  have hrecord : f.read sector.offset 1088 = g.read sector.offset 1088 :=
    h.read_eq (by omega) (by omega)
  have htail : f.read (sector.offset + 1088) 3008 = g.read (sector.offset + 1088) 3008 :=
    h.read_eq (by omega) (by omega)
  unfold statusOf
  rw [hrecord, htail]

/-- The marker is not what an erased range reads. -/
theorem commitMarker_ne_erased : commitMarker ≠ List.replicate 32 erasedByte := by decide

/-- A committed record is valid or rejected. -/
theorem decodeCommitted_cases (sha256 : Sha256) (binding : NetworkConfigStoreBinding)
    (sector : NetworkConfigStoreSector) (record : List Byte) :
    (∃ kind, decodeCommitted sha256 binding sector record = .invalid sector kind) ∨
      ∃ snapshot, decodeCommitted sha256 binding sector record = .valid snapshot := by
  unfold decodeCommitted
  dsimp only
  split
  · exact Or.inl ⟨_, rfl⟩
  split
  · exact Or.inl ⟨_, rfl⟩
  split
  · exact Or.inl ⟨_, rfl⟩
  split
  · exact Or.inl ⟨_, rfl⟩
  split
  · exact Or.inl ⟨_, rfl⟩
  split
  · exact Or.inl ⟨_, rfl⟩
  unfold decodeSnapshot
  dsimp only
  split
  · exact Or.inl ⟨_, rfl⟩
  split
  · exact Or.inl ⟨_, rfl⟩
  split
  · exact Or.inl ⟨_, rfl⟩
  · exact Or.inr ⟨_, rfl⟩

/-- What the checks of a committed record leave of a status. -/
theorem decodeCommitted_valid {record : List Byte} {snapshot : ValidSnapshot}
    (h : decodeCommitted sha256 binding sector record = .valid snapshot) :
    slice record 1024 32 = (snapshotDigest sha256 (record.take 1024)).toList ∧
      decodeSnapshot binding sector record = .valid snapshot := by
  unfold decodeCommitted at h
  dsimp only at h
  -- one rejected check after the other
  split at h
  · cases h
  split at h
  · cases h
  split at h
  · cases h
  split at h
  · cases h
  split at h
  · cases h
  split at h
  · cases h
  · next hdigest => exact ⟨not_not.mp hdigest, h⟩

/-- A decoded snapshot names its place and has a fitting predecessor. -/
theorem decodeSnapshot_valid {record : List Byte} {snapshot : ValidSnapshot}
    (h : decodeSnapshot binding sector record = .valid snapshot) :
    snapshot.revision.binding = binding ∧ snapshot.revision.sector = sector ∧
      snapshot.revision.digest = copyArray 32 (slice record 1024 32) ∧
      ¬ badPredecessor snapshot.revision.generation.get snapshot.predecessorGeneration
        snapshot.predecessorDigest := by
  unfold decodeSnapshot at h
  simp only at h
  split at h
  · cases h
  · split at h
    · cases h
    · next hlink =>
      split at h
      · cases h
      · cases h
        exact ⟨rfl, rfl, rfl, hlink⟩

section Encoded

variable {generation : NonZeroU64} {predecessorGeneration : ℕ}
  {predecessorDigest : SnapshotDigest} {configuration : NetworkConfig}

/-- A slice of the first part of an appended buffer. -/
theorem slice_append_left {head rest : List Byte} {offset length : ℕ}
    (h : offset + length ≤ head.length) : slice (head ++ rest) offset length =
      slice head offset length := by
  rw [slice, slice, List.drop_append_of_le_length (by omega),
    List.take_append_of_le_length (by rw [List.length_drop]; omega)]

/-- The parts of a record. -/
theorem record_parts (sha256 : Sha256) (binding : NetworkConfigStoreBinding)
    (sector : NetworkConfigStoreSector) (generation : NonZeroU64) (predecessorGeneration : ℕ)
    (predecessorDigest : SnapshotDigest) (configuration : NetworkConfig) :
    let record := encodeRecord sha256 binding sector generation predecessorGeneration
      predecessorDigest configuration
    let protectedBytes := encodeProtected binding sector generation predecessorGeneration
      predecessorDigest configuration
    record.length = 1088 ∧ record.take 1024 = protectedBytes ∧
      slice record 1024 32 = (snapshotDigest sha256 protectedBytes).toList ∧
      slice record 1056 32 = commitMarker := by
  intro record protectedBytes
  have hlength : protectedBytes.length = 1024 := length_encodeProtected ..
  have hflat : record = [protectedBytes, (snapshotDigest sha256 protectedBytes).toList,
      commitMarker].flatten := by
    simp [record, encodeRecord, protectedBytes]
  have hwidths : [protectedBytes, (snapshotDigest sha256 protectedBytes).toList,
      commitMarker].map List.length = [1024, 32, 32] := by
    simp [hlength, commitMarker]
  refine ⟨?_, ?_, ?_, ?_⟩
  · rw [hflat, List.length_flatten, hwidths]
    rfl
  · change (protectedBytes ++ _ ++ _).take 1024 = _
    rw [List.append_assoc, ← hlength]
    exact List.take_left
  · rw [hflat]
    exact slice_flatten hwidths (i := 1) rfl rfl (Vector.length_toList)
  · rw [hflat]
    exact slice_flatten hwidths (i := 2) rfl rfl rfl

/-- The snapshot that an encoded record is scanned as. -/
def recordSnapshot (sha256 : Sha256) (binding : NetworkConfigStoreBinding)
    (sector : NetworkConfigStoreSector) (generation : NonZeroU64) (predecessorGeneration : ℕ)
    (predecessorDigest : SnapshotDigest) (configuration : NetworkConfig) : ValidSnapshot where
  revision := {
    binding
    sector
    generation
    digest := snapshotDigest sha256 (encodeProtected binding sector generation
      predecessorGeneration predecessorDigest configuration) }
  predecessorGeneration
  predecessorDigest
  configuration := configuration.compact

/-- An encoded record passes every check up to the predecessor rule. -/
theorem decodeCommitted_encodeRecord (hpredecessor : predecessorGeneration < 2 ^ 64) :
    decodeCommitted sha256 binding sector (encodeRecord sha256 binding sector generation
        predecessorGeneration predecessorDigest configuration) =
      if badPredecessor generation.get predecessorGeneration predecessorDigest then
        .invalid sector .committedCorrupt
      else .valid (recordSnapshot sha256 binding sector generation predecessorGeneration
        predecessorDigest configuration) := by
  obtain ⟨hlength, htake, hdigest, -⟩ := record_parts sha256 binding sector generation
    predecessorGeneration predecessorDigest configuration
  have hfield : ∀ (i offset length : ℕ) {field : List Byte},
      (protectedFields binding sector generation predecessorGeneration predecessorDigest
        configuration)[i]? = some field → (protectedWidths.take i).sum = offset →
      field.length = length → offset + length ≤ 1024 →
      slice (encodeRecord sha256 binding sector generation predecessorGeneration
        predecessorDigest configuration) offset length = field := by
    intro i offset length field h₁ h₂ h₃ h₄
    rw [encodeRecord, List.append_assoc, slice_append_left (by simpa using h₄)]
    exact slice_encodeProtected h₁ h₂ h₃
  have hmagic := hfield 0 0 8 rfl rfl (by decide) (by decide)
  have hphysical := hfield 1 8 _ rfl rfl (length_leBytes ..) (by decide)
  have hsemantic := hfield 2 10 _ rfl rfl (length_leBytes ..) (by decide)
  have hsector := getD_of_slice (hfield 3 12 _ rfl rfl rfl (by decide))
  have hzero := getD_of_slice (hfield 6 15 _ rfl rfl rfl (by decide))
  have hgeneration := hfield 7 16 _ rfl rfl (length_leBytes ..) (by decide)
  have hprevious := hfield 8 24 _ rfl rfl (length_leBytes ..) (by decide)
  have hlink := hfield 9 32 _ rfl rfl (Vector.length_toList) (by decide)
  have hdevice := hfield 10 64 _ rfl rfl (Vector.length_toList) (by decide)
  have hoffset := hfield 11 80 _ rfl rfl (length_leBytes ..) (by decide)
  have hrange := hfield 12 88 _ rfl rfl (length_leBytes ..) (by decide)
  have hcapacity := hfield 13 96 _ rfl rfl (length_leBytes ..) (by decide)
  have hslot := hfield 14 100 _ rfl rfl (length_leBytes ..) (by decide)
  have hpeer := hfield 15 104 _ rfl rfl (length_leBytes ..) (by decide)
  have hrest := hfield 16 108 _ rfl rfl List.length_replicate (by decide)
  unfold decodeCommitted
  dsimp only [digestOffset, protectedSize, digestSize]
  rw [hmagic, hphysical, hsemantic, hsector, hzero, hdevice, hoffset, hrange, hcapacity, hslot,
    hpeer, hrest, hdigest, htake]
  rw [if_neg (not_not.mpr rfl), if_neg (by decide), if_neg (by decide), if_neg (by simp; decide),
    if_neg (by simp [leNat_leBytes]), if_neg (not_not.mpr rfl)]
  unfold decodeSnapshot
  dsimp only [digestOffset, protectedSize, digestSize]
  rw [hgeneration, hprevious, hlink, hdigest, htake, NonZeroU64.leNat_leBytes, NonZeroU64.new_get,
    leNat_leBytes_of_lt hpredecessor, copyArray_toList, copyArray_toList,
    decodeConfiguration_encodeProtected]
  rfl

end Encoded

/-- An erased sector is classified as erased. -/
theorem statusOf_erased (h : f.Erased sector.offset 4096) :
    statusOf sha256 binding f sector = .erased := by
  have hmarker : f.Erased (sector.offset + 1056) 32 := h.mono (by omega) (by omega)
  have hcovers : f.Covers (sector.offset + 1056) commitMarker := hmarker.covers
  rcases statusOf_cases sha256 binding f sector with hs | ⟨-, hs, -⟩ | ⟨htail, -, -, hs⟩ | ⟨hs, -⟩
  · exact hs.2
  · rw [hmarker.read_eq] at hs
    exact absurd hs.symm commitMarker_ne_erased
  · unfold statusOf sectorStatus at hs ⊢
    rw [if_pos]
    rw [Bool.and_eq_true, Flash.read_all_erased, Flash.read_all_erased]
    exact ⟨h.mono (by omega) (by omega), htail⟩
  · exact absurd hs (by simpa using ⟨h.mono (by omega) (by omega), hcovers⟩)

/-- A committed sector is classified by the checks of its record. -/
theorem statusOf_committed (htail : f.Erased (sector.offset + 1088) 3008)
    (hmarker : f.read (sector.offset + 1056) 32 = commitMarker) :
    statusOf sha256 binding f sector =
      decodeCommitted sha256 binding sector (f.read sector.offset 1088) := by
  have hcovers : f.Covers (sector.offset + 1056) commitMarker := by
    intro i hi
    have hread : f.read (sector.offset + 1056) commitMarker.length = commitMarker := hmarker
    rw [Flash.byte_of_read_eq hread hi]
    exact BitsLE.refl _
  rcases statusOf_cases sha256 binding f sector with ⟨hs, -⟩ | ⟨-, -, hs⟩ | ⟨-, hs, -⟩ | ⟨hs, -⟩
  · have herased : f.Erased (sector.offset + 1056) 32 := hs.mono (by omega) (by omega)
    rw [herased.read_eq] at hmarker
    exact absurd hmarker.symm commitMarker_ne_erased
  · exact hs
  · exact absurd hmarker hs
  · exact absurd hs (by simpa using ⟨htail, hcovers⟩)

/-- A sector that covers the marker without holding it is erased or uncommitted. -/
theorem statusOf_uncommitted (htail : f.Erased (sector.offset + 1088) 3008)
    (hmarker : f.read (sector.offset + 1056) 32 ≠ commitMarker)
    (hcovers : f.Covers (sector.offset + 1056) commitMarker) :
    statusOf sha256 binding f sector = .erased ∨
      statusOf sha256 binding f sector = .uncommitted sector := by
  rcases statusOf_cases sha256 binding f sector with hs | ⟨-, hs, -⟩ | hs | ⟨hs, -⟩
  · exact Or.inl hs.2
  · exact absurd hs hmarker
  · exact Or.inr hs.2.2.2
  · exact absurd hs (by simpa using ⟨htail, hcovers⟩)

/-- What a valid sector holds. -/
theorem valid_snapshot {snapshot : ValidSnapshot}
    (h : statusOf sha256 binding f sector = .valid snapshot) :
    f.Erased (sector.offset + 1088) 3008 ∧ f.read (sector.offset + 1056) 32 = commitMarker ∧
      decodeCommitted sha256 binding sector (f.read sector.offset 1088) = .valid snapshot := by
  rcases statusOf_cases sha256 binding f sector with hs | ⟨htail, hmarker, hs⟩ | hs | hs
  · rw [hs.2] at h
    cases h
  · exact ⟨htail, hmarker, hs ▸ h⟩
  · rw [hs.2.2.2] at h
    cases h
  · rw [hs.2] at h
    cases h

/-- A valid sector names its place and has a fitting predecessor. -/
theorem valid_revision {snapshot : ValidSnapshot}
    (h : statusOf sha256 binding f sector = .valid snapshot) :
    snapshot.revision.binding = binding ∧ snapshot.revision.sector = sector ∧
      ¬ badPredecessor snapshot.revision.generation.get snapshot.predecessorGeneration
        snapshot.predecessorDigest := by
  obtain ⟨hbinding, hsector, -, hlink⟩ :=
    decodeSnapshot_valid (decodeCommitted_valid (valid_snapshot h).2.2).2
  exact ⟨hbinding, hsector, hlink⟩

/-- Only an erased sector is classified as erased. -/
theorem erased_of_statusOf (h : statusOf sha256 binding f sector = .erased) :
    f.Erased sector.offset 4096 := by
  rcases statusOf_cases sha256 binding f sector with hs | ⟨-, -, hs⟩ | hs | hs
  · exact hs.1
  · rcases decodeCommitted_cases sha256 binding sector (f.read sector.offset 1088) with
      ⟨kind, hd⟩ | ⟨snapshot, hd⟩
    · rw [hs, hd] at h
      cases h
    · rw [hs, hd] at h
      cases h
  · rw [hs.2.2.2] at h
    cases h
  · rw [hs.2] at h
    cases h

end Network
