import ReticulumFirmware.LxmfStore.Admission
import ReticulumFirmware.LxmfStore.Record
import ReticulumFirmware.Nor.Sha256

/-!
# Round trips of stored headers

Under a valid binding every header is decoded to the values it was encoded from, so a mount and an
inspection recognise every header that a commit programs.
-/

namespace LxmfStore

open Nor Lxmf

variable {ε : Type} {sha256 : Sha256} {access : BoundLxmfStore} {f : Flash}

/-- The header values of one extent of a record. -/
def headerValues (handle : MessageHandle) (extentIndex extentCount : ℕ)
    (metadata : InboundMessageMetadata) (exactWireDigest : ExactWireDigest) : HeaderFields :=
  ⟨physicalFormatVersion, handle, extentIndex, extentCount, metadata, exactWireDigest⟩

section Valid

variable (hvalid : ValidShape access) {handle : MessageHandle} {extentIndex extentCount : ℕ}
  {metadata : InboundMessageMetadata} {exactWireDigest : ExactWireDigest}
include hvalid

/-- A header of valid metadata is decoded as its fields. -/
theorem decodeHeader_of_valid
    (hcount : requiredExtents access.usizeValues metadata.lengths.normalizedWire =
      some extentCount) (hfits : extentCount < 2 ^ 16) (hindex : extentIndex < extentCount) :
    decodeHeader sha256 access.usizeValues access.binding (encodeHeader sha256 access.binding
        physicalFormatVersion handle extentIndex extentCount metadata exactWireDigest) =
      .ok (headerValues handle extentIndex extentCount metadata exactWireDigest) := by
  have hrange := hvalid.range
  exact decodeHeader_encodeHeader access.usizeValues_le (by omega) (by omega) hcount hfits hindex

end Valid

/-- The headers of a record stand at the start of its extents. -/
def HeldBy (sha256 : Sha256) (access : BoundLxmfStore) (f : Flash) (first : ℕ)
    (handle : MessageHandle) (extentCount : ℕ) (metadata : InboundMessageMetadata)
    (exactWireDigest : ExactWireDigest) : Prop :=
  ∀ index < extentCount, f.read (extentOffset (first + index)) extentHeaderSize =
    encodeHeader sha256 access.binding physicalFormatVersion handle index extentCount metadata
      exactWireDigest

section Held

variable {first : ℕ} {handle : MessageHandle} {extentCount : ℕ}
  {metadata : InboundMessageMetadata} {exactWireDigest : ExactWireDigest}

/-- The first of the held headers is decoded. -/
theorem HeldBy.decoded (hvalid : ValidShape access)
    (hcount : requiredExtents access.usizeValues metadata.lengths.normalizedWire =
      some extentCount) (hfits : extentCount < 2 ^ 16)
    (hheld : HeldBy sha256 access f first handle extentCount metadata exactWireDigest) :
    decodeHeader sha256 access.usizeValues access.binding (snapshotAt f first).header =
      .ok (headerValues handle 0 extentCount metadata exactWireDigest) := by
  have hpos := requiredExtents_pos hcount
  rw [snapshotAt_header]
  have hfirst := hheld 0 hpos
  rw [Nat.add_zero] at hfirst
  rw [hfirst]
  exact decodeHeader_of_valid hvalid hcount hfits hpos

/-- The held headers are the headers that the record should repeat. -/
theorem HeldBy.headersAt
    (hheld : HeldBy sha256 access f first handle extentCount metadata exactWireDigest) :
    HeadersAt sha256 access f first (headerValues handle 0 extentCount metadata exactWireDigest)
      extentCount := by
  intro index hindex
  rw [snapshotAt_header]
  exact hheld index hindex

end Held

/-- Under a valid binding every header is decoded to its own values; a mount and an inspection
recognise the headers of a record wherever they stand, those that a commit programs among them;
and headers of different messages differ. -/
theorem encodeHeader_round_trip (sha256 : Sha256) (access : BoundLxmfStore)
    (hvalid : validateBindingShape access = .ok ()) :
    (∀ (handle : MessageHandle) (metadata : InboundMessageMetadata)
        (exactWireDigest : ExactWireDigest) (extentCount : ℕ),
      requiredExtents access.usizeValues metadata.lengths.normalizedWire = some extentCount →
      extentCount < 2 ^ 16 →
      (∀ extentIndex < extentCount,
        decodeHeader sha256 access.usizeValues access.binding (encodeHeader sha256 access.binding
            physicalFormatVersion handle extentIndex extentCount metadata exactWireDigest) =
          .ok (headerValues handle extentIndex extentCount metadata exactWireDigest)) ∧
      ∀ (f : Flash) (first : ℕ),
        HeldBy sha256 access f first handle extentCount metadata exactWireDigest →
        (committedRecordAt sha256 access first : InspectAction ε _).answer f =
            (inspectRecord sha256 access first (snapshotAt f first)
              (headerValues handle 0 extentCount metadata exactWireDigest) :
              InspectAction ε _).answer f ∧
          (∀ store maxHandle,
            (mountExtent sha256 access ⟨first, store, maxHandle⟩ : MountAction ε _).answer f =
              (mountRecord sha256 access ⟨first,
                { store with appendExtent := max store.appendExtent (first + 1) },
                max maxHandle handle.get⟩ (snapshotAt f first)
                (headerValues handle 0 extentCount metadata exactWireDigest) :
                MountAction ε _).answer f) ∧
          ∃ scan, recordScan sha256 access f first
              (headerValues handle 0 extentCount metadata exactWireDigest) = .ok scan ∧
            scan.headersComplete = true) ∧
    (∀ (store : MountedLxmfStore) (candidate : InboundMessageCandidate)
        (pending : PendingMutation) (resumed : Bool),
      admission sha256 access store candidate = (.ok (.append pending resumed) :
        Except (LxmfCommitError ε) Admission) →
      ∀ extentIndex < pending.extentCount,
        decodeHeader sha256 access.usizeValues access.binding (candidateHeader sha256 access
            candidate pending.handle pending.extentCount extentIndex) =
          .ok (headerValues pending.handle extentIndex pending.extentCount candidate.metadata
            (digestCandidateWire sha256 candidate))) ∧
    ∀ (handle handle' : MessageHandle) (metadata metadata' : InboundMessageMetadata)
        (digest digest' : ExactWireDigest) (extentCount extentCount' extentIndex extentIndex' : ℕ),
      requiredExtents access.usizeValues metadata.lengths.normalizedWire = some extentCount →
      extentCount < 2 ^ 16 → extentIndex < extentCount →
      requiredExtents access.usizeValues metadata'.lengths.normalizedWire = some extentCount' →
      extentCount' < 2 ^ 16 → extentIndex' < extentCount' →
      metadata ≠ metadata' ∨ handle ≠ handle' ∨ digest ≠ digest' →
      encodeHeader sha256 access.binding physicalFormatVersion handle extentIndex extentCount
          metadata digest ≠
        encodeHeader sha256 access.binding physicalFormatVersion handle' extentIndex' extentCount'
          metadata' digest' := by
  have hshape := validShape hvalid
  refine ⟨fun handle metadata digest extentCount hcount hfits => ⟨fun extentIndex hindex =>
    decodeHeader_of_valid hshape hcount hfits hindex, fun f first hheld => ?_⟩, ?_, ?_⟩
  · have hdecoded := hheld.decoded hshape hcount hfits
    refine ⟨answer_committedRecordAt_decoded hdecoded rfl, fun store maxHandle =>
      answer_mountExtent_decoded hdecoded rfl, ?_⟩
    have hpos := requiredExtents_pos hcount
    have hheaders : HeadersAt sha256 access f first
        (headerValues handle 0 extentCount metadata digest) (extentCount - 1 + 1) := by
      rw [Nat.sub_add_cancel hpos]
      exact hheld.headersAt
    obtain ⟨programmedBody, hscan⟩ := scan_of_headersAt hheaders
    refine ⟨⟨true, programmedBody, snapshotAt f (first + (extentCount - 1))⟩, ?_, rfl⟩
    rw [recordScan, show (headerValues handle 0 extentCount metadata digest).extentCount =
      extentCount from rfl, hscan]
  · intro store candidate pending resumed hadmission extentIndex hindex
    have hadmitted := admitted hadmission
    exact decodeHeader_of_valid hshape hadmitted.required hadmitted.fits hindex
  · intro handle handle' metadata metadata' digest digest' extentCount extentCount' extentIndex
      extentIndex' hcount hfits hindex hcount' hfits' hindex' hdiffers hequal
    have hdecoded : decodeHeader sha256 access.usizeValues access.binding
        (encodeHeader sha256 access.binding physicalFormatVersion handle extentIndex extentCount
          metadata digest) = _ := decodeHeader_of_valid hshape hcount hfits hindex
    rw [hequal, decodeHeader_of_valid hshape hcount' hfits' hindex'] at hdecoded
    have hvalues := Except.ok.inj hdecoded
    obtain h | h | h := hdiffers
    · exact h (congrArg HeaderFields.metadata hvalues).symm
    · exact h (congrArg HeaderFields.handle hvalues).symm
    · exact h (congrArg HeaderFields.exactWireDigest hvalues).symm

/-- Four bytes fit into eight. -/
theorem two_pow_32_le : 2 ^ 32 ≤ 2 ^ 64 := by decide

/-- A view of a partition of two extents. -/
def twoExtents : BoundLxmfStore where
  binding := ⟨Vector.replicate 16 1, 0, 2 * extentSize, physicalFormatVersion⟩
  geometry := ⟨2 * extentSize, 4, 4, extentSize⟩
  usizeValues := 2 ^ 32
  le_usizeValues := le_refl _
  usizeValues_le := two_pow_32_le

/-- The sample view of two extents has an accepted shape. -/
theorem twoExtents_valid : validateBindingShape twoExtents = .ok () := by
  simp [validateBindingShape, twoExtents, extentSize]

/-- The length of the sample fits into four bytes. -/
theorem sampleLength_lt : 112 < 2 ^ 32 := by decide

/-- The sample needs one extent. -/
theorem requiredExtents_sample : requiredExtents (2 ^ 32) 112 = some 1 := by decide

/-- Metadata of a complete message of 112 bytes. -/
def sampleMetadata : InboundMessageMetadata where
  messageId := Vector.replicate 32 2
  authenticatedMaterial := Vector.replicate 32 3
  destination := Vector.replicate 16 4
  source := Vector.replicate 16 5
  signatureVerification := .sourceUnknown
  timestampBits := 6
  carrier := .complete
  stampAdmission := .notRequired false
  lengths := ⟨112, 112, 112, 112, 112, sampleLength_lt, sampleLength_lt, sampleLength_lt,
    sampleLength_lt, sampleLength_lt⟩
  ingress := some ⟨Vector.replicate 8 7, some ⟨0xffc4, 9⟩⟩
  normalizes := rfl

/-- The header of a message of one extent is decoded. -/
theorem encodeHeader_round_trip_sample :
    decodeHeader Nor.sha256 (2 ^ 32) twoExtents.binding (encodeHeader Nor.sha256
        twoExtents.binding physicalFormatVersion ⟨1, Nat.one_pos, one_lt_two_pow_64⟩ 0 1
        sampleMetadata (Vector.replicate 32 8)) =
      .ok (headerValues ⟨1, Nat.one_pos, one_lt_two_pow_64⟩ 0 1 sampleMetadata
        (Vector.replicate 32 8)) :=
  ((@encodeHeader_round_trip Unit Nor.sha256 twoExtents twoExtents_valid).1
    ⟨1, Nat.one_pos, one_lt_two_pow_64⟩ sampleMetadata (Vector.replicate 32 8) 1
    requiredExtents_sample (by decide)).1 0 Nat.one_pos

end LxmfStore
