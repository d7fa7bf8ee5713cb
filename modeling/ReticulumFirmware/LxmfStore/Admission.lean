import ReticulumFirmware.Codec.Guarded
import ReticulumFirmware.LxmfStore.Commit

/-!
# What the checks of a commit establish

A commit that reaches the flash has a valid view, no indexed message with its identifier and an
allocated span in the partition. A resumed mutation is the pending one.
-/

namespace LxmfStore

open Nor Lxmf

variable {ε : Type} {sha256 : Sha256} {access : BoundLxmfStore} {store : MountedLxmfStore}
  {candidate : InboundMessageCandidate} {pending : PendingMutation} {resumed : Bool}

/-- What the shape check of a view establishes. -/
structure ValidShape (access : BoundLxmfStore) : Prop where
  version : access.binding.formatVersion = physicalFormatVersion
  pos : 0 < access.binding.length
  aligned : access.binding.length % extentSize = 0
  range : access.binding.absoluteOffset + access.binding.length < access.usizeValues
  length_lt : access.binding.length < 2 ^ 32

/-- A binding whose shape is accepted is aligned, not empty and addressable. -/
theorem validShape (h : validateBindingShape access = .ok ()) : ValidShape access := by
  unfold validateBindingShape at h
  dsimp only at h
  split_ifs at h with hversion hlength hrange _
  simp only [not_or, not_not, not_le] at hversion hlength hrange
  exact ⟨hversion, Nat.pos_of_ne_zero hlength.1, hlength.2, hrange.1, hrange.2⟩

/-- A view with read access has a valid shape. -/
theorem validShape_of_read (h : validateReadAccess access = .ok ()) : ValidShape access := by
  obtain ⟨_, hshape, -⟩ := Codec.bind_ok.mp h
  exact validShape hshape

/-- A view with write access has a valid shape. -/
theorem validShape_of_write (h : validateWriteAccess access = .ok ()) : ValidShape access := by
  obtain ⟨_, hread, -⟩ := Codec.bind_ok.mp h
  exact validShape_of_read hread

/-- A record occupies at least one extent. -/
theorem requiredExtents_pos {usizeValues wireLen count : ℕ}
    (h : requiredExtents usizeValues wireLen = some count) : 0 < count := by
  unfold requiredExtents at h
  split_ifs at h
  rw [← Option.some.inj h]
  simp only [recordFooterSize, extentPayloadSize, extentSize, extentHeaderSize]
  omega

/-- What the checks of a commit establish about the mutation that it makes. -/
structure Admitted (sha256 : Sha256) (access : BoundLxmfStore) (store : MountedLxmfStore)
    (candidate : InboundMessageCandidate) (pending : PendingMutation) (resumed : Bool) : Prop where
  writable : validateWriteAccess access = .ok ()
  same : validateSameBinding store.binding access.binding = .ok ()
  fresh : store.entryForMessage candidate.metadata.messageId = none
  room : store.entries.length ≠ store.capacity
  required : requiredExtents access.usizeValues candidate.metadata.lengths.normalizedWire =
    some pending.extentCount
  fits : pending.extentCount < 2 ^ 16
  remains : pending.extentCount ≤ access.binding.length / extentSize - store.appendExtent
  replay : pending.replay = candidateReplay sha256 candidate
  metadata : pending.metadata = candidate.metadata
  resumes : resumed = true → store.pending = some pending
  begins : resumed = false → store.pending = none ∧ pending.firstExtent = store.appendExtent ∧
    pending.handle.get = store.nextHandle

/-- An admitted mutation passed every check. -/
theorem admitted (h : admission sha256 access store candidate = (.ok (.append pending resumed) :
    Except (LxmfCommitError ε) Admission)) :
    Admitted sha256 access store candidate pending resumed := by
  unfold admission at h
  split at h
  · cases h
  next hvalid =>
  obtain ⟨_, hwritable, hsame⟩ := Codec.bind_ok.mp hvalid
  split at h
  · unfold classifyReplay at h
    split at h <;> cases h
  next hfresh =>
  split at h
  · cases h
  next hconflict =>
  split_ifs at h with hroom
  unfold allocate at h
  dsimp only at h
  rw [candidate.length_eq] at h
  cases hrequired : requiredExtents access.usizeValues
    candidate.metadata.lengths.normalizedWire with
  | none =>
    rw [hrequired] at h
    cases h
  | some required =>
    rw [hrequired] at h
    dsimp only at h
    split_ifs at h with hfull
    rw [not_or, not_lt, not_le] at hfull
    cases hpending : store.pending with
    | some old =>
      rw [hpending] at h
      dsimp only at h
      split_ifs at h with hcount
      rw [not_not] at hcount
      rw [conflictingPending, hpending, Option.filter_eq_none_iff] at hconflict
      have hold := hconflict old rfl
      simp only [ne_eq, decide_eq_true_eq, not_or, not_not] at hold
      obtain ⟨rfl, rfl⟩ := Admission.append.inj (Except.ok.inj h)
      refine ⟨hwritable, hsame, hfresh, hroom, ?_, ?_, ?_, rfl, rfl, fun _ => ?_,
        fun h => Bool.noConfusion h⟩
      · rw [hrequired, hcount]
      · rw [hcount]
        exact hfull.2
      · rw [hcount]
        exact hfull.1
      · rw [hpending, ← hold.1, ← hold.2]
    | none =>
      rw [hpending] at h
      dsimp only at h
      cases hhandle : NonZeroU64.new store.nextHandle with
      | none =>
        rw [hhandle] at h
        cases h
      | some handle =>
        rw [hhandle] at h
        obtain ⟨rfl, rfl⟩ := Admission.append.inj (Except.ok.inj h)
        exact ⟨hwritable, hsame, hfresh, hroom, hrequired, hfull.2, hfull.1, rfl, rfl,
          fun h => Bool.noConfusion h, fun _ => ⟨hpending, rfl, NonZeroU64.get_of_new hhandle⟩⟩

end LxmfStore
