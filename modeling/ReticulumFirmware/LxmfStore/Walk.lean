import ReticulumFirmware.LxmfStore.Admission
import ReticulumFirmware.LxmfStore.Record

/-!
# The walk of a mount

A mount passes from extent to extent. One step either passes programmed or erased extents without
a committed record, or indexes the committed record that starts at its extent, and it reads
nothing outside the extents that it passes.
-/

namespace LxmfStore

open Nor Lxmf

variable {ε : Type} {sha256 : Sha256} {access : BoundLxmfStore} {f g : Flash}

section Queries

variable {first : ℕ} {header : HeaderFields}

/-- A judgement reads nothing. -/
theorem query_orFault {α : Type} (judged : Except LxmfStoreFault α) :
    Query LxmfStoreMountError.backend (orFault judged : MountAction ε α).run := by
  cases judged with
  | ok value => exact .pureAction _ _
  | error fault => exact .throwAction _ _

/-- A judgement answers what was judged. -/
@[simp] theorem answer_orFault {α : Type} (judged : Except LxmfStoreFault α) :
    (orFault judged : MountAction ε α).answer f = judged.mapError .fault := by
  cases judged with
  | ok value => rfl
  | error fault => rfl

/-- The mount of a continuation only reads. -/
theorem query_mountContinuation (state : RecordScan × ℕ) (index : ℕ) :
    Query LxmfStoreMountError.backend (mountContinuation sha256 access first header state index :
      MountAction ε (RecordScan × ℕ)).run :=
  (query_readExtentSnapshot _).bind fun _ => (query_orFault _).bind fun _ => .pureAction _ _

/-- The index is extended without access to the flash. -/
theorem query_indexCommitted (store : MountedLxmfStore) (entry : IndexEntry) :
    Query LxmfStoreMountError.backend (store.indexCommitted entry :
      MountAction ε MountedLxmfStore).run :=
  (Query.ensureAction _ _ _).bind fun _ => (Query.ensureAction _ _ _).bind fun _ =>
    (Query.ensureAction _ _ _).bind fun _ => .pureAction _ _

/-- The mount of a decoded record only reads. -/
theorem query_mountDecoded (firstHeader footer : List Byte) :
    Query LxmfStoreMountError.backend (ExceptT.adapt InspectError.intoMountError
      (decodeCommittedRecord sha256 first firstHeader footer header) :
        MountAction ε IndexEntry).run := by
  show Query (InspectError.intoMountError ∘ InspectError.backend) _
  exact (query_decodeCommittedRecord _ _ _ _).adapt

/-- The mount of a record only reads. -/
theorem query_mountRecord (state : MountState) (snapshot : ExtentSnapshot) :
    Query LxmfStoreMountError.backend (mountRecord sha256 access state snapshot header :
      MountAction ε MountState).run := by
  refine (Query.ensureAction _ _ _).bind fun _ =>
    (Query.foldlM query_mountContinuation _ _).bind fun scanned => ?_
  split
  · exact .pureAction _ _
  · split
    · exact .pureAction _ _
    · exact .throwAction _ _
    · exact (query_mountDecoded _ _).bind fun _ => (query_indexCommitted _ _).bind fun _ =>
        .pureAction _ _

/-- The mount of an extent only reads. -/
theorem query_mountExtent (state : MountState) :
    Query LxmfStoreMountError.backend (mountExtent sha256 access state :
      MountAction ε MountState).run := by
  refine (query_readExtentSnapshot _).bind fun snapshot => ?_
  split
  · exact .pureAction _ _
  · split
    · exact (query_orFault _).bind fun _ => .pureAction _ _
    · split
      · exact .throwAction _ _
      · exact query_mountRecord _ _

/-- The mount of the extents only reads. -/
theorem query_mountExtents (fuel : ℕ) (state : MountState) :
    Query LxmfStoreMountError.backend (mountExtents sha256 access fuel state :
      MountAction ε MountState).run := by
  induction fuel generalizing state with
  | zero => exact .pureAction _ _
  | succ fuel ih =>
    unfold mountExtents
    split
    · exact (query_mountExtent state).bind ih
    · exact .pureAction _ _

/-- A mount only reads. -/
theorem query_mount (capacity : ℕ) :
    Query LxmfStoreMountError.backend (mount sha256 access capacity :
      MountAction ε MountedLxmfStore).run := by
  unfold mount
  split
  · exact .throwAction _ _
  · refine (query_mountExtents _ _).bind fun state => ?_
    split
    · exact .pureAction _ _
    · exact .throwAction _ _

end Queries

section Locality

variable {err : Type} {wrap : ε → err} {first : ℕ} {header : HeaderFields}

/-- The read lies in some extents. -/
def InExtents (first count : ℕ) (range : ReadRange) : Prop :=
  range.Inside (extentOffset first) (extentOffset (first + count))

/-- A range in some extents is one in more. -/
theorem InExtents.mono {first' count count' : ℕ} {range : ReadRange}
    (h : InExtents first count range) (hfirst : first' ≤ first)
    (hcount : first + count ≤ first' + count') : InExtents first' count' range :=
  ReadRange.Inside.mono h (Nat.mul_le_mul_right _ hfirst) (Nat.mul_le_mul_right _ hcount)

/-- An inspection of an extent reads its pages. -/
theorem readsOnly_readExtentSnapshot (extent : ℕ) :
    ReadsOnly (InExtents extent 1) (readExtentSnapshot wrap extent).run := by
  refine ReadsOnly.foldlM (fun page hpage snapshot => ?_) _
  refine .bind (.readAction ?_) fun _ => .pureAction _
  have hpage : page < extentSize / ioChunkSize := List.mem_range.mp hpage
  simp only [InExtents, ReadRange.Inside, extentOffset, extentSize, ioChunkSize] at hpage ⊢
  omega

/-- A snapshot reads in its extents only. -/
theorem readsOnly_readExtentSnapshot_at {count index : ℕ} (hindex : index < count) :
    ReadsOnly (InExtents first count) (readExtentSnapshot wrap (first + index)).run :=
  (readsOnly_readExtentSnapshot _).mono fun _ h =>
    h.mono (Nat.le_add_right _ _) (by omega)

/-- A judgement reads nowhere. -/
theorem readsOnly_orFault {P : ReadRange → Prop} {α : Type} (judged : Except LxmfStoreFault α) :
    ReadsOnly P (orFault judged : MountAction ε α).run := by
  cases judged with
  | ok value => exact .pureAction _
  | error fault => exact .throwAction _

/-- A wire page lies in the extents of its record. -/
theorem inExtents_of_mem_wirePageOffsets {count offset : ℕ}
    (h : offset ∈ wirePageOffsets first count) : InExtents first count (offset, ioChunkSize) := by
  obtain ⟨index, hindex, hpages⟩ := List.mem_flatMap.mp h
  obtain ⟨page, hpage, rfl⟩ := List.mem_map.mp hpages
  rw [List.mem_range] at hindex hpage
  unfold payloadCapacity at hpage
  simp only [InExtents, ReadRange.Inside, extentOffset, extentSize, ioChunkSize,
    finalExtentPayloadSize, extentPayloadSize, recordFooterSize, extentHeaderSize] at hpage ⊢
  split_ifs at hpage
  · omega
  · omega

/-- The wire is digested from its extents only. -/
theorem readsOnly_digestFlashWire (count wireLen : ℕ) (firstHeader : List Byte) :
    ReadsOnly (InExtents first count)
      (digestFlashWire sha256 first count wireLen firstHeader : InspectAction ε _).run :=
  .bind (.foldlM (fun _ hoffset _ =>
    .bind (.readAction (inExtents_of_mem_wirePageOffsets hoffset)) fun _ => .pureAction _) _)
    fun _ => .pureAction _

/-- A committed record is decoded from its extents only. -/
theorem readsOnly_decodeCommittedRecord (firstHeader footer : List Byte) :
    ReadsOnly (InExtents first header.extentCount)
      (decodeCommittedRecord sha256 first firstHeader footer header :
        InspectAction ε IndexEntry).run :=
  .bind (.ensureAction _ _) fun _ => .bind (readsOnly_digestFlashWire _ _ _) fun _ =>
    .bind (.ensureAction _ _) fun _ => .bind (.ensureAction _ _) fun _ =>
      .bind (.ensureAction _ _) fun _ => .pureAction _

/-- A mount that goes on with a record reads its extents. -/
theorem readsOnly_mountRecord (state : MountState) (snapshot : ExtentSnapshot) :
    ReadsOnly (InExtents state.extent header.extentCount)
      (mountRecord sha256 access state snapshot header : MountAction ε MountState).run := by
  refine .bind (.ensureAction _ _) fun _ => .bind (.foldlM (fun index hindex scanned => ?_) _)
    fun scanned => ?_
  · have hbound : index < header.extentCount := by
      have := List.mem_range'_1.mp hindex
      omega
    exact .bind (readsOnly_readExtentSnapshot_at hbound) fun _ =>
      .bind (readsOnly_orFault _) fun _ => .pureAction _
  · split
    · exact .pureAction _
    · split
      · exact .pureAction _
      · exact .throwAction _
      · refine .bind (.adapt (readsOnly_decodeCommittedRecord _ _)) fun entry => .bind ?_ fun _ =>
          .pureAction _
        exact .bind (.ensureAction _ _) fun _ => .bind (.ensureAction _ _) fun _ =>
          .bind (.ensureAction _ _) fun _ => .pureAction _

end Locality

section Step

variable {first : ℕ} {header : HeaderFields}

/-- The largest handle of the headers of some extents, one more included. -/
def observedHandle (sha256 : Sha256) (access : BoundLxmfStore) (f : Flash) (first maxHandle : ℕ)
    (indices : List ℕ) : ℕ :=
  indices.foldl (fun maxHandle index => observeHandle sha256 access maxHandle
    (snapshotAt f (first + index)).header) maxHandle

/-- A header never lowers the greatest handle. -/
theorem le_observeHandle (maxHandle : ℕ) (bytes : List Byte) :
    maxHandle ≤ observeHandle sha256 access maxHandle bytes := by
  unfold observeHandle
  split
  · exact le_max_left _ _
  · exact le_refl _

/-- Headers never lower the greatest handle. -/
theorem le_observedHandle (maxHandle : ℕ) (indices : List ℕ) :
    maxHandle ≤ observedHandle sha256 access f first maxHandle indices := by
  induction indices generalizing maxHandle with
  | nil => exact le_refl _
  | cons index indices ih =>
    rw [observedHandle, List.foldl_cons, ← observedHandle]
    exact (le_observeHandle _ _).trans (ih _)

/-- The mount of a continuation answers a step of the scan and the greatest handle. -/
theorem answer_mountContinuation (state : RecordScan × ℕ) (index : ℕ) :
    (mountContinuation sha256 access first header state index :
        MountAction ε (RecordScan × ℕ)).answer f =
      ((scanStep sha256 access f first header state.1 index).mapError .fault).map fun scan =>
        (scan, observeHandle sha256 access state.2 (snapshotAt f (first + index)).header) := by
  rw [mountContinuation, (query_readExtentSnapshot _).answer_bind, answer_readExtentSnapshot,
    Codec.ok_bind, (query_orFault _).answer_bind, answer_orFault, scanStep]
  cases continueRecord (expectedHeader sha256 access header index) (first + index) state.1
      (snapshotAt f (first + index)) with
  | ok scan => rfl
  | error fault => rfl

/-- A mount scans the continuations of a record as an inspection does. -/
theorem answer_foldlM_mountContinuation (indices : List ℕ) (scan : RecordScan) (maxHandle : ℕ) :
    (indices.foldlM (mountContinuation sha256 access first header) (scan, maxHandle) :
        MountAction ε (RecordScan × ℕ)).answer f =
      ((indices.foldlM (scanStep sha256 access f first header) scan).mapError .fault).map
        fun scan => (scan, observedHandle sha256 access f first maxHandle indices) := by
  rw [Query.answer_foldlM query_mountContinuation]
  simp only [answer_mountContinuation]
  induction indices generalizing scan maxHandle with
  | nil => rfl
  | cons index indices ih =>
    rw [List.foldlM_cons, List.foldlM_cons]
    cases scanStep sha256 access f first header scan index with
    | ok scan =>
      rw [observedHandle, List.foldl_cons, ← observedHandle]
      simp only [Except.mapError, Except.map, Codec.ok_bind]
      exact ih scan _
    | error fault => rfl

namespace MountedLxmfStore

/-- Account for programmed extents below an extent. -/
def reach (store : MountedLxmfStore) (stop : ℕ) : MountedLxmfStore :=
  { store with appendExtent := max store.appendExtent stop }

/-- Append an entry. -/
def push (store : MountedLxmfStore) (entry : IndexEntry) : MountedLxmfStore :=
  { store with entries := store.entries ++ [entry] }

/-- An entry that may be indexed: a new message under a new handle, and a free slot. -/
structure Admits (store : MountedLxmfStore) (entry : IndexEntry) : Prop where
  message : store.entryForMessage entry.receipt.messageId = none
  handle : store.entryForHandle entry.receipt.handle = none
  room : store.entries.length ≠ store.capacity

/-- An entry is indexed exactly if it may be. -/
theorem answer_indexCommitted {store next : MountedLxmfStore} {entry : IndexEntry} :
    (store.indexCommitted entry : MountAction ε MountedLxmfStore).answer f = .ok next ↔
      store.Admits entry ∧ next = store.push entry := by
  rw [indexCommitted, Action.answer_ensure_bind, Action.answer_ensure_bind,
    Action.answer_ensure_bind, Action.answer_pure]
  constructor
  · intro h
    split_ifs at h with hmessage hhandle hroom
    refine ⟨⟨Option.isNone_iff_eq_none.mp hmessage, Option.isNone_iff_eq_none.mp hhandle,
      hroom⟩, ?_⟩
    rw [← Except.ok.inj h, installEntry, if_pos hmessage, push]
  · rintro ⟨hadmits, rfl⟩
    have hmessage := Option.isNone_iff_eq_none.mpr hadmits.message
    rw [if_pos hmessage, if_pos (Option.isNone_iff_eq_none.mpr hadmits.handle),
      if_pos hadmits.room, installEntry, if_pos hmessage, push]

end MountedLxmfStore

end Step

section Inversion

variable {header : HeaderFields} {state next : MountState}

/-- The largest handle after a decoded record. -/
def recordHandle (sha256 : Sha256) (access : BoundLxmfStore) (f : Flash) (state : MountState)
    (header : HeaderFields) : ℕ :=
  observedHandle sha256 access f state.extent (max state.maxHandle header.handle.get)
    (List.range' 1 (header.extentCount - 1))

/-- What one step of the walk finds. -/
inductive MountStep (sha256 : Sha256) (access : BoundLxmfStore) (f : Flash) (state : MountState) :
    MountState → Prop
  | erased (herased : (snapshotAt f state.extent).erased = true) :
      MountStep sha256 access f state { state with extent := state.extent + 1 }
  | undecodable {error : HeaderDecodeError}
      (hprogrammed : (snapshotAt f state.extent).erased = false)
      (hundecodable : decodeHeader sha256 access.usizeValues access.binding
        (snapshotAt f state.extent).header = .error error) :
      MountStep sha256 access f state
        ⟨state.extent + 1, state.store.reach (state.extent + 1), state.maxHandle⟩
  | incomplete {header : HeaderFields}
      (hdecoded : decodeHeader sha256 access.usizeValues access.binding
        (snapshotAt f state.extent).header = .ok header)
      (hinside : state.extent + header.extentCount ≤ access.binding.length / extentSize)
      (hincomplete : ¬ CommittedAt sha256 access f state.extent header) :
      MountStep sha256 access f state ⟨state.extent + header.extentCount,
        state.store.reach (state.extent + header.extentCount),
        recordHandle sha256 access f state header⟩
  | committed {header : HeaderFields}
      (hcommitted : CommittedAt sha256 access f state.extent header)
      (hadmits : state.store.Admits (recordEntry state.extent header)) :
      MountStep sha256 access f state ⟨state.extent + header.extentCount,
        (state.store.reach (state.extent + header.extentCount)).push
          (recordEntry state.extent header), recordHandle sha256 access f state header⟩

/-- A record never lowers the greatest handle and counts its own. -/
theorem le_recordHandle : max state.maxHandle header.handle.get ≤
    recordHandle sha256 access f state header := le_observedHandle _ _

/-- The scan of the continuations of a decoded record, with the handles that it observes. -/
theorem answer_mountScan (state : MountState) :
    ((List.range' 1 (header.extentCount - 1)).foldlM
        (mountContinuation sha256 access state.extent header)
        (⟨true, !(snapshotAt f state.extent).outsideHeaderErased, snapshotAt f state.extent⟩,
          state.maxHandle) : MountAction ε (RecordScan × ℕ)).answer f =
      ((recordScan sha256 access f state.extent header).mapError .fault).map fun scan =>
        (scan, observedHandle sha256 access f state.extent state.maxHandle
          (List.range' 1 (header.extentCount - 1))) :=
  answer_foldlM_mountContinuation _ _ _

/-- A record that is walked over is incomplete, or it is committed and indexed. -/
theorem mountRecord_cases
    (hdecoded : decodeHeader sha256 access.usizeValues access.binding
      (snapshotAt f state.extent).header = .ok header) (hstart : header.extentIndex = 0)
    (h : (mountRecord sha256 access state (snapshotAt f state.extent) header :
      MountAction ε MountState).answer f = .ok next) :
    state.extent + header.extentCount ≤ access.binding.length / extentSize ∧
      (¬ CommittedAt sha256 access f state.extent header ∧
          next = ⟨state.extent + header.extentCount,
            state.store.reach (state.extent + header.extentCount),
            observedHandle sha256 access f state.extent state.maxHandle
              (List.range' 1 (header.extentCount - 1))⟩ ∨
        CommittedAt sha256 access f state.extent header ∧
          state.store.Admits (recordEntry state.extent header) ∧
          next = ⟨state.extent + header.extentCount,
            (state.store.reach (state.extent + header.extentCount)).push
              (recordEntry state.extent header),
            observedHandle sha256 access f state.extent state.maxHandle
              (List.range' 1 (header.extentCount - 1))⟩) := by
  obtain ⟨-, hindex, -, -, -⟩ := of_decodeHeader hdecoded
  have hcount : header.extentCount - 1 + 1 = header.extentCount := by omega
  rw [mountRecord, Action.answer_ensure_bind] at h
  split_ifs at h with hinside
  refine ⟨hinside, ?_⟩
  rw [(Query.foldlM query_mountContinuation _ _).answer_bind, answer_mountScan] at h
  generalize observedHandle sha256 access f state.extent state.maxHandle
    (List.range' 1 (header.extentCount - 1)) = maxHandle at h ⊢
  cases hrecord : recordScan sha256 access f state.extent header with
  | error fault =>
    rw [hrecord] at h
    cases h
  | ok scan =>
    rw [hrecord] at h
    change Action.answer (if _ then _ else _) f = _ at h
    rw [Action.answer_ite] at h
    split_ifs at h with hincomplete
    · refine .inl ⟨fun hcommitted => ?_, (Except.ok.inj h).symm⟩
      obtain ⟨programmedBody, hcomplete⟩ := scan_of_headersAt
        (by rw [hcount]; exact hcommitted.headers)
      rw [← Except.ok.inj (hcomplete.symm.trans hrecord)] at hincomplete
      cases hincomplete
    obtain ⟨hheaders, hfinal⟩ := headersAt_of_scan (header_eq_expected hdecoded hstart) hrecord
      (by simpa using hincomplete)
    rw [hcount] at hheaders
    rw [hfinal, ← Nat.add_sub_assoc (by omega)] at h
    cases hmarker : (snapshotAt f (state.extent + header.extentCount - 1)).commitMarker with
    | incomplete =>
      rw [hmarker] at h
      refine .inl ⟨fun hcommitted => ?_, (Except.ok.inj h).symm⟩
      rw [hcommitted.marker] at hmarker
      cases hmarker
    | unknown =>
      rw [hmarker] at h
      cases h
    | committed =>
      rw [hmarker] at h
      dsimp only at h
      rw [(query_mountDecoded _ _).answer_bind, Action.answer_adapt] at h
      obtain ⟨entry, hentry, hindexed⟩ := Except.bind_eq_ok.mp h
      obtain ⟨hverified, rfl⟩ := answer_decodeCommittedRecord.mp (Except.mapError_eq_ok.mp hentry)
      rw [(query_indexCommitted _ _).answer_bind] at hindexed
      obtain ⟨store, hstore, hnext⟩ := Except.bind_eq_ok.mp hindexed
      obtain ⟨hadmits, rfl⟩ := MountedLxmfStore.answer_indexCommitted.mp hstore
      exact .inr ⟨⟨hdecoded, hstart, hinside, hheaders, hmarker, hverified⟩,
        ⟨hadmits.message, hadmits.handle, hadmits.room⟩, (Except.ok.inj hnext).symm⟩

/-- A committed record that may be indexed is indexed. -/
theorem answer_mountRecord_committed
    (hcommitted : CommittedAt sha256 access f state.extent header)
    (hadmits : state.store.Admits (recordEntry state.extent header)) :
    (mountRecord sha256 access state (snapshotAt f state.extent) header :
        MountAction ε MountState).answer f =
      .ok ⟨state.extent + header.extentCount,
        (state.store.reach (state.extent + header.extentCount)).push
          (recordEntry state.extent header),
        observedHandle sha256 access f state.extent state.maxHandle
          (List.range' 1 (header.extentCount - 1))⟩ := by
  obtain ⟨-, hindex, -, -, -⟩ := of_decodeHeader hcommitted.decoded
  have hcount : header.extentCount - 1 + 1 = header.extentCount := by omega
  obtain ⟨programmedBody, hcomplete⟩ := scan_of_headersAt
    (by rw [hcount]; exact hcommitted.headers)
  rw [mountRecord, Action.answer_ensure_bind, if_pos hcommitted.inside,
    (Query.foldlM query_mountContinuation _ _).answer_bind, answer_mountScan, recordScan, hcomplete]
  change Action.answer (if _ then _ else _) f = _
  rw [Action.answer_ite, if_neg (by simp), ← Nat.add_sub_assoc (by omega)]
  dsimp only
  rw [hcommitted.marker]
  dsimp only
  rw [(query_mountDecoded _ _).answer_bind, Action.answer_adapt,
    answer_decodeCommittedRecord.mpr ⟨hcommitted.verified, rfl⟩]
  have hindexed : ((state.store.reach (state.extent + header.extentCount)).indexCommitted
      (recordEntry state.extent header) : MountAction ε MountedLxmfStore).answer f =
        .ok ((state.store.reach (state.extent + header.extentCount)).push
          (recordEntry state.extent header)) :=
    MountedLxmfStore.answer_indexCommitted.mpr
      ⟨⟨hadmits.message, hadmits.handle, hadmits.room⟩, rfl⟩
  change (_ >>= _ : MountAction ε _).answer f = _
  rw [(query_indexCommitted _ _).answer_bind]
  change (Action.answer (MountedLxmfStore.indexCommitted
    (state.store.reach (state.extent + header.extentCount)) _) f >>= _) = _
  rw [hindexed]
  rfl

end Inversion

section Walk

variable {header : HeaderFields} {state next : MountState}

/-- To reach two extents in turn is to reach the later one. -/
theorem MountedLxmfStore.reach_reach {store : MountedLxmfStore} {stop stop' : ℕ}
    (h : stop ≤ stop') : (store.reach stop).reach stop' = store.reach stop' := by
  simp only [reach, max_assoc, max_eq_right h]

/-- A step of the walk passes an erased extent, an incomplete record or a committed one. -/
theorem mountStep_of_answer
    (h : (mountExtent sha256 access state : MountAction ε MountState).answer f = .ok next) :
    MountStep sha256 access f state next := by
  cases hdecoded : decodeHeader sha256 access.usizeValues access.binding
      (snapshotAt f state.extent).header with
  | error error =>
    rw [mountExtent, (query_readExtentSnapshot _).answer_bind, answer_readExtentSnapshot,
      Codec.ok_bind, Action.answer_ite, hdecoded] at h
    split_ifs at h with herased
    · rw [← Except.ok.inj h]
      exact .erased herased
    · dsimp only at h
      rw [(query_orFault _).answer_bind] at h
      obtain ⟨_, -, hnext⟩ := Except.bind_eq_ok.mp h
      rw [← Except.ok.inj hnext]
      exact .undecodable (by simpa using herased) hdecoded
  | ok header =>
    by_cases hstart : header.extentIndex = 0
    · rw [answer_mountExtent_decoded hdecoded hstart] at h
      obtain ⟨-, hindex, -, -, -⟩ := of_decodeHeader hdecoded
      have hreach : ((state.store.reach (state.extent + 1)).reach
          (state.extent + header.extentCount)) =
            state.store.reach (state.extent + header.extentCount) :=
        MountedLxmfStore.reach_reach (by omega)
      obtain ⟨hinside, ⟨hincomplete, rfl⟩ | ⟨hcommitted, hadmits, rfl⟩⟩ :=
        @mountRecord_cases ε sha256 access f header ⟨state.extent,
          state.store.reach (state.extent + 1), max state.maxHandle header.handle.get⟩ next hdecoded
          hstart h
      · rw [hreach]
        exact .incomplete hdecoded hinside hincomplete
      · rw [hreach]
        exact .committed hcommitted ⟨hadmits.message, hadmits.handle, hadmits.room⟩
    · rw [mountExtent, (query_readExtentSnapshot _).answer_bind, answer_readExtentSnapshot,
        Codec.ok_bind, not_erased_of_decoded hdecoded, if_neg (by decide), hdecoded] at h
      dsimp only at h
      rw [if_pos hstart] at h
      cases h

end Walk

section Congruence

variable {err : Type} {first count : ℕ} {header : HeaderFields} {state next : MountState}

/-- Contents that agree on some extents answer alike whatever reads no others. -/
theorem answer_congr_extents {α : Type} {x : Action ε err α}
    (hx : ReadsOnly (InExtents first count) x.run)
    (hagree : f.Agree g (extentOffset first) (extentOffset (first + count))) :
    x.answer g = x.answer f :=
  hx.run_congr fun _ _ hrange => hagree.read_eq hrange.1 hrange.2

/-- Flashes that agree on an extent have one snapshot of it. -/
theorem snapshotAt_congr {extent : ℕ}
    (hagree : f.Agree g (extentOffset extent) (extentOffset (extent + 1))) :
    snapshotAt g extent = snapshotAt f extent := by
  have hanswer := answer_congr_extents (x := (readExtentSnapshot id extent :
    Action Unit Unit ExtentSnapshot)) (readsOnly_readExtentSnapshot extent) hagree
  rw [answer_readExtentSnapshot, answer_readExtentSnapshot] at hanswer
  exact Except.ok.inj hanswer

/-- A step of the mount goes forward. -/
theorem MountStep.lt (h : MountStep sha256 access f state next) : state.extent < next.extent := by
  cases h with
  | erased => exact Nat.lt_succ_self _
  | undecodable => exact Nat.lt_succ_self _
  | incomplete hdecoded =>
    obtain ⟨-, hindex, -, -, -⟩ := of_decodeHeader hdecoded
    dsimp only
    omega
  | committed hcommitted =>
    obtain ⟨-, hindex, -, -, -⟩ := of_decodeHeader hcommitted.decoded
    dsimp only
    omega

/-- A step depends on the extents that it passes. -/
theorem answer_mountExtent_congr
    (h : (mountExtent sha256 access state : MountAction ε MountState).answer f = .ok next)
    (hagree : f.Agree g (extentOffset state.extent) (extentOffset next.extent)) :
    (mountExtent sha256 access state : MountAction ε MountState).answer g = .ok next := by
  have hlt := (mountStep_of_answer h).lt
  have hsnapshot : snapshotAt g state.extent = snapshotAt f state.extent :=
    snapshotAt_congr (hagree.mono (le_refl _) (Nat.mul_le_mul_right _ hlt))
  cases hdecoded : decodeHeader sha256 access.usizeValues access.binding
      (snapshotAt f state.extent).header with
  | error error =>
    rw [mountExtent, (query_readExtentSnapshot _).answer_bind, answer_readExtentSnapshot,
      Codec.ok_bind, Action.answer_ite, hdecoded] at h
    rw [mountExtent, (query_readExtentSnapshot _).answer_bind, answer_readExtentSnapshot,
      Codec.ok_bind, Action.answer_ite, hsnapshot, hdecoded]
    dsimp only at h ⊢
    rw [(query_orFault _).answer_bind, answer_orFault] at h ⊢
    exact h
  | ok header =>
    by_cases hstart : header.extentIndex = 0
    · have hdecoded' : decodeHeader sha256 access.usizeValues access.binding
          (snapshotAt g state.extent).header = .ok header := by
        rw [hsnapshot, hdecoded]
      rw [answer_mountExtent_decoded hdecoded hstart] at h
      rw [answer_mountExtent_decoded hdecoded' hstart, hsnapshot, ← h]
      refine answer_congr_extents (readsOnly_mountRecord _ _) ?_
      have hnext : next.extent = state.extent + header.extentCount := by
        obtain ⟨-, ⟨-, rfl⟩ | ⟨-, -, rfl⟩⟩ := @mountRecord_cases ε sha256 access f header
          ⟨state.extent, state.store.reach (state.extent + 1),
            max state.maxHandle header.handle.get⟩ next hdecoded hstart h
        · rfl
        · rfl
      rw [hnext] at hagree
      exact hagree
    · rw [mountExtent, (query_readExtentSnapshot _).answer_bind, answer_readExtentSnapshot,
        Codec.ok_bind, not_erased_of_decoded hdecoded, if_neg (by decide), hdecoded] at h
      dsimp only at h
      rw [if_pos hstart] at h
      cases h

/-- The continuations of a committed record show no handle but its own. -/
theorem observedHandle_committed (hvalid : ValidShape access)
    (hcommitted : CommittedAt sha256 access f first header) (maxHandle : ℕ) {indices : List ℕ}
    (hindices : ∀ index ∈ indices, index < header.extentCount) :
    observedHandle sha256 access f first (max maxHandle header.handle.get) indices =
      max maxHandle header.handle.get := by
  obtain ⟨hversion, hindex, hfits, hrequired, -⟩ := of_decodeHeader hcommitted.decoded
  have hrange := hvalid.range
  induction indices with
  | nil => rfl
  | cons index indices ih =>
    rw [List.forall_mem_cons] at hindices
    have hobserve : observeHandle sha256 access (max maxHandle header.handle.get)
        (snapshotAt f (first + index)).header = max maxHandle header.handle.get := by
      rw [observeHandle, hcommitted.headers index hindices.1, expectedHeader, hversion,
        decodeHeader_encodeHeader access.usizeValues_le (by omega) (by omega) hrequired hfits
          hindices.1]
      dsimp only
      rw [max_assoc, max_self]
    rw [observedHandle, List.foldl_cons, hobserve]
    exact ih hindices.2

/-- A step over a committed record that may be indexed indexes it. -/
theorem answer_mountExtent_committed (hvalid : ValidShape access)
    (hcommitted : CommittedAt sha256 access f state.extent header)
    (hadmits : state.store.Admits (recordEntry state.extent header)) :
    (mountExtent sha256 access state : MountAction ε MountState).answer f =
      .ok ⟨state.extent + header.extentCount,
        (state.store.reach (state.extent + header.extentCount)).push
          (recordEntry state.extent header), max state.maxHandle header.handle.get⟩ := by
  obtain ⟨-, hindex, -, -, -⟩ := of_decodeHeader hcommitted.decoded
  rw [answer_mountExtent_decoded hcommitted.decoded hcommitted.start]
  have hrecord := @answer_mountRecord_committed ε sha256 access f header ⟨state.extent,
    state.store.reach (state.extent + 1), max state.maxHandle header.handle.get⟩ hcommitted
    ⟨hadmits.message, hadmits.handle, hadmits.room⟩
  dsimp only at hrecord
  rw [MountedLxmfStore.reach_reach (by omega),
    observedHandle_committed hvalid hcommitted] at hrecord
  · exact hrecord
  · intro index hindex
    have := List.mem_range'_1.mp hindex
    omega

end Congruence

end LxmfStore
