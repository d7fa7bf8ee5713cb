import ReticulumFirmware.Codec.Guarded
import ReticulumFirmware.Collections.Fold
import ReticulumFirmware.LxmfStore.Header
import ReticulumFirmware.LxmfStore.Snapshot

/-!
# Committed records

A committed record is a span whose headers repeat one message, whose footer carries the commit
marker and whose wire hashes to the recorded digests. An inspection returns an entry exactly if
such a record stands at the extent, and the record depends on no other extent.
-/

namespace LxmfStore

open Nor Lxmf

variable {ε : Type} {sha256 : Sha256} {access : BoundLxmfStore} {f g : Flash} {first : ℕ}
  {header : HeaderFields}

section Scan

/-- Judge continuation `index` of a record as it stands in the contents. -/
def scanStep (sha256 : Sha256) (access : BoundLxmfStore) (f : Flash) (first : ℕ)
    (header : HeaderFields) (scan : RecordScan) (index : ℕ) : Except LxmfStoreFault RecordScan :=
  continueRecord (expectedHeader sha256 access header index) (first + index) scan
    (snapshotAt f (first + index))

/-- The scan of a record before its continuations. -/
def scanStart (f : Flash) (first : ℕ) : RecordScan :=
  ⟨true, !(snapshotAt f first).outsideHeaderErased, snapshotAt f first⟩

/-- The scan of a record whose first header was decoded. -/
def recordScan (sha256 : Sha256) (access : BoundLxmfStore) (f : Flash) (first : ℕ)
    (header : HeaderFields) : Except LxmfStoreFault RecordScan :=
  (List.range' 1 (header.extentCount - 1)).foldlM (scanStep sha256 access f first header)
    (scanStart f first)

/-- The first `count` extents of a record hold its headers. -/
def HeadersAt (sha256 : Sha256) (access : BoundLxmfStore) (f : Flash) (first : ℕ)
    (header : HeaderFields) (count : ℕ) : Prop :=
  ∀ index < count, (snapshotAt f (first + index)).header = expectedHeader sha256 access header index

/-- A scan that is complete so far has seen every header. -/
theorem headersAt_of_scan {n : ℕ} {scan : RecordScan}
    (hfirst : (snapshotAt f first).header = expectedHeader sha256 access header 0)
    (h : (List.range' 1 n).foldlM (scanStep sha256 access f first header) (scanStart f first) =
      .ok scan)
    (hcomplete : scan.headersComplete = true) :
    HeadersAt sha256 access f first header (n + 1) ∧
      scan.finalSnapshot = snapshotAt f (first + n) := by
  induction n generalizing scan with
  | zero =>
    cases h
    refine ⟨fun index hindex => ?_, rfl⟩
    obtain rfl : index = 0 := by omega
    exact hfirst
  | succ n ih =>
    rw [List.range'_1_concat] at h
    obtain ⟨before, hbefore, hstep⟩ := List.foldlM_concat_ok.mp h
    rw [scanStep, continueRecord] at hstep
    split_ifs at hstep with hincomplete _ hheader
    · rw [← Except.ok.inj hstep] at hcomplete
      exact absurd (hincomplete.symm.trans hcomplete) (by decide)
    · obtain ⟨hheaders, -⟩ := ih hbefore (by simpa using hincomplete)
      rw [← Except.ok.inj hstep, Nat.add_comm n 1]
      refine ⟨fun index hindex => ?_, rfl⟩
      by_cases hlast : index = 1 + n
      · rw [hlast]
        exact hheader
      · exact hheaders index (by omega)
    · rw [← Except.ok.inj hstep] at hcomplete
      cases hcomplete

/-- The scan of a record whose headers are all there is complete. -/
theorem scan_of_headersAt {n : ℕ} (h : HeadersAt sha256 access f first header (n + 1)) :
    ∃ programmedBody,
      (List.range' 1 n).foldlM (scanStep sha256 access f first header) (scanStart f first) =
        .ok ⟨true, programmedBody, snapshotAt f (first + n)⟩ := by
  induction n with
  | zero => exact ⟨_, rfl⟩
  | succ n ih =>
    obtain ⟨programmedBody, hbefore⟩ := ih fun index hindex => h index (by omega)
    refine ⟨programmedBody || !(snapshotAt f (first + (1 + n))).outsideHeaderErased, ?_⟩
    have hheader := h (1 + n) (by omega)
    rw [List.range'_1_concat]
    refine List.foldlM_concat_ok.mpr ⟨_, hbefore, ?_⟩
    rw [scanStep, continueRecord, if_neg (by simp), if_pos hheader, Nat.add_comm n 1]

end Scan

section Committed

/-- A committed record with the values of a header stands at an extent. -/
structure CommittedAt (sha256 : Sha256) (access : BoundLxmfStore) (f : Flash) (first : ℕ)
    (header : HeaderFields) : Prop where
  decoded : decodeHeader sha256 access.usizeValues access.binding (snapshotAt f first).header =
    .ok header
  start : header.extentIndex = 0
  inside : first + header.extentCount ≤ access.binding.length / extentSize
  headers : HeadersAt sha256 access f first header header.extentCount
  marker : (snapshotAt f (first + header.extentCount - 1)).commitMarker = .committed
  verified : Verified sha256 f first (snapshotAt f first).header
    (snapshotAt f (first + header.extentCount - 1)).footer header

/-- A decoded first header is the header that the record repeats. -/
theorem header_eq_expected
    (hdecoded : decodeHeader sha256 access.usizeValues access.binding (snapshotAt f first).header =
      .ok header) (hstart : header.extentIndex = 0) :
    (snapshotAt f first).header = expectedHeader sha256 access header 0 := by
  obtain ⟨hversion, -, -, -, heq⟩ := of_decodeHeader hdecoded
  rw [heq, expectedHeader, hversion, hstart]

/-- An extent whose header is decoded is programmed. -/
theorem not_erased_of_decoded
    (hdecoded : decodeHeader sha256 access.usizeValues access.binding (snapshotAt f first).header =
      .ok header) : (snapshotAt f first).erased = false := by
  obtain ⟨-, -, -, -, heq⟩ := of_decodeHeader hdecoded
  cases herased : (snapshotAt f first).erased with
  | false => rfl
  | true =>
    have hall := snapshotAt_erased.mp herased
    have hclaim : slice (snapshotAt f first).header 0 32 = claimMarker := by
      rw [heq]
      exact slice_encodeHeader 0 0 32 rfl rfl rfl
    have hblank : slice (snapshotAt f first).header 0 32 = List.replicate 32 erasedByte := by
      have hinside : extentOffset first + 0 + 32 ≤ extentOffset first + extentSize := by
        simp only [extentSize]
        omega
      rw [snapshotAt_header, Flash.slice_read (by decide)]
      exact (hall.mono (Nat.le_add_right _ _) hinside).read_eq
    exact absurd (hclaim.symm.trans hblank) (by decide)

/-- The inspection of a continuation only reads. -/
theorem query_inspectContinuation (scan : RecordScan) (index : ℕ) :
    Query InspectError.backend (inspectContinuation sha256 access first header scan index :
      InspectAction ε RecordScan).run := by
  refine (query_readExtentSnapshot _).bind fun continuation => ?_
  split
  · exact .pureAction _ _
  · exact .throwAction _ _

/-- The inspection of a continuation answers one step of the scan. -/
theorem answer_inspectContinuation (scan : RecordScan) (index : ℕ) :
    (inspectContinuation sha256 access first header scan index :
        InspectAction ε RecordScan).answer f =
      (scanStep sha256 access f first header scan index).mapError .fault := by
  rw [inspectContinuation, (query_readExtentSnapshot _).answer_bind, answer_readExtentSnapshot]
  rw [scanStep, Codec.ok_bind]
  cases continueRecord (expectedHeader sha256 access header index) (first + index) scan
      (snapshotAt f (first + index)) with
  | ok scan => rfl
  | error fault => rfl

/-- The inspection of a record only reads. -/
theorem query_inspectRecord (snapshot : ExtentSnapshot) :
    Query InspectError.backend (inspectRecord sha256 access first snapshot header :
      InspectAction ε (Option IndexEntry)).run := by
  refine (Query.ensureAction _ _ _).bind fun _ =>
    (Query.foldlM query_inspectContinuation _ _).bind fun scan => ?_
  split
  · exact .pureAction _ _
  · split
    · exact .pureAction _ _
    · exact .throwAction _ _
    · exact (query_decodeCommittedRecord _ _ _ _).map _

/-- The scan of the continuations of a decoded record. -/
theorem answer_inspectScan :
    ((List.range' 1 (header.extentCount - 1)).foldlM
      (inspectContinuation sha256 access first header)
      ⟨true, !(snapshotAt f first).outsideHeaderErased, snapshotAt f first⟩ :
        InspectAction ε RecordScan).answer f =
      (recordScan sha256 access f first header).mapError .fault := by
  rw [Query.answer_foldlM query_inspectContinuation]
  simp only [answer_inspectContinuation]
  exact List.foldlM_mapError _ _ _

/-- The record of a decoded first header is returned exactly if it is committed. -/
theorem answer_inspectRecord {entry : IndexEntry}
    (hdecoded : decodeHeader sha256 access.usizeValues access.binding (snapshotAt f first).header =
      .ok header) (hstart : header.extentIndex = 0) :
    (inspectRecord sha256 access first (snapshotAt f first) header :
        InspectAction ε (Option IndexEntry)).answer f = .ok (some entry) ↔
      CommittedAt sha256 access f first header ∧ entry = recordEntry first header := by
  obtain ⟨-, hindex, -, -, -⟩ := of_decodeHeader hdecoded
  have hcount : header.extentCount - 1 + 1 = header.extentCount := by omega
  have hfirst := header_eq_expected hdecoded hstart
  rw [inspectRecord, Action.answer_ensure_bind,
    (Query.foldlM query_inspectContinuation _ _).answer_bind, answer_inspectScan]
  constructor
  · intro h
    split_ifs at h with hinside
    cases hrecord : recordScan sha256 access f first header with
    | error fault =>
      rw [hrecord] at h
      cases h
    | ok scan =>
      rw [hrecord] at h
      change Action.answer (if _ then _ else _) f = _ at h
      rw [Action.answer_ite] at h
      split_ifs at h with hincomplete
      · cases h
      obtain ⟨hheaders, hfinal⟩ := headersAt_of_scan hfirst hrecord (by simpa using hincomplete)
      rw [hcount] at hheaders
      rw [hfinal, ← Nat.add_sub_assoc (by omega)] at h
      cases hmarker : (snapshotAt f (first + header.extentCount - 1)).commitMarker with
      | incomplete =>
        rw [hmarker] at h
        cases h
      | unknown =>
        rw [hmarker] at h
        cases h
      | committed =>
        rw [hmarker] at h
        dsimp only at h
        rw [(query_decodeCommittedRecord _ _ _ _).answer_map] at h
        obtain ⟨decoded, hdecode, heq⟩ := Except.map_eq_ok.mp h
        obtain ⟨hverified, hentry⟩ := answer_decodeCommittedRecord.mp hdecode
        refine ⟨⟨hdecoded, hstart, hinside, hheaders, hmarker, hverified⟩, ?_⟩
        rw [← Option.some.inj heq, hentry]
  · rintro ⟨h, rfl⟩
    obtain ⟨programmedBody, hcomplete⟩ := scan_of_headersAt (by rw [hcount]; exact h.headers)
    rw [if_pos h.inside, recordScan, hcomplete]
    change Action.answer (if _ then _ else _) f = _
    rw [Action.answer_ite, if_neg (by simp), ← Nat.add_sub_assoc (by omega)]
    dsimp only
    rw [h.marker]
    dsimp only
    rw [(query_decodeCommittedRecord _ _ _ _).answer_map,
      answer_decodeCommittedRecord.mpr ⟨h.verified, rfl⟩]
    rfl

/-- A record with all of its headers and its marker is found or refused, never passed over. -/
theorem answer_inspectRecord_ne_none (hpos : 0 < header.extentCount)
    (hheaders : HeadersAt sha256 access f first header header.extentCount)
    (hmarker : (snapshotAt f (first + header.extentCount - 1)).commitMarker = .committed) :
    (inspectRecord sha256 access first (snapshotAt f first) header :
        InspectAction ε (Option IndexEntry)).answer f ≠ .ok none := by
  intro h
  obtain ⟨programmedBody, hcomplete⟩ := scan_of_headersAt
    (by rw [Nat.sub_add_cancel hpos]; exact hheaders)
  rw [inspectRecord, Action.answer_ensure_bind,
    (Query.foldlM query_inspectContinuation _ _).answer_bind, answer_inspectScan, recordScan,
    hcomplete] at h
  split_ifs at h
  change Action.answer (if _ then _ else _) f = _ at h
  rw [Action.answer_ite, if_neg (by simp), ← Nat.add_sub_assoc hpos] at h
  dsimp only at h
  rw [hmarker] at h
  dsimp only at h
  rw [(query_decodeCommittedRecord _ _ _ _).answer_map] at h
  obtain ⟨entry, -, hsome⟩ := Except.map_eq_ok.mp h
  cases hsome

/-- The verdict on an extent that starts no record, as the end of an inspection. -/
def undecodableResult (snapshot : ExtentSnapshot) (first : ℕ) :
    InspectAction ε (Option IndexEntry) :=
  match inspectUndecodable snapshot first with
  | .ok () => pure none
  | .error fault => throw (.fault fault)

/-- What cannot be decoded is only read. -/
theorem query_undecodableResult (snapshot : ExtentSnapshot) :
    Query InspectError.backend (undecodableResult snapshot first :
      InspectAction ε (Option IndexEntry)).run := by
  unfold undecodableResult
  split
  · exact .pureAction _ _
  · exact .throwAction _ _

/-- What cannot be decoded is no entry. -/
theorem answer_undecodableResult (snapshot : ExtentSnapshot) (entry : IndexEntry) :
    (undecodableResult snapshot first : InspectAction ε _).answer f ≠ .ok (some entry) := by
  unfold undecodableResult
  split
  · simp
  · simp

/-- The search for a committed record only reads. -/
theorem query_committedRecordAt :
    Query InspectError.backend (committedRecordAt sha256 access first :
      InspectAction ε (Option IndexEntry)).run := by
  refine (query_readExtentSnapshot _).bind fun snapshot => ?_
  split
  · exact .pureAction _ _
  · split
    · split
      · exact query_inspectRecord snapshot
      · exact query_undecodableResult snapshot
    · exact query_undecodableResult snapshot

/-- An inspection goes on with the record whose first header it decodes. -/
theorem answer_committedRecordAt_decoded
    (hdecoded : decodeHeader sha256 access.usizeValues access.binding (snapshotAt f first).header =
      .ok header) (hstart : header.extentIndex = 0) :
    (committedRecordAt sha256 access first : InspectAction ε (Option IndexEntry)).answer f =
      (inspectRecord sha256 access first (snapshotAt f first) header : InspectAction ε _).answer
        f := by
  rw [committedRecordAt, (query_readExtentSnapshot _).answer_bind, answer_readExtentSnapshot,
    Codec.ok_bind, not_erased_of_decoded hdecoded, if_neg (by decide), hdecoded]
  dsimp only
  rw [if_pos hstart]

/-- An inspection returns an entry exactly if a committed record stands at the extent. -/
theorem answer_committedRecordAt {entry : IndexEntry} :
    (committedRecordAt sha256 access first : InspectAction ε (Option IndexEntry)).answer f =
        .ok (some entry) ↔
      ∃ header, CommittedAt sha256 access f first header ∧ entry = recordEntry first header := by
  constructor
  · intro h
    cases hdecoded : decodeHeader sha256 access.usizeValues access.binding
        (snapshotAt f first).header with
    | error error =>
      rw [committedRecordAt, (query_readExtentSnapshot _).answer_bind, answer_readExtentSnapshot,
        Codec.ok_bind, Action.answer_ite, hdecoded] at h
      split_ifs at h
      · cases h
      · exact absurd h (answer_undecodableResult _ _)
    | ok header =>
      by_cases hstart : header.extentIndex = 0
      · rw [answer_committedRecordAt_decoded hdecoded hstart] at h
        exact ⟨header, (answer_inspectRecord hdecoded hstart).mp h⟩
      · rw [committedRecordAt, (query_readExtentSnapshot _).answer_bind, answer_readExtentSnapshot,
          Codec.ok_bind, Action.answer_ite, hdecoded] at h
        dsimp only at h
        rw [if_neg hstart] at h
        split_ifs at h
        · cases h
        · exact absurd h (answer_undecodableResult _ _)
  · rintro ⟨header, h, rfl⟩
    rw [answer_committedRecordAt_decoded h.decoded h.start]
    exact (answer_inspectRecord h.decoded h.start).mpr ⟨h, rfl⟩

/-- A mount goes on with the record whose first header it decodes. -/
theorem answer_mountExtent_decoded {state : MountState} {header : HeaderFields}
    (hdecoded : decodeHeader sha256 access.usizeValues access.binding
      (snapshotAt f state.extent).header = .ok header) (hstart : header.extentIndex = 0) :
    (mountExtent sha256 access state : MountAction ε MountState).answer f =
      (mountRecord sha256 access ⟨state.extent,
        { state.store with appendExtent := max state.store.appendExtent (state.extent + 1) },
        max state.maxHandle header.handle.get⟩ (snapshotAt f state.extent) header :
          MountAction ε MountState).answer f := by
  rw [mountExtent, (query_readExtentSnapshot _).answer_bind, answer_readExtentSnapshot,
    Codec.ok_bind, not_erased_of_decoded hdecoded, if_neg (by decide), hdecoded]
  dsimp only
  rw [if_neg (not_not.mpr hstart)]

end Committed

end LxmfStore
