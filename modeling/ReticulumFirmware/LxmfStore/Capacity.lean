import Mathlib.Order.Bounds.Basic
import ReticulumFirmware.Nor.Failures
import ReticulumFirmware.LxmfStore.Admission
import ReticulumFirmware.LxmfStore.Programming

/-!
# The capacity of a partition

The largest wire that a number of extents holds, and what a commit that has room for a wire does
with it.
-/

namespace LxmfStore

open Nor Nor.Prog Lxmf

section Numbers

/-- The largest wire that a binding of this length holds, with the checks of `usize`. -/
def maxNormalizedWireBytes (usizeValues bindingLength : ℕ) : Option ℕ :=
  if bindingLength = 0 ∨ bindingLength % extentSize ≠ 0 then none
  else
    let availableExtents := bindingLength / extentSize
    let extents := if 2 ^ 16 - 1 < availableExtents then 2 ^ 16 - 1 else availableExtents
    if extents * extentPayloadSize < usizeValues then
      if recordFooterSize ≤ extents * extentPayloadSize then
        some (extents * extentPayloadSize - recordFooterSize)
      else none
    else none

/-- The extents that one record of a partition can have. -/
def recordExtents (bindingLength : ℕ) : ℕ := min (bindingLength / extentSize) (2 ^ 16 - 1)

/-- The lengths that some extents are enough for. -/
def Holds (usizeValues extents wireLen : ℕ) : Prop :=
  ∃ required, requiredExtents usizeValues wireLen = some required ∧ required ≤ extents

/-- An empty binding holds no wire. -/
theorem maxNormalizedWireBytes_none {usizeValues bindingLength : ℕ} (hzero : bindingLength = 0) :
    maxNormalizedWireBytes usizeValues bindingLength = none :=
  if_pos (Or.inl hzero)

/-- An aligned binding holds the wire of a record over all its extents, within the format. -/
theorem maxNormalizedWireBytes_eq {usizeValues bindingLength : ℕ} (hpos : 0 < bindingLength)
    (haligned : bindingLength % extentSize = 0) (hlt : bindingLength < usizeValues) :
    maxNormalizedWireBytes usizeValues bindingLength =
      some (wireCapacity (recordExtents bindingLength)) := by
  have hextents : (if 2 ^ 16 - 1 < bindingLength / extentSize then 2 ^ 16 - 1
      else bindingLength / extentSize) = recordExtents bindingLength := by
    unfold recordExtents
    split_ifs <;> omega
  have hbounds : 1 ≤ recordExtents bindingLength ∧
      recordExtents bindingLength * 4096 ≤ bindingLength := by
    have hdiv := Nat.div_mul_le_self bindingLength 4096
    change bindingLength % 4096 = 0 at haligned
    change 1 ≤ min (bindingLength / 4096) (2 ^ 16 - 1) ∧
      min (bindingLength / 4096) (2 ^ 16 - 1) * 4096 ≤ bindingLength
    omega
  unfold maxNormalizedWireBytes
  rw [if_neg (by omega)]
  dsimp only
  rw [hextents]
  change (if recordExtents bindingLength * 3584 < usizeValues then
    if 256 ≤ recordExtents bindingLength * 3584 then _ else _ else _) = _
  rw [if_pos (by omega), if_pos (by omega)]
  rfl

/-- Some extents hold exactly the wires up to their capacity. -/
theorem holds_iff {usizeValues extents wireLen : ℕ} (husize : 2 ^ 16 ≤ usizeValues)
    (hpos : 0 < extents) (hlt : extents * extentSize < usizeValues) :
    Holds usizeValues extents wireLen ↔ wireLen ≤ wireCapacity extents := by
  change extents * 4096 < usizeValues at hlt
  rw [wireCapacity_eq]
  constructor
  · rintro ⟨required, hrequired, hle⟩
    exact (le_wireCapacity hrequired).trans
      (Nat.sub_le_sub_right (Nat.mul_le_mul_right 3584 hle) 256)
  · intro hfits
    -- seven extents of headers make up for the rounding, and fewer are far from the end of `usize`
    have hroom : wireLen + recordFooterSize + (extentPayloadSize - 1) < usizeValues := by
      simp only [recordFooterSize, extentPayloadSize, extentSize, extentHeaderSize]
      omega
    have hrequired : requiredExtents usizeValues wireLen =
        some ((wireLen + recordFooterSize + (extentPayloadSize - 1)) / extentPayloadSize) := by
      rw [requiredExtents, if_pos hroom]
    refine ⟨_, hrequired, ?_⟩
    simp only [recordFooterSize, extentPayloadSize, extentSize, extentHeaderSize]
    omega

/-- The record of greatest length has an extent and lies in the binding. -/
theorem recordExtents_bounds {usizeValues bindingLength : ℕ} (hpos : 0 < bindingLength)
    (haligned : bindingLength % extentSize = 0) (hlt : bindingLength < usizeValues) :
    0 < recordExtents bindingLength ∧
      recordExtents bindingLength * extentSize < usizeValues := by
  have hdiv := Nat.div_mul_le_self bindingLength 4096
  change bindingLength % 4096 = 0 at haligned
  change 0 < min (bindingLength / 4096) (2 ^ 16 - 1) ∧
    min (bindingLength / 4096) (2 ^ 16 - 1) * 4096 < usizeValues
  omega

/-- The advertised capacity is the largest wire that the extents of one record hold. -/
theorem maxNormalizedWireBytes_isGreatest {usizeValues bindingLength : ℕ}
    (husize : 2 ^ 16 ≤ usizeValues) (hpos : 0 < bindingLength)
    (haligned : bindingLength % extentSize = 0) (hlt : bindingLength < usizeValues) :
    ∃ bytes, maxNormalizedWireBytes usizeValues bindingLength = some bytes ∧
      IsGreatest {wireLen | Holds usizeValues (recordExtents bindingLength) wireLen} bytes := by
  obtain ⟨hextents, hfits⟩ := recordExtents_bounds hpos haligned hlt
  refine ⟨_, maxNormalizedWireBytes_eq hpos haligned hlt, ?_, fun wireLen hholds => ?_⟩
  · exact (holds_iff husize hextents hfits).mpr le_rfl
  · exact (holds_iff husize hextents hfits).mp hholds

end Numbers

section Failures

variable {ε : Type} {sha256 : Sha256} {access : BoundLxmfStore} {store : MountedLxmfStore}
  {candidate : InboundMessageCandidate}

/-- The partition is said to be full. -/
def LxmfCommitError.IsFull (error : LxmfCommitError ε) : Prop :=
  ∃ required remaining, error = .full required remaining

/-- The partition is not said to be full. -/
def NotFull (error : LxmfCommitError ε) : Prop := ¬error.IsFull

/-- Failures of a commit behind its checks. -/
inductive AppendFailure : LxmfCommitError ε → Prop
  | backend (stage : LxmfProgramStage) (error : ε) : AppendFailure (.backend stage error)
  | fault (fault : LxmfStoreFault) : AppendFailure (.fault fault)
  | hashCollision (messageId : MessageId) : AppendFailure (.hashCollision messageId)

/-- A failure to append does not say that the store is full. -/
theorem AppendFailure.not_full {error : LxmfCommitError ε} (h : AppendFailure error) :
    NotFull error := by
  rintro ⟨required, remaining, rfl⟩
  cases h

/-- A page that is not programmed fails as an append does. -/
theorem programPage_failure {offset firstExtent : ℕ} {programmed : List Byte}
    {accepts : List Byte → Bool} {stage : LxmfProgramStage} {w : Except ε Unit}
    {r : Except ε (List Byte)} {e : LxmfCommitError ε}
    (h : (programPage offset programmed accepts stage firstExtent).verdict w r = .error e) :
    AppendFailure e := by
  unfold programPage at h
  dsimp only at h
  split at h
  · split_ifs at h
    cases h
    exact .fault _
  · split_ifs at h
    cases h
    exact .backend _ _
  · cases h
    exact .backend _ _
  · cases h
    exact .backend _ _

/-- Every program of a commit is that of a page. -/
def IsPage (c : CheckedPatch ε (LxmfCommitError ε)) : Prop :=
  ∃ offset programmed accepts stage firstExtent,
    c = programPage offset programmed accepts stage firstExtent

/-- The patches of a header are pages. -/
theorem isPage_of_mem_header {firstExtent index : ℕ} {header : List Byte}
    {c : CheckedPatch ε (LxmfCommitError ε)} (h : c ∈ programHeader firstExtent index header) :
    IsPage c := by
  rcases List.mem_cons.mp h with rfl | h
  · exact ⟨_, _, _, _, _, rfl⟩
  · obtain ⟨page, -, rfl⟩ := List.mem_map.mp h
    exact ⟨_, _, _, _, _, rfl⟩

/-- The patches of the wire are pages. -/
theorem isPage_of_mem_wirePages {firstExtent : ℕ} {cursor : CandidateCursor} {offsets : List ℕ}
    {c : CheckedPatch ε (LxmfCommitError ε)}
    (h : c ∈ programWirePages firstExtent cursor offsets) : IsPage c := by
  induction offsets generalizing cursor with
  | nil => cases h
  | cons offset offsets ih =>
    unfold programWirePages at h
    split_ifs at h with hremaining
    · rcases List.mem_cons.mp h with rfl | h
      · exact ⟨_, _, _, _, _, rfl⟩
      · exact ih h
    · cases h

/-- The patches of a record are pages. -/
theorem isPage_of_mem_record {firstExtent extentCount : ℕ} {handle : MessageHandle}
    {c : CheckedPatch ε (LxmfCommitError ε)}
    (h : c ∈ programRecord sha256 access candidate firstExtent extentCount handle) : IsPage c := by
  rcases List.mem_append.mp h with h | h
  · rcases List.mem_append.mp h with h | h
    · obtain ⟨index, -, h⟩ := List.mem_flatMap.mp h
      exact isPage_of_mem_header h
    · exact isPage_of_mem_wirePages h
  · simp only [List.mem_cons, List.not_mem_nil, or_false] at h
    rcases h with rfl | rfl
    · exact ⟨_, _, _, _, _, rfl⟩
    · exact ⟨_, _, _, _, _, rfl⟩

/-- A failed inspection fails as an append does. -/
theorem intoCommitError_failure (error : InspectError ε) : AppendFailure error.intoCommitError := by
  cases error with
  | backend error => exact .backend _ _
  | fault fault => exact .fault _

/-- A failed check that the span is erased fails as an append does. -/
theorem spanIsErased_failsWith (firstExtent extentCount : ℕ) :
    Action.FailsWith AppendFailure (spanIsErased (LxmfCommitError.backend .verification) firstExtent
      extentCount : CommitAction ε Bool) := by
  induction extentCount generalizing firstExtent with
  | zero => exact .pureAction true
  | succ extentCount ih =>
    refine .bind (.foldlM (fun snapshot page => ?_) _ _) fun snapshot => ?_
    · exact .bind (.readAction (.backend _) _ _) fun bytes => .pureAction _
    · split
      · exact ih _
      · exact .pureAction false

/-- Behind its checks a commit fails by the backend, by the contents or by a collision. -/
theorem appendRecord_failsWith (pending : PendingMutation) (resumed : Bool) :
    Action.FailsWith AppendFailure
      (appendRecord sha256 access candidate pending resumed : CommitAction ε
        (IndexEntry × Bool)) := by
  have hinspect : Action.FailsWith AppendFailure (ExceptT.adapt InspectError.intoCommitError
      (committedRecordAt sha256 access pending.firstExtent) : CommitAction ε _) :=
    .adapt intoCommitError_failure _
  have hprepare : Action.FailsWith AppendFailure
      (prepareSpan sha256 access candidate pending resumed : CommitAction ε _) := by
    unfold prepareSpan
    split
    · refine hinspect.bind fun found => ?_
      cases found with
      | none => exact .pureAction none
      | some entry =>
        exact .bind (.ensureAction (.hashCollision _)) fun _ =>
          .bind (.ensureAction (.fault _)) fun _ => .pureAction _
    · exact (spanIsErased_failsWith _ _).bind fun erased =>
        .bind (.ensureAction (.fault _)) fun _ => .pureAction none
  have hwrite : Action.FailsWith AppendFailure
      (writeRecord sha256 access candidate pending : CommitAction ε _) := by
    refine .bind (.actAll fun c hc w r e hverdict => ?_) fun _ => hinspect.bind fun found => ?_
    · obtain ⟨offset, programmed, accepts, stage, firstExtent, rfl⟩ := isPage_of_mem_record hc
      exact programPage_failure hverdict
    · cases found with
      | none => exact .throwAction (.fault _)
      | some entry => exact .bind (.ensureAction (.fault _)) fun _ => .pureAction entry
  refine hprepare.bind fun found => ?_
  cases found with
  | some entry => exact .pureAction _
  | none => exact hwrite.bind fun entry => .pureAction _

/-- A commit that has room for its record does not end with a full partition. -/
theorem appendRecord_not_full (pending : PendingMutation) (resumed : Bool) :
    Action.FailsWith NotFull
      (appendRecord sha256 access candidate pending resumed : CommitAction ε (IndexEntry × Bool)) :=
  fun _ _ _ _ _ h => (appendRecord_failsWith pending resumed h).not_full

end Failures

section Layout

variable {ε : Type}

/-- The program stays inside a range. -/
def Within (c : CheckedPatch ε (LxmfCommitError ε)) (start stop : ℕ) : Prop :=
  start ≤ c.patch.offset ∧ c.patch.offset + c.patch.bytes.length ≤ stop

/-- The programs of a record in its span: headers, wire and footer each in their own ranges of the
extents, and the whole wire in programs that do not overlap. Fewer extents do not hold it, and its
footer is the end of the last extent. -/
structure LaidOut (ε : Type) (sha256 : Sha256) (access : BoundLxmfStore)
    (candidate : InboundMessageCandidate) (first count : ℕ) (handle : MessageHandle) : Prop where
  headers : ∀ index < count,
    ∀ c ∈ (programHeader first index (candidateHeader sha256 access candidate handle count index) :
      List (CheckedPatch ε (LxmfCommitError ε))),
    Within c (extentOffset (first + index)) (extentOffset (first + index) + extentHeaderSize)
  wire : ∀ c ∈ (programCandidateWire first count candidate :
      List (CheckedPatch ε (LxmfCommitError ε))), ∃ index < count,
    Within c (extentOffset (first + index) + extentHeaderSize)
      (extentOffset (first + index) + extentHeaderSize + payloadCapacity count index)
  ordered : (programCandidateWire first count candidate :
      List (CheckedPatch ε (LxmfCommitError ε))).Pairwise
    fun c d => c.patch.offset + c.patch.bytes.length ≤ d.patch.offset
  complete : ∀ position < candidate.bytes.length,
    ∃ c ∈ (programCandidateWire first count candidate :
      List (CheckedPatch ε (LxmfCommitError ε))), ∃ within,
      wireAddress first position = c.patch.offset + within ∧
        c.patch.bytes[within]? = candidate.bytes[position]?
  footer : ∃ footers : List (CheckedPatch ε (LxmfCommitError ε)),
    programRecord sha256 access candidate first count handle =
      (List.range count).flatMap (fun index => programHeader first index
        (candidateHeader sha256 access candidate handle count index)) ++
      programCandidateWire first count candidate ++ footers ∧
    ∀ c ∈ footers, Within c (extentOffset (first + count) - recordFooterSize)
      (extentOffset (first + count))
  least : ∀ fewer < count, wireCapacity fewer < candidate.bytes.length

variable {sha256 : Sha256} {access : BoundLxmfStore} {candidate : InboundMessageCandidate}
  {first count : ℕ} {handle : MessageHandle}

/-- The footer of a candidate has the size of a footer. -/
theorem length_candidateFooter (committed : Bool) :
    (candidateFooter sha256 access candidate handle count committed).length = recordFooterSize := by
  rw [candidateFooter, encodeFooter, List.length_append, length_footerFields]
  cases committed <;> rfl

/-- The patches of a header lie in their extent. -/
theorem header_within {index : ℕ} {header : List Byte} {c : CheckedPatch ε (LxmfCommitError ε)}
    (hheader : header.length = 512) (h : c ∈ programHeader first index header) :
    Within c (extentOffset (first + index)) (extentOffset (first + index) + extentHeaderSize) := by
  rcases List.mem_cons.mp h with rfl | h
  · refine ⟨le_rfl, Nat.add_le_add_left ?_ _⟩
    change claimPage.length ≤ 512
    rw [length_claimPage]
    decide
  · obtain ⟨page, hpage, rfl⟩ := List.mem_map.mp h
    have hpage : page < 2 := List.mem_range.mp hpage
    have hlength : (slice header (page * ioChunkSize) ioChunkSize).length = 256 := by
      refine length_slice ?_
      rw [hheader]
      change page * 256 + 256 ≤ 512
      omega
    refine ⟨Nat.le_add_right _ _, ?_⟩
    change extentOffset (first + index) + page * 256 + (slice _ _ _).length ≤
      extentOffset (first + index) + 512
    rw [hlength]
    omega

/-- The commit overlay has the size of a footer. -/
theorem length_commitOverlay : commitOverlay.length = recordFooterSize := by
  rw [commitOverlay, List.length_append, List.length_replicate]
  rfl

/-- Both programs of the footer are at the end of the last extent. -/
theorem footer_within (hcount : 0 < count) :
    ∃ footers : List (CheckedPatch ε (LxmfCommitError ε)),
      programRecord sha256 access candidate first count handle =
        (List.range count).flatMap (fun index => programHeader first index
          (candidateHeader sha256 access candidate handle count index)) ++
        programCandidateWire first count candidate ++ footers ∧
      ∀ c ∈ footers, Within c (extentOffset (first + count) - recordFooterSize)
        (extentOffset (first + count)) := by
  refine ⟨_, rfl, fun c hc => ?_⟩
  have hlast : extentOffset (first + count - 1) + extentSize = extentOffset (first + count) := by
    rw [extentOffset_eq, extentOffset_eq]
    change _ + 4096 = _
    omega
  have hroom : recordFooterSize ≤ extentOffset (first + count) :=
    hlast ▸ Nat.le_add_left_of_le (by decide)
  have hlength : c.patch.offset = extentOffset (first + count) - recordFooterSize ∧
      c.patch.bytes.length = recordFooterSize := by
    rw [← hlast]
    simp only [List.mem_cons, List.not_mem_nil, or_false] at hc
    rcases hc with rfl | rfl
    · exact ⟨rfl, length_candidateFooter false⟩
    · exact ⟨rfl, length_commitOverlay⟩
  refine ⟨hlength.1.ge, ?_⟩
  rw [hlength.1, hlength.2, Nat.sub_add_cancel hroom]

/-- Fewer extents than required are too small for the wire. -/
theorem least_of_required {usizeValues wireLen : ℕ}
    (h : requiredExtents usizeValues wireLen = some count) (hpos : 0 < wireLen) {fewer : ℕ}
    (hfewer : fewer < count) : wireCapacity fewer < wireLen := by
  unfold requiredExtents at h
  split_ifs at h
  have hcount : (wireLen + 256 + 3583) / 3584 = count := Option.some.inj h
  rw [wireCapacity_eq]
  omega

/-- A page of the wire is between the header and the footer of its extent. -/
theorem wirePatch_within {bytes : List Byte} {page : ℕ} (h : page * 256 < wireCapacity count) :
    ∃ index < count, Within (wirePatch first bytes page : CheckedPatch ε (LxmfCommitError ε))
      (extentOffset (first + index) + extentHeaderSize)
      (extentOffset (first + index) + extentHeaderSize + payloadCapacity count index) := by
  have hpage : page * 256 + 256 ≤ wireCapacity count := by
    rw [wireCapacity_eq] at h ⊢
    omega
  obtain ⟨index, within, hindex, hinside, hfinal, haddress⟩ := wireAddress_bounds first hpage
  refine ⟨index, hindex, ?_, ?_⟩
  · change _ ≤ wireAddress first (page * ioChunkSize)
    rw [haddress]
    exact Nat.le_add_right _ _
  · change wireAddress first (page * ioChunkSize) + (wirePage _).length ≤ _
    rw [length_wirePage_slice, haddress]
    have hroom : within + 256 ≤ payloadCapacity count index := by
      unfold payloadCapacity
      split_ifs with hlast
      · exact hfinal hlast
      · exact hinside
    rw [Nat.add_assoc _ within]
    exact Nat.add_le_add_left hroom _

/-- The programs of a record are laid out without overlap. -/
theorem laidOut {usizeValues : ℕ}
    (h : requiredExtents usizeValues candidate.bytes.length = some count) :
    LaidOut ε sha256 access candidate first count handle := by
  have hcount := requiredExtents_pos h
  have hfits := le_wireCapacity h
  have hpages := @programCandidateWire_eq ε first count candidate hcount hfits
  have hpos : 0 < candidate.bytes.length := by
    have hlength := candidate.length_le
    rw [candidate.length_bytes]
    exact (show 0 < destinationHashLength by decide).trans_le hlength
  refine ⟨fun index _ c hc => header_within length_encodeHeader hc, ?_, ?_, ?_,
    footer_within hcount,
    fun fewer => least_of_required h hpos⟩
  · rw [hpages]
    rintro c hc
    obtain ⟨page, hpage, rfl⟩ := List.mem_map.mp hc
    have hbefore := lt_wirePageCount.mp (List.mem_range.mp hpage)
    exact wirePatch_within (hbefore.trans_le hfits)
  · rw [hpages, List.pairwise_map]
    refine List.pairwise_lt_range.imp fun {page page'} hlt => ?_
    change wireAddress first (page * ioChunkSize) + (wirePage _).length ≤ _
    rw [length_wirePage_slice]
    exact wireAddress_page_le hlt
  · rintro position hposition
    rw [hpages]
    have hpage : position / 256 < wirePageCount candidate.bytes.length :=
      lt_wirePageCount.mpr (by omega)
    have hwithin : position % 256 < ioChunkSize := Nat.mod_lt _ (by decide)
    have hposition' : position / 256 * ioChunkSize + position % 256 = position :=
      Nat.div_add_mod' position 256
    refine ⟨_, List.mem_map_of_mem (List.mem_range.mpr hpage), position % 256, ?_, ?_⟩
    · rw [← hposition', wireAddress_page hwithin, hposition']
      rfl
    · have hslice : position % 256 <
          (slice candidate.bytes (position / 256 * ioChunkSize) ioChunkSize).length := by
        rw [slice, List.length_take, List.length_drop]
        change position % 256 < min 256 (candidate.bytes.length - position / 256 * 256)
        omega
      change (wirePage _)[position % 256]? = _
      rw [wirePage, List.getElem?_append_left hslice, getElem?_slice hwithin, hposition']

end Layout

section Commit

variable {ε : Type} {sha256 : Sha256} {access : BoundLxmfStore} {store : MountedLxmfStore}
  {candidate : InboundMessageCandidate}

/-- Extents that no record of the partition has. -/
def remainingExtents (access : BoundLxmfStore) (store : MountedLxmfStore) : ℕ :=
  access.binding.length / extentSize - store.appendExtent

/-- A writable view of the same binding passes the checks of a commit. -/
theorem checks_ok (hvalid : validateWriteAccess access = .ok ())
    (hsame : validateSameBinding store.binding access.binding = .ok ()) :
    (validateWriteAccess access >>= fun _ => validateSameBinding store.binding access.binding) =
      .ok () := by
  rw [hvalid]
  exact hsame

/-- A new record in a store without a pending mutation is allocated, or the partition is full, or
there is no handle. -/
theorem admission_of_fresh (hvalid : validateWriteAccess access = .ok ())
    (hsame : validateSameBinding store.binding access.binding = .ok ())
    (hfresh : store.entryForMessage candidate.metadata.messageId = none)
    (hroom : store.entries.length ≠ store.capacity) (hpending : store.pending = none) :
    (admission sha256 access store candidate : Except (LxmfCommitError ε) Admission) =
      allocate sha256 access store candidate := by
  unfold admission
  rw [checks_ok hvalid hsame]
  dsimp only
  rw [hfresh, conflictingPending, hpending]
  dsimp only [Option.filter_none]
  rw [if_neg hroom]

/-- A fingerprint is an exact replay of itself. -/
theorem classifyAgainst_self (fingerprint : ReplayFingerprint) :
    fingerprint.classifyAgainst fingerprint = .exactReplay := by
  simp [ReplayFingerprint.classifyAgainst]

/-- A message that is already indexed is durable, whatever remains of the partition. -/
theorem admission_of_durable (hvalid : validateWriteAccess access = .ok ())
    (hsame : validateSameBinding store.binding access.binding = .ok ()) {entry : IndexEntry}
    (hentry : store.entryForMessage candidate.metadata.messageId = some entry)
    (hreplay : entry.receipt.fingerprint = candidateReplay sha256 candidate) :
    (admission sha256 access store candidate : Except (LxmfCommitError ε) Admission) =
      .ok (.alreadyDurable entry.receipt) := by
  unfold admission
  rw [checks_ok hvalid hsame]
  dsimp only
  rw [hentry]
  dsimp only
  rw [classifyReplay, hreplay, classifyAgainst_self]

/-- Whether the remaining extents hold the wire of a candidate. -/
def HasRoom (access : BoundLxmfStore) (store : MountedLxmfStore)
    (candidate : InboundMessageCandidate) : Prop :=
  Holds access.usizeValues (min (remainingExtents access store) (2 ^ 16 - 1))
    candidate.wire.segments.totalLen

/-- Without room the allocation says that the store is full. -/
theorem allocate_of_not_fits (h : ¬HasRoom access store candidate) :
    ∃ error, (allocate sha256 access store candidate : Except (LxmfCommitError ε) Admission) =
      .error error ∧ error.IsFull := by
  unfold allocate
  dsimp only
  cases hrequired : requiredExtents access.usizeValues candidate.wire.segments.totalLen with
  | none => exact ⟨_, rfl, _, _, rfl⟩
  | some required =>
    have hmany : remainingExtents access store < required ∨ 2 ^ 16 ≤ required := by
      by_contra hfew
      rw [not_or, not_lt, not_le] at hfew
      exact h ⟨required, hrequired, le_min hfew.1 (Nat.le_sub_one_of_lt hfew.2)⟩
    dsimp only
    rw [remainingExtents] at hmany
    rw [if_pos hmany]
    exact ⟨_, rfl, _, _, rfl⟩

/-- A new record gets the extents from the append position on and the next handle. -/
theorem allocate_fresh {required : ℕ} {handle : MessageHandle} (hpending : store.pending = none)
    (hrequired : requiredExtents access.usizeValues candidate.wire.segments.totalLen =
      some required)
    (hfits : ¬(access.binding.length / extentSize - store.appendExtent < required ∨
      2 ^ 16 ≤ required)) (hhandle : NonZeroU64.new store.nextHandle = some handle) :
    (allocate sha256 access store candidate : Except (LxmfCommitError ε) Admission) =
      .ok (.append ⟨candidateReplay sha256 candidate, candidate.metadata, store.appendExtent,
        required, handle⟩ false) := by
  unfold allocate
  dsimp only
  rw [hrequired]
  dsimp only
  rw [if_neg hfits, hpending]
  dsimp only
  rw [hhandle]

/-- With room the allocation succeeds, unless the handles are exhausted. -/
theorem allocate_of_fits (hpending : store.pending = none) (h : HasRoom access store candidate) :
    (allocate sha256 access store candidate : Except (LxmfCommitError ε) Admission) =
        .error .handleExhausted ∨
      ∃ pending, (allocate sha256 access store candidate :
        Except (LxmfCommitError ε) Admission) = .ok (.append pending false) := by
  obtain ⟨required, hrequired, hfew⟩ := h
  rw [le_min_iff, remainingExtents] at hfew
  have hfew' : ¬(access.binding.length / extentSize - store.appendExtent < required ∨
      2 ^ 16 ≤ required) := by
    rw [not_or, not_lt, not_le]
    exact ⟨hfew.1, Nat.lt_of_le_sub_one (by decide) hfew.2⟩
  unfold allocate
  dsimp only
  rw [hrequired]
  dsimp only
  rw [if_neg hfew', hpending]
  dsimp only
  cases NonZeroU64.new store.nextHandle with
  | none => exact .inl rfl
  | some handle => exact .inr ⟨_, rfl⟩

/-- The advertised capacity of the remaining extents decides. -/
theorem not_fits_iff (hvalid : validateWriteAccess access = .ok ()) :
    ¬HasRoom access store candidate ↔
      ∀ bytes, maxNormalizedWireBytes access.usizeValues
        (remainingExtents access store * extentSize) = some bytes →
        bytes < candidate.wire.segments.totalLen := by
  have hshape := validShape_of_write hvalid
  rcases Nat.eq_zero_or_pos (remainingExtents access store) with hzero | hpos
  · refine iff_of_true (fun ⟨required, hrequired, hle⟩ => ?_) fun bytes hbytes => ?_
    · rw [hzero, Nat.zero_min] at hle
      exact (requiredExtents_pos hrequired).not_ge hle
    · rw [hzero, Nat.zero_mul, maxNormalizedWireBytes_none rfl] at hbytes
      cases hbytes
  · have hlength : remainingExtents access store * extentSize < access.usizeValues := by
      calc remainingExtents access store * extentSize
          ≤ access.binding.length / extentSize * extentSize :=
            Nat.mul_le_mul_right _ (Nat.sub_le _ _)
        _ ≤ access.binding.length := Nat.div_mul_le_self _ _
        _ < 2 ^ 32 := hshape.length_lt
        _ ≤ access.usizeValues := access.le_usizeValues
    have haligned : remainingExtents access store * extentSize % extentSize = 0 :=
      Nat.mul_mod_left _ _
    have hpos' : 0 < remainingExtents access store * extentSize :=
      Nat.mul_pos hpos (by decide)
    have hextents : recordExtents (remainingExtents access store * extentSize) =
        min (remainingExtents access store) (2 ^ 16 - 1) := by
      rw [recordExtents, Nat.mul_div_cancel _ (by decide)]
    have hbounds := recordExtents_bounds hpos' haligned hlength
    have husize : 2 ^ 16 ≤ access.usizeValues :=
      (show 2 ^ 16 ≤ 2 ^ 32 by decide).trans access.le_usizeValues
    rw [maxNormalizedWireBytes_eq hpos' haligned hlength, HasRoom, ← hextents,
      holds_iff husize hbounds.1 hbounds.2, not_le]
    exact ⟨fun h bytes hbytes => Option.some.inj hbytes ▸ h, fun h => h _ rfl⟩

/-- The span of a candidate that fits, unless there is no handle for it. -/
theorem admission_of_fits (hvalid : validateWriteAccess access = .ok ())
    (hsame : validateSameBinding store.binding access.binding = .ok ())
    (hfresh : store.entryForMessage candidate.metadata.messageId = none)
    (hroom : store.entries.length ≠ store.capacity) (hpending : store.pending = none)
    (hfits : HasRoom access store candidate) :
    (admission sha256 access store candidate : Except (LxmfCommitError ε) Admission) =
        .error .handleExhausted ∨
      ∃ pending, (admission sha256 access store candidate :
          Except (LxmfCommitError ε) Admission) = .ok (.append pending false) ∧
        requiredExtents access.usizeValues candidate.wire.segments.totalLen =
          some pending.extentCount ∧
        pending.firstExtent = store.appendExtent ∧
        pending.firstExtent + pending.extentCount ≤ access.binding.length / extentSize ∧
        LaidOut ε sha256 access candidate pending.firstExtent pending.extentCount
          pending.handle := by
  have hadmission := @admission_of_fresh ε sha256 access store candidate hvalid hsame hfresh hroom
    hpending
  rcases @allocate_of_fits ε sha256 access store candidate hpending hfits with h | ⟨pending, h⟩
  · exact .inl (hadmission.trans h)
  · have hadmitted := admitted (hadmission.trans h)
    have hrequired : requiredExtents access.usizeValues candidate.wire.segments.totalLen =
        some pending.extentCount := candidate.length_eq ▸ hadmitted.required
    have hbegins := (hadmitted.begins rfl).2.1
    have hinside : pending.firstExtent + pending.extentCount ≤
        access.binding.length / extentSize := by
      rw [hbegins]
      exact (Nat.le_sub_iff_add_le' (Nat.le_of_lt (Nat.lt_of_sub_pos
        ((requiredExtents_pos hrequired).trans_le hadmitted.remains)))).mp hadmitted.remains
    refine .inr ⟨pending, hadmission.trans h, hrequired, hbegins, hinside, ?_⟩
    refine @laidOut ε sha256 access candidate _ _ _ access.usizeValues ?_
    rw [candidate.length_bytes, ← candidate.length_eq]
    exact hrequired

/-- A run of a commit ends with a full partition exactly when its wire does not fit. -/
theorem commit_full_iff (hvalid : validateWriteAccess access = .ok ())
    (hsame : validateSameBinding store.binding access.binding = .ok ())
    (hfresh : store.entryForMessage candidate.metadata.messageId = none)
    (hroom : store.entries.length ≠ store.capacity) (hpending : store.pending = none)
    {φ : Faults} {f g : Flash} {tr : List Mutation}
    {result : Except (LxmfCommitError ε) LxmfCommitOutcome} {after : MountedLxmfStore}
    (hrun : Exec φ (commit sha256 access store candidate) f tr (some (result, after)) g) :
    (∃ error, result = .error error ∧ error.IsFull) ↔ ¬HasRoom access store candidate := by
  have hadmission := @admission_of_fresh ε sha256 access store candidate hvalid hsame hfresh hroom
    hpending
  unfold commit at hrun
  rw [hadmission] at hrun
  constructor
  · rintro ⟨error, rfl, hfull⟩ hfits
    rcases @allocate_of_fits ε sha256 access store candidate hpending hfits with h | ⟨pending, h⟩
    · rw [h] at hrun
      cases hrun
      obtain ⟨_, _, h⟩ := hfull
      cases h
    · rw [h] at hrun
      rcases Exec.bind_cases hrun with ⟨h, -⟩ | ⟨answer, f', tr₁, tr₂, -, hrecord, hrest⟩
      · cases h
      · cases answer with
        | error e =>
          cases hrest
          exact appendRecord_not_full pending false hrecord hfull
        | ok answer => cases hrest
  · intro hfits
    obtain ⟨error, h, hfull⟩ := @allocate_of_not_fits ε sha256 access store candidate hfits
    rw [h] at hrun
    cases hrun
    exact ⟨error, rfl, hfull⟩

/-- The advertised capacity is exact: it is the largest wire that the extents of a binding hold, a
new candidate is refused for want of room exactly when it is longer than what the remaining
extents advertise, and the record of an accepted one is laid out in its extents. -/
theorem capacity_exact :
    (∀ usizeValues bindingLength, 2 ^ 16 ≤ usizeValues → 0 < bindingLength →
      bindingLength % extentSize = 0 → bindingLength < usizeValues →
      ∃ bytes, maxNormalizedWireBytes usizeValues bindingLength = some bytes ∧
        IsGreatest {wireLen | ∃ required, requiredExtents usizeValues wireLen = some required ∧
          required ≤ min (bindingLength / extentSize) (2 ^ 16 - 1)} bytes) ∧
    ∀ (ε : Type) (sha256 : Sha256) (access : BoundLxmfStore) (store : MountedLxmfStore)
      (candidate : InboundMessageCandidate), validateWriteAccess access = .ok () →
      validateSameBinding store.binding access.binding = .ok () →
      store.entryForMessage candidate.metadata.messageId = none →
      store.entries.length ≠ store.capacity → store.pending = none →
      (∀ φ f tr (result : Except (LxmfCommitError ε) LxmfCommitOutcome) after g,
        Exec φ (commit sha256 access store candidate) f tr (some (result, after)) g →
        ((∃ required remaining, result = .error (.full required remaining)) ↔
          ∀ bytes, maxNormalizedWireBytes access.usizeValues
            (remainingExtents access store * extentSize) = some bytes →
            bytes < candidate.wire.segments.totalLen)) ∧
      ((∃ bytes, maxNormalizedWireBytes access.usizeValues
          (remainingExtents access store * extentSize) = some bytes ∧
          candidate.wire.segments.totalLen ≤ bytes) →
        (admission sha256 access store candidate : Except (LxmfCommitError ε) Admission) =
            .error .handleExhausted ∨
          ∃ pending, (admission sha256 access store candidate :
              Except (LxmfCommitError ε) Admission) = .ok (.append pending false) ∧
            requiredExtents access.usizeValues candidate.wire.segments.totalLen =
              some pending.extentCount ∧
            pending.firstExtent = store.appendExtent ∧
            pending.firstExtent + pending.extentCount ≤ access.binding.length / extentSize ∧
            LaidOut ε sha256 access candidate pending.firstExtent pending.extentCount
              pending.handle) := by
  refine ⟨fun usizeValues bindingLength husize hpos haligned hlt =>
    maxNormalizedWireBytes_isGreatest husize hpos haligned hlt,
    fun ε sha256 access store candidate hvalid hsame hfresh hroom hpending => ⟨?_, ?_⟩⟩
  · intro φ f tr result after g hrun
    rw [← not_fits_iff hvalid, ← commit_full_iff hvalid hsame hfresh hroom hpending hrun]
    constructor
    · rintro ⟨required, remaining, rfl⟩
      exact ⟨_, rfl, required, remaining, rfl⟩
    · rintro ⟨error, rfl, required, remaining, rfl⟩
      exact ⟨required, remaining, rfl⟩
  · rintro ⟨bytes, hbytes, hle⟩
    refine admission_of_fits hvalid hsame hfresh hroom hpending ?_
    by_contra hfits
    exact ((not_fits_iff hvalid).mp hfits bytes hbytes).not_ge hle

end Commit

section Sample

variable {ε : Type}

/-- A complete message of 112 bytes. -/
def sampleCandidate : InboundMessageCandidate where
  metadata := sampleMetadata
  wire := .contiguous (List.replicate 16 4 ++ List.replicate 96 0)
  shape := rfl
  length_eq := rfl
  length_le := by decide
  destination_eq := rfl

/-- A store of a partition that indexes nothing yet. -/
def emptyStore (access : BoundLxmfStore) : MountedLxmfStore where
  binding := access.binding
  entries := []
  capacity := 4
  appendExtent := 0
  nextHandle := 1
  pending := none

/-- The sample view of two extents is writable. -/
theorem twoExtents_writable : validateWriteAccess twoExtents = .ok () := rfl

/-- The empty store has the binding of the sample view. -/
theorem twoExtents_same :
    validateSameBinding (emptyStore twoExtents).binding twoExtents.binding = .ok () := by
  simp [validateSameBinding, emptyStore]

/-- The mutation that commits the sample to an empty partition. -/
def samplePending (sha256 : Sha256) : PendingMutation where
  replay := candidateReplay sha256 sampleCandidate
  metadata := sampleMetadata
  firstExtent := 0
  extentCount := 1
  handle := ⟨1, Nat.one_pos, one_lt_two_pow_64⟩

/-- The sample is admitted to an empty partition. -/
theorem admission_sample (sha256 : Sha256) :
    (admission sha256 twoExtents (emptyStore twoExtents) sampleCandidate :
      Except (LxmfCommitError ε) Admission) = .ok (.append (samplePending sha256) false) :=
  (admission_of_fresh twoExtents_writable twoExtents_same rfl (by decide) rfl).trans
    (allocate_fresh rfl requiredExtents_sample (by decide) rfl)

/-- The index entry of the sample. -/
def sampleEntry (sha256 : Sha256) : IndexEntry :=
  recordEntry 0 (headerValues (samplePending sha256).handle 0 1 sampleMetadata
    (digestCandidateWire sha256 sampleCandidate))

/-- The store of two extents with the sample in its first one. -/
def halfStore (sha256 : Sha256) : MountedLxmfStore :=
  (emptyStore twoExtents).complete (samplePending sha256) (sampleEntry sha256)

/-- The half full store has one entry. -/
theorem halfStore_entries (sha256 : Sha256) :
    (halfStore sha256).entries = [sampleEntry sha256] := rfl

/-- The half full store has one extent left. -/
theorem remainingExtents_halfStore (sha256 : Sha256) :
    remainingExtents twoExtents (halfStore sha256) = 1 := rfl

/-- The half full store has the binding of the sample view. -/
theorem halfStore_same (sha256 : Sha256) :
    validateSameBinding (halfStore sha256).binding twoExtents.binding = .ok () := by
  change validateSameBinding twoExtents.binding twoExtents.binding = .ok ()
  simp [validateSameBinding]

/-- A complete message of another identifier, with padding behind its destination. -/
def paddedCandidate (padding : ℕ) (h : 16 + padding < 2 ^ 32) : InboundMessageCandidate where
  metadata := { sampleMetadata with
    messageId := Vector.replicate 32 9
    lengths := ⟨16 + padding, 16 + padding, 16 + padding, 16 + padding, 16 + padding,
      h, h, h, h, h⟩
    normalizes := rfl }
  wire := .contiguous (List.replicate 16 4 ++ List.replicate padding 0)
  shape := rfl
  length_eq := by
    simp only [NormalizedWire.segments, NormalizedWireSegments.totalLen, List.length_append,
      List.length_replicate, List.length_nil, Nat.add_zero]
  length_le := Nat.le_add_right _ _
  destination_eq := by
    simp only [NormalizedWire.segments, NormalizedWireSegments.bytes, List.append_nil]
    exact List.take_left' rfl

/-- A padded message has its padding and the destination as its wire. -/
theorem totalLen_paddedCandidate {padding : ℕ} (h : 16 + padding < 2 ^ 32) :
    (paddedCandidate padding h).wire.segments.totalLen = 16 + padding :=
  (paddedCandidate padding h).length_eq

/-- The half full store does not know a padded message. -/
theorem halfStore_fresh (sha256 : Sha256) {padding : ℕ} (h : 16 + padding < 2 ^ 32) :
    (halfStore sha256).entryForMessage (paddedCandidate padding h).metadata.messageId = none :=
  List.find?_cons_of_neg (a := sampleEntry sha256) (by
    change ¬decide (Vector.replicate 32 (2 : Byte) = Vector.replicate 32 9) = true
    decide)

/-- The half full store has room in its index. -/
theorem halfStore_room (sha256 : Sha256) :
    (halfStore sha256).entries.length ≠ (halfStore sha256).capacity := (by decide : 1 ≠ 4)

/-- The extent that is left holds a wire of 3328 bytes. -/
theorem maxNormalizedWireBytes_halfStore (sha256 : Sha256) :
    maxNormalizedWireBytes twoExtents.usizeValues
      (remainingExtents twoExtents (halfStore sha256) * extentSize) = some 3328 := by
  rw [remainingExtents_halfStore]
  decide

/-- A wire of 3328 bytes has a length of four bytes. -/
theorem longest_lt : 16 + 3312 < 2 ^ 32 := by decide

/-- So has a wire of one byte more. -/
theorem tooLong_lt : 16 + 3313 < 2 ^ 32 := by decide

/-- Behind one record, a message of 3328 bytes gets the extent that is left, and every run refuses
a message of one byte more as too long. -/
theorem capacity_exact_boundary :
    (∃ pending, (admission Nor.sha256 twoExtents (halfStore Nor.sha256)
          (paddedCandidate 3312 longest_lt) : Except (LxmfCommitError Unit) Admission) =
          .ok (.append pending false) ∧
        requiredExtents (2 ^ 32) 3328 = some pending.extentCount ∧ pending.firstExtent = 1 ∧
        pending.firstExtent + pending.extentCount ≤ 2 * extentSize / extentSize ∧
        LaidOut Unit Nor.sha256 twoExtents (paddedCandidate 3312 longest_lt) pending.firstExtent
          pending.extentCount pending.handle) ∧
      ∀ φ f tr (result : Except (LxmfCommitError Unit) LxmfCommitOutcome) after g,
        Exec φ (commit Nor.sha256 twoExtents (halfStore Nor.sha256)
          (paddedCandidate 3313 tooLong_lt)) f tr (some (result, after)) g →
        ∃ required remaining, result = .error (.full required remaining) := by
  constructor
  · have hrequired : requiredExtents twoExtents.usizeValues
        (paddedCandidate 3312 longest_lt).wire.segments.totalLen = some 1 := by
      rw [totalLen_paddedCandidate]
      decide
    have hleft : ¬(twoExtents.binding.length / extentSize - (halfStore Nor.sha256).appendExtent <
        1 ∨ 2 ^ 16 ≤ 1) := (by decide : ¬(2 - 1 < 1 ∨ 2 ^ 16 ≤ 1))
    have hadmission : (admission Nor.sha256 twoExtents (halfStore Nor.sha256)
        (paddedCandidate 3312 longest_lt) : Except (LxmfCommitError Unit) Admission) ≠
        .error .handleExhausted := by
      rw [admission_of_fresh twoExtents_writable (halfStore_same _) (halfStore_fresh _ longest_lt)
        (halfStore_room _) rfl,
        allocate_fresh rfl hrequired hleft rfl]
      nofun
    have hexact := (capacity_exact.2 Unit Nor.sha256 twoExtents (halfStore Nor.sha256)
      (paddedCandidate 3312 longest_lt) twoExtents_writable (halfStore_same _)
      (halfStore_fresh _ longest_lt) (halfStore_room _) rfl).2
        ⟨3328, maxNormalizedWireBytes_halfStore _, (totalLen_paddedCandidate longest_lt).le⟩
    rw [totalLen_paddedCandidate] at hexact
    exact hexact.resolve_left hadmission
  · intro φ f tr result after g hrun
    refine ((capacity_exact.2 Unit Nor.sha256 twoExtents (halfStore Nor.sha256)
      (paddedCandidate 3313 tooLong_lt) twoExtents_writable (halfStore_same _)
      (halfStore_fresh _ tooLong_lt) (halfStore_room _) rfl).1 φ f tr result after g hrun).mpr ?_
    intro bytes hbytes
    rw [maxNormalizedWireBytes_halfStore] at hbytes
    rw [totalLen_paddedCandidate, ← Option.some.inj hbytes]
    decide

/-- The values of `usize` on the device are those of four bytes. -/
theorem two_pow_32_le_self : 2 ^ 32 ≤ 2 ^ 32 := le_rfl

/-- A partition of one extent. -/
def oneExtent : BoundLxmfStore where
  binding := ⟨Vector.replicate 16 1, 0, extentSize, physicalFormatVersion⟩
  geometry := ⟨extentSize, 4, 4, extentSize⟩
  usizeValues := 2 ^ 32
  le_usizeValues := two_pow_32_le_self
  usizeValues_le := two_pow_32_le

/-- The store after the commit of the sample. -/
def fullStore (sha256 : Sha256) : MountedLxmfStore :=
  (emptyStore oneExtent).complete (samplePending sha256) (sampleEntry sha256)

/-- The sample view of one extent is writable. -/
theorem oneExtent_writable : validateWriteAccess oneExtent = .ok () := rfl

/-- The full store has the binding of the sample view of one extent. -/
theorem oneExtent_same (sha256 : Sha256) :
    validateSameBinding (fullStore sha256).binding oneExtent.binding = .ok () := by
  change validateSameBinding oneExtent.binding oneExtent.binding = .ok ()
  simp [validateSameBinding]

/-- The full store has one entry. -/
theorem fullStore_entries (sha256 : Sha256) :
    (fullStore sha256).entries = [sampleEntry sha256] := rfl

/-- The full store has no extent left. -/
theorem remainingExtents_fullStore (sha256 : Sha256) :
    remainingExtents oneExtent (fullStore sha256) = 0 := rfl

/-- The full store finds its message by the identifier. -/
theorem fullStore_indexes (sha256 : Sha256) :
    (fullStore sha256).entryForMessage sampleCandidate.metadata.messageId =
      some (sampleEntry sha256) := by
  rw [MountedLxmfStore.entryForMessage, fullStore_entries]
  exact List.find?_cons_of_pos (decide_eq_true rfl)

/-- A message that is already durable is answered as such by a store without remaining extents, in
which no message fits. -/
theorem full_store_answers_durable :
    (fullStore Nor.sha256).pending = none ∧
      (fullStore Nor.sha256).entries.length < (fullStore Nor.sha256).capacity ∧
      remainingExtents oneExtent (fullStore Nor.sha256) = 0 ∧
      maxNormalizedWireBytes oneExtent.usizeValues
        (remainingExtents oneExtent (fullStore Nor.sha256) * extentSize) = none ∧
      commit Nor.sha256 oneExtent (fullStore Nor.sha256) sampleCandidate =
        (.pure (.ok (.alreadyDurable (sampleEntry Nor.sha256).receipt), fullStore Nor.sha256) :
          Prog Unit (Except (LxmfCommitError Unit) LxmfCommitOutcome × MountedLxmfStore)) := by
  generalize Nor.sha256 = sha256
  refine ⟨rfl, ?_, remainingExtents_fullStore sha256, ?_, ?_⟩
  · rw [fullStore_entries]
    exact (by decide : 1 < 4)
  · rw [remainingExtents_fullStore, Nat.zero_mul, maxNormalizedWireBytes_none rfl]
  · have hadmission : (admission sha256 oneExtent (fullStore sha256) sampleCandidate :
        Except (LxmfCommitError Unit) Admission) =
        .ok (.alreadyDurable (sampleEntry sha256).receipt) :=
      admission_of_durable oneExtent_writable (oneExtent_same sha256) (fullStore_indexes sha256) rfl
    rw [commit, hadmission]

end Sample

end LxmfStore
