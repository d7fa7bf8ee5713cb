import ReticulumFirmware.LxmfStore.Mounted
import ReticulumFirmware.LxmfStore.Spans

/-!
# Passing over interrupted records

An inspection finds no record in a span whose programming was interrupted before its marker was
complete, and a mount passes it; neither takes it for foreign contents.
-/

namespace LxmfStore

open Nor Lxmf

variable {ε : Type} {sha256 : Sha256} {access : BoundLxmfStore} {f : Flash} {first : ℕ}
  {header : HeaderFields} {pending : PendingMutation}

section Passes

/-- The scan of a record ends before a complete marker. -/
def Passes (sha256 : Sha256) (access : BoundLxmfStore) (f : Flash) (first : ℕ)
    (header : HeaderFields) : Prop :=
  ∃ scan, recordScan sha256 access f first header = .ok scan ∧
    (scan.headersComplete = false ∨ scan.finalSnapshot.commitMarker = .incomplete)

/-- A record that is passed is inspected as no entry. -/
theorem Passes.inspect (h : Passes sha256 access f first header)
    (hinside : first + header.extentCount ≤ access.binding.length / extentSize) :
    (inspectRecord sha256 access first (snapshotAt f first) header :
      InspectAction ε (Option IndexEntry)).answer f = .ok none := by
  obtain ⟨scan, hscan, hincomplete⟩ := h
  rw [inspectRecord, Action.answer_ensure_bind, if_pos hinside,
    (Query.foldlM query_inspectContinuation _ _).answer_bind, answer_inspectScan, hscan]
  change Action.answer (if _ then _ else _) f = _
  rw [Action.answer_ite]
  split_ifs with hheaders
  · rfl
  · rw [hincomplete.resolve_left hheaders]
    rfl

/-- A record that is passed is mounted as its extents, without an entry. -/
theorem Passes.mount {state : MountState} (h : Passes sha256 access f state.extent header)
    (hinside : state.extent + header.extentCount ≤ access.binding.length / extentSize) :
    (mountRecord sha256 access state (snapshotAt f state.extent) header :
        MountAction ε MountState).answer f =
      .ok ⟨state.extent + header.extentCount,
        state.store.reach (state.extent + header.extentCount),
        observedHandle sha256 access f state.extent state.maxHandle
          (List.range' 1 (header.extentCount - 1))⟩ := by
  obtain ⟨scan, hscan, hincomplete⟩ := h
  rw [mountRecord, Action.answer_ensure_bind, if_pos hinside,
    (Query.foldlM query_mountContinuation _ _).answer_bind, answer_mountScan, hscan]
  change Action.answer (if _ then _ else _) f = _
  rw [Action.answer_ite]
  split_ifs with hheaders
  · rfl
  · have hmarker := hincomplete.resolve_left hheaders
    dsimp only
    rw [hmarker]
    rfl

/-- Handles that are decoded from some extents bound what is observed. -/
theorem observedHandle_le {maxHandle bound : ℕ} {indices : List ℕ} (hmax : maxHandle ≤ bound)
    (h : ∀ index ∈ indices, ∀ fields, decodeHeader sha256 access.usizeValues access.binding
      (snapshotAt f (first + index)).header = .ok fields → fields.handle.get ≤ bound) :
    observedHandle sha256 access f first maxHandle indices ≤ bound := by
  induction indices generalizing maxHandle with
  | nil => exact hmax
  | cons index indices ih =>
    rw [List.forall_mem_cons] at h
    rw [observedHandle, List.foldl_cons, ← observedHandle]
    refine ih ?_ h.2
    unfold observeHandle
    split
    · next fields hfields => exact max_le hmax (h.1 fields hfields)
    · exact hmax

end Passes

section Snapshots

variable {extent : ℕ}

/-- An extent whose body is erased has no marker and nothing behind its header. -/
theorem snapshot_of_blank (h : f.Erased (extentOffset extent + extentHeaderSize)
      (extentSize - extentHeaderSize)) :
    (snapshotAt f extent).commitMarker = .incomplete ∧
      (snapshotAt f extent).outsideHeaderErased = true := by
  have hmarker : f.Erased (extentOffset extent + (extentSize - commitSize)) commitSize := by
    refine h.mono ?_ ?_
    · change extentOffset extent + 512 ≤ extentOffset extent + 4064
      omega
    · change extentOffset extent + 4064 + 32 ≤ extentOffset extent + 512 + 3584
      omega
  have hfooter : (snapshotAt f extent).footer.drop footerCommitOffset =
      f.read (extentOffset extent + (extentSize - commitSize)) commitSize := by
    have hdrop := Flash.drop_read f (extentOffset extent + 3840) 224 32
    rw [Nat.add_assoc] at hdrop
    rw [snapshotAt_footer]
    exact hdrop
  refine ⟨?_, ?_⟩
  · rw [ExtentSnapshot.commitMarker, hfooter, hmarker.read_eq]
    decide
  · dsimp only [snapshotAt]
    exact Flash.read_all_erased.mpr h

/-- The body of an erased extent is erased. -/
theorem body_of_erased (h : f.Erased (extentOffset extent) extentSize) :
    f.Erased (extentOffset extent + extentHeaderSize) (extentSize - extentHeaderSize) := by
  refine h.mono (Nat.le_add_right _ _) ?_
  change extentOffset extent + 512 + 3584 ≤ extentOffset extent + 4096
  omega

/-- An erased extent can still become any continuation. -/
theorem recognized_of_erased (h : f.Erased (extentOffset extent) extentSize)
    {expected : List Byte} (hlength : expected.length = extentHeaderSize) :
    recognizedIncompleteContinuation (snapshotAt f extent) expected = true := by
  have hclaim : f.Erased (extentOffset extent) claimMarker.length := by
    refine h.mono le_rfl ?_
    change extentOffset extent + 32 ≤ extentOffset extent + 4096
    omega
  have hrest : f.Erased (extentOffset extent + 32) (extentSize - 32) := by
    refine h.mono (Nat.le_add_right _ _) ?_
    change extentOffset extent + 32 + 4064 ≤ extentOffset extent + 4096
    omega
  have hheader : f.Erased (extentOffset extent) expected.length := by
    refine h.mono le_rfl ?_
    rw [hlength]
    exact Nat.add_le_add_left (by decide) _
  have hcovers : covers (snapshotAt f extent).header expected = true := by
    rw [snapshotAt_header, ← hlength]
    exact Flash.covers_read.mpr hheader.covers
  rw [recognizedIncompleteContinuation, recognized_of_blank hclaim.covers hrest,
    (snapshot_of_blank (body_of_erased h)).2, hcovers]
  rfl

end Snapshots

section Open

variable {reached : ℕ}

/-- A continuation whose header may be torn, over an erased body. -/
structure TornContinuation (sha256 : Sha256) (access : BoundLxmfStore) (f : Flash) (first : ℕ)
    (header : HeaderFields) (index : ℕ) : Prop where
  covers : f.Covers (extentOffset (first + index)) (expectedHeader sha256 access header index)
  recognized : recognizedIncompleteExtent (snapshotAt f (first + index)) = true
  body : f.Erased (extentOffset (first + index) + extentHeaderSize)
    (extentSize - extentHeaderSize)

/-- A torn continuation is recognized as one that is incomplete. -/
theorem TornContinuation.recognizedContinuation {index : ℕ}
    (h : TornContinuation sha256 access f first header index) :
    recognizedIncompleteContinuation (snapshotAt f (first + index))
      (expectedHeader sha256 access header index) = true := by
  have hcovers : Nor.covers (snapshotAt f (first + index)).header
      (expectedHeader sha256 access header index) = true := by
    have hread := Flash.covers_read.mpr h.covers
    rw [expectedHeader, length_encodeHeader, ← expectedHeader] at hread
    rw [snapshotAt_header]
    exact hread
  rw [recognizedIncompleteContinuation, h.recognized, (snapshot_of_blank h.body).2, hcovers]
  rfl

/-- The continuations of a record some of whose headers are there, one may be torn and the others
are erased. -/
structure OpenContinuations (sha256 : Sha256) (access : BoundLxmfStore) (f : Flash) (first : ℕ)
    (header : HeaderFields) (reached : ℕ) : Prop where
  headers : ∀ index < reached, 0 < index → index < header.extentCount →
    (snapshotAt f (first + index)).header = expectedHeader sha256 access header index
  torn : 0 < reached → reached < header.extentCount →
    TornContinuation sha256 access f first header reached
  blank : ∀ index, reached < index → index < header.extentCount →
    f.Erased (extentOffset (first + index)) extentSize
  bodies : ∀ index < header.extentCount,
    f.Erased (extentOffset (first + index) + extentHeaderSize) (extentSize - extentHeaderSize)

/-- What the scan of such a record has shown after some continuations. -/
structure OpenScan (f : Flash) (first reached seen : ℕ) (scan : RecordScan) : Prop where
  body : scan.programmedBody = false
  complete : scan.headersComplete = false → reached ≤ seen
  final : scan.finalSnapshot = snapshotAt f (first + seen)

/-- The scan goes on through open continuations. -/
theorem OpenContinuations.step {seen : ℕ} {scan : RecordScan}
    (h : OpenContinuations sha256 access f first header reached)
    (hscan : OpenScan f first reached seen scan) (hseen : seen + 1 < header.extentCount) :
    ∃ next, scanStep sha256 access f first header scan (seen + 1) = .ok next ∧
      OpenScan f first reached (seen + 1) next := by
  have hsnapshot := snapshot_of_blank (h.bodies (seen + 1) hseen)
  rw [scanStep, continueRecord]
  by_cases hcomplete : scan.headersComplete = false
  · -- behind the torn header every extent is erased
    have hblank := h.blank (seen + 1) (Nat.lt_succ_of_le (hscan.complete hcomplete)) hseen
    rw [if_pos hcomplete, if_pos (snapshotAt_erased.mpr hblank)]
    exact ⟨_, rfl, hscan.body, fun _ => (hscan.complete hcomplete).trans (Nat.le_succ _), rfl⟩
  rw [if_neg hcomplete]
  by_cases hheader : (snapshotAt f (first + (seen + 1))).header =
      expectedHeader sha256 access header (seen + 1)
  · rw [if_pos hheader]
    refine ⟨_, rfl, ?_, fun h => Bool.noConfusion h, rfl⟩
    rw [hscan.body, hsnapshot.2]
    rfl
  · have hreached : reached ≤ seen + 1 := by
      by_contra hlt
      exact hheader (h.headers (seen + 1) (not_le.mp hlt) (Nat.succ_pos _) hseen)
    have hrecognized : recognizedIncompleteContinuation (snapshotAt f (first + (seen + 1)))
        (expectedHeader sha256 access header (seen + 1)) = true := by
      obtain rfl | hlt := Nat.eq_or_lt_of_le hreached
      · exact (h.torn (Nat.succ_pos _) hseen).recognizedContinuation
      · exact recognized_of_erased (h.blank (seen + 1) hlt hseen) length_encodeHeader
    rw [if_neg hheader, hsnapshot.1, if_neg (not_not.mpr rfl), hscan.body, hrecognized]
    exact ⟨_, rfl, rfl, fun _ => hreached, rfl⟩

/-- The scan of such a record passes it. -/
theorem OpenContinuations.passes (hpos : 0 < header.extentCount)
    (h : OpenContinuations sha256 access f first header reached) :
    Passes sha256 access f first header := by
  have hscan : ∀ seen < header.extentCount, ∃ scan,
      (List.range' 1 seen).foldlM (scanStep sha256 access f first header) (scanStart f first) =
        .ok scan ∧ OpenScan f first reached seen scan := by
    intro seen hseen
    induction seen with
    | zero =>
      refine ⟨_, rfl, ?_, fun h => Bool.noConfusion h, rfl⟩
      have hbody := (snapshot_of_blank (h.bodies 0 hseen)).2
      rw [Nat.add_zero] at hbody
      rw [scanStart, hbody]
      rfl
    | succ seen ih =>
      obtain ⟨scan, hbefore, hopen⟩ := ih (Nat.lt_of_succ_lt hseen)
      obtain ⟨next, hnext, hopen'⟩ := h.step hopen hseen
      refine ⟨next, ?_, hopen'⟩
      rw [List.range'_1_concat]
      refine List.foldlM_concat_ok.mpr ⟨scan, hbefore, ?_⟩
      rw [Nat.add_comm 1 seen]
      exact hnext
  obtain ⟨scan, hrecord, hopen⟩ := hscan (header.extentCount - 1) (Nat.sub_lt hpos Nat.one_pos)
  refine ⟨scan, hrecord, .inr ?_⟩
  rw [hopen.final]
  exact (snapshot_of_blank (h.bodies _ (Nat.sub_lt hpos Nat.one_pos))).1

end Open

section Starts

variable {g : Flash} {reached : ℕ}

/-- What the first extent of an interrupted span shows: nothing that can be decoded over erased
extents, or the header of a record that is passed over. -/
inductive PassedStart (sha256 : Sha256) (access : BoundLxmfStore) (g : Flash)
    (pending : PendingMutation) : Prop
  | undecodable {error : HeaderDecodeError}
      (herror : decodeHeader sha256 access.usizeValues access.binding
        (snapshotAt g pending.firstExtent).header = .error error)
      (hmarker : (snapshotAt g pending.firstExtent).commitMarker = .incomplete)
      (hrecognized : recognizedIncompleteExtent (snapshotAt g pending.firstExtent) = true)
      (hblank : ∀ index, 0 < index → index < pending.extentCount →
        g.Erased (extentOffset (pending.firstExtent + index)) extentSize)
  | decoded {header : HeaderFields}
      (hdecoded : decodeHeader sha256 access.usizeValues access.binding
        (snapshotAt g pending.firstExtent).header = .ok header)
      (hstart : header.extentIndex = 0) (hcount : header.extentCount = pending.extentCount)
      (hhandle : header.handle = pending.handle)
      (hpasses : Passes sha256 access g pending.firstExtent header)

/-- An extent with an erased header is not decoded. -/
theorem not_decoded_of_blank {extent : ℕ} (h : g.Erased (extentOffset extent) extentSize)
    {fields : HeaderFields} : decodeHeader sha256 access.usizeValues access.binding
      (snapshotAt g extent).header ≠ .ok fields := by
  rw [snapshotAt_header]
  refine not_decoded_of_erased (h.mono (Nat.le_add_right _ _) ?_)
  change extentOffset extent + 256 + 256 ≤ extentOffset extent + 4096
  omega

/-- The header of a mutation is decoded to its handle. -/
theorem Allocated.handle_of_header (h : Allocated access pending) {index : ℕ}
    (hindex : index < pending.extentCount)
    (hheader : g.read (extentOffset (pending.firstExtent + index)) extentHeaderSize =
      pendingHeader sha256 access pending index) {fields : HeaderFields}
    (hdecoded : decodeHeader sha256 access.usizeValues access.binding
      (snapshotAt g (pending.firstExtent + index)).header = .ok fields) :
    fields.handle = pending.handle := by
  rw [snapshotAt_header, hheader, h.decoded hindex] at hdecoded
  rw [← Except.ok.inj hdecoded]
  rfl

variable (hallocated : Allocated access pending)

include hallocated

/-- The first extent of an open span. -/
theorem OpenSpan.start (h : OpenSpan sha256 access g pending reached) :
    PassedStart sha256 access g pending := by
  have hpos := hallocated.pos
  by_cases hreached : reached = 0
  · -- the first header may be torn, and every other extent is erased
    obtain rfl := hreached
    have htorn := h.torn
    have hplace := htorn.place
    have hrecognized := htorn.recognized
    rw [Nat.add_zero] at hplace hrecognized
    have hbody := h.bodies 0 hpos
    rw [Nat.add_zero] at hbody
    cases hdecoded : decodeHeader sha256 access.usizeValues access.binding
        (snapshotAt g pending.firstExtent).header with
    | error error =>
      exact .undecodable hdecoded (snapshot_of_blank hbody).1 hrecognized
        fun index hindex hinside => h.blank index hindex hinside
    | ok header =>
      obtain ⟨hstart, hcount, hhandle⟩ := hplace header hdecoded
      have hopen : OpenContinuations sha256 access g pending.firstExtent header 0 := by
        rw [← hcount] at hpos
        refine ⟨fun index hindex => absurd hindex (Nat.not_lt_zero _),
          fun hzero => absurd hzero (lt_irrefl _), fun index hindex hinside => ?_,
          fun index hindex => ?_⟩
        · rw [hcount] at hinside
          exact h.blank index hindex hinside
        · rw [hcount] at hindex
          exact h.bodies index hindex
      exact .decoded hdecoded hstart hcount hhandle (hopen.passes (by rw [hcount]; exact hpos))
  · have hfirst := h.headers 0 (Nat.pos_of_ne_zero hreached)
    rw [Nat.add_zero] at hfirst
    have hdecoded : decodeHeader sha256 access.usizeValues access.binding
        (snapshotAt g pending.firstExtent).header = .ok (pendingFields pending) := by
      rw [snapshotAt_header, hfirst]
      exact hallocated.decoded hpos
    have hopen : OpenContinuations sha256 access g pending.firstExtent (pendingFields pending)
        reached := by
      refine ⟨fun index hindex _ _ => ?_, fun _ hinside => ⟨h.torn.covers, h.torn.recognized,
        h.bodies reached h.reached_lt⟩, h.blank, h.bodies⟩
      rw [snapshotAt_header]
      exact h.headers index hindex
    exact .decoded hdecoded rfl rfl rfl (hopen.passes hpos)

/-- The first extent of a span with all headers and no complete marker. -/
theorem HeadedSpan.start (h : HeadedSpan sha256 access g pending) :
    PassedStart sha256 access g pending := by
  have hpos := hallocated.pos
  have hfirst := h.headed 0 hpos
  rw [Nat.add_zero] at hfirst
  have hdecoded : decodeHeader sha256 access.usizeValues access.binding
      (snapshotAt g pending.firstExtent).header = .ok (pendingFields pending) := by
    rw [snapshotAt_header, hfirst]
    exact hallocated.decoded hpos
  obtain ⟨programmedBody, hscan⟩ := @scan_of_headersAt sha256 access g pending.firstExtent
    (pendingFields pending) (pending.extentCount - 1) fun index hindex => by
      rw [snapshotAt_header]
      exact h.headed index (by omega)
  refine .decoded hdecoded rfl rfl rfl ⟨_, hscan, .inr ?_⟩
  have hlast : pending.firstExtent + (pending.extentCount - 1) =
      pending.firstExtent + pending.extentCount - 1 := (Nat.add_sub_assoc hpos _).symm
  have hfooter : (snapshotAt g (pending.firstExtent + (pending.extentCount - 1))).footer.drop
      footerCommitOffset = g.read (footerOffset pending + 224) 32 := by
    have hdrop := Flash.drop_read g (footerOffset pending) 224 32
    have haddress : footerOffset pending =
        extentOffset (pending.firstExtent + pending.extentCount - 1) + 3840 := by
      rw [footerOffset_eq, extentOffset_eq]
    rw [haddress] at hdrop ⊢
    rw [snapshotAt_footer, hlast]
    exact hdrop
  have hunmarked : ¬g.read (footerOffset pending + 224) 32 = commitMarker := fun hmarked =>
    h.unmarked (spanMarked_iff.mpr hmarked)
  have hcovers : Nor.covers (g.read (footerOffset pending + 224) 32) commitMarker = true :=
    Flash.covers_read.mpr h.covers
  dsimp only
  rw [ExtentSnapshot.commitMarker, hfooter, classifyCommitMarker, if_neg hunmarked, if_pos hcovers]

/-- The headers of an interrupted span show no handle but its own. -/
theorem OpenSpan.handles (h : OpenSpan sha256 access g pending reached) {index : ℕ}
    (hindex : index < pending.extentCount) {fields : HeaderFields}
    (hdecoded : decodeHeader sha256 access.usizeValues access.binding
      (snapshotAt g (pending.firstExtent + index)).header = .ok fields) :
    fields.handle = pending.handle := by
  obtain hlt | rfl | hgt := Nat.lt_trichotomy index reached
  · exact hallocated.handle_of_header hindex (h.headers index hlt) hdecoded
  · exact (h.torn.place fields hdecoded).2.2
  · exact absurd hdecoded (not_decoded_of_blank (h.blank index hgt hindex))

/-- An inspection finds no record in an interrupted span. -/
theorem PassedStart.inspect (h : PassedStart sha256 access g pending) :
    (committedRecordAt sha256 access pending.firstExtent :
      InspectAction ε (Option IndexEntry)).answer g = .ok none := by
  cases h with
  | undecodable herror hmarker hrecognized hblank =>
    rw [committedRecordAt, (query_readExtentSnapshot _).answer_bind, answer_readExtentSnapshot,
      Codec.ok_bind, Action.answer_ite, herror]
    split_ifs
    · rfl
    · dsimp only
      rw [inspectUndecodable, hmarker]
      dsimp only
      rw [if_pos hrecognized]
      rfl
  | decoded hdecoded hstart hcount hhandle hpasses =>
    rw [answer_committedRecordAt_decoded hdecoded hstart]
    refine hpasses.inspect ?_
    rw [hcount]
    exact hallocated.inside

variable {maxHandle : ℕ}

/-- A mount passes some extents of an interrupted span, and the others are erased. -/
structure Passed (ε : Type) (sha256 : Sha256) (access : BoundLxmfStore) (g : Flash)
    (pending : PendingMutation) (maxHandle stop maxHandle' : ℕ) : Prop where
  step : ∀ store, WalkStep ε sha256 access g ⟨pending.firstExtent, store, maxHandle⟩
    ⟨stop, store.reach stop, maxHandle'⟩
  le_handle : maxHandle ≤ maxHandle'
  handle_le : maxHandle' ≤ max maxHandle pending.handle.get
  lt_stop : pending.firstExtent < stop
  stop_le : stop ≤ pending.firstExtent + pending.extentCount
  blank : ∀ extent, stop ≤ extent →
    extent < pending.firstExtent + pending.extentCount → g.Erased (extentOffset extent) extentSize

/-- A start that is passed advances the mount by its extents. -/
theorem PassedStart.mount (h : PassedStart sha256 access g pending)
    (hhandles : ∀ index < pending.extentCount, ∀ fields,
      decodeHeader sha256 access.usizeValues access.binding
        (snapshotAt g (pending.firstExtent + index)).header = .ok fields →
      fields.handle = pending.handle) :
    SpanErased g pending ∨
      ∃ stop maxHandle', Passed ε sha256 access g pending maxHandle stop maxHandle' := by
  have hpos := hallocated.pos
  have hinside := hallocated.inside
  have hlt : pending.firstExtent < access.binding.length / extentSize := by omega
  cases h with
  | @undecodable error herror hmarker hrecognized hblank =>
    by_cases herased : (snapshotAt g pending.firstExtent).erased = true
    · refine .inl fun index hindex => ?_
      by_cases hfirst : index = 0
      · rw [hfirst, Nat.add_zero]
        exact snapshotAt_erased.mp herased
      · exact hblank index (Nat.pos_of_ne_zero hfirst) hindex
    · refine .inr ⟨pending.firstExtent + 1, maxHandle, fun store => ⟨hlt, ?_⟩, le_rfl,
        le_max_left _ _,
        Nat.lt_succ_self _, Nat.add_le_add_left hpos _, fun extent hfrom hto => ?_⟩
      · rw [mountExtent, (query_readExtentSnapshot _).answer_bind, answer_readExtentSnapshot,
          Codec.ok_bind, Action.answer_ite, if_neg herased]
        dsimp only
        rw [herror]
        dsimp only
        rw [(query_orFault _).answer_bind, answer_orFault, mountUndecodable, hmarker]
        dsimp only
        rw [if_pos hrecognized]
        rfl
      · obtain ⟨index, rfl⟩ := Nat.exists_eq_add_of_le (Nat.le_of_succ_le hfrom)
        exact hblank index (by omega) (by omega)
  | @decoded header hdecoded hstart hcount hhandle hpasses =>
    rw [← hcount] at hinside hpos
    have hstep : ∀ store, (mountExtent sha256 access ⟨pending.firstExtent, store, maxHandle⟩ :
        MountAction ε MountState).answer g =
        .ok ⟨pending.firstExtent + header.extentCount,
          store.reach (pending.firstExtent + header.extentCount),
          recordHandle sha256 access g ⟨pending.firstExtent, store, maxHandle⟩ header⟩ := by
      intro store
      have hrecord := @Passes.mount ε sha256 access g header ⟨pending.firstExtent,
        store.reach (pending.firstExtent + 1), max maxHandle header.handle.get⟩ hpasses hinside
      dsimp only at hrecord
      rw [MountedLxmfStore.reach_reach (by omega)] at hrecord
      exact (@answer_mountExtent_decoded ε sha256 access g ⟨pending.firstExtent, store, maxHandle⟩
        header hdecoded hstart).trans hrecord
    have hobserved : recordHandle sha256 access g
        ⟨pending.firstExtent, ⟨access.binding, [], 0, 0, 0, none⟩, maxHandle⟩ header ≤
          max maxHandle pending.handle.get := by
      refine observedHandle_le (by rw [hhandle]) fun index hindex fields hfields => ?_
      have hbound := List.mem_range'_1.mp hindex
      rw [hhandles index (by omega) fields hfields]
      exact le_max_right _ _
    have hobserves : maxHandle ≤ recordHandle sha256 access g
        ⟨pending.firstExtent, ⟨access.binding, [], 0, 0, 0, none⟩, maxHandle⟩ header :=
      (Nat.le_max_left maxHandle header.handle.get).trans
        (@le_recordHandle sha256 access g header ⟨pending.firstExtent, _, maxHandle⟩)
    exact .inr ⟨_, _, fun store => ⟨hlt, hstep store⟩, hobserves, hobserved,
      Nat.lt_add_of_pos_right hpos, by rw [hcount], fun extent hfrom hto => by omega⟩

end Starts

section Spans

variable {g : Flash} {candidate : InboundMessageCandidate}

/-- What an interrupted span holds. -/
inductive Interrupted (sha256 : Sha256) (access : BoundLxmfStore) (g : Flash)
    (pending : PendingMutation) : Prop
  | heading {reached : ℕ} (h : OpenSpan sha256 access g pending reached)
  | headed (h : HeadedSpan sha256 access g pending)

variable (hallocated : Allocated access pending)

include hallocated

/-- An interrupted span has a start that is passed. -/
theorem Interrupted.start (h : Interrupted sha256 access g pending) :
    PassedStart sha256 access g pending := by
  cases h with
  | heading h => exact h.start hallocated
  | headed h => exact h.start hallocated

/-- Every header that an interrupted span shows has its handle. -/
theorem Interrupted.handles (h : Interrupted sha256 access g pending) :
    ∀ index < pending.extentCount, ∀ fields,
      decodeHeader sha256 access.usizeValues access.binding
        (snapshotAt g (pending.firstExtent + index)).header = .ok fields →
      fields.handle = pending.handle := by
  intro index hindex fields hfields
  cases h with
  | heading h => exact h.handles hallocated hindex hfields
  | headed h => exact hallocated.handle_of_header hindex (h.headed index hindex) hfields

/-- A mount passes an interrupted span. -/
theorem Interrupted.mount (h : Interrupted sha256 access g pending) (maxHandle : ℕ) :
    SpanErased g pending ∨
      ∃ stop maxHandle', Passed ε sha256 access g pending maxHandle stop maxHandle' :=
  (h.start hallocated).mount hallocated (h.handles hallocated)

/-- An inspection finds no record in an interrupted span. -/
theorem Interrupted.inspect (h : Interrupted sha256 access g pending) :
    (committedRecordAt sha256 access pending.firstExtent :
      InspectAction ε (Option IndexEntry)).answer g = .ok none :=
  (h.start hallocated).inspect hallocated

omit hallocated in
/-- An interrupted span is not committed. -/
theorem Interrupted.not_marked (hcount : 0 < pending.extentCount)
    (h : Interrupted sha256 access g pending) : ¬SpanMarked g pending := by
  cases h with
  | heading h => exact h.bodies.not_spanMarked hcount
  | headed h => exact h.unmarked

/-- A span that attempts may have been made on is interrupted or full. -/
theorem SpanState.cases (hfor : IsFor sha256 pending candidate)
    (h : SpanState ε sha256 access g pending) :
    Interrupted sha256 access g pending ∨ ∃ candidate, IsFor sha256 pending candidate ∧
      FullSpan sha256 access g candidate pending := by
  cases h with
  | full hfor h => exact .inr ⟨_, hfor, h⟩
  | unfinished h =>
    cases h with
    | writable h => exact .inl (.headed h.span)
    | @heading f herased h =>
      -- headers in progress are a record in progress
      have hrecord : Trajectory (CheckedPatch.script (Piece.all
          (recordPieces ε sha256 access candidate pending))) f g := by
        rw [recordPieces_eq, Piece.all, List.flatMap_append, CheckedPatch.script, List.map_append]
        exact h.append_left _
      obtain ⟨reached, hopen⟩ | hheaded | hfull := span_cases hallocated.pos
        (hallocated.wire_le hfor) herased hrecord hallocated.fits
      · exact .inl (.heading hopen)
      · exact .inl (.headed hheaded)
      · exact .inr ⟨candidate, hfor, hfull⟩

end Spans

end LxmfStore
