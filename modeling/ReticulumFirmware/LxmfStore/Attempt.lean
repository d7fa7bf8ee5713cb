import ReticulumFirmware.LxmfStore.Programming

/-!
# One attempt to commit

Whatever the backend reports and wherever power is lost, an attempt touches nothing outside the
span of its mutation and leaves the span in a state from which a later attempt can go on. A
successful attempt leaves a committed record of the mutation, with the wire of the candidate if
this attempt wrote it.
-/

namespace LxmfStore

open Nor Lxmf

variable {ε : Type} {φ : Faults} {sha256 : Sha256} {access : BoundLxmfStore} {f f₀ g : Flash}
  {pending : PendingMutation} {candidate : InboundMessageCandidate}
  {submitted : InboundMessageCandidate → Prop}

section Pending

/-- The header values of the record of a mutation. -/
def pendingFields (pending : PendingMutation) : HeaderFields :=
  headerValues pending.handle 0 pending.extentCount pending.metadata
    pending.replay.exactWireDigest

/-- What the store needs to know about a mutation to program and to find its record. -/
structure Allocated (access : BoundLxmfStore) (pending : PendingMutation) : Prop where
  shape : ValidShape access
  required : requiredExtents access.usizeValues pending.metadata.lengths.normalizedWire =
    some pending.extentCount
  fits : pending.extentCount < 2 ^ 16
  inside : pending.firstExtent + pending.extentCount ≤ access.binding.length / extentSize

/-- An allocated span has an extent. -/
theorem Allocated.pos (h : Allocated access pending) : 0 < pending.extentCount :=
  requiredExtents_pos h.required

/-- The wire of a candidate of the mutation fits its span. -/
theorem Allocated.wire_le (h : Allocated access pending) (hfor : IsFor sha256 pending candidate) :
    candidate.bytes.length ≤ wireCapacity pending.extentCount := by
  rw [candidate.length_bytes, ← hfor.2]
  exact le_wireCapacity h.required

/-- The header of any extent of the span is decoded to the mutation's values. -/
theorem Allocated.decoded (h : Allocated access pending) {index : ℕ}
    (hindex : index < pending.extentCount) :
    decodeHeader sha256 access.usizeValues access.binding
        (pendingHeader sha256 access pending index) =
      .ok (headerValues pending.handle index pending.extentCount pending.metadata
        pending.replay.exactWireDigest) :=
  decodeHeader_of_valid h.shape h.required h.fits hindex

/-- The record in a span with all headers can only be the mutation's. -/
theorem Allocated.fields_eq (h : Allocated access pending)
    (hheaded : Headed sha256 access f pending) {header : HeaderFields}
    (hdecoded : decodeHeader sha256 access.usizeValues access.binding
      (snapshotAt f pending.firstExtent).header = .ok header) : header = pendingFields pending := by
  have hfirst := hheaded 0 h.pos
  rw [Nat.add_zero] at hfirst
  rw [snapshotAt_header, hfirst, h.decoded h.pos] at hdecoded
  exact (Except.ok.inj hdecoded).symm

/-- A committed record has the commit marker in its last extent. -/
theorem CommittedAt.marked {first : ℕ} {header : HeaderFields}
    (h : CommittedAt sha256 access f first header) : Marked f (first + header.extentCount - 1) :=
  commitMarker_eq_committed.mp h.marker

/-- A committed record has an extent. -/
theorem CommittedAt.count_pos {first : ℕ} {header : HeaderFields}
    (h : CommittedAt sha256 access f first header) : 0 < header.extentCount := by
  obtain ⟨-, hindex, -, -, -⟩ := of_decodeHeader h.decoded
  omega

/-- The record of a complete mutation. -/
structure Recorded (sha256 : Sha256) (access : BoundLxmfStore)
    (submitted : InboundMessageCandidate → Prop) (f₀ : Flash) (pending : PendingMutation)
    (entry : IndexEntry) (g : Flash) : Prop where
  outside : Outside f₀ g pending
  headed : Headed sha256 access g pending
  committed : CommittedAt sha256 access g pending.firstExtent (pendingFields pending)
  entry_eq : entry = recordEntry pending.firstExtent (pendingFields pending)
  wire : ∃ candidate, submitted candidate ∧ IsFor sha256 pending candidate ∧
    WireAt g pending.firstExtent pending.extentCount candidate.bytes

/-- A complete record is one of the ways in which programming stops. -/
theorem Recorded.stopped {entry : IndexEntry}
    (h : Recorded sha256 access submitted f₀ pending entry g) :
    Stopped sha256 access submitted f₀ pending g :=
  ⟨h.outside, .headed h.headed fun _ => h.wire⟩

/-- Nothing is programmed behind a span. -/
def BlankBehind (access : BoundLxmfStore) (f : Flash) (pending : PendingMutation) : Prop :=
  ∀ extent, pending.firstExtent + pending.extentCount ≤ extent →
    extent < access.binding.length / extentSize → f.Erased (extentOffset extent) extentSize

/-- An inspection that finds the record of a mutation finds one that was programmed for it. -/
theorem Spanned.recorded (hallocated : Allocated access pending)
    (hspan : Spanned sha256 access submitted f pending) (hbehind : BlankBehind access f pending)
    {entry : IndexEntry}
    (h : (committedRecordAt sha256 access pending.firstExtent :
      InspectAction ε (Option IndexEntry)).answer f = .ok (some entry)) :
    Recorded sha256 access submitted f pending entry f := by
  obtain ⟨header, hcommitted, rfl⟩ := answer_committedRecordAt.mp h
  have hmarked := hcommitted.marked
  have hpos := hcommitted.count_pos
  cases hspan with
  | blank hblank =>
    rw [Nat.add_sub_assoc (show 1 ≤ header.extentCount from hpos)] at hmarked
    by_cases hinside : header.extentCount - 1 < pending.extentCount
    · exact absurd hmarked (hblank.not_marked hinside)
    · have hend := hcommitted.inside
      have herased := hbehind (pending.firstExtent + (header.extentCount - 1)) (by omega) (by omega)
      refine absurd hmarked (not_marked_of_erased (herased.mono (Nat.le_add_right _ _) ?_))
      change _ + 4064 + 32 ≤ _ + 4096
      omega
  | headed hheaded hwire =>
    obtain rfl := hallocated.fields_eq hheaded hcommitted.decoded
    exact ⟨fun _ _ => rfl, hheaded, hcommitted, rfl, hwire hmarked⟩

/-- An inspection that finds no record leaves the marker of the mutation to be programmed. -/
theorem Spanned.unmarked (hallocated : Allocated access pending)
    (hspan : Spanned sha256 access submitted f pending)
    (h : (committedRecordAt sha256 access pending.firstExtent :
      InspectAction ε (Option IndexEntry)).answer f = .ok none) :
    Unmarked sha256 access f pending := by
  cases hspan with
  | blank hblank => exact .blank hblank
  | headed hheaded hwire =>
    refine .headed hheaded fun hmarked => ?_
    have hfirst := hheaded 0 hallocated.pos
    rw [Nat.add_zero] at hfirst
    have hdecoded : decodeHeader sha256 access.usizeValues access.binding
        (snapshotAt f pending.firstExtent).header = .ok (pendingFields pending) := by
      rw [snapshotAt_header, hfirst]
      exact hallocated.decoded hallocated.pos
    have hheaders : HeadersAt sha256 access f pending.firstExtent (pendingFields pending)
        (pendingFields pending).extentCount := by
      intro index hindex
      rw [snapshotAt_header]
      exact hheaded index hindex
    have hmarker : (snapshotAt f (pending.firstExtent + (pendingFields pending).extentCount -
        1)).commitMarker = .committed := commitMarker_eq_committed.mpr hmarked
    rw [answer_committedRecordAt_decoded hdecoded rfl] at h
    exact answer_inspectRecord_ne_none hallocated.pos hheaders hmarker h

end Pending

section Write

variable {err : Type} {wrap : ε → err}

/-- Decide an inspection of a commit. -/
theorem query_inspectCommitted (first : ℕ) :
    Query (LxmfCommitError.backend .verification) (ExceptT.adapt InspectError.intoCommitError
      (committedRecordAt sha256 access first) : CommitAction ε (Option IndexEntry)).run := by
  show Query (InspectError.intoCommitError ∘ InspectError.backend) _
  exact query_committedRecordAt.adapt

/-- The inspection before an attempt finds what is committed at the first extent. -/
theorem answer_inspectCommitted {first : ℕ} {found : Option IndexEntry} :
    Action.answer (ExceptT.adapt InspectError.intoCommitError
        (committedRecordAt sha256 access first) : CommitAction ε (Option IndexEntry)) f =
          .ok found ↔
      (committedRecordAt sha256 access first : InspectAction ε _).answer f = .ok found := by
  rw [Action.answer_adapt]
  exact Except.mapError_eq_ok

/-- Outside of a span the later contents are those before. -/
theorem Outside.trans {h : Flash} (hfirst : Outside f₀ f pending) (hrest : Outside f h pending) :
    Outside f₀ h pending :=
  fun a ha => (hrest a ha).trans (hfirst a ha)

/-- What was blank behind the span still is. -/
theorem BlankBehind.of_outside (h : BlankBehind access f₀ pending)
    (houtside : Outside f₀ f pending) :
    BlankBehind access f pending := by
  intro extent hfrom hto i hi
  have hoffset : extentOffset (pending.firstExtent + pending.extentCount) ≤ extentOffset extent :=
    Nat.mul_le_mul_right _ hfrom
  rw [houtside _ (.inr (by omega))]
  exact h extent hfrom hto i hi

/-- Programming a record and inspecting it completes the mutation with the wire of the candidate,
or stops in its span. -/
theorem wp_writeRecord (hallocated : Allocated access pending)
    (hfor : IsFor sha256 pending candidate)
    (hsubmitted : submitted candidate) (hbehind : BlankBehind access f₀ pending)
    (houtside : Outside f₀ f pending) (hunmarked : Unmarked sha256 access f pending) :
    wp φ (fun _ => True) (writeRecord sha256 access candidate pending :
      CommitAction ε IndexEntry).run
      (fun r g => match r with
        | .ok entry => Recorded sha256 access submitted f₀ pending entry g ∧
            WireAt g pending.firstExtent pending.extentCount candidate.bytes
        | .error _ => Stopped sha256 access submitted f₀ pending g)
      (Stopped sha256 access submitted f₀ pending) f := by
  have hestablishes : CheckedPatch.Establishes φ (Stopped sha256 access submitted f₀ pending) _ _
      (programRecord sha256 access candidate pending.firstExtent pending.extentCount
        pending.handle : List (CheckedPatch ε (LxmfCommitError ε))) :=
    establishes_programRecord hallocated.pos (hallocated.wire_le hfor) hfor hsubmitted
  rw [writeRecord]
  apply wp_action_bind
  refine (hestablishes f ⟨houtside, hunmarked⟩).mono ?_ fun _ hg => hg
  intro r g hr
  cases r with
  | error e => exact hr
  | ok _ =>
    have hprogrammed : Programmed sha256 access f₀ pending candidate.bytes g := hr
    have hspan : Spanned sha256 access submitted g pending :=
      .headed hprogrammed.headed fun _ => ⟨candidate, hsubmitted, hfor, hprogrammed.wireAt⟩
    have hstopped : Stopped sha256 access submitted f₀ pending g := ⟨hprogrammed.outside, hspan⟩
    refine (query_inspectCommitted pending.firstExtent).wp_bind (fun _ => hstopped)
      ((query_inspectCommitted pending.firstExtent).eval_eq g) ?_ (fun _ _ => hstopped)
      fun _ _ => hstopped
    intro found hfound
    cases found with
    | none => exact wp_action_throw (fun _ => hstopped) hstopped
    | some entry =>
      have hrecorded := hspan.recorded hallocated (hbehind.of_outside hprogrammed.outside)
        (answer_inspectCommitted.mp hfound)
      refine wp_ensure_bind (fun _ => hstopped) (fun _ => ?_) fun _ => hstopped
      exact wp_action_pure (fun _ => hstopped) ⟨⟨hprogrammed.outside, hrecorded.headed,
        hrecorded.committed, hrecorded.entry_eq, hrecorded.wire⟩, hprogrammed.wireAt⟩

end Write

section Append

variable {err : Type} {wrap : ε → err} {resumed : Bool}

/-- The check that a span is erased only reads. -/
theorem query_spanIsErased (first count : ℕ) :
    Query wrap (spanIsErased wrap first count).run := by
  induction count generalizing first with
  | zero => exact .pureAction _ _
  | succ count ih =>
    refine (query_readExtentSnapshot _).bind fun snapshot => ?_
    split
    · exact ih _
    · exact .pureAction _ _

/-- The inspection of a resumed mutation finds its record or leaves its marker to be programmed; a
new mutation starts in an erased span. Nothing is programmed. -/
theorem wp_prepareSpan (hallocated : Allocated access pending)
    (hbehind : BlankBehind access f pending) (hspan : Spanned sha256 access submitted f pending)
    (hfresh : resumed = false → BodyBlank f pending) :
    wp φ (fun _ => True) (prepareSpan sha256 access candidate pending resumed :
        CommitAction ε (Option IndexEntry)).run
      (fun r g => g = f ∧ ∀ found, r = .ok found → match found with
        | some entry => Recorded sha256 access submitted f pending entry f
        | none => Unmarked sha256 access f pending)
      (Stopped sha256 access submitted f pending) f := by
  have hstopped : Stopped sha256 access submitted f pending f := ⟨fun _ _ => rfl, hspan⟩
  have hfails : ∀ e : LxmfCommitError ε, f = f ∧ ∀ found : Option IndexEntry,
      (Except.error e : Except (LxmfCommitError ε) _) = .ok found → match found with
        | some entry => Recorded sha256 access submitted f pending entry f
        | none => Unmarked sha256 access f pending := by
    rintro e
    refine ⟨rfl, fun found hfound => ?_⟩
    cases hfound
  unfold prepareSpan
  split
  · refine (query_inspectCommitted pending.firstExtent).wp_bind (fun _ => hstopped)
      ((query_inspectCommitted pending.firstExtent).eval_eq f) ?_ (fun e _ => hfails e)
      fun _ e => hfails _
    intro found hfound
    have hanswer := answer_inspectCommitted.mp hfound
    cases found with
    | none =>
      refine wp_action_pure (fun _ => hstopped) ⟨rfl, fun found hsame => ?_⟩
      obtain rfl := Except.ok.inj hsame
      exact hspan.unmarked hallocated hanswer
    | some entry =>
      refine wp_ensure_bind (fun _ => hstopped) (fun _ => ?_) fun _ => hfails _
      refine wp_ensure_bind (fun _ => hstopped) (fun _ => ?_) fun _ => hfails _
      refine wp_action_pure (fun _ => hstopped) ⟨rfl, fun found hsame => ?_⟩
      obtain rfl := Except.ok.inj hsame
      exact hspan.recorded hallocated hbehind hanswer
  · next hnew =>
    refine (query_spanIsErased _ _).wp_bind (fun _ => hstopped)
      ((query_spanIsErased _ _).eval_eq f) ?_ (fun e _ => hfails e) fun _ e => hfails _
    intro erased _
    refine wp_ensure_bind (fun _ => hstopped) (fun _ => ?_) fun _ => hfails _
    refine wp_action_pure (fun _ => hstopped) ⟨rfl, fun found hsame => ?_⟩
    obtain rfl := Except.ok.inj hsame
    exact .blank (hfresh (by simpa using hnew))

/-- An attempt completes the mutation or stops in its span. If it wrote the record itself, the
wire is the candidate's. -/
theorem wp_appendRecord (hallocated : Allocated access pending)
    (hfor : IsFor sha256 pending candidate) (hsubmitted : submitted candidate)
    (hbehind : BlankBehind access f pending) (hspan : Spanned sha256 access submitted f pending)
    (hfresh : resumed = false → BodyBlank f pending) :
    wp φ (fun _ => True) (appendRecord sha256 access candidate pending resumed :
        CommitAction ε (IndexEntry × Bool)).run
      (fun r g => match r with
        | .ok result => Recorded sha256 access submitted f pending result.1 g ∧
            (result.2 = false → WireAt g pending.firstExtent pending.extentCount candidate.bytes)
        | .error _ => Stopped sha256 access submitted f pending g)
      (Stopped sha256 access submitted f pending) f := by
  have hstopped : Stopped sha256 access submitted f pending f := ⟨fun _ _ => rfl, hspan⟩
  rw [appendRecord]
  apply wp_action_bind
  refine (wp_prepareSpan hallocated hbehind hspan hfresh).mono ?_ fun _ hg => hg
  rintro r g ⟨rfl, hr⟩
  cases r with
  | error e => exact hstopped
  | ok found =>
    have hfound := hr found rfl
    cases found with
    | some entry => exact wp_action_pure (fun _ => hstopped) ⟨hfound, fun h => Bool.noConfusion h⟩
    | none =>
      apply wp_action_bind
      refine (wp_writeRecord hallocated hfor hsubmitted hbehind (fun _ _ => rfl) hfound).mono ?_
        fun _ hg => hg
      intro r g hr
      cases r with
      | error e => exact hr
      | ok entry => exact wp_action_pure (fun _ => hr.1.stopped) ⟨hr.1, fun _ => hr.2⟩

end Append

end LxmfStore
