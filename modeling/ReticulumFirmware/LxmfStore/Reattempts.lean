import ReticulumFirmware.LxmfStore.Passing

/-!
# Attempts on a span

An attempt completes the record of its mutation or leaves the span for another attempt, whatever
the backend reports and wherever power is lost.
-/

namespace LxmfStore

open Nor Lxmf

variable {ε : Type} {φ : Faults} {sha256 : Sha256} {access : BoundLxmfStore} {f f₀ g : Flash}
  {pending : PendingMutation} {candidate : InboundMessageCandidate} {resumed : Bool}

section Inspection

/-- The entry of a completed mutation. -/
def pendingEntry (pending : PendingMutation) : IndexEntry :=
  recordEntry pending.firstExtent (pendingFields pending)

/-- A full span is found. -/
theorem FullSpan.inspect (hallocated : Allocated access pending)
    (hfor : IsFor sha256 pending candidate) (h : FullSpan sha256 access f candidate pending) :
    (committedRecordAt sha256 access pending.firstExtent :
      InspectAction ε (Option IndexEntry)).answer f = .ok (some (pendingEntry pending)) :=
  answer_committedRecordAt.mpr ⟨_, h.committedAt hallocated hfor, rfl⟩

/-- The record of a mutation is the record of its candidates. -/
theorem IsFor.candidateRecord (hfor : IsFor sha256 pending candidate) :
    isCandidateRecord sha256 candidate (pendingEntry pending) := by
  refine ⟨?_, hfor.2⟩
  change ReplayFingerprint.mk pending.metadata.authenticatedFingerprint
    pending.replay.exactWireDigest = _
  rw [hfor.1, hfor.2, candidateReplay]

/-- The record in a span is the record of a full span. -/
theorem SpanState.found (hallocated : Allocated access pending)
    (hfor : IsFor sha256 pending candidate) (h : SpanState ε sha256 access f pending)
    {found : Option IndexEntry}
    (hanswer : (committedRecordAt sha256 access pending.firstExtent :
      InspectAction ε (Option IndexEntry)).answer f = .ok found) :
    found = none ∧ Unfinished ε sha256 access f pending ∨
      found = some (pendingEntry pending) ∧ ∃ writer, IsFor sha256 pending writer ∧
        FullSpan sha256 access f writer pending := by
  cases h with
  | @full writer hwriter hfull =>
    refine .inr ⟨?_, writer, hwriter, hfull⟩
    exact (Except.ok.inj ((hfull.inspect hallocated hwriter).symm.trans hanswer)).symm
  | unfinished hunfinished =>
    obtain hinterrupted | ⟨writer, hwriter, hfull⟩ :=
      (SpanState.unfinished hunfinished).cases hallocated hfor
    · refine .inl ⟨?_, hunfinished⟩
      exact (Except.ok.inj ((hinterrupted.inspect hallocated).symm.trans hanswer)).symm
    · refine .inr ⟨?_, writer, hwriter, hfull⟩
      exact (Except.ok.inj ((hfull.inspect hallocated hwriter).symm.trans hanswer)).symm

end Inspection

section Attempts

/-- An attempt has completed its record, and by whom if it programmed it itself. -/
structure Completed (sha256 : Sha256) (access : BoundLxmfStore) (f₀ : Flash)
    (pending : PendingMutation) (candidate : InboundMessageCandidate) (result : IndexEntry × Bool)
    (g : Flash) : Prop where
  outside : Outside f₀ g pending
  entry_eq : result.1 = pendingEntry pending
  full : ∃ writer, IsFor sha256 pending writer ∧ FullSpan sha256 access g writer pending ∧
    (result.2 = false → writer = candidate)

/-- A completed attempt has changed nothing outside its span. -/
theorem Completed.kept {result : IndexEntry × Bool}
    (h : Completed sha256 access f₀ pending candidate result g) :
    Kept ε sha256 access f₀ pending g := by
  obtain ⟨writer, hwriter, hfull, -⟩ := h.full
  exact ⟨h.outside, .full hwriter hfull⟩

/-- Programming a record and inspecting it completes it. -/
theorem wp_writeSpan (hallocated : Allocated access pending) (hfor : IsFor sha256 pending candidate)
    (houtside : Outside f₀ f pending) (hunfinished : Unfinished ε sha256 access f pending) :
    wp φ (fun _ => True) (writeRecord sha256 access candidate pending :
      CommitAction ε IndexEntry).run
      (fun r g => match r with
        | .ok entry => Completed sha256 access f₀ pending candidate (entry, false) g
        | .error _ => Kept ε sha256 access f₀ pending g)
      (Kept ε sha256 access f₀ pending) f := by
  have hestablishes := @establishes_record ε φ sha256 access f₀ pending candidate
    hallocated.pos hfor
    (hallocated.wire_le hfor)
  rw [writeRecord]
  apply wp_action_bind
  refine (hestablishes f ⟨houtside, hunfinished⟩).mono ?_ fun _ hg => hg
  intro r g hr
  cases r with
  | error e => exact hr
  | ok _ =>
    obtain ⟨houtside, hfull⟩ :
      Outside f₀ g pending ∧ FullSpan sha256 access g candidate pending := hr
    have hkept : Kept ε sha256 access f₀ pending g := ⟨houtside, .full hfor hfull⟩
    refine (query_inspectCommitted pending.firstExtent).wp_bind (fun _ => hkept)
      ((query_inspectCommitted pending.firstExtent).eval_eq g) ?_ (fun _ _ => hkept)
      fun _ _ => hkept
    intro found hfound
    have hsame := (hfull.inspect hallocated hfor).symm.trans (answer_inspectCommitted.mp hfound)
    obtain rfl := Except.ok.inj hsame
    refine wp_ensure_bind (fun _ => hkept) (fun _ => ?_) fun _ => hkept
    exact wp_action_pure (fun _ => hkept) ⟨houtside, rfl, candidate, hfor, hfull, fun _ => rfl⟩

/-- The inspection of a resumed mutation finds its record or a span to be programmed; a new
mutation starts in an erased span. Nothing is programmed. -/
theorem wp_prepare (hallocated : Allocated access pending) (hfor : IsFor sha256 pending candidate)
    (hstate : SpanState ε sha256 access f pending)
    (hfresh : resumed = false → SpanErased f pending) :
    wp φ (fun _ => True) (prepareSpan sha256 access candidate pending resumed :
        CommitAction ε (Option IndexEntry)).run
      (fun r g => g = f ∧ ∀ found, r = .ok found →
        found = none ∧ Unfinished ε sha256 access f pending ∨
        found = some (pendingEntry pending) ∧ ∃ writer, IsFor sha256 pending writer ∧
          FullSpan sha256 access f writer pending)
      (Kept ε sha256 access f pending) f := by
  have hkept : Kept ε sha256 access f pending f := ⟨fun _ _ => rfl, hstate⟩
  have hfails : ∀ e : LxmfCommitError ε, f = f ∧ ∀ found : Option IndexEntry,
      (Except.error e : Except (LxmfCommitError ε) _) = .ok found →
        found = none ∧ Unfinished ε sha256 access f pending ∨
        found = some (pendingEntry pending) ∧ ∃ writer, IsFor sha256 pending writer ∧
          FullSpan sha256 access f writer pending := by
    intro e
    refine ⟨rfl, fun found hfound => ?_⟩
    cases hfound
  unfold prepareSpan
  split
  · refine (query_inspectCommitted pending.firstExtent).wp_bind (fun _ => hkept)
      ((query_inspectCommitted pending.firstExtent).eval_eq f) ?_ (fun e _ => hfails e)
      fun _ e => hfails _
    intro found hfound
    have hcases := hstate.found hallocated hfor (answer_inspectCommitted.mp hfound)
    cases found with
    | none =>
      refine wp_action_pure (fun _ => hkept) ⟨rfl, fun found hsame => ?_⟩
      obtain rfl := Except.ok.inj hsame
      exact hcases
    | some entry =>
      refine wp_ensure_bind (fun _ => hkept) (fun _ => ?_) fun _ => hfails _
      refine wp_ensure_bind (fun _ => hkept) (fun _ => ?_) fun _ => hfails _
      refine wp_action_pure (fun _ => hkept) ⟨rfl, fun found hsame => ?_⟩
      obtain rfl := Except.ok.inj hsame
      exact hcases
  · next hnew =>
    refine (query_spanIsErased _ _).wp_bind (fun _ => hkept)
      ((query_spanIsErased _ _).eval_eq f) ?_ (fun e _ => hfails e) fun _ e => hfails _
    intro erased _
    refine wp_ensure_bind (fun _ => hkept) (fun _ => ?_) fun _ => hfails _
    refine wp_action_pure (fun _ => hkept) ⟨rfl, fun found hsame => ?_⟩
    obtain rfl := Except.ok.inj hsame
    exact .inl ⟨rfl, (hfresh (by simpa using hnew)).unfinished⟩

/-- An attempt completes its record or leaves the span for another one. -/
theorem wp_attempt (hallocated : Allocated access pending) (hfor : IsFor sha256 pending candidate)
    (hstate : SpanState ε sha256 access f pending)
    (hfresh : resumed = false → SpanErased f pending) :
    wp φ (fun _ => True) (appendRecord sha256 access candidate pending resumed :
        CommitAction ε (IndexEntry × Bool)).run
      (fun r g => match r with
        | .ok result => Completed sha256 access f pending candidate result g
        | .error _ => Kept ε sha256 access f pending g)
      (Kept ε sha256 access f pending) f := by
  have hkept : Kept ε sha256 access f pending f := ⟨fun _ _ => rfl, hstate⟩
  rw [appendRecord]
  apply wp_action_bind
  refine (wp_prepare hallocated hfor hstate hfresh).mono ?_ fun _ hg => hg
  rintro r g ⟨rfl, hr⟩
  cases r with
  | error e => exact hkept
  | ok found =>
    obtain ⟨rfl, hunfinished⟩ | ⟨rfl, writer, hwriter, hfull⟩ := hr found rfl
    · apply wp_action_bind
      refine (wp_writeSpan hallocated hfor (fun _ _ => rfl) hunfinished).mono ?_ fun _ hg => hg
      intro r g hr
      cases r with
      | error e => exact hr
      | ok entry => exact wp_action_pure (fun _ => hr.kept) hr
    · exact wp_action_pure (fun _ => hkept)
        ⟨fun _ _ => rfl, rfl, writer, hwriter, hfull, fun h => Bool.noConfusion h⟩

end Attempts

end LxmfStore
