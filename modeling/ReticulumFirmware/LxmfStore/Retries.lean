import ReticulumFirmware.LxmfStore.Restarts

/-!
# Retries of a commit

Attempts of one candidate stay on the programs of its record, whatever the backend reports. An
attempt on a backend that reports nothing completes the record wherever the attempts before it
stopped.
-/

namespace LxmfStore

open Nor Lxmf

variable {ε : Type} {φ : Faults} {sha256 : Sha256} {access : BoundLxmfStore} {f f₀ g : Flash}
  {pending : PendingMutation} {candidate : InboundMessageCandidate} {resumed : Bool}

section Tracked

/-- Contents of a span on the way from erased ones to the record of a candidate. -/
def Tracked (ε : Type) (sha256 : Sha256) (access : BoundLxmfStore)
    (candidate : InboundMessageCandidate) (pending : PendingMutation) (f₀ g : Flash) : Prop :=
  Trajectory (CheckedPatch.script (programRecord sha256 access candidate pending.firstExtent
    pending.extentCount pending.handle : List (CheckedPatch ε (LxmfCommitError ε)))) f₀ g

/-- Programs of a record change nothing outside its span. -/
theorem Tracked.outside (hallocated : Allocated access pending)
    (hfor : IsFor sha256 pending candidate)
    (h : Tracked ε sha256 access candidate pending f₀ g) : Outside f₀ g pending := by
  have hpos := hallocated.pos
  have hfits := hallocated.wire_le hfor
  have hpages : ∀ page < wirePageCount candidate.bytes.length,
      page * 256 + 256 ≤ wireCapacity pending.extentCount := by
    intro page hpage
    have hstart := lt_wirePageCount.mp hpage
    rw [wireCapacity_eq] at hfits ⊢
    omega
  rw [Tracked, ← all_recordPieces hpos hfits hfor] at h
  clear hfits
  intro a ha
  rw [extentOffset_eq, extentOffset_eq] at ha
  refine Piece.eq_of_outside h fun q hq => ?_
  rcases List.mem_append.mp hq with hq | hq
  · obtain ⟨index, hindex, rfl⟩ := List.mem_map.mp hq
    have hindex := List.mem_range.mp hindex
    change a < (pending.firstExtent + index) * 4096 ∨ (pending.firstExtent + index) * 4096 +
      (pendingHeader sha256 access pending index).length ≤ a
    rw [length_pendingHeader]
    by_contra hinside
    rw [not_or, not_lt, not_le] at hinside
    omega
  · rcases List.mem_append.mp hq with hq | hq
    · obtain ⟨page, hpage, rfl⟩ := List.mem_map.mp hq
      obtain ⟨index, within, hindex, hwithin, -, haddress⟩ :=
        wireAddress_bounds pending.firstExtent (hpages page (List.mem_range.mp hpage))
      rw [length_wirePiece]
      change a < wireAddress pending.firstExtent (page * 256) ∨
        wireAddress pending.firstExtent (page * 256) + 256 ≤ a
      rw [show wireAddress pending.firstExtent (page * 256) = _ from haddress]
      by_contra hinside
      rw [not_or, not_lt, not_le] at hinside
      omega
    · rw [List.mem_singleton.mp hq]
      change a < footerOffset pending ∨ footerOffset pending + (footerDone _).length ≤ a
      rw [length_footerDone length_pendingFooter, footerOffset_eq]
      by_contra hinside
      rw [not_or, not_lt, not_le] at hinside
      omega

/-- Contents on the way are interrupted or the whole record. -/
theorem Tracked.cases (hallocated : Allocated access pending)
    (hfor : IsFor sha256 pending candidate)
    (herased : SpanErased f₀ pending) (h : Tracked ε sha256 access candidate pending f₀ g) :
    Interrupted sha256 access g pending ∨ FullSpan sha256 access g candidate pending := by
  have hfits := hallocated.wire_le hfor
  rw [Tracked, ← all_recordPieces hallocated.pos hfits hfor] at h
  obtain ⟨reached, hopen⟩ | hheaded | hfull := span_cases hallocated.pos hfits herased h
    hallocated.fits
  · exact .inl (.heading hopen)
  · exact .inl (.headed hheaded)
  · exact .inr hfull

/-- The programs of a record in an erased span leave the whole record. -/
theorem full_of_complete (hallocated : Allocated access pending)
    (hfor : IsFor sha256 pending candidate) (herased : SpanErased f₀ pending) :
    FullSpan sha256 access (f₀.applyAll (CheckedPatch.script (programRecord sha256 access candidate
      pending.firstExtent pending.extentCount pending.handle :
        List (CheckedPatch ε (LxmfCommitError ε))))) candidate pending := by
  have hfits := hallocated.wire_le hfor
  have hfitsRecord := @fits_programRecord ε sha256 access f₀ pending candidate hallocated.pos hfits
    hfor herased
  have hruns := wp.run (CheckedPatch.wp_actAll (φ := Faults.none) (G := fun _ => True)
    (fun _ => trivial) hfitsRecord (.start _ _))
  have hestablishes := wp.run (@establishes_record ε Faults.none sha256 access f₀ pending candidate
    hallocated.pos hfor hfits f₀ ⟨fun _ _ => rfl, herased.unfinished⟩)
  generalize Prog.run _ f₀ = result at hruns hestablishes
  obtain ⟨r, g⟩ := result
  cases r with
  | error e => exact absurd hruns.1 (by simp [Faults.none])
  | ok _ =>
    obtain rfl : g = _ := hruns
    exact hestablishes.2

/-- Programming goes on from contents on the way, and fails only when the backend does. -/
theorem wp_writeTracked (hallocated : Allocated access pending)
    (hfor : IsFor sha256 pending candidate) (herased : SpanErased f₀ pending)
    (h : Tracked ε sha256 access candidate pending f₀ f) :
    wp φ (fun _ => True) (writeRecord sha256 access candidate pending :
      CommitAction ε IndexEntry).run
      (fun r g => Tracked ε sha256 access candidate pending f₀ g ∧ match r with
        | .ok entry => entry = pendingEntry pending ∧ FullSpan sha256 access g candidate pending
        | .error _ => φ.readError = true ∨ φ.writeError = true)
      (fun _ => True) f := by
  rw [writeRecord]
  apply wp_action_bind
  refine (CheckedPatch.wp_actAll (fun _ => trivial)
    (fits_programRecord hallocated.pos (hallocated.wire_le hfor) hfor herased) h).mono ?_
    fun _ _ => trivial
  intro r g hr
  cases r with
  | error e => exact ⟨hr.2, hr.1⟩
  | ok _ =>
    obtain rfl : g = _ := hr
    have hfull := full_of_complete (ε := ε) hallocated hfor herased
    have htracked : Tracked ε sha256 access candidate pending f₀ _ := .finish _ f₀
    refine (query_inspectCommitted pending.firstExtent).wp_bind (fun _ => trivial)
      ((query_inspectCommitted pending.firstExtent).eval_eq _) ?_ ?_
      fun hread _ => ⟨htracked, .inl hread⟩
    · intro found hfound
      have hsame := (hfull.inspect hallocated hfor).symm.trans (answer_inspectCommitted.mp hfound)
      obtain rfl := Except.ok.inj hsame
      refine wp_ensure_bind (fun _ => trivial) (fun _ => ?_) fun hother =>
        absurd hfor.candidateRecord hother
      exact wp_action_pure (fun _ => trivial) ⟨htracked, rfl, hfull⟩
    · intro e hfailed
      have hanswer := answer_inspectCommitted (ε := ε) (f := f₀.applyAll _) |>.mpr
        (hfull.inspect hallocated hfor)
      exact absurd (hfailed.symm.trans hanswer) (by simp)

/-- An erased span is found erased. -/
theorem answer_spanIsErased {err : Type} {wrap : ε → err} {first count : ℕ}
    (herased : ∀ index < count, f.Erased (extentOffset (first + index)) extentSize) :
    (spanIsErased wrap first count).answer f = .ok true := by
  induction count generalizing first with
  | zero => rfl
  | succ count ih =>
    have hfirst := herased 0 (Nat.succ_pos _)
    rw [Nat.add_zero] at hfirst
    rw [spanIsErased, (query_readExtentSnapshot _).answer_bind, answer_readExtentSnapshot,
      Codec.ok_bind, Action.answer_ite, if_pos (snapshotAt_erased.mpr hfirst)]
    refine ih fun index hindex => ?_
    have hnext := herased (index + 1) (Nat.succ_lt_succ hindex)
    rwa [Nat.add_comm index 1, ← Nat.add_assoc] at hnext

/-- What an inspection of contents on the way finds. -/
theorem Tracked.inspect (hallocated : Allocated access pending)
    (hfor : IsFor sha256 pending candidate)
    (herased : SpanErased f₀ pending) (h : Tracked ε sha256 access candidate pending f₀ f) :
    ∃ found, Action.answer (ExceptT.adapt InspectError.intoCommitError
        (committedRecordAt sha256 access pending.firstExtent) :
          CommitAction ε (Option IndexEntry)) f = .ok found ∧
      ∀ entry, found = some entry →
        entry = pendingEntry pending ∧ FullSpan sha256 access f candidate pending := by
  obtain hinterrupted | hfull := h.cases hallocated hfor herased
  · refine ⟨none, answer_inspectCommitted.mpr (hinterrupted.inspect hallocated),
      fun entry hsome => ?_⟩
    cases hsome
  · refine ⟨_, answer_inspectCommitted.mpr (hfull.inspect hallocated hfor), fun entry hsome => ?_⟩
    obtain rfl := Option.some.inj hsome
    exact ⟨rfl, hfull⟩

/-- An attempt is prepared unless the backend fails. -/
theorem wp_prepareTracked (hallocated : Allocated access pending)
    (hfor : IsFor sha256 pending candidate) (herased : SpanErased f₀ pending)
    (h : Tracked ε sha256 access candidate pending f₀ f) (hfresh : resumed = false → f = f₀) :
    wp φ (fun _ => True) (prepareSpan sha256 access candidate pending resumed :
        CommitAction ε (Option IndexEntry)).run
      (fun r g => g = f ∧ match r with
        | .ok found => ∀ entry, found = some entry →
            entry = pendingEntry pending ∧ FullSpan sha256 access f candidate pending
        | .error _ => φ.readError = true)
      (fun _ => True) f := by
  unfold prepareSpan
  split
  · obtain ⟨found, hanswer, hfound⟩ := h.inspect hallocated hfor herased
    refine (query_inspectCommitted pending.firstExtent).wp_bind (fun _ => trivial)
      ((query_inspectCommitted pending.firstExtent).eval_eq f) ?_ ?_ fun hread _ => ⟨rfl, hread⟩
    · intro found' hsame
      obtain rfl := Except.ok.inj (hanswer.symm.trans hsame)
      cases found with
      | none => exact wp_action_pure (fun _ => trivial) ⟨rfl, hfound⟩
      | some entry =>
        obtain ⟨rfl, hfull⟩ := hfound entry rfl
        have hrecord := hfor.candidateRecord
        have hreplay : (candidateReplay sha256 candidate).classifyAgainst
            (pendingEntry pending).receipt.fingerprint = .exactReplay := by
          rw [hrecord.1, classifyAgainst_self]
        refine wp_ensure_bind (fun _ => trivial) (fun _ => ?_) fun hconflict => ?_
        · refine wp_ensure_bind (fun _ => trivial) (fun _ => ?_) fun hother => absurd hrecord hother
          exact wp_action_pure (fun _ => trivial) ⟨rfl, hfound⟩
        · rw [hreplay] at hconflict
          exact absurd (by decide) hconflict
    · intro e hfailed
      exact absurd (hfailed.symm.trans hanswer) (by simp)
  · next hnew =>
    obtain rfl := hfresh (by simpa using hnew)
    have hanswer : (spanIsErased (.backend .verification) pending.firstExtent pending.extentCount :
        CommitAction ε Bool).answer f = .ok true := answer_spanIsErased herased
    refine (query_spanIsErased _ _).wp_bind (fun _ => trivial)
      ((query_spanIsErased _ _).eval_eq f) ?_ ?_ fun hread _ => ⟨rfl, hread⟩
    · intro erased hsame
      obtain rfl := Except.ok.inj (hanswer.symm.trans hsame)
      refine wp_ensure_bind (fun _ => trivial) (fun _ => ?_) fun hother => absurd rfl hother
      refine wp_action_pure (fun _ => trivial) ⟨rfl, fun entry hsome => ?_⟩
      cases hsome
    · intro e hfailed
      exact absurd (hfailed.symm.trans hanswer) (by simp)

/-- An attempt completes the record of its candidate unless the backend fails, and stays on the
way to it. -/
theorem wp_attemptTracked (hallocated : Allocated access pending)
    (hfor : IsFor sha256 pending candidate) (herased : SpanErased f₀ pending)
    (h : Tracked ε sha256 access candidate pending f₀ f) (hfresh : resumed = false → f = f₀) :
    wp φ (fun _ => True) (appendRecord sha256 access candidate pending resumed :
        CommitAction ε (IndexEntry × Bool)).run
      (fun r g => Tracked ε sha256 access candidate pending f₀ g ∧ match r with
        | .ok result => result.1 = pendingEntry pending ∧ FullSpan sha256 access g candidate pending
        | .error _ => φ.readError = true ∨ φ.writeError = true)
      (fun _ => True) f := by
  rw [appendRecord]
  apply wp_action_bind
  refine (wp_prepareTracked hallocated hfor herased h hfresh).mono ?_ fun _ _ => trivial
  rintro r g ⟨rfl, hr⟩
  cases r with
  | error e => exact ⟨h, .inl hr⟩
  | ok found =>
    cases found with
    | some entry => exact wp_action_pure (fun _ => trivial) ⟨h, hr entry rfl⟩
    | none =>
      apply wp_action_bind
      refine (wp_writeTracked hallocated hfor herased h).mono ?_ fun _ _ => trivial
      rintro r g ⟨htracked, hr⟩
      cases r with
      | error e => exact ⟨htracked, hr⟩
      | ok entry => exact wp_action_pure (fun _ => trivial) ⟨htracked, hr⟩

end Tracked

section Serving

variable {store store' : MountedLxmfStore} {start : ℕ}

/-- The span behind a mounted store as attempts of its pending mutation left it. -/
structure Resumable (ε : Type) (sha256 : Sha256) (access : BoundLxmfStore) (f : Flash) (start : ℕ)
    (pending : PendingMutation) : Prop where
  allocated : Allocated access pending
  first : pending.firstExtent = start
  writer : ∃ candidate, IsFor sha256 pending candidate
  state : SpanState ε sha256 access f pending
  behind : BlankBehind access f pending

/-- The region behind a mounted store. -/
inductive Open (ε : Type) (sha256 : Sha256) (access : BoundLxmfStore) (f : Flash) (start : ℕ) :
    Option PendingMutation → Prop
  | blank (h : BlankFrom access f start) : Open ε sha256 access f start none
  | pending {pending : PendingMutation} (h : Resumable ε sha256 access f start pending) :
      Open ε sha256 access f start (some pending)

/-- What a mounted store needs to take commits. -/
structure Serving (ε : Type) (sha256 : Sha256) (access : BoundLxmfStore) (f : Flash)
    (store : MountedLxmfStore) : Prop where
  messages : store.entries.Pairwise fun earlier later =>
    earlier.receipt.messageId ≠ later.receipt.messageId
  below : ∀ entry ∈ store.entries, entry.firstExtent + entry.extentCount ≤ store.appendExtent
  behind : Open ε sha256 access f store.appendExtent store.pending

/-- An admitted attempt finds its span behind the index, and a new one finds it erased. -/
theorem Serving.ready (h : Serving ε sha256 access f store)
    (hadmitted : Admitted sha256 access store candidate pending resumed) :
    Resumable ε sha256 access f store.appendExtent pending ∧
      (resumed = false → SpanErased f pending) := by
  have hbehind := h.behind
  cases resumed with
  | true =>
    rw [hadmitted.resumes rfl] at hbehind
    cases hbehind with
    | pending h => exact ⟨h, fun h => Bool.noConfusion h⟩
  | false =>
    obtain ⟨hnone, hfirst, -⟩ := hadmitted.begins rfl
    rw [hnone] at hbehind
    cases hbehind with
    | blank hblank =>
      have hpos := requiredExtents_pos hadmitted.required
      have hremains := hadmitted.remains
      have hrequired := hadmitted.required
      rw [← hadmitted.metadata] at hrequired
      have herased : SpanErased f pending := fun index hindex =>
        hblank (pending.firstExtent + index) (by omega) (by omega)
      exact ⟨⟨⟨validShape_of_write hadmitted.writable, hrequired, hadmitted.fits, by omega⟩, hfirst,
        ⟨candidate, hadmitted.replay, hadmitted.metadata⟩, .unfinished herased.unfinished,
        fun extent hfrom hto => hblank extent (by omega) hto⟩, fun _ => herased⟩

/-- The entry of a completed mutation is indexed last. -/
theorem Admitted.complete_eq (hadmitted : Admitted sha256 access store candidate pending resumed) :
    store.complete pending (pendingEntry pending) =
      { store with
        entries := store.entries ++ [pendingEntry pending]
        appendExtent := max store.appendExtent (pending.firstExtent + pending.extentCount)
        nextHandle := handleAfter pending.handle.get
        pending := none } := by
  refine MountedLxmfStore.complete_eq ?_
  change store.entryForMessage pending.metadata.messageId = none
  rw [hadmitted.metadata]
  exact hadmitted.fresh

/-- A completed mutation serves further commits. -/
theorem Serving.complete (h : Serving ε sha256 access f store)
    (hadmitted : Admitted sha256 access store candidate pending resumed)
    (hfirst : pending.firstExtent = store.appendExtent) (hbehind : BlankBehind access g pending) :
    Serving ε sha256 access g (store.complete pending (pendingEntry pending)) := by
  have hend : max store.appendExtent (pending.firstExtent + pending.extentCount) =
      pending.firstExtent + pending.extentCount := by
    rw [hfirst]
    exact Nat.max_eq_right (Nat.le_add_right _ _)
  rw [hadmitted.complete_eq, hend]
  refine ⟨List.pairwise_append.mpr ⟨h.messages, List.pairwise_singleton _ _, ?_⟩, ?_,
    .blank hbehind⟩
  · intro earlier hearlier later hlater hsame
    rw [List.mem_singleton.mp hlater] at hsame
    change _ = pending.metadata.messageId at hsame
    rw [hadmitted.metadata] at hsame
    exact List.find?_eq_none.mp hadmitted.fresh earlier hearlier (decide_eq_true hsame)
  · intro entry hentry
    rcases List.mem_append.mp hentry with hentry | hentry
    · have hbelow := h.below entry hentry
      change _ ≤ pending.firstExtent + pending.extentCount
      omega
    · rw [List.mem_singleton.mp hentry]
      rfl

/-- What one commit comes to: its answer, the contents and the store afterwards. -/
inductive CommitStep (ε : Type) (sha256 : Sha256) (access : BoundLxmfStore)
    (candidate : InboundMessageCandidate) (f : Flash) (store : MountedLxmfStore) :
    Except (LxmfCommitError ε) LxmfCommitOutcome → Flash → MountedLxmfStore → Prop
  | refused {error : LxmfCommitError ε}
      (h : (admission sha256 access store candidate : Except (LxmfCommitError ε) Admission) =
        .error error) : CommitStep ε sha256 access candidate f store (.error error) f store
  | known {receipt : DurableMessageReceipt}
      (h : (admission sha256 access store candidate : Except (LxmfCommitError ε) Admission) =
        .ok (.alreadyDurable receipt)) :
      CommitStep ε sha256 access candidate f store (.ok (.alreadyDurable receipt)) f store
  | failed {pending : PendingMutation} {resumed : Bool} {error : LxmfCommitError ε} {g : Flash}
      (h : Admitted sha256 access store candidate pending resumed)
      (hspan : Resumable ε sha256 access f store.appendExtent pending)
      (hkept : Kept ε sha256 access f pending g) (hfailure : AppendFailure error) :
      CommitStep ε sha256 access candidate f store (.error error) g
        { store with pending := some pending }
  | completed {pending : PendingMutation} {resumed recovered : Bool} {g : Flash}
      (h : Admitted sha256 access store candidate pending resumed)
      (hspan : Resumable ε sha256 access f store.appendExtent pending)
      (hcompleted : Completed sha256 access f pending candidate
        (pendingEntry pending, recovered) g) :
      CommitStep ε sha256 access candidate f store
        (.ok (if recovered then .alreadyDurable (pendingEntry pending).receipt
          else .committed (pendingEntry pending).receipt)) g
        (store.complete pending (pendingEntry pending))

/-- A commit leaves the store serving. -/
theorem Serving.step (h : Serving ε sha256 access f store) {tr : List Mutation}
    {answer : Except (LxmfCommitError ε) LxmfCommitOutcome}
    (hrun : Prog.Exec φ (LxmfStore.commit (ε := ε) sha256 access store candidate) f tr
      (some (answer, store')) g) :
        CommitStep ε sha256 access candidate f store answer g store' := by
  rw [LxmfStore.commit] at hrun
  cases hadmission : (admission sha256 access store candidate :
      Except (LxmfCommitError ε) Admission) with
  | error error =>
    rw [hadmission] at hrun
    cases hrun
    exact .refused hadmission
  | ok admission =>
    rw [hadmission] at hrun
    cases admission with
    | alreadyDurable receipt =>
      cases hrun
      exact .known hadmission
    | append pending resumed =>
      have hadmitted := admitted hadmission
      obtain ⟨hspan, herased⟩ := h.ready hadmitted
      have hattempt := wp_attempt (ε := ε) (φ := φ) hspan.allocated
        ⟨hadmitted.replay, hadmitted.metadata⟩ hspan.state herased
      dsimp only at hrun
      obtain ⟨hnone, -⟩ | ⟨result, f', tr₁, tr₂, -, hfirst, hrest⟩ := hrun.bind_cases
      · cases hnone
      · have hresult := hattempt.returns hfirst
        cases result with
        | error error =>
          cases hrest
          exact .failed hadmitted hspan hresult (appendRecord_failsWith _ _ hfirst)
        | ok result =>
          have hcompleted : Completed sha256 access f pending candidate result f' := hresult
          obtain ⟨entry, recovered⟩ := result
          obtain rfl : entry = pendingEntry pending := hcompleted.entry_eq
          cases hrest
          exact .completed hadmitted hspan hcompleted

/-- A commit leaves a store that takes further commits, whatever the backend reports. -/
theorem Serving.commit (h : Serving ε sha256 access f store) {tr : List Mutation}
    {answer : Except (LxmfCommitError ε) LxmfCommitOutcome}
    (hrun : Prog.Exec φ (LxmfStore.commit (ε := ε) sha256 access store candidate) f tr
      (some (answer, store')) g) : Serving ε sha256 access g store' := by
  cases h.step hrun with
  | refused => exact h
  | known => exact h
  | failed hadmitted hspan hkept =>
    exact ⟨h.messages, h.below, .pending ⟨hspan.allocated, hspan.first, hspan.writer, hkept.2,
      hspan.behind.of_outside hkept.1⟩⟩
  | completed hadmitted hspan hcompleted =>
    exact h.complete hadmitted hspan.first (hspan.behind.of_outside hcompleted.outside)

variable (ε φ) in
/-- A mounted store with the contents of its region: after a mount of any contents whatever, and
after commits of any candidates, whatever the backend reports. -/
inductive Live (sha256 : Sha256) (access : BoundLxmfStore) : Flash → MountedLxmfStore → Prop
  | mounted {f : Flash} {capacity : ℕ} {store : MountedLxmfStore}
      (h : (mount sha256 access capacity : MountAction ε _).answer f = .ok store) :
      Live sha256 access f store
  | committed {f g : Flash} {store store' : MountedLxmfStore} {candidate : InboundMessageCandidate}
      {tr : List Mutation} {answer : Except (LxmfCommitError ε) LxmfCommitOutcome}
      (h : Live sha256 access f store)
      (hrun : Prog.Exec φ (LxmfStore.commit sha256 access store candidate) f tr
        (some (answer, store')) g) : Live sha256 access g store'

/-- A live store is serving. -/
theorem Live.serving (h : Live ε φ sha256 access f store) : Serving ε sha256 access f store := by
  induction h with
  | mounted h =>
    obtain ⟨hmounted, hpending⟩ := safelyMounted h
    refine ⟨hmounted.messages, hmounted.below, ?_⟩
    rw [hpending]
    exact .blank hmounted.blank
  | committed _ hrun ih => exact ih.commit hrun

end Serving

section Retry

variable {store store' : MountedLxmfStore}

variable (ε φ) in
/-- One more attempt of a candidate, whatever the backend reports. -/
def AttemptStep (sha256 : Sha256) (access : BoundLxmfStore) (candidate : InboundMessageCandidate)
    (before after : Flash × MountedLxmfStore) : Prop :=
  ∃ tr answer, Prog.Exec φ (commit (ε := ε) sha256 access before.2 candidate) before.1 tr
    (some (answer, after.2)) after.1

/-- Where attempts of one candidate have come to. -/
inductive Retried (ε : Type) (sha256 : Sha256) (access : BoundLxmfStore)
    (candidate : InboundMessageCandidate) (pending : PendingMutation) (f₀ : Flash)
    (store : MountedLxmfStore) : Flash × MountedLxmfStore → Prop
  | fresh : Retried ε sha256 access candidate pending f₀ store (f₀, store)
  | pending {g : Flash} (h : Tracked ε sha256 access candidate pending f₀ g) :
      Retried ε sha256 access candidate pending f₀ store
        (g, { store with pending := some pending })
  | done {g : Flash} (h : FullSpan sha256 access g candidate pending)
      (houtside : Outside f₀ g pending) :
      Retried ε sha256 access candidate pending f₀ store
        (g, store.complete pending (pendingEntry pending))

/-- The checks let the mutation of an earlier attempt through again. -/
theorem Admitted.resume (hadmitted : Admitted sha256 access store candidate pending resumed) :
    (admission sha256 access { store with pending := some pending } candidate :
      Except (LxmfCommitError ε) Admission) = .ok (.append pending true) := by
  have hconflict : conflictingPending sha256 { store with pending := some pending } candidate =
      none := by
    refine Option.filter_eq_none_iff.mpr fun old hold => ?_
    obtain rfl := Option.some.inj hold
    simp [hadmitted.replay, hadmitted.metadata]
  have hrequired := hadmitted.required
  rw [← candidate.length_eq] at hrequired
  have hremains := hadmitted.remains
  have hfits := hadmitted.fits
  have hfull : ¬(access.binding.length / extentSize - store.appendExtent < pending.extentCount ∨
      2 ^ 16 ≤ pending.extentCount) := by
    rw [not_or, not_lt, not_le]
    exact ⟨hremains, hfits⟩
  unfold admission
  rw [@checks_ok access { store with pending := some pending } hadmitted.writable hadmitted.same]
  dsimp only
  rw [show MountedLxmfStore.entryForMessage { store with pending := some pending }
    candidate.metadata.messageId = none from hadmitted.fresh, hconflict]
  dsimp only
  rw [if_neg hadmitted.room, allocate]
  dsimp only
  rw [hrequired]
  dsimp only
  rw [if_neg hfull, if_neg (not_not.mpr rfl), ← hadmitted.replay, ← hadmitted.metadata]

/-- The checks answer with the entry once it is indexed. -/
theorem Admitted.durable (hadmitted : Admitted sha256 access store candidate pending resumed) :
    (admission sha256 access (store.complete pending (pendingEntry pending)) candidate :
      Except (LxmfCommitError ε) Admission) =
        .ok (.alreadyDurable (pendingEntry pending).receipt) := by
  have hfor : IsFor sha256 pending candidate := ⟨hadmitted.replay, hadmitted.metadata⟩
  rw [hadmitted.complete_eq]
  refine @admission_of_durable ε sha256 access { store with
    entries := store.entries ++ [pendingEntry pending]
    appendExtent := max store.appendExtent (pending.firstExtent + pending.extentCount)
    nextHandle := handleAfter pending.handle.get
    pending := none } candidate hadmitted.writable hadmitted.same _ ?_ hfor.candidateRecord.1
  have hid : (pendingEntry pending).receipt.messageId = candidate.metadata.messageId := by
    change pending.metadata.messageId = _
    rw [hadmitted.metadata]
  have hfresh := hadmitted.fresh
  rw [MountedLxmfStore.entryForMessage] at hfresh ⊢
  rw [List.find?_append, hfresh, Option.none_or]
  exact List.find?_cons_of_pos (decide_eq_true hid)

/-- What an attempt answers and leaves, from wherever the attempts before it have come to. -/
structure Attempted (ε : Type) (φ : Faults) (sha256 : Sha256) (access : BoundLxmfStore)
    (candidate : InboundMessageCandidate) (pending : PendingMutation) (f₀ : Flash)
    (store : MountedLxmfStore) (answer : Except (LxmfCommitError ε) LxmfCommitOutcome)
    (after : Flash × MountedLxmfStore) : Prop where
  retried : Retried ε sha256 access candidate pending f₀ store after
  answered : match answer with
    | .ok outcome => after.2 = store.complete pending (pendingEntry pending) ∧
        FullSpan sha256 access after.1 candidate pending ∧ Outside f₀ after.1 pending ∧
        (outcome = .committed (pendingEntry pending).receipt ∨
          outcome = .alreadyDurable (pendingEntry pending).receipt)
    | .error _ => φ.readError = true ∨ φ.writeError = true

/-- An admitted attempt goes on from contents on the way. -/
theorem attempted_of_tracked (hallocated : Allocated access pending)
    (hadmitted : Admitted sha256 access store candidate pending false)
    (herased : SpanErased f₀ pending) {before : MountedLxmfStore}
    (hbefore : before = store ∧ resumed = false ∧ f = f₀ ∨
      before = { store with pending := some pending } ∧ resumed = true)
    (hadmission : (admission sha256 access before candidate :
      Except (LxmfCommitError ε) Admission) = .ok (.append pending resumed))
    (htracked : Tracked ε sha256 access candidate pending f₀ f) {tr : List Mutation}
    {answer : Except (LxmfCommitError ε) LxmfCommitOutcome}
    (hrun : Prog.Exec φ (commit (ε := ε) sha256 access before candidate) f tr
      (some (answer, store')) g) :
    Attempted ε φ sha256 access candidate pending f₀ store answer (g, store') := by
  have hfor : IsFor sha256 pending candidate := ⟨hadmitted.replay, hadmitted.metadata⟩
  have hpending : { before with pending := some pending } =
      { store with pending := some pending } := by
    obtain ⟨rfl, -⟩ | ⟨rfl, -⟩ := hbefore
    · rfl
    · rfl
  have hcomplete : before.complete pending (pendingEntry pending) =
      store.complete pending (pendingEntry pending) := by
    rw [MountedLxmfStore.complete, MountedLxmfStore.complete, hpending]
  have hfresh : resumed = false → f = f₀ := by
    intro hnew
    obtain ⟨-, -, hsame⟩ | ⟨-, hresumed⟩ := hbefore
    · exact hsame
    · exact Bool.noConfusion (hnew.symm.trans hresumed)
  have hattempt := wp_attemptTracked (φ := φ) hallocated hfor herased htracked hfresh
  rw [commit, hadmission] at hrun
  dsimp only at hrun
  obtain ⟨hnone, -⟩ | ⟨result, f', tr₁, tr₂, -, hfirst, hrest⟩ := hrun.bind_cases
  · cases hnone
  · obtain ⟨htracked', hresult⟩ := hattempt.returns hfirst
    cases result with
    | error error =>
      cases hrest
      rw [hpending]
      exact ⟨.pending htracked', hresult⟩
    | ok result =>
      obtain ⟨entry, recovered⟩ := result
      obtain ⟨rfl, hfull⟩ : entry = pendingEntry pending ∧ _ := hresult
      cases hrest
      rw [hcomplete]
      have houtside := htracked'.outside hallocated hfor
      refine ⟨.done hfull houtside, rfl, hfull, houtside, ?_⟩
      cases recovered
      · exact .inl rfl
      · exact .inr rfl

/-- An attempt goes on from wherever the attempts before it have come to, and fails only when the
backend does. -/
theorem Retried.attempt (hallocated : Allocated access pending)
    (hadmission : (admission sha256 access store candidate : Except (LxmfCommitError ε) Admission) =
      .ok (.append pending false)) (herased : SpanErased f₀ pending)
    {before after : Flash × MountedLxmfStore}
    (h : Retried ε sha256 access candidate pending f₀ store before) {tr : List Mutation}
    {answer : Except (LxmfCommitError ε) LxmfCommitOutcome}
    (hrun : Prog.Exec φ (commit (ε := ε) sha256 access before.2 candidate) before.1 tr
      (some (answer, after.2)) after.1) :
    Attempted ε φ sha256 access candidate pending f₀ store answer after := by
  have hadmitted := admitted hadmission
  cases h with
  | fresh =>
    exact attempted_of_tracked hallocated hadmitted herased (.inl ⟨rfl, rfl, rfl⟩) hadmission
      (.start _ _) hrun
  | pending htracked =>
    exact attempted_of_tracked hallocated hadmitted herased (.inr ⟨rfl, rfl⟩) hadmitted.resume
      htracked hrun
  | done hfull houtside =>
    rw [commit, hadmitted.durable] at hrun
    obtain ⟨g, final⟩ := after
    cases hrun
    exact ⟨.done hfull houtside, rfl, hfull, houtside, .inr rfl⟩

/-- Attempts of a candidate that was admitted to a live store without a pending mutation: however
the backend failed in them, one more attempt on a backend that does not fail succeeds. The index
then has the entries of the store and last the one entry of the candidate, under the handle that
the first attempt reserved; its wire stands in its span, the extents of the other entries are
those before the first attempt, and nothing is pending. -/
theorem retry_completes (hlive : Live ε φ sha256 access f store) (hpending : store.pending = none)
    (hadmission : (admission sha256 access store candidate : Except (LxmfCommitError ε) Admission) =
      .ok (.append pending resumed)) {before : Flash × MountedLxmfStore}
    (hattempts : Relation.ReflTransGen (AttemptStep ε φ sha256 access candidate)
      (f, store) before) :
    pending.handle.get = store.nextHandle ∧ pending.firstExtent = store.appendExtent ∧
      (∀ entry ∈ store.entries, entry.receipt.messageId ≠ candidate.metadata.messageId) ∧
      ∃ outcome final g, (commit (ε := ε) sha256 access before.2 candidate).run before.1 =
          ((.ok outcome, final), g) ∧
        (outcome = .committed ⟨pending.handle, candidateReplay sha256 candidate⟩ ∨
          outcome = .alreadyDurable ⟨pending.handle, candidateReplay sha256 candidate⟩) ∧
        final.entries = store.entries ++ [committedEntry sha256 candidate pending.handle
          pending.firstExtent pending.extentCount] ∧
        final.pending = none ∧ WireAt g pending.firstExtent pending.extentCount candidate.bytes ∧
        ∀ entry ∈ store.entries, f.Agree g (extentOffset entry.firstExtent)
          (extentOffset (entry.firstExtent + entry.extentCount)) := by
  have hadmitted := admitted hadmission
  obtain rfl : resumed = false := by
    cases resumed with
    | false => rfl
    | true => exact absurd (hpending.symm.trans (hadmitted.resumes rfl)) (by simp)
  have hserving := hlive.serving
  obtain ⟨hspan, herased⟩ := hserving.ready hadmitted
  have hfor : IsFor sha256 pending candidate := ⟨hadmitted.replay, hadmitted.metadata⟩
  obtain ⟨-, hfirst, hhandle⟩ := hadmitted.begins rfl
  -- the attempts stay on the way to the record
  have hretried : Retried ε sha256 access candidate pending f store before := by
    induction hattempts with
    | refl => exact .fresh
    | tail _ hstep ih =>
      obtain ⟨tr, answer, hrun⟩ := hstep
      exact (ih.attempt hspan.allocated hadmission (herased rfl) hrun).retried
  obtain ⟨tr, hrun⟩ := Prog.exec_run Faults.none
    (commit (ε := ε) sha256 access before.2 candidate) before.1
  generalize hresult : (commit (ε := ε) sha256 access before.2 candidate).run before.1 = result
    at hrun
  obtain ⟨⟨answer, final⟩, g⟩ := result
  have hattempted : Attempted ε Faults.none sha256 access candidate pending f store answer
      (g, final) := hretried.attempt hspan.allocated hadmission (herased rfl) hrun
  refine ⟨hhandle, hfirst, fun entry hentry hsame => ?_, ?_⟩
  · exact List.find?_eq_none.mp hadmitted.fresh entry hentry (decide_eq_true hsame)
  cases answer with
  | error e => exact absurd hattempted.answered (by simp [Faults.none])
  | ok outcome =>
    obtain ⟨hfinal, hfull, houtside, houtcome⟩ := hattempted.answered
    obtain rfl : final = store.complete pending (pendingEntry pending) := hfinal
    have hreceipt : (pendingEntry pending).receipt =
        ⟨pending.handle, candidateReplay sha256 candidate⟩ := by
      rw [pendingEntry_eq hfor, committedEntry]
    rw [hreceipt] at houtcome
    refine ⟨outcome, _, g, rfl, houtcome, ?_, ?_, ?_⟩
    · rw [hadmitted.complete_eq, ← pendingEntry_eq hfor]
    · rw [hadmitted.complete_eq]
    · refine ⟨hfull.wireAt hspan.allocated hfor, fun entry hentry a hstart hend => ?_⟩
      have hbelow := hserving.below entry hentry
      refine (houtside a (.inl (hend.trans_le ?_))).symm
      rw [hfirst]
      exact Nat.mul_le_mul_right _ hbelow

/-- A mount of an erased partition of two extents. -/
theorem mount_twoExtents (sha256 : Sha256) :
    (mount sha256 twoExtents 4 : MountAction ε MountedLxmfStore).answer Flash.erased =
      .ok (emptyStore twoExtents) :=
  mount_erased rfl fun _ _ _ _ _ => rfl

/-- An attempt of a message of 112 bytes whose first read fails. -/
theorem failed_attempt_sample (sha256 : Sha256) :
    AttemptStep Unit Faults.all sha256 twoExtents sampleCandidate
      (Flash.erased, emptyStore twoExtents)
      (Flash.erased, { emptyStore twoExtents with pending := some (samplePending sha256) }) := by
  refine ⟨[], .error (.backend .verification ()), ?_⟩
  rw [commit, admission_sample]
  exact .readError rfl () (.done _ _)

/-- After an attempt that failed, the attempt of a message of 112 bytes succeeds. -/
theorem retry_completes_sample :
    ∃ outcome final g, (commit (ε := Unit) Nor.sha256 twoExtents { emptyStore twoExtents with
        pending := some (samplePending Nor.sha256) } sampleCandidate).run Flash.erased =
          ((.ok outcome, final), g) ∧
      final.entries = [committedEntry Nor.sha256 sampleCandidate
        (samplePending Nor.sha256).handle 0 1] ∧ final.pending = none := by
  obtain ⟨-, -, -, outcome, final, g, hrun, -, hentries, hpending, -⟩ := retry_completes
    (φ := Faults.all) (.mounted (mount_twoExtents Nor.sha256)) rfl (admission_sample Nor.sha256)
    (.single (failed_attempt_sample Nor.sha256))
  exact ⟨outcome, final, g, hrun, hentries, hpending⟩

end Retry

end LxmfStore
