import ReticulumFirmware.Chat.Reopen

/-!
# Which runs reopen

The image of a store reopens as the store exactly as long as no acceptance reuses a submission
that a trace event is already correlated by.
-/

namespace Chat

open MemoryChatStore

/-- The store reopens from its image, its indexes are those of its rows, no two messages share
a place, the counters are past what is in use, and its correlations are valid. -/
structure Reopens (store : MemoryChatStore) : Prop where
  reopened : openImage store.image = .ok store
  indexes : IndexesSound store
  places : ∀ sequence owner owner', Holds store sequence owner → Holds store sequence owner' →
    owner = owner'
  outboxIds : ∀ id row, store.outbox.get? id = some row →
    id.get.toNat < store.nextOutboxId.toNat
  sequences : ∀ sequence owner, Holds store sequence owner →
    sequence.get.toNat < store.nextSequence.toNat
  activityIds : ∀ event ∈ store.activity, event.id.get.toNat < store.nextActivityId.toNat
  rfTraceIds : ∀ id event, store.rfTraceEvents.get? id = some event →
    id.get.toNat < store.nextRfTraceId.toNat
  correlations : store.validPersistedRfTraceCorrelations = true

/-- A store whose correlations are sound is opened from its image. -/
theorem CorrelationsSound.reopens {store : MemoryChatStore} (h : CorrelationsSound store)
    (hsound : StoreSound store) : Reopens store where
  reopened := hsound.openImage (h.valid hsound)
  indexes := hsound.indexes
  places := hsound.places.single
  outboxIds id row hrow := (hsound.rows id row hrow).counted
  sequences := hsound.places.passed
  activityIds := hsound.log.counted
  rfTraceIds id event hevent := (hsound.traces.tables.filed id event hevent).2
  correlations := h.valid hsound

/-- An acceptance that nothing stands against is recorded. -/
theorem recordAcceptance_recorded {store : MemoryChatStore} (now : Option UInt64)
    {outboxId : OutboxId} {acceptance : AcceptanceIds} {record : OutboxRecord}
    (hrow : store.outbox.get? outboxId = some record) (hnone : record.acceptance = none)
    (hfree : store.acceptanceBoundElsewhere outboxId acceptance = false)
    (hreserve : store.reserveActivityId ≠ none) :
    ∃ id, Logged store (acceptedEvent now id outboxId record acceptance)
        (store.recordAcceptance now outboxId acceptance).2.activity
        (store.recordAcceptance now outboxId acceptance).2.nextActivityId ∧
      (store.recordAcceptance now outboxId acceptance).2.rfTraceEvents = store.rfTraceEvents := by
  obtain ⟨⟨id, next⟩, hsome⟩ := Option.ne_none_iff_exists'.mp hreserve
  obtain ⟨hid, hnext⟩ := reserveActivityId_some hsome
  let accepted : MemoryChatStore := { store with
    outbox := store.outbox.insert outboxId
      { record with acceptance := some acceptance, status := .accepted }
    submissionIndex := store.submissionIndex.insert acceptance.submissionId outboxId
    acceptedMessageIndex := store.acceptedMessageIndex.insert acceptance.messageId outboxId }
  have hlater : (store.recordAcceptance now outboxId acceptance).2 =
      accepted.appendActivity (acceptedEvent now id outboxId record acceptance) next := by
    unfold recordAcceptance
    simp only [hrow, hnone, hfree, hsome]
    rfl
  obtain ⟨activity, incomplete, hlog, hlogged⟩ := appendActivity_eq accepted
    (acceptedEvent now id outboxId record acceptance) next hid hnext
  rw [hlater, hlog]
  exact ⟨id, ⟨hlogged.kept, hid, hnext⟩, rfl⟩

/-- After a submission was reused the correlations are not valid. -/
theorem Reuses.invalid {store : MemoryChatStore} {call : Call} (h : Reuses store call)
    (hsound : StoreSound store) (hcorrelations : CorrelationsSound store) :
    (call.apply store).2.validPersistedRfTraceCorrelations ≠ true := by
  intro hvalid
  cases call with
  | recordAcceptance now outboxId acceptance =>
    obtain ⟨record, hrow, hnone, hfree, hreserve, ⟨location, hbegins⟩, event, correlation, hevent,
      hsubmission, hcorrelation⟩ := h
    obtain ⟨id, hlogged, hevents⟩ := recordAcceptance_recorded now hrow hnone hfree hreserve
    have hcandidate : Candidate (store.recordAcceptance now outboxId acceptance).2.activity
        acceptance.submissionId ⟨record.sequence, outboxId, record.currentAttempt, location⟩ := by
      refine ⟨⟨acceptedEvent now id outboxId record acceptance, ?_, acceptance, rfl, rfl, rfl, rfl,
        rfl⟩, (begins_kept hlogged rfl).mpr hbegins⟩
      rw [hlogged.activity_eq]
      simp
    have hretains : Retains (store.recordAcceptance now outboxId acceptance).2 event := by
      rw [Retains, hevents]
      exact hevent
    have hsame := settled_of_valid hvalid hretains hsubmission hcorrelation hcandidate
    -- the correlation was made for an attempt that had its acceptance
    obtain ⟨token, htoken⟩ : ∃ token, event.observation.rnsAttemptToken = some token := by
      rw [← Option.ne_none_iff_exists']
      intro htoken
      rw [hsound.traces.tokened event hevent htoken] at hcorrelation
      cases hcorrelation
    obtain ⟨row, hrow', hspent⟩ :=
      hcorrelations.spent token correlation ⟨event, hevent, htoken, hcorrelation⟩
    rw [← hsame] at hrow' hspent
    rw [hrow] at hrow'
    cases hrow'
    rcases hspent with hlt | ⟨-, haccepted⟩
    · exact lt_irrefl _ hlt
    · exact haccepted hnone
  | _ => exact h

/-- The images of all stores of a run reopen as the stores, with consistent indexes and
counters, exactly if no call of the run reuses a submission. -/
theorem run_reopens_iff (calls : List Call) :
    (∀ n, Reopens (new.after (calls.take n))) ↔ NeverReuses new calls := by
  suffices hrun : ∀ store, StoreSound store → CorrelationsSound store →
      ((∀ n, Reopens (store.after (calls.take n))) ↔ NeverReuses store calls) from
    hrun new storeSound_new correlationsSound_new
  induction calls with
  | nil =>
    intro store hsound hcorrelations
    simp only [List.take_nil, after_nil, NeverReuses, iff_true]
    exact fun _ => hcorrelations.reopens hsound
  | cons call calls ih =>
    intro store hsound hcorrelations
    have hchange := call.change store
    have hlater := hsound.change hchange
    constructor
    · intro hreopens
      have hreuse : ¬ Reuses store call := by
        intro hreuse
        exact hreuse.invalid hsound hcorrelations (hreopens 1).correlations
      refine ⟨hreuse, (ih _ hlater (hcorrelations.change hsound hchange hreuse)).mp ?_⟩
      intro n
      exact hreopens (n + 1)
    · rintro ⟨hreuse, hrest⟩ n
      cases n with
      | zero => exact hcorrelations.reopens hsound
      | succ n =>
        exact (ih _ hlater (hcorrelations.change hsound hchange hreuse)).mpr hrest n

/-- A run that retries a failed message and is given the submission of the first attempt again. -/
def reusedSubmission : List Call :=
  let outboxId : OutboxId := ⟨1, outboxId_ne_zero⟩
  [.commitOutbound none
      ⟨Vector.replicate 16 1, firstMillisecond, Vector.replicate 16 0, [], [1], none⟩
      .notObserved,
    .recordAcceptance none outboxId sampleAcceptance,
    .projectSubmissionStatus none sampleAcceptance.submissionId (.failed .noPath),
    .importRfTraceBatch (samplePage [sampleRoute ⟨1, outboxId_ne_zero⟩ 1]
      (Nat.le_of_succ_le two_le_maxRfTracePageSize) (.singleton _)),
    .retryOutbox none outboxId (Vector.replicate 16 1) .notObserved,
    .recordAcceptance none outboxId sampleAcceptance]

/-- The store after that run does not reopen. -/
theorem reusedSubmission_not_reopened :
    (∀ store, openImage (new.after reusedSubmission).image ≠ .ok store) ∧
      ¬ Reopens (new.after reusedSubmission) := by
  have hfails : (openImage (new.after reusedSubmission).image).toBool = false := by
    decide +kernel
  have hnever : ∀ store, openImage (new.after reusedSubmission).image ≠ .ok store := by
    intro store hopened
    rw [hopened] at hfails
    cases hfails
  exact ⟨hnever, fun h => hnever _ h.reopened⟩

end Chat
