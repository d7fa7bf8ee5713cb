import ReticulumFirmware.Chat.ActivityLog

/-!
# Submissions that are used again

A retry releases the submission of its row, so a later attempt can be accepted under it again.
Then a trace event that is already correlated by that submission contradicts the log. As long
as no acceptance does this, the correlations of a store agree with its rows and its log.
-/

namespace Chat

open MemoryChatStore

/-- The retained correlations agree with the rows and the log. -/
structure CorrelationsSound (store : MemoryChatStore) : Prop where
  shown : ∀ token correlation, Carries store token correlation →
    Shows store correlation.outboxId correlation.timelineSequence correlation.attemptNumber
  spent : ∀ token correlation, Carries store token correlation →
    Spent store correlation.outboxId correlation.attemptNumber
  /-- A submission of a correlated event resolves to nothing else. -/
  settled : ∀ event submissionId correlation candidate, Retains store event →
    event.observation.submissionId = some submissionId → event.correlation = some correlation →
    Candidate store.activity submissionId candidate → candidate = correlation

/-- An attempt that the log shows is one of a row. -/
theorem LogSound.candidate {store : MemoryChatStore} (h : LogSound store)
    {submissionId : SubmissionId} {correlation : RfTraceMessageCorrelation}
    (hcandidate : Candidate store.activity submissionId correlation) :
    Shows store correlation.outboxId correlation.timelineSequence correlation.attemptNumber ∧
      Spent store correlation.outboxId correlation.attemptNumber := by
  obtain ⟨⟨event, hmem, acceptance, hkind, -, hsequence, hid, hattempt⟩, -⟩ := hcandidate
  obtain ⟨attempt, hattempt', hshows⟩ := h.shown event hmem _ hid
  obtain ⟨id, attempt', hid', hattempt'', hspent⟩ := h.spent event hmem acceptance hkind
  rw [hattempt] at hattempt' hattempt''
  rw [hid] at hid'
  cases hattempt'
  cases hattempt''
  cases hid'
  exact ⟨hsequence ▸ hshows, hspent⟩

/-- A logged event adds an attempt to what a submission resolves to only if it accepts it. -/
theorem LogStep.candidate {store later : MemoryChatStore} {event : MessageActivityEvent}
    (hstep : LogStep store later event) (hlog : LogSound store) {submissionId : SubmissionId}
    {correlation : RfTraceMessageCorrelation}
    (h : Candidate later.activity submissionId correlation) :
    Candidate store.activity submissionId correlation ∨ ∃ acceptance,
      event.kind = .outboundAccepted acceptance ∧ acceptance.submissionId = submissionId ∧
      event.outboxId = some correlation.outboxId ∧
      event.attemptNumber = some correlation.attemptNumber := by
  obtain ⟨⟨event', hmem, acceptance, hkind, hsubmission, hsequence, hid, hattempt⟩, hbegins⟩ := h
  rcases hstep.logged.mem hmem with hold | rfl
  · rcases hstep.logged.begins hbegins with hbegins' | ⟨hid', hattempt', hlocation⟩
    · exact Or.inl ⟨⟨event', hold, acceptance, hkind, hsubmission, hsequence, hid, hattempt⟩,
        hbegins'⟩
    · obtain ⟨attempt, hsame, hshows⟩ := hlog.shown event' hold _ hid
      rw [hattempt] at hsame
      cases hsame
      exact absurd hshows (hstep.loggable.begun _ _ _ (by simp [hlocation]) hid' hattempt')
  · exact Or.inr ⟨acceptance, hkind, hsubmission, hid, hattempt⟩

/-- The events of the log that stay when one is added. -/
def MemoryChatStore.keptActivity (store : MemoryChatStore) : List MessageActivityEvent :=
  store.activity.drop (store.activity.length + 1 - maxMessageActivityEvents)

/-- The call records an acceptance under a submission that already correlates a trace event,
and the log still shows how the accepted attempt began. -/
def Reuses (store : MemoryChatStore) : Call → Prop
  | .recordAcceptance _ outboxId acceptance =>
    ∃ record, store.outbox.get? outboxId = some record ∧ record.acceptance = none ∧
      store.acceptanceBoundElsewhere outboxId acceptance = false ∧
      store.reserveActivityId ≠ none ∧
      (∃ location, Begins store.keptActivity outboxId record.currentAttempt location) ∧
      ∃ event correlation, Retains store event ∧
        event.observation.submissionId = some acceptance.submissionId ∧
        event.correlation = some correlation
  | _ => False

/-- No call of a run reuses a submission. -/
def NeverReuses (store : MemoryChatStore) : List Call → Prop
  | [] => True
  | call :: calls => ¬ Reuses store call ∧ NeverReuses (call.apply store).2 calls

/-- An event is logged only while there are identifiers. -/
theorem MemoryChatStore.Logged.reserve {store : MemoryChatStore} {event : MessageActivityEvent}
    {activity : List MessageActivityEvent} {next : UInt64}
    (h : Logged store event activity next) : store.reserveActivityId ≠ none := by
  have hlt := next.toNat_lt
  have hmax : store.nextActivityId ≠ 0xffffffffffffffff := by
    intro heq
    have hcounted := h.counted
    rw [heq] at hcounted
    simp only [UInt64.reduceToNat] at hcounted
    omega
  have hpos : store.nextActivityId ≠ 0 := by
    rw [← h.numbered]
    exact event.id.ne_zero
  unfold reserveActivityId checkedAddOne NonZeroU64.new
  rw [if_neg hmax, dif_neg hpos]
  exact Option.some_ne_none _

/-- The log after an event. -/
theorem MemoryChatStore.Logged.activity_eq {store : MemoryChatStore} {event : MessageActivityEvent}
    {activity : List MessageActivityEvent} {next : UInt64}
    (h : Logged store event activity next) : activity = store.keptActivity ++ [event] := by
  rw [h.kept, keptActivity, List.drop_append_of_le_length]
  unfold maxMessageActivityEvents
  omega

/-- A begin among the events that stay. -/
theorem begins_kept {store : MemoryChatStore} {event : MessageActivityEvent}
    {activity : List MessageActivityEvent} {next : UInt64}
    (h : Logged store event activity next) (hunlocated : event.attemptLocation = none)
    {id : OutboxId} {attempt : MessageAttemptNumber} {location : AttemptLocationStamp} :
    Begins activity id attempt location ↔ Begins store.keptActivity id attempt location := by
  unfold Begins
  simp only [h.activity_eq, List.mem_append, List.mem_singleton, or_and_right, exists_or,
  exists_eq_left,
    hunlocated, reduceCtorEq, and_false, or_false]

/-- A change to the traces is an import. -/
theorem Change.traces_cases {store later : MemoryChatStore} {call : Call}
    (h : Change store call later) : later.rfTraceEvents = store.rfTraceEvents ∨
      ∃ batch staged, store.importRfTraceBatchInner batch = .ok staged ∧
        later = staged.store := by
  cases h with
  | nothing | contact | retained | inbound | outbound | rearmed | accepted | projected =>
    exact Or.inl rfl
  | imported himport => exact Or.inr ⟨_, _, himport, rfl⟩

/-- Correlations stay sound when traces and log stay. -/
theorem CorrelationsSound.same {store later : MemoryChatStore} (h : CorrelationsSound store)
    (hevents : later.rfTraceEvents = store.rfTraceEvents) (hgrow : RowsGrow store later)
    (hcandidate : ∀ event submissionId correlation candidate, Retains store event →
      event.observation.submissionId = some submissionId → event.correlation = some correlation →
      Candidate later.activity submissionId candidate →
      Candidate store.activity submissionId candidate) : CorrelationsSound later := by
  have hretains : ∀ event, Retains later event ↔ Retains store event := by
    intro event
    rw [Retains, hevents, Retains]
  have hcarries : ∀ token correlation, Carries later token correlation →
      Carries store token correlation := by
    rintro token correlation ⟨event, hevent, htoken⟩
    exact ⟨event, (hretains event).mp hevent, htoken⟩
  refine ⟨?_, ?_, ?_⟩
  · exact fun token correlation hc =>
      hgrow.shows _ _ _ (h.shown token correlation (hcarries _ _ hc))
  · exact fun token correlation hc => hgrow.spent _ _ (h.spent token correlation (hcarries _ _ hc))
  · intro event submissionId correlation candidate hevent hsubmission hcorrelation hc
    rw [hretains] at hevent
    exact h.settled event submissionId correlation candidate hevent hsubmission hcorrelation
      (hcandidate event submissionId correlation candidate hevent hsubmission hcorrelation hc)

/-- An import keeps correlations sound. -/
theorem CorrelationsSound.imported {store : MemoryChatStore} {batch : RfTraceImportBatch}
    {staged : ImportState} (h : CorrelationsSound store) (htraces : TracesSound store)
    (hlog : LogSound store) (himport : store.importRfTraceBatchInner batch = .ok staged) :
    CorrelationsSound staged.store := by
  have hactivity := activity_imported himport
  have hgrow : RowsGrow store staged.store :=
    .same (congrArg MemoryChatStore.outbox (withoutTraces_imported himport) :)
  have hlater := htraces.imported himport
  -- a correlation is an old one or what a submission resolves to
  have hcarries : ∀ token correlation, Carries staged.store token correlation →
      Shows store correlation.outboxId correlation.timelineSequence correlation.attemptNumber ∧
        Spent store correlation.outboxId correlation.attemptNumber := by
    intro token correlation hc
    rcases (carries_imported htraces.tables himport token correlation).mp hc with
      hold | ⟨event, -, -, submissionId, -, hresolved⟩
    · exact ⟨h.shown token correlation hold, h.spent token correlation hold⟩
    · rw [hactivity] at hresolved
      exact hlog.candidate ((rfTraceCorrelation_ok hresolved correlation).mp rfl)
  refine ⟨?_, ?_, ?_⟩
  · exact fun token correlation hc => hgrow.shows _ _ _ (hcarries token correlation hc).1
  · exact fun token correlation hc => hgrow.spent _ _ (hcarries token correlation hc).2
  · intro event submissionId correlation candidate hevent hsubmission hcorrelation hcandidate
    rw [hactivity] at hcandidate
    cases htoken : event.observation.rnsAttemptToken with
    | none =>
      rw [hlater.tokened event hevent htoken] at hcorrelation
      cases hcorrelation
    | some token =>
      obtain ⟨tokens, htokens, himported⟩ := imported_tables htraces.tables himport
      have hconsiders := (himported.considers_iff _).mpr ⟨event, hevent, rfl⟩
      obtain ⟨result, hresult⟩ :=
        resolved_of_tokenCorrelations htokens hconsiders hsubmission htoken
      have hsome := (rfTraceCorrelation_ok hresult candidate).mpr hcandidate
      rw [hsome] at hresult
      have hcarried : event.correlation = some candidate :=
        (correlation_closure htraces.tables himport hevent htoken candidate).mpr
          (Or.inr ⟨event, hevent, htoken, submissionId, hsubmission, hactivity ▸ hresult⟩)
      rw [hcorrelation] at hcarried
      exact (Option.some.inj hcarried).symm

/-- Everything that holds of a store. -/
structure StoreSound (store : MemoryChatStore) : Prop where
  rows : RowsSound store
  places : PlacesSound store
  indexes : IndexesSound store
  log : LogSound store
  traces : TracesSound store
  counters : CountersSound store

/-- The new store is sound. -/
theorem storeSound_new : StoreSound new :=
  ⟨rowsSound_new, placesSound_new, indexesSound_new, logSound_new, tracesSound_new,
    countersSound_new⟩

/-- Every effect of a call keeps the store sound. -/
theorem StoreSound.change {store later : MemoryChatStore} {call : Call} (h : StoreSound store)
    (hchange : Change store call later) : StoreSound later where
  rows := (hchange.rows h.rows).1
  places := hchange.places h.places
  indexes := hchange.indexes h.rows h.indexes
  log := h.log.change h.rows h.places hchange
  traces := hchange.traces h.traces
  counters := hchange.counters h.counters

/-- Every store that calls lead to is sound. -/
theorem StoreSound.after {store : MemoryChatStore} (h : StoreSound store) (calls : List Call) :
    StoreSound (store.after calls) := by
  induction calls generalizing store with
  | nil => exact h
  | cons call calls ih => exact ih (h.change (call.change store))

/-- The new store has sound correlations. -/
theorem correlationsSound_new : CorrelationsSound new := by
  have hnone : ∀ event, ¬ Retains new event := by
    rintro event ⟨id, hid⟩
    cases hid
  refine ⟨?_, ?_, ?_⟩
  · rintro token correlation ⟨event, hevent, -⟩
    exact absurd hevent (hnone event)
  · rintro token correlation ⟨event, hevent, -⟩
    exact absurd hevent (hnone event)
  · exact fun event submissionId correlation candidate hevent => absurd hevent (hnone event)

/-- Only reusing a submission makes the correlations unsound. -/
theorem CorrelationsSound.change {store later : MemoryChatStore} {call : Call}
    (h : CorrelationsSound store) (hsound : StoreSound store) (hchange : Change store call later)
    (hreuse : ¬ Reuses store call) : CorrelationsSound later := by
  rcases hchange.traces_cases with hevents | ⟨batch, staged, himport, rfl⟩
  · rcases hchange.log hsound.rows hsound.places with hsame | ⟨event, hstep, hrecords⟩
    · refine h.same hevents (.same hsame.outbox) ?_
      intro _ _ _ _ _ _ _ hcandidate
      rwa [hsame.activity] at hcandidate
    · refine h.same hevents hstep.grow ?_
      intro event' submissionId correlation candidate hevent' hsubmission hcorrelation hcandidate
      rcases hstep.candidate hsound.log hcandidate with hold |
        ⟨acceptance, hkind, rfl, hid, hattempt⟩
      · exact hold
      · obtain ⟨id, record, hrecord⟩ := hrecords acceptance hkind
        obtain ⟨now, rfl⟩ := hrecord.call
        have hbegins := (begins_kept hstep.logged hrecord.unlocated).mp hcandidate.begins
        rw [← Option.some.inj (hrecord.outboxId.symm.trans hid),
          ← Option.some.inj (hrecord.attempt.symm.trans hattempt)] at hbegins
        exact absurd ⟨record, hrecord.row, hrecord.waiting, hrecord.free, hstep.logged.reserve,
          ⟨_, hbegins⟩, event', correlation, hevent', hsubmission, hcorrelation⟩ hreuse
  · exact h.imported hsound.traces hsound.log himport

end Chat
