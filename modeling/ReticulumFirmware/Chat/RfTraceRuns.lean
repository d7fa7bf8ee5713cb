import ReticulumFirmware.Chat.RfTraceClosure

/-!
# Traces over runs of the store

The trace tables of every reachable store are sound. From there on, importing pages is
idempotent, closes the correlations over tokens and does not depend on the order of pages.
-/

namespace Chat

open MemoryChatStore

/-- The trace tables agree with each other. -/
structure TracesSound (store : MemoryChatStore) : Prop where
  tables : TablesSound store
  profiled : ∀ event, Retains store event → ∃ boot,
    store.rfTraceBoots.get? event.bootId = some boot ∧ boot.profile = event.profile
  timed : ∀ event, Retains store event → event.importedAtUnixMs ≤ maxUnixTimestampMillis
  /-- Only an event with a token is correlated. -/
  tokened : ∀ event, Retains store event → event.observation.rnsAttemptToken = none →
    event.correlation = none
  /-- A token stands for one message attempt. -/
  agreed : ∀ token correlation correlation', Carries store token correlation →
    Carries store token correlation' → correlation = correlation'

/-- The empty store has no traces. -/
theorem tracesSound_new : TracesSound new := by
  have hnone : ∀ event, ¬ Retains new event := by
    rintro event ⟨id, hid⟩
    cases hid
  refine ⟨⟨?_, ?_⟩, ?_, ?_, ?_, ?_⟩
  · intro id event hid
    exact absurd ⟨id, hid⟩ (hnone event)
  · intro boot sequence id
    constructor
    · intro hkey
      cases hkey
    · rintro ⟨event, hid, -⟩
      exact absurd ⟨id, hid⟩ (hnone event)
  · exact fun event hevent => absurd hevent (hnone event)
  · exact fun event hevent => absurd hevent (hnone event)
  · exact fun event hevent => absurd hevent (hnone event)
  · rintro token correlation correlation' ⟨event, hevent, -⟩
    exact absurd hevent (hnone event)

/-- The trace tables are the same. -/
def SameTraces (store later : MemoryChatStore) : Prop :=
  later.rfTraceBoots = store.rfTraceBoots ∧ later.rfTraceEvents = store.rfTraceEvents ∧
    later.rfTraceKeys = store.rfTraceKeys ∧ later.nextRfTraceId = store.nextRfTraceId

/-- The traces stay sound where no event, row or log entry changes. -/
theorem TracesSound.same {store later : MemoryChatStore} (h : TracesSound store)
    (hsame : SameTraces store later) : TracesSound later := by
  obtain ⟨hboots, hevents, hkeys, hnext⟩ := hsame
  have hretains : ∀ event, Retains later event ↔ Retains store event := by
    intro event
    rw [Retains, hevents, Retains]
  have hcarries : ∀ token correlation, Carries later token correlation ↔
      Carries store token correlation := by
    intro token correlation
    simp only [Carries, hretains]
  refine ⟨⟨?_, ?_⟩, ?_, ?_, ?_, ?_⟩
  · rw [hevents, hnext]
    exact h.tables.filed
  · rw [hevents, hkeys]
    exact h.tables.keyed
  · intro event hevent
    rw [hboots]
    exact h.profiled event ((hretains event).mp hevent)
  · exact fun event hevent => h.timed event ((hretains event).mp hevent)
  · exact fun event hevent => h.tokened event ((hretains event).mp hevent)
  · intro token correlation correlation' hfirst hsecond
    exact h.agreed token _ _ ((hcarries _ _).mp hfirst) ((hcarries _ _).mp hsecond)

/-- An import keeps the trace tables sound. -/
theorem TracesSound.imported {store : MemoryChatStore} {batch : RfTraceImportBatch}
    {staged : ImportState} (h : TracesSound store)
    (himport : store.importRfTraceBatchInner batch = .ok staged) : TracesSound staged.store := by
  obtain ⟨tokens, htokens, himported⟩ := imported_tables h.tables himport
  obtain ⟨boot, hprofile, holdProfile, -, hboots⟩ := himported.boots
  refine ⟨himported.sound, ?_, ?_, ?_, ?_⟩
  · rintro event ⟨id, hid⟩
    rw [hboots, BTreeMap.get?_insert]
    rcases himported.back id event hid with ⟨old, hold, rfl⟩ | ⟨-, observation, -, rfl⟩
    · obtain ⟨oldBoot, holdBoot, hsame⟩ := h.profiled old ⟨id, hold⟩
      rw [enrich_bootId, enrich_profile]
      split_ifs with heq
      · rw [heq] at holdBoot
        exact ⟨boot, rfl, by rw [hprofile, ← hsame, holdProfile oldBoot holdBoot]⟩
      · exact ⟨oldBoot, holdBoot, hsame⟩
    · exact ⟨boot, if_pos rfl, hprofile⟩
  · rintro event ⟨id, hid⟩
    rcases himported.back id event hid with ⟨old, hold, rfl⟩ | ⟨-, observation, -, rfl⟩
    · rw [enrich_importedAtUnixMs]
      exact h.timed old ⟨id, hold⟩
    · exact batch.supported
  · rintro event ⟨id, hid⟩ htoken
    rcases himported.back id event hid with ⟨old, hold, rfl⟩ | ⟨-, observation, -, rfl⟩
    · rw [enrich_observation] at htoken
      rw [enrich_of_none (by rw [tokenOf, htoken]; rfl)]
      exact h.tokened old ⟨id, hold⟩ htoken
    · have htoken' : observation.rnsAttemptToken = none := htoken
      change tokenOf tokens observation = none
      rw [tokenOf, htoken']
      rfl
  · rintro token correlation correlation' ⟨event, hevent, htoken, hfirst⟩
      ⟨event', hevent', htoken', hsecond⟩
    rw [himported.correlation_iff htokens hevent htoken] at hfirst
    rw [himported.correlation_iff htokens hevent' htoken'] at hsecond
    exact Option.some.inj (hfirst.symm.trans hsecond)

/-- Every effect of a call keeps the traces sound. -/
theorem Change.traces {store later : MemoryChatStore} {call : Call} (h : Change store call later)
    (hsound : TracesSound store) : TracesSound later := by
  cases h with
  | nothing | contact | retained | inbound | outbound | rearmed | accepted | projected =>
    exact hsound.same ⟨rfl, rfl, rfl, rfl⟩
  | imported himport => exact hsound.imported himport

/-- Every reachable store has sound trace tables. -/
theorem TracesSound.after {store : MemoryChatStore} (h : TracesSound store) (calls : List Call) :
    TracesSound (store.after calls) := by
  induction calls generalizing store with
  | nil => exact h
  | cons call calls ih => exact ih ((call.change store).traces h)

/-- Import pages one after the other. -/
def importAll (store : MemoryChatStore) (batches : List RfTraceImportBatch) :
    Except StoreFailure MemoryChatStore :=
  batches.foldlM (fun store batch =>
    match store.importRfTraceBatch batch with
    | (.ok _, later) => .ok later
    | (.error failure, _) => .error failure) store

/-- An observation of a boot that is retained. -/
def Observed (store : MemoryChatStore) (boot : RfTraceBootId) (profile : RfTraceRadioProfile)
    (observation : RfTraceObservation) : Prop :=
  ∃ event, Retains store event ∧ event.bootId = boot ∧ event.profile = profile ∧
    event.observation = observation

/-- An observation of a boot that is retained with this correlation. -/
def Paired (store : MemoryChatStore) (boot : RfTraceBootId) (profile : RfTraceRadioProfile)
    (observation : RfTraceObservation) (correlation : Option RfTraceMessageCorrelation) : Prop :=
  ∃ event, Retains store event ∧ event.bootId = boot ∧ event.profile = profile ∧
    event.observation = observation ∧ event.correlation = correlation

/-- A retained observation with the token resolves to the correlation. -/
def Direct (store : MemoryChatStore) (activity : List MessageActivityEvent)
    (token : RnsAttemptToken) (correlation : RfTraceMessageCorrelation) : Prop :=
  ∃ boot profile observation, Observed store boot profile observation ∧
    Resolves activity observation token correlation

/-- A direct correlation of a token is what the log says about a retained event. -/
theorem direct_iff {store : MemoryChatStore} {activity : List MessageActivityEvent}
    {token : RnsAttemptToken} {correlation : RfTraceMessageCorrelation} :
    Direct store activity token correlation ↔ ∃ event, Retains store event ∧
      Resolves activity event.observation token correlation := by
  constructor
  · rintro ⟨boot, profile, observation, ⟨event, hevent, -, -, rfl⟩, hresolves⟩
    exact ⟨event, hevent, hresolves⟩
  · rintro ⟨event, hevent, hresolves⟩
    exact ⟨_, _, _, ⟨event, hevent, rfl, rfl, rfl⟩, hresolves⟩

/-- A successful call of the import. -/
theorem importRfTraceBatch_ok {store later : MemoryChatStore} {batch : RfTraceImportBatch}
    {outcome : RfTraceImportOutcome}
    (h : store.importRfTraceBatch batch = (.ok outcome, later)) :
    store.importRfTraceBatchInner batch = .ok ⟨later, outcome⟩ := by
  unfold importRfTraceBatch at h
  split at h
  · next staged hstaged =>
    cases h
    exact hstaged
  · cases h

/-- The observations retained after an import. -/
theorem observed_imported {store : MemoryChatStore} {batch : RfTraceImportBatch}
    {staged : ImportState} (hsound : TracesSound store)
    (h : store.importRfTraceBatchInner batch = .ok staged) (boot : RfTraceBootId)
    (profile : RfTraceRadioProfile) (observation : RfTraceObservation) :
    Observed staged.store boot profile observation ↔ Observed store boot profile observation ∨
      (batch.bootId = boot ∧ batch.profile = profile ∧ observation ∈ batch.observations) := by
  have hlater := hsound.imported h
  obtain ⟨tokens, htokens, himported⟩ := imported_tables hsound.tables h
  obtain ⟨noted, hprofile, -, -, hboots⟩ := himported.boots
  constructor
  · rintro ⟨event, ⟨id, hid⟩, rfl, rfl, rfl⟩
    rcases himported.back id event hid with ⟨old, hold, rfl⟩ | ⟨-, other, hmem, rfl⟩
    · exact Or.inl ⟨old, ⟨id, hold⟩, by simp⟩
    · exact Or.inr ⟨rfl, rfl, hmem⟩
  · rintro (⟨event, ⟨id, hid⟩, rfl, rfl, rfl⟩ | ⟨rfl, rfl, hmem⟩)
    · exact ⟨enrich tokens event, ⟨id, himported.old id event hid⟩, by simp⟩
    · obtain ⟨id, event, hid, hboot, hobservation⟩ := himported.complete observation hmem
      obtain ⟨found, hfound, hsame⟩ := hlater.profiled event ⟨id, hid⟩
      rw [hboot, hboots, BTreeMap.get?_insert_self] at hfound
      cases hfound
      exact ⟨event, ⟨id, hid⟩, hboot, hsame.symm.trans hprofile, hobservation⟩

/-- The tables after some pages: what they retain and which tokens they bind. -/
structure ImportedAll (store : MemoryChatStore) (batches : List RfTraceImportBatch)
    (later : MemoryChatStore) : Prop where
  sound : TracesSound later
  activity : later.activity = store.activity
  observed : ∀ boot profile observation, Observed later boot profile observation ↔
    Observed store boot profile observation ∨ ∃ batch ∈ batches,
      batch.bootId = boot ∧ batch.profile = profile ∧ observation ∈ batch.observations
  carried : ∀ token correlation, Carries later token correlation ↔
    Carries store token correlation ∨ Direct later store.activity token correlation
  spread : ∀ event, Retains later event → ∀ token,
    event.observation.rnsAttemptToken = some token → ∀ correlation,
      event.correlation = some correlation ↔ Carries later token correlation

/-- Importing a first page and then others. -/
theorem importedAll {store later : MemoryChatStore} {batch : RfTraceImportBatch}
    {batches : List RfTraceImportBatch} (hsound : TracesSound store)
    (h : importAll store (batch :: batches) = .ok later) :
    ImportedAll store (batch :: batches) later := by
  induction batches generalizing store batch with
  | nil =>
    obtain ⟨middle, hfirst, hrest⟩ := List.foldlM_cons_ok h
    cases hrest
    split at hfirst
    · next outcome middle' heq =>
      cases hfirst
      have himport := importRfTraceBatch_ok heq
      have hcarried := carries_imported hsound.tables himport
      have hactivity := activity_imported himport
      refine ⟨hsound.imported himport, hactivity, ?_, ?_, ?_⟩
      · intro boot profile observation
        rw [observed_imported hsound himport]
        simp
      · intro token correlation
        rw [hcarried, direct_iff]
        rw [hactivity]
      · intro event hevent token htoken correlation
        rw [correlation_closure hsound.tables himport hevent htoken, hcarried]
    · cases hfirst
  | cons next batches ih =>
    obtain ⟨middle, hfirst, hrest⟩ := List.foldlM_cons_ok h
    split at hfirst
    · next outcome middle' heq =>
      cases hfirst
      have himport := importRfTraceBatch_ok heq
      have hmiddle := ih (hsound.imported himport) hrest
      have hactivity : middle.activity = store.activity := activity_imported himport
      refine ⟨hmiddle.sound, hmiddle.activity.trans hactivity, ?_, ?_, hmiddle.spread⟩
      · intro boot profile observation
        rw [hmiddle.observed, observed_imported hsound himport, or_assoc]
        simp only [List.mem_cons, exists_eq_or_imp]
      · intro token correlation
        rw [hmiddle.carried, carries_imported hsound.tables himport]
        change (_ ∨ ∃ event, Retains middle event ∧ Resolves middle.activity _ _ _) ∨ _ ↔ _
        rw [hactivity, ← direct_iff]
        constructor
        · rintro ((hcarries | ⟨boot, profile, observation, hobserved, hresolves⟩) | hdirect)
          · exact Or.inl hcarries
          · exact Or.inr ⟨boot, profile, observation,
              (hmiddle.observed _ _ _).mpr (Or.inl hobserved), hresolves⟩
          · exact Or.inr hdirect
        · rintro (hcarries | hdirect)
          · exact Or.inl (Or.inl hcarries)
          · exact Or.inr hdirect
    · cases hfirst

/-- Pages that are accepted in two orders leave the same events with the same correlations. -/
theorem paired_perm {store later later' : MemoryChatStore}
    {batches batches' : List RfTraceImportBatch} (hsound : TracesSound store)
    (hperm : batches.Perm batches') (h : importAll store batches = .ok later)
    (h' : importAll store batches' = .ok later') {boot : RfTraceBootId}
    {profile : RfTraceRadioProfile} {observation : RfTraceObservation}
    {correlation : Option RfTraceMessageCorrelation}
    (hpaired : Paired later boot profile observation correlation) :
    Paired later' boot profile observation correlation := by
  cases batches with
  | nil =>
    rw [List.nil_perm] at hperm
    subst hperm
    rw [← Except.ok.inj (h.symm.trans h')]
    exact hpaired
  | cons batch batches =>
    cases batches' with
    | nil => simp at hperm
    | cons batch' batches' =>
      have hall := importedAll hsound h
      have hall' := importedAll hsound h'
      have hobserved : ∀ boot profile observation, Observed later boot profile observation ↔
          Observed later' boot profile observation := by
        intro boot profile observation
        rw [hall.observed, hall'.observed]
        simp only [hperm.mem_iff]
      have hcarried : ∀ token correlation, Carries later token correlation ↔
          Carries later' token correlation := by
        intro token correlation
        rw [hall.carried, hall'.carried]
        simp only [Direct, hobserved]
      obtain ⟨event, hevent, hboot, hprofile, hobservation, rfl⟩ := hpaired
      obtain ⟨event', hevent', hboot', hprofile', hobservation'⟩ :=
        (hobserved _ _ _).mp ⟨event, hevent, hboot, hprofile, hobservation⟩
      refine ⟨event', hevent', hboot', hprofile', hobservation', ?_⟩
      cases htoken : observation.rnsAttemptToken with
      | none =>
        rw [hall.sound.tokened event hevent (by rw [hobservation, htoken]),
          hall'.sound.tokened event' hevent' (by rw [hobservation', htoken])]
      | some token =>
        ext correlation
        rw [hall'.spread event' hevent' token (by rw [hobservation', htoken]), ← hcarried,
          hall.spread event hevent token (by rw [hobservation, htoken])]

/-- How imports act on a store from here on. -/
structure ImportLaw (store : MemoryChatStore) : Prop where
  /-- After an import the observations of the page are retained, and those from before it. -/
  observed : ∀ batch outcome later, store.importRfTraceBatch batch = (.ok outcome, later) →
    ∀ boot profile observation, Observed later boot profile observation ↔
      Observed store boot profile observation ∨
        (batch.bootId = boot ∧ batch.profile = profile ∧ observation ∈ batch.observations)
  /-- Importing a page again changes nothing. -/
  again : ∀ batch outcome later, store.importRfTraceBatch batch = (.ok outcome, later) →
    later.importRfTraceBatch batch = (.ok ⟨0, batch.observations.length, 0⟩, later)
  /-- After an import an event with a token carries what the token carried before and what the
  submissions named with it resolve to. -/
  closed : ∀ batch outcome later, store.importRfTraceBatch batch = (.ok outcome, later) →
    ∀ event, Retains later event → ∀ token, event.observation.rnsAttemptToken = some token →
    ∀ correlation, event.correlation = some correlation ↔ Carries store token correlation ∨
      ∃ event', Retains later event' ∧
        Resolves later.activity event'.observation token correlation
  /-- The order of pages does not matter. -/
  order : ∀ batches batches' later later', batches.Perm batches' →
    importAll store batches = .ok later → importAll store batches' = .ok later' →
    ∀ boot profile observation correlation, Paired later boot profile observation correlation ↔
      Paired later' boot profile observation correlation

/-- In every reachable store, importing traces retains them, is idempotent, closes the correlations
over tokens and does not depend on the order of pages. -/
theorem rfTrace_import_law (calls : List Call) : ImportLaw (new.after calls) := by
  have hsound := tracesSound_new.after calls
  refine ⟨?_, ?_, ?_, ?_⟩
  · intro batch outcome later h
    exact observed_imported hsound (importRfTraceBatch_ok h)
  · intro batch outcome later h
    have hagain := importRfTraceBatchInner_again hsound.tables (importRfTraceBatch_ok h)
    rw [importRfTraceBatch, hagain]
  · intro batch outcome later h event hevent token htoken correlation
    exact correlation_closure hsound.tables (importRfTraceBatch_ok h) hevent htoken correlation
  · intro batches batches' later later' hperm h h' boot profile observation correlation
    exact ⟨paired_perm hsound hperm h h', paired_perm hsound hperm.symm h' h⟩

end Chat
