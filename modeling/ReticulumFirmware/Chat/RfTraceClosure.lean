import ReticulumFirmware.Chat.RfTraceTables

/-!
# Correlation as a closure over attempt tokens

An import binds each attempt token to the message attempt that a retained event with the
token carries already, or that a submission named with the token resolves to, and spreads it
over all events with the token. Importing a page again therefore changes nothing, and the
correlations left by several pages do not depend on their order.
-/

namespace Chat

open MemoryChatStore

/-- The store keeps this event. -/
def Retains (store : MemoryChatStore) (event : RfTraceEvent) : Prop :=
  ∃ id, store.rfTraceEvents.get? id = some event

/-- Some retained event with the token carries the correlation. -/
def Carries (store : MemoryChatStore) (token : RnsAttemptToken)
    (correlation : RfTraceMessageCorrelation) : Prop :=
  ∃ event, Retains store event ∧ event.observation.rnsAttemptToken = some token ∧
    event.correlation = some correlation

/-- An observation with the token names a submission that the activity resolves. -/
def Resolves (activity : List MessageActivityEvent) (observation : RfTraceObservation)
    (token : RnsAttemptToken) (correlation : RfTraceMessageCorrelation) : Prop :=
  observation.rnsAttemptToken = some token ∧ ∃ submissionId,
    observation.submissionId = some submissionId ∧
    rfTraceCorrelation activity submissionId = .ok (some correlation)

/-- The observations that an import looks at. -/
def Considers (store : MemoryChatStore) (batch : RfTraceImportBatch)
    (observation : RfTraceObservation) : Prop :=
  (∃ event, Retains store event ∧ event.observation = observation) ∨
    observation ∈ batch.observations

/-- The retained events are the values of their map. -/
theorem mem_values_iff {store : MemoryChatStore} {event : RfTraceEvent} :
    event ∈ store.rfTraceEvents.values ↔ Retains store event :=
  BTreeMap.mem_values

/-- An import considers the observations that are retained and those of the batch. -/
theorem mem_considered_iff {store : MemoryChatStore} {batch : RfTraceImportBatch}
    {observation : RfTraceObservation} :
    observation ∈ store.rfTraceEvents.values.map (·.observation) ++ batch.observations ↔
      Considers store batch observation := by
  rw [List.mem_append, List.mem_map]
  simp only [mem_values_iff, Considers]

/-- All bindings of one map are bindings of another. -/
def Within (tokens all : TokenCorrelations) : Prop :=
  ∀ token correlation, tokens.get? token = some correlation → all.get? token = some correlation

/-- A seed that is taken binds its token. -/
theorem seedTokenCorrelation_ok {tokens tokens' : TokenCorrelations} {token : RnsAttemptToken}
    {correlation : RfTraceMessageCorrelation}
    (h : seedTokenCorrelation tokens token correlation = .ok tokens') (t : RnsAttemptToken)
    (c : RfTraceMessageCorrelation) :
    tokens'.get? t = some c ↔ tokens.get? t = some c ∨ (token = t ∧ correlation = c) := by
  unfold seedTokenCorrelation at h
  split_ifs at h with hconflict
  cases h
  rw [BTreeMap.get?_insert]
  split_ifs with heq
  · subst heq
    constructor
    · rintro ⟨⟩
      exact Or.inr ⟨rfl, rfl⟩
    · rintro (hbound | ⟨-, rfl⟩)
      · rw [hbound] at hconflict
        have hsame : c = correlation := by simpa using hconflict
        rw [hsame]
      · rfl
  · constructor
    · exact Or.inl
    · rintro (hbound | ⟨rfl, -⟩)
      · exact hbound
      · exact absurd rfl heq

/-- A seed of a larger map is taken. -/
theorem seedTokenCorrelation_within {tokens all : TokenCorrelations} {token : RnsAttemptToken}
    {correlation : RfTraceMessageCorrelation} (hwithin : Within tokens all)
    (hall : all.get? token = some correlation) :
    ∃ tokens', seedTokenCorrelation tokens token correlation = .ok tokens' ∧
      Within tokens' all := by
  have hfree : (tokens.get? token).any (· ≠ correlation) = false := by
    cases hget : tokens.get? token with
    | none => rfl
    | some bound =>
      have hsame : bound = correlation :=
        Option.some.inj ((hwithin token bound hget).symm.trans hall)
      simp [hsame]
  refine ⟨tokens.insert token correlation,
    by rw [seedTokenCorrelation, if_neg (by rw [hfree]; simp)],
    ?_⟩
  intro t c hget
  rw [BTreeMap.get?_insert] at hget
  split_ifs at hget with heq
  · rw [heq, hall, hget]
  · exact hwithin t c hget

/-- What one event that carries a correlation binds. -/
theorem seedPersisted_ok {tokens tokens' : TokenCorrelations} {event : RfTraceEvent}
    (h : seedPersisted tokens event = .ok tokens') (t : RnsAttemptToken)
    (c : RfTraceMessageCorrelation) :
    tokens'.get? t = some c ↔ tokens.get? t = some c ∨
      (event.observation.rnsAttemptToken = some t ∧ event.correlation = some c) := by
  unfold seedPersisted at h
  split at h
  · next token correlation htoken hcorrelation =>
    rw [seedTokenCorrelation_ok h t c, htoken, hcorrelation, Option.some.injEq, Option.some.injEq]
  · next hnone =>
    cases h
    constructor
    · exact Or.inl
    · rintro (hbound | ⟨htoken, hcorrelation⟩)
      · exact hbound
      · exact absurd hcorrelation (hnone t c htoken)

/-- What one observation binds. -/
theorem seedDirect_ok {activity : List MessageActivityEvent} {tokens tokens' : TokenCorrelations}
    {observation : RfTraceObservation} (h : seedDirect activity tokens observation = .ok tokens')
    (t : RnsAttemptToken) (c : RfTraceMessageCorrelation) :
    tokens'.get? t = some c ↔ tokens.get? t = some c ∨ Resolves activity observation t c := by
  unfold seedDirect at h
  unfold Resolves
  split at h
  · next submissionId token hsubmission htoken =>
    rw [hsubmission, htoken]
    simp only [Option.some.injEq, exists_eq_left']
    split at h
    · cases h
    · next hnone =>
      cases h
      rw [hnone]
      simp
    · next correlation hsome =>
      rw [seedTokenCorrelation_ok h t c, hsome]
      simp
  · next hnone =>
    cases h
    constructor
    · exact Or.inl
    · rintro (hbound | ⟨htoken, submissionId, hsubmission, -⟩)
      · exact hbound
      · exact absurd htoken (hnone submissionId t hsubmission)

/-- A fold of seeds binds what its members bind. -/
theorem seeds_foldlM {α : Type} {Seeds : α → RnsAttemptToken → RfTraceMessageCorrelation → Prop}
    {step : TokenCorrelations → α → Except ChatStoreError TokenCorrelations}
    (hstep : ∀ tokens a tokens', step tokens a = .ok tokens' →
      ∀ t c, tokens'.get? t = some c ↔ tokens.get? t = some c ∨ Seeds a t c)
    {l : List α} {tokens tokens' : TokenCorrelations} (h : l.foldlM step tokens = .ok tokens')
    (t : RnsAttemptToken) (c : RfTraceMessageCorrelation) :
    tokens'.get? t = some c ↔ tokens.get? t = some c ∨ ∃ a ∈ l, Seeds a t c := by
  induction l generalizing tokens with
  | nil =>
    cases h
    simp
  | cons a l ih =>
    obtain ⟨middle, hfirst, hrest⟩ := List.foldlM_cons_ok h
    rw [ih hrest, hstep _ _ _ hfirst t c, or_assoc]
    simp only [List.mem_cons, exists_eq_or_imp]

/-- The tokens that an import binds. -/
theorem tokenCorrelations_iff {store : MemoryChatStore} {batch : RfTraceImportBatch}
    {tokens : TokenCorrelations} (h : store.tokenCorrelations batch = .ok tokens)
    (t : RnsAttemptToken) (c : RfTraceMessageCorrelation) :
    tokens.get? t = some c ↔ Carries store t c ∨
      ∃ observation, Considers store batch observation ∧
        Resolves store.activity observation t c := by
  unfold tokenCorrelations at h
  obtain ⟨persisted, hpersisted, hdirect⟩ := Except.bind_eq_ok.mp h
  rw [seeds_foldlM (fun _ _ _ h => seedDirect_ok h) hdirect t c,
    seeds_foldlM (fun _ _ _ h => seedPersisted_ok h) hpersisted t c]
  simp only [BTreeMap.get?_empty, reduceCtorEq, false_or, mem_considered_iff, mem_values_iff,
    Carries]

/-- Every submission that an import looks at is resolved without an error. -/
theorem resolved_of_tokenCorrelations {store : MemoryChatStore} {batch : RfTraceImportBatch}
    {tokens : TokenCorrelations} (h : store.tokenCorrelations batch = .ok tokens)
    {observation : RfTraceObservation} (hobservation : Considers store batch observation)
    {submissionId : SubmissionId} {token : RnsAttemptToken}
    (hsubmission : observation.submissionId = some submissionId)
    (htoken : observation.rnsAttemptToken = some token) :
    ∃ result, rfTraceCorrelation store.activity submissionId = .ok result := by
  unfold tokenCorrelations at h
  obtain ⟨persisted, -, hdirect⟩ := Except.bind_eq_ok.mp h
  obtain ⟨before, after, hstep⟩ := List.foldlM_ok_mem hdirect (mem_considered_iff.mpr hobservation)
  unfold seedDirect at hstep
  rw [hsubmission, htoken] at hstep
  simp only at hstep
  split at hstep
  · cases hstep
  · next hnone => exact ⟨none, hnone⟩
  · next correlation hsome => exact ⟨some correlation, hsome⟩

/-- Tokens are bound without a conflict when all bindings belong to one map. -/
theorem tokenCorrelations_of_within {store : MemoryChatStore} {batch : RfTraceImportBatch}
    {all : TokenCorrelations} (hcarries : ∀ t c, Carries store t c → all.get? t = some c)
    (hresolved : ∀ observation, Considers store batch observation →
      ∀ submissionId token, observation.submissionId = some submissionId →
        observation.rnsAttemptToken = some token →
        ∃ result, rfTraceCorrelation store.activity submissionId = .ok result ∧
          ∀ correlation, result = some correlation → all.get? token = some correlation) :
    ∃ tokens, store.tokenCorrelations batch = .ok tokens ∧ Within tokens all := by
  obtain ⟨persisted, hpersisted, hwithin⟩ :
      ∃ persisted, store.rfTraceEvents.values.foldlM seedPersisted .empty = .ok persisted ∧
        Within persisted all := by
    apply List.foldlM_ok_of_steps (P := fun _ tokens => Within tokens all)
    · intro t c hget
      cases hget
    · intro done event rest tokens hvalues htokens
      have hretains : Retains store event := mem_values_iff.mp (by rw [hvalues]; simp)
      unfold seedPersisted
      split
      · next token correlation htoken hcorrelation =>
        exact seedTokenCorrelation_within htokens
          (hcarries _ _ ⟨event, hretains, htoken, hcorrelation⟩)
      · exact ⟨tokens, rfl, htokens⟩
  obtain ⟨tokens, htokens, hwithin'⟩ : ∃ tokens,
      (store.rfTraceEvents.values.map (·.observation) ++ batch.observations).foldlM
        (seedDirect store.activity) persisted = .ok tokens ∧ Within tokens all := by
    apply List.foldlM_ok_of_steps (P := fun _ tokens => Within tokens all) hwithin
    intro done observation rest tokens hlist htokens
    have hconsidered : Considers store batch observation :=
      mem_considered_iff.mp (by rw [hlist]; simp)
    unfold seedDirect
    split
    · next submissionId token hsubmission htoken =>
      obtain ⟨result, hresult, hbound⟩ :=
        hresolved observation hconsidered submissionId token hsubmission htoken
      rw [hresult]
      cases result with
      | none => exact ⟨tokens, rfl, htokens⟩
      | some correlation => exact seedTokenCorrelation_within htokens (hbound correlation rfl)
    · exact ⟨tokens, rfl, htokens⟩
  exact ⟨tokens, Except.bind_eq_ok.mpr ⟨persisted, hpersisted, htokens⟩, hwithin'⟩

/-- The token of an event is bound to this correlation. -/
theorem tokenOf_eq_some {tokens : TokenCorrelations} {observation : RfTraceObservation}
    {correlation : RfTraceMessageCorrelation} :
    tokenOf tokens observation = some correlation ↔
      ∃ token, observation.rnsAttemptToken = some token ∧ tokens.get? token = some correlation := by
  rw [tokenOf, Option.bind_eq_some_iff]

section Import

variable {store later : MemoryChatStore} {batch : RfTraceImportBatch} {tokens : TokenCorrelations}

/-- An event whose token is bound carries the binding. -/
theorem correlation_enrich {event : RfTraceEvent} {correlation : RfTraceMessageCorrelation}
    (h : tokenOf tokens event.observation = some correlation) :
    (enrich tokens event).correlation = some correlation := by
  rw [enrich_of_some h]

/-- After an import an event with a token carries exactly the binding of the token. -/
theorem Imported.correlation_iff (h : Imported store batch tokens later)
    (htokens : store.tokenCorrelations batch = .ok tokens) {event : RfTraceEvent}
    (hevent : Retains later event) {token : RnsAttemptToken}
    (htoken : event.observation.rnsAttemptToken = some token)
    (correlation : RfTraceMessageCorrelation) :
    event.correlation = some correlation ↔ tokens.get? token = some correlation := by
  obtain ⟨id, hid⟩ := hevent
  rcases h.back id event hid with ⟨old, hold, rfl⟩ | ⟨-, observation, -, rfl⟩
  · rw [enrich_observation] at htoken
    have hof : tokenOf tokens old.observation = tokens.get? token := by
      rw [tokenOf, htoken]
      rfl
    cases hbound : tokens.get? token with
    | some bound =>
      rw [hbound] at hof
      rw [correlation_enrich hof]
    | none =>
      rw [hbound] at hof
      rw [enrich_of_none hof]
      constructor
      · intro hcarried
        have hseed := (tokenCorrelations_iff htokens token correlation).mpr
          (Or.inl ⟨old, ⟨id, hold⟩, htoken, hcarried⟩)
        rw [hbound] at hseed
        exact hseed
      · rintro ⟨⟩
  · have hof : tokenOf tokens observation = tokens.get? token := by
      rw [tokenOf]
      have htoken' : observation.rnsAttemptToken = some token := htoken
      rw [htoken']
      rfl
    rw [← hof]
    rfl

/-- An import looks at what it retains. -/
theorem Imported.considers_iff (h : Imported store batch tokens later)
    (observation : RfTraceObservation) :
    Considers store batch observation ↔ ∃ event, Retains later event ∧
      event.observation = observation := by
  constructor
  · rintro (⟨event, ⟨id, hid⟩, rfl⟩ | hmem)
    · exact ⟨enrich tokens event, ⟨id, h.old id event hid⟩, enrich_observation tokens event⟩
    · obtain ⟨id, event, hid, -, hobservation⟩ := h.complete observation hmem
      exact ⟨event, ⟨id, hid⟩, hobservation⟩
  · rintro ⟨event, ⟨id, hid⟩, rfl⟩
    rcases h.back id event hid with ⟨old, hold, rfl⟩ | ⟨-, observation, hmem, rfl⟩
    · exact Or.inl ⟨old, ⟨id, hold⟩, (enrich_observation tokens old).symm⟩
    · exact Or.inr hmem

/-- The activity is not part of the traces. -/
theorem activity_imported {staged : ImportState}
    (h : store.importRfTraceBatchInner batch = .ok staged) :
    staged.store.activity = store.activity :=
  (congrArg MemoryChatStore.activity (withoutTraces_imported h) :)

/-- After an import an event with a token carries the correlations that the token had, and
those its submissions resolve to. -/
theorem correlation_closure {staged : ImportState} (hsound : TablesSound store)
    (h : store.importRfTraceBatchInner batch = .ok staged) {event : RfTraceEvent}
    (hevent : Retains staged.store event) {token : RnsAttemptToken}
    (htoken : event.observation.rnsAttemptToken = some token)
    (correlation : RfTraceMessageCorrelation) :
    event.correlation = some correlation ↔ Carries store token correlation ∨
      ∃ event', Retains staged.store event' ∧
        Resolves staged.store.activity event'.observation token correlation := by
  obtain ⟨tokens, htokens, himported⟩ := imported_tables hsound h
  rw [himported.correlation_iff htokens hevent htoken, tokenCorrelations_iff htokens,
    activity_imported h]
  simp only [himported.considers_iff]
  constructor
  · rintro (hcarries | ⟨observation, ⟨event', hevent', rfl⟩, hresolves⟩)
    · exact Or.inl hcarries
    · exact Or.inr ⟨event', hevent', hresolves⟩
  · rintro (hcarries | ⟨event', hevent', hresolves⟩)
    · exact Or.inl hcarries
    · exact Or.inr ⟨_, ⟨event', hevent', rfl⟩, hresolves⟩

/-- A token that an import binds is carried afterwards. -/
theorem carries_imported {staged : ImportState} (hsound : TablesSound store)
    (h : store.importRfTraceBatchInner batch = .ok staged) (token : RnsAttemptToken)
    (correlation : RfTraceMessageCorrelation) :
    Carries staged.store token correlation ↔ Carries store token correlation ∨
      ∃ event, Retains staged.store event ∧
        Resolves staged.store.activity event.observation token correlation := by
  constructor
  · rintro ⟨event, hevent, htoken, hcorrelation⟩
    exact (correlation_closure hsound h hevent htoken correlation).mp hcorrelation
  · intro hclosure
    obtain ⟨event, hevent, htoken⟩ : ∃ event, Retains staged.store event ∧
        event.observation.rnsAttemptToken = some token := by
      rcases hclosure with ⟨event, ⟨id, hid⟩, htoken, -⟩ | ⟨event, hevent, htoken, -⟩
      · obtain ⟨tokens, -, himported⟩ := imported_tables hsound h
        exact ⟨enrich tokens event, ⟨id, himported.old id event hid⟩, by simpa using htoken⟩
      · exact ⟨event, hevent, htoken⟩
    exact ⟨event, hevent, htoken,
      (correlation_closure hsound h hevent htoken correlation).mpr hclosure⟩

/-- The tokens that a repeated import binds are bound already. -/
theorem tokenCorrelations_again (h : Imported store batch tokens later)
    (hactivity : later.activity = store.activity)
    (htokens : store.tokenCorrelations batch = .ok tokens) :
    ∃ tokens', later.tokenCorrelations batch = .ok tokens' ∧ Within tokens' tokens := by
  have hconsiders : ∀ observation, Considers later batch observation →
      Considers store batch observation := by
    rintro observation (hretained | hmem)
    · exact (h.considers_iff observation).mpr hretained
    · exact Or.inr hmem
  apply tokenCorrelations_of_within
  · rintro t c ⟨event, hevent, htoken, hcorrelation⟩
    exact (h.correlation_iff htokens hevent htoken c).mp hcorrelation
  · intro observation hobservation submissionId token hsubmission htoken
    have hconsidered := hconsiders observation hobservation
    rw [hactivity]
    obtain ⟨result, hresult⟩ :=
      resolved_of_tokenCorrelations htokens hconsidered hsubmission htoken
    refine ⟨result, hresult, ?_⟩
    rintro correlation rfl
    exact (tokenCorrelations_iff htokens token correlation).mpr
      (Or.inr ⟨observation, hconsidered, htoken, submissionId, hsubmission, hresult⟩)

/-- Storing the page again only counts it. -/
theorem importObservation_again (h : Imported store batch tokens later)
    (htokens : store.tokenCorrelations batch = .ok tokens) {tokens' : TokenCorrelations}
    (hwithin : Within tokens' tokens) {observation : RfTraceObservation}
    (hmem : observation ∈ batch.observations) (existing : ℕ) :
    importObservation batch tokens' ⟨later, ⟨0, existing, 0⟩⟩ observation =
      .ok ⟨later, ⟨0, existing + 1, 0⟩⟩ := by
  obtain ⟨id, event, hevent, hboot, hobservation⟩ := h.complete observation hmem
  have hkey : later.rfTraceKeys.get? (traceKey batch.bootId observation) = some id :=
    (h.sound.keyed _ _ id).mpr ⟨event, hevent, hboot, by rw [hobservation]⟩
  unfold importObservation
  dsimp only
  rw [hkey]
  dsimp only
  rw [hevent]
  dsimp only
  cases hof : tokenOf tokens' observation with
  | none => cases event.correlation <;> rfl
  | some correlation =>
    obtain ⟨token, htoken, hbound⟩ := tokenOf_eq_some.mp hof
    have hcarried : event.correlation = some correlation :=
      (h.correlation_iff htokens ⟨id, hevent⟩ (by rw [hobservation]; exact htoken) _).mpr
        (hwithin _ _ hbound)
    rw [hcarried]
    simp

/-- Correlating again leaves the store. -/
theorem enrichEvent_again (h : Imported store batch tokens later)
    (htokens : store.tokenCorrelations batch = .ok tokens) {tokens' : TokenCorrelations}
    (hwithin : Within tokens' tokens) {entry : RfTraceEventId × RfTraceEvent}
    (hentry : entry ∈ later.rfTraceEvents.entries) (state : ImportState) :
    enrichEvent tokens' state entry = .ok state := by
  unfold enrichEvent
  split
  · rfl
  · next token htoken =>
    split
    · rfl
    · next correlation hbound =>
      have hevent : Retains later entry.2 := ⟨entry.1, BTreeMap.get?_eq_some.mpr hentry⟩
      have hcarried : entry.2.correlation = some correlation :=
        (h.correlation_iff htokens hevent htoken _).mpr (hwithin _ _ hbound)
      rw [hcarried]
      simp

/-- Noting the boot again leaves the store. -/
theorem recordBoot_again (h : Imported store batch tokens later) :
    later.recordBoot batch = later := by
  obtain ⟨boot, hprofile, -, hincomplete, hboots⟩ := h.boots
  have hget : later.rfTraceBoots.get? batch.bootId = some boot := by
    rw [hboots, BTreeMap.get?_insert_self]
  have hsame : later.rfTraceBoots.insert batch.bootId
      { boot with historyIncomplete := boot.historyIncomplete || (batch.historyIncomplete ||
        later.hasSequenceGap batch.bootId) } = later.rfTraceBoots := by
    have hboot : (boot.historyIncomplete || (batch.historyIncomplete ||
        later.hasSequenceGap batch.bootId)) = boot.historyIncomplete := by
      rw [hincomplete, Bool.or_assoc, Bool.or_self]
    rw [hboot]
    ext key : 1
    rw [BTreeMap.get?_insert]
    split_ifs with heq
    · rw [heq, hget]
    · rfl
  unfold recordBoot
  simp only [hget, Option.getD_some]
  rw [hsame]

/-- Importing a page again succeeds and changes nothing. -/
theorem importRfTraceBatchInner_again {staged : ImportState} (hsound : TablesSound store)
    (h : store.importRfTraceBatchInner batch = .ok staged) :
    staged.store.importRfTraceBatchInner batch =
      .ok ⟨staged.store, ⟨0, batch.observations.length, 0⟩⟩ := by
  obtain ⟨tokens, htokens, himported⟩ := imported_tables hsound h
  obtain ⟨tokens', htokens', hwithin⟩ :=
    tokenCorrelations_again himported (activity_imported h) htokens
  obtain ⟨boot, hprofile, -, -, hboots⟩ := himported.boots
  have hstored : ∀ (page : List RfTraceObservation) (existing : ℕ),
      (∀ observation ∈ page, observation ∈ batch.observations) →
      page.foldlM (importObservation batch tokens') ⟨staged.store, ⟨0, existing, 0⟩⟩ =
        .ok ⟨staged.store, ⟨0, existing + page.length, 0⟩⟩ := by
    intro page
    induction page with
    | nil => exact fun _ _ => rfl
    | cons observation page ih =>
      intro existing hpage
      rw [List.foldlM_cons, importObservation_again himported htokens hwithin
        (hpage observation List.mem_cons_self)]
      refine (ih (existing + 1) fun other hother =>
        hpage other (List.mem_cons_of_mem _ hother)).trans
        ?_
      rw [List.length_cons, Nat.add_right_comm, Nat.add_assoc]
  have henriched : ∀ (entries : List (RfTraceEventId × RfTraceEvent)) (state : ImportState),
      (∀ entry ∈ entries, entry ∈ staged.store.rfTraceEvents.entries) →
      entries.foldlM (enrichEvent tokens') state = .ok state := by
    intro entries
    induction entries with
    | nil => exact fun _ _ => rfl
    | cons entry entries ih =>
      intro state hentries
      rw [List.foldlM_cons, enrichEvent_again himported htokens hwithin
        (hentries entry List.mem_cons_self)]
      exact ih state fun other hother => hentries other (List.mem_cons_of_mem _ hother)
  have hpreflight : batch.observations.forM (staged.store.preflight batch.bootId) = .ok () := by
    apply List.forM_of_ok
    intro observation hmem
    obtain ⟨id, event, hevent, hboot, hobservation⟩ := himported.complete observation hmem
    have hkey : staged.store.rfTraceKeys.get? (traceKey batch.bootId observation) = some id :=
      (himported.sound.keyed _ _ id).mpr ⟨event, hevent, hboot, by rw [hobservation]⟩
    unfold preflight
    simp only [hkey, hevent, hobservation]
    simp
  unfold importRfTraceBatchInner
  rw [if_neg (by rw [hboots, BTreeMap.get?_insert_self]; simp [hprofile])]
  rw [hpreflight, htokens']
  simp only [Except.mapError, bind, Except.bind]
  rw [hstored batch.observations 0 fun _ => id]
  simp only [Nat.zero_add]
  rw [henriched _ _ fun _ => id]
  simp only [recordBoot_again himported]

end Import

end Chat
