import ReticulumFirmware.Chat.Image

/-!
# Importing RF traces

A page of observations of one boot is imported all at once. Attempt tokens are correlated
with message attempts from the events that carry a correlation already and from the
submissions that retained or imported events name; the page is then stored, and every
retained event that shares a correlated token is enriched.
-/

namespace Chat

/-- Observations in one page. -/
abbrev maxRfTracePageSize : ℕ := 100

/-- One atomic page of observations from a trace-producing boot. -/
structure RfTraceImportBatch where
  bootId : RfTraceBootId
  profile : RfTraceRadioProfile
  importedAtUnixMs : UInt64
  historyIncomplete : Bool
  observations : List RfTraceObservation
  supported : importedAtUnixMs ≤ maxUnixTimestampMillis
  bounded : observations.length ≤ maxRfTracePageSize
  ordered : observations.IsChain fun a b => a.eventSequence < b.eventSequence

/-- Counts of one import. -/
structure RfTraceImportOutcome where
  inserted : ℕ
  existing : ℕ
  correlationsAdded : ℕ
  deriving DecidableEq

/-- The message attempts that tokens stand for. -/
abbrev TokenCorrelations := BTreeMap RnsAttemptToken RfTraceMessageCorrelation

/-- A store under an import, with its counts. -/
structure ImportState where
  store : MemoryChatStore
  outcome : RfTraceImportOutcome

namespace MemoryChatStore

/-- The key that recognises a replayed observation. -/
def traceKey (bootId : RfTraceBootId) (observation : RfTraceObservation) :
    RfTraceBootId ×ₗ RfTraceEventSequence :=
  toLex (bootId, observation.eventSequence)

/-- Bind a token, unless it stands for another attempt. -/
def seedTokenCorrelation (tokens : TokenCorrelations) (token : RnsAttemptToken)
    (correlation : RfTraceMessageCorrelation) : Except ChatStoreError TokenCorrelations :=
  if (tokens.get? token).any (· ≠ correlation) then .error (.rfTraceAttemptTokenConflict token)
  else .ok (tokens.insert token correlation)

/-- Bind the token of an event that carries a correlation. -/
def seedPersisted (tokens : TokenCorrelations) (event : RfTraceEvent) :
    Except ChatStoreError TokenCorrelations :=
  match event.observation.rnsAttemptToken, event.correlation with
  | some token, some correlation => seedTokenCorrelation tokens token correlation
  | _, _ => .ok tokens

/-- Bind the token of an observation whose submission the activity resolves. -/
def seedDirect (activity : List MessageActivityEvent) (tokens : TokenCorrelations)
    (observation : RfTraceObservation) : Except ChatStoreError TokenCorrelations :=
  match observation.submissionId, observation.rnsAttemptToken with
  | some submissionId, some token =>
    match rfTraceCorrelation activity submissionId with
    | .error error => .error error
    | .ok none => .ok tokens
    | .ok (some correlation) => seedTokenCorrelation tokens token correlation
  | _, _ => .ok tokens

variable (self : MemoryChatStore)

/-- Whether an observation of the page agrees with its retained event. -/
def preflight (bootId : RfTraceBootId) (observation : RfTraceObservation) :
    Except StoreFailure Unit :=
  match self.rfTraceKeys.get? (traceKey bootId observation) with
  | none => .ok ()
  | some id =>
    match self.rfTraceEvents.get? id with
    | none => .error .panic
    | some existing =>
      if existing.observation ≠ observation then
        .error (.error (.rfTraceEventConflict bootId observation.eventSequence))
      else .ok ()

/-- The tokens that the retained events and the page bind. -/
def tokenCorrelations (batch : RfTraceImportBatch) : Except ChatStoreError TokenCorrelations :=
  self.rfTraceEvents.values.foldlM seedPersisted .empty >>= fun tokens =>
  (self.rfTraceEvents.values.map (·.observation) ++ batch.observations).foldlM
    (seedDirect self.activity) tokens

/-- The identifier of the next trace event, and the counter after it. -/
def reserveRfTraceId : Option (RfTraceEventId × UInt64) :=
  match checkedAddOne self.nextRfTraceId, NonZeroU64.new self.nextRfTraceId with
  | some nextRfTraceId, some id => some (id, nextRfTraceId)
  | _, _ => none

/-- The correlation of the token an observation names. -/
def tokenOf (tokens : TokenCorrelations) (observation : RfTraceObservation) :
    Option RfTraceMessageCorrelation :=
  observation.rnsAttemptToken.bind tokens.get?

/-- Store one observation of the page. -/
def importObservation (batch : RfTraceImportBatch) (tokens : TokenCorrelations)
    (state : ImportState) (observation : RfTraceObservation) : Except StoreFailure ImportState :=
  let key := traceKey batch.bootId observation
  let correlation := tokenOf tokens observation
  match state.store.rfTraceKeys.get? key with
  | some id =>
    let outcome := { state.outcome with existing := state.outcome.existing + 1 }
    match state.store.rfTraceEvents.get? id with
    | none => .error .panic
    | some event =>
      match event.correlation, correlation with
      | none, some correlation =>
        .ok ⟨{ state.store with
          rfTraceEvents := state.store.rfTraceEvents.insert id
            { event with correlation := some correlation } },
          { outcome with correlationsAdded := outcome.correlationsAdded + 1 }⟩
      | some existing, some current =>
        if existing ≠ current then .error (.error (.invalidImage .inconsistentRfTrace))
        else .ok ⟨state.store, outcome⟩
      | _, none => .ok ⟨state.store, outcome⟩
  | none =>
    match state.store.reserveRfTraceId with
    | none => .error (.error .identifierExhausted)
    | some (id, nextRfTraceId) =>
      .ok ⟨{ state.store with
        rfTraceEvents := state.store.rfTraceEvents.insert id
          ⟨id, batch.bootId, batch.profile, batch.importedAtUnixMs, observation, correlation⟩
        rfTraceKeys := state.store.rfTraceKeys.insert key id
        nextRfTraceId },
        { state.outcome with inserted := state.outcome.inserted + 1 }⟩

/-- Correlate one retained event through its token. -/
def enrichEvent (tokens : TokenCorrelations) (state : ImportState)
    (entry : RfTraceEventId × RfTraceEvent) : Except StoreFailure ImportState :=
  match entry.2.observation.rnsAttemptToken with
  | none => .ok state
  | some token =>
    match tokens.get? token with
    | none => .ok state
    | some correlation =>
      match entry.2.correlation with
      | none =>
        .ok ⟨{ state.store with
          rfTraceEvents := state.store.rfTraceEvents.insert entry.1
            { entry.2 with correlation := some correlation } },
          { state.outcome with correlationsAdded := state.outcome.correlationsAdded + 1 }⟩
      | some existing =>
        if existing ≠ correlation then .error (.error (.rfTraceAttemptTokenConflict token))
        else .ok state

/-- Whether ascending sequences from `expected` on leave one out. -/
def sequenceGap : UInt64 → List RfTraceEventSequence → Bool
  | _, [] => false
  | expected, sequence :: rest =>
    if sequence.get ≠ expected then true
    else
      match checkedAddOne expected with
      | none => false
      | some next => sequenceGap next rest

/-- Whether the retained sequences of a boot have a gap. -/
def hasSequenceGap (bootId : RfTraceBootId) : Bool :=
  sequenceGap 1 (self.rfTraceKeys.entries.filterMap fun entry =>
    if (ofLex entry.1).1 = bootId then some (ofLex entry.1).2 else none)

/-- Note whether the history of the page's boot is complete. -/
def recordBoot (batch : RfTraceImportBatch) : MemoryChatStore :=
  let boot := (self.rfTraceBoots.get? batch.bootId).getD ⟨batch.profile, false⟩
  { self with
    rfTraceBoots := self.rfTraceBoots.insert batch.bootId { boot with
      historyIncomplete := boot.historyIncomplete || (batch.historyIncomplete ||
        self.hasSequenceGap batch.bootId) } }

/-- Import a page into a staged store. An error leaves no staged store behind. -/
def importRfTraceBatchInner (batch : RfTraceImportBatch) : Except StoreFailure ImportState :=
  if (self.rfTraceBoots.get? batch.bootId).any (·.profile ≠ batch.profile) then
    .error (.error (.rfTraceBootProfileConflict batch.bootId))
  else
    -- the complete page is checked before any identifier is assigned
    batch.observations.forM (self.preflight batch.bootId) >>= fun _ =>
    (self.tokenCorrelations batch).mapError StoreFailure.error >>= fun tokens =>
    batch.observations.foldlM (importObservation batch tokens) ⟨self, ⟨0, 0, 0⟩⟩ >>= fun state =>
    state.store.rfTraceEvents.entries.foldlM (enrichEvent tokens) state >>= fun state =>
    .ok { state with store := state.store.recordBoot batch }

/-- Import a page, or change nothing. -/
def importRfTraceBatch (batch : RfTraceImportBatch) : StoreResult RfTraceImportOutcome :=
  match self.importRfTraceBatchInner batch with
  | .ok staged => (.ok staged.outcome, staged.store)
  | .error failure => (.error failure, self)

end MemoryChatStore

end Chat
