import ReticulumFirmware.Chat.Reuse
import ReticulumFirmware.Collections.Pages

/-!
# Paging through the activity log and the RF traces

`message_activity` and `rf_trace` of the store answer newest first and name the cursor of the next
page. A reader follows the cursors while other calls go on.
-/

namespace Chat

open MemoryChatStore

/-- The largest page of either query. -/
abbrev maxPageSize : ℕ := 100

/-- A page size that a request accepts. -/
abbrev PageLimit := { limit : ℕ // 0 < limit ∧ limit ≤ maxPageSize }

/-- Which events of the activity log are asked for. -/
inductive MessageActivityScope where
  | all
  | timeline (sequence : TimelineSequence)
  deriving DecidableEq

/-- Whether an event is asked for. -/
def MessageActivityScope.selects : MessageActivityScope → MessageActivityEvent → Bool
  | all, _ => true
  | timeline sequence, event => decide (event.timelineSequence = sequence)

/-- A request for a page of the activity log. -/
structure MessageActivityPageRequest where
  scope : MessageActivityScope
  before : Option MessageActivityId
  limit : PageLimit

/-- A page of the activity log, newest event first. -/
structure MessageActivityPage where
  events : List MessageActivityEvent
  nextBefore : Option MessageActivityId
  historyIncomplete : Bool
  deriving DecidableEq

/-- Which trace events are asked for. -/
inductive RfTraceScope where
  | all
  | timeline (sequence : TimelineSequence)
  deriving DecidableEq

/-- Whether a trace event is asked for, by its correlated message. -/
def RfTraceScope.selects : RfTraceScope → RfTraceEvent → Bool
  | all, _ => true
  | timeline sequence, event =>
    event.correlation.any fun correlation => decide (correlation.timelineSequence = sequence)

/-- A request for a page of trace events. -/
structure RfTracePageRequest where
  scope : RfTraceScope
  before : Option RfTraceEventId
  limit : PageLimit

/-- A page of trace events, newest first. -/
structure RfTracePage where
  events : List RfTraceEvent
  nextBefore : Option RfTraceEventId
  historyIncomplete : Bool
  deriving DecidableEq

namespace MemoryChatStore

variable (self : MemoryChatStore)

/-- The inbound row that an event is about. -/
def inboundOf (event : MessageActivityEvent) : Option InboundRecord :=
  match event.kind with
  | .inboundImported messageId => self.inbound.get? messageId
  | _ => none

/-- An event with what the inbound row observed. -/
def projectActivity (event : MessageActivityEvent) : MessageActivityEvent :=
  { event with
    ingressObservation := (self.inboundOf event).bind (·.message.ingress)
    messageLocation := (self.inboundOf event).bind (·.message.location)
    receiverLocation := (self.inboundOf event).bind (·.receiverLocation) }

/-- One page of the activity log, newest first. -/
def messageActivity (request : MessageActivityPageRequest) : MessageActivityPage :=
  let events := ((self.activity.reverse.filter fun event =>
    request.before.all (fun before => decide (event.id < before)) &&
      request.scope.selects event).take (request.limit + 1)).map self.projectActivity
  let hasMore := decide (request.limit < events.length)
  let events := events.take request.limit
  ⟨events, if hasMore then events.getLast?.map (·.id) else none, self.activityHistoryIncomplete⟩

/-- One page of the RF traces, newest first. -/
def rfTrace (request : RfTracePageRequest) : RfTracePage :=
  let events := (self.rfTraceEvents.values.reverse.filter fun event =>
    request.before.all (fun before => decide (event.id < before)) &&
      request.scope.selects event).take (request.limit + 1)
  let hasMore := decide (request.limit < events.length)
  let events := events.take request.limit
  ⟨events, if hasMore then events.getLast?.map (·.id) else none,
    self.rfTraceBoots.values.any (·.historyIncomplete)⟩

end MemoryChatStore

/-- A store as a reader finds it, and the page size that it asks for. -/
abbrev Reading := MemoryChatStore × PageLimit

/-- What a reader of the activity log takes from a page. -/
def activityTurn (scope : MessageActivityScope) (reading : Reading)
    (before : Option MessageActivityId) : List MessageActivityEvent × Option MessageActivityId :=
  let page := reading.1.messageActivity ⟨scope, before, reading.2⟩
  (page.events, page.nextBefore)

/-- What a reader of the RF traces takes from a page. -/
def traceTurn (scope : RfTraceScope) (reading : Reading) (before : Option RfTraceEventId) :
    List RfTraceEvent × Option RfTraceEventId :=
  let page := reading.1.rfTrace ⟨scope, before, reading.2⟩
  (page.events, page.nextBefore)

section Turns

/-- An event keeps its identifier when it is presented. -/
@[simp] theorem projectActivity_id (store : MemoryChatStore) (event : MessageActivityEvent) :
    (store.projectActivity event).id = event.id := rfl

/-- The entries that a reader pages through. -/
def activityView (reading : Reading) : List MessageActivityEvent × ℕ :=
  (reading.1.activity, reading.2)

/-- The trace events that a reader pages through. -/
def traceView (reading : Reading) : List RfTraceEvent × ℕ :=
  (reading.1.rfTraceEvents.values, reading.2)

/-- The log is read page by page, and every event is completed from its row. -/
theorem activityTurn_eq (scope : MessageActivityScope) (reading : Reading)
    (before : Option MessageActivityId) :
    activityTurn scope reading before =
      ((Pages.turn MessageActivityEvent.id scope.selects (activityView reading) before).1.map
          reading.1.projectActivity,
        (Pages.turn MessageActivityEvent.id scope.selects (activityView reading) before).2) := by
  have hid : MessageActivityEvent.id ∘ reading.1.projectActivity = MessageActivityEvent.id :=
    funext fun event => projectActivity_id reading.1 event
  unfold activityTurn messageActivity Pages.turn Pages.page activityView Pages.matching
  simp only [← List.map_take, List.length_map, List.getLast?_map, Option.map_map, hid,
    decide_eq_true_eq]

/-- A turn of the trace reads one page of the retained events. -/
theorem traceTurn_eq (scope : RfTraceScope) (reading : Reading) (before : Option RfTraceEventId) :
    traceTurn scope reading before =
      Pages.turn RfTraceEvent.id scope.selects (traceView reading) before := by
  unfold traceTurn rfTrace Pages.turn Pages.page traceView Pages.matching
  simp only [decide_eq_true_eq]

end Turns

section Growth

/-- New events have new identifiers, and a trace keeps its place and its correlation. -/
structure Grown (store later : MemoryChatStore) : Prop where
  counter : store.nextActivityId.toNat ≤ later.nextActivityId.toNat
  activity : ∀ event ∈ later.activity, event ∈ store.activity ∨
    store.nextActivityId.toNat ≤ event.id.get.toNat
  traces : ∀ id event, store.rfTraceEvents.get? id = some event → ∃ event',
    later.rfTraceEvents.get? id = some event' ∧
      ∀ correlation, event.correlation = some correlation → event'.correlation = some correlation

/-- A store has grown from itself. -/
theorem Grown.refl (store : MemoryChatStore) : Grown store store :=
  ⟨le_refl _, fun _ => Or.inl, fun _ event hevent => ⟨event, hevent, fun _ => id⟩⟩

/-- A store that has grown from a grown one has grown from the first. -/
theorem Grown.trans {store later latest : MemoryChatStore} (h : Grown store later)
    (h' : Grown later latest) : Grown store latest := by
  refine ⟨h.counter.trans h'.counter, fun event hevent => ?_, fun id event hevent => ?_⟩
  · rcases h'.activity event hevent with hlater | hnew
    · exact h.activity event hlater
    · exact Or.inr (h.counter.trans hnew)
  · obtain ⟨event', hevent', hkept⟩ := h.traces id event hevent
    obtain ⟨event'', hevent'', hkept'⟩ := h'.traces id event' hevent'
    exact ⟨event'', hevent'', fun correlation hcorrelation =>
      hkept' correlation (hkept correlation hcorrelation)⟩

/-- An import does not take a correlation away. -/
theorem Imported.kept {store later : MemoryChatStore} {batch : RfTraceImportBatch}
    {tokens : TokenCorrelations} (h : Imported store batch tokens later)
    (hsound : TracesSound store) (htokens : store.tokenCorrelations batch = .ok tokens)
    {id : RfTraceEventId} {event : RfTraceEvent} (hevent : store.rfTraceEvents.get? id = some event)
    {correlation : RfTraceMessageCorrelation}
    (hcorrelation : event.correlation = some correlation) :
    (enrich tokens event).correlation = some correlation := by
  cases htoken : event.observation.rnsAttemptToken with
  | none =>
    have hnone := hsound.tokened event ⟨id, hevent⟩ htoken
    rw [hnone] at hcorrelation
    cases hcorrelation
  | some token =>
    refine (h.correlation_iff htokens ⟨id, h.old id event hevent⟩
      (by rw [enrich_observation, htoken]) correlation).mpr ?_
    exact (tokenCorrelations_iff htokens token correlation).mpr
      (Or.inl ⟨event, ⟨id, hevent⟩, htoken, hcorrelation⟩)

/-- Every effect of a call lets the store grow. -/
theorem Change.grown {store later : MemoryChatStore} {call : Call} (h : Change store call later)
    (hsound : StoreSound store) : Grown store later := by
  have hcounted : store.nextActivityId.toNat ≤ later.nextActivityId.toNat ∧
      ∀ event ∈ later.activity, event ∈ store.activity ∨
        store.nextActivityId.toNat ≤ event.id.get.toNat := by
    rcases h.log hsound.rows hsound.places with hsame | ⟨event, hstep, -⟩
    · rw [hsame.activity, hsame.next]
      exact ⟨le_refl _, fun _ => Or.inl⟩
    · refine ⟨by rw [hstep.logged.counted]; exact Nat.le_succ _, fun event' hevent' => ?_⟩
      rcases hstep.logged.mem hevent' with hold | rfl
      · exact Or.inl hold
      · rw [hstep.logged.numbered]
        exact Or.inr (le_refl _)
  refine ⟨hcounted.1, hcounted.2, fun id event hevent => ?_⟩
  rcases h.traces_cases with hevents | ⟨batch, staged, himport, rfl⟩
  · rw [hevents]
    exact ⟨event, hevent, fun _ hcorrelation => hcorrelation⟩
  · obtain ⟨tokens, htokens, himported⟩ := imported_tables hsound.traces.tables himport
    exact ⟨enrich tokens event, himported.old id event hevent,
      fun correlation => himported.kept hsound.traces htokens hevent⟩

/-- Calls let a store grow. -/
theorem grown_after {store : MemoryChatStore} (h : StoreSound store) (calls : List Call) :
    Grown store (store.after calls) := by
  induction calls generalizing store with
  | nil => exact .refl store
  | cons call calls ih =>
    have hchange := call.change store
    exact (hchange.grown h).trans (ih (h.change hchange))

/-- The log is in ascending order of identifiers. -/
theorem LogSound.ascending {store : MemoryChatStore} (h : LogSound store) :
    store.activity.Pairwise fun a b => a.id < b.id := h.ordered

/-- An event that is in the log before and after some calls is in the log in between. -/
theorem Grown.kept_between {store later latest : MemoryChatStore} (hsound : LogSound store)
    (h : Grown store later) (h' : Grown later latest) {event event' : MessageActivityEvent}
    (hevent : event ∈ store.activity) (hevent' : event' ∈ latest.activity)
    (hid : event'.id = event.id) : event ∈ later.activity := by
  have hold := hsound.counted event hevent
  have hlater : event' ∈ later.activity := by
    refine (h'.activity event' hevent').resolve_right fun hnew => ?_
    have := h.counter
    rw [hid] at hnew
    omega
  have hstore : event' ∈ store.activity := by
    refine (h.activity event' hlater).resolve_right fun hnew => ?_
    rw [hid] at hnew
    omega
  have hsame : event' = event := Pages.eq_of_key_eq hsound.ascending hstore hevent hid
  rwa [← hsame]

end Growth

section Paging

/-- Readings of a store while calls go on. -/
def Follows (reading later : Reading) : Prop := ∃ calls, later.1 = reading.1.after calls

/-- A reading that follows a later one follows the first. -/
theorem Follows.trans {reading later latest : Reading} (h : Follows reading later)
    (h' : Follows later latest) : Follows reading latest := by
  obtain ⟨calls, hlater⟩ := h
  obtain ⟨calls', hlatest⟩ := h'
  exact ⟨calls ++ calls', by rw [hlatest, hlater, after_append]⟩

/-- Chains of readings that follow each other. -/
instance : Trans Follows Follows Follows := ⟨Follows.trans⟩

/-- Readings that begin with a store and go on from there. -/
structure ReadsFrom (store : MemoryChatStore) (readings : List Reading) : Prop where
  first : readings.head?.map Prod.fst = some store
  chain : readings.IsChain Follows

/-- Every reading of a store comes after the first and before the last. -/
theorem ReadsFrom.cases {store : MemoryChatStore} {readings : List Reading}
    (h : ReadsFrom store readings) {reading : Reading} (hreading : reading ∈ readings) :
    (∃ calls, reading.1 = store.after calls) ∧
      ∀ last, readings.getLast? = some last → ∃ calls, last.1 = reading.1.after calls := by
  have hpairs := h.chain.pairwise
  obtain ⟨first, rest, rfl⟩ := List.exists_cons_of_ne_nil (List.ne_nil_of_mem hreading)
  obtain rfl : first.1 = store := Option.some.inj h.first
  refine ⟨?_, fun last hlast => ?_⟩
  · rcases List.mem_cons.mp hreading with rfl | hrest
    · exact ⟨[], rfl⟩
    · exact (List.pairwise_cons.mp hpairs).1 reading hrest
  · obtain ⟨front, hfront⟩ : ∃ front, first :: rest = front ++ [last] :=
      List.getLast?_eq_some_iff.mp hlast
    rw [hfront] at hpairs hreading
    rcases List.mem_append.mp hreading with hmem | hmem
    · exact (List.pairwise_append.mp hpairs).2.2 reading hmem last (List.mem_singleton_self _)
    · rw [List.mem_singleton.mp hmem]
      exact ⟨[], rfl⟩

/-- What the pages of a query return to a reader, where `turn` reads one page, `kept` are the
entries of a store and `show` completes them for the reader. -/
structure PagesExactly {α : Type} (store : MemoryChatStore) (key : α → NonZeroU64)
    (kept : MemoryChatStore → List α) (present : MemoryChatStore → α → α) (selects : α → Bool)
    (turn : Reading → Option NonZeroU64 → List α × Option NonZeroU64) : Prop where
  /-- A page has no next page exactly if it shows all that is left. -/
  ends : ∀ limit before, (turn (store, limit) before).2 = none ↔
    ∀ entry ∈ kept store, selects entry = true →
      (∀ cursor, before = some cursor → key entry < cursor) →
      ∃ event ∈ (turn (store, limit) before).1, key event = key entry
  /-- Reading an unchanged store comes to an end. -/
  terminates : ∀ limit : ℕ → PageLimit, ∃ n events,
    Pages.Walk turn none ((List.range n).map fun i => (store, limit i)) events
  /-- What it returns is every selected entry, newest first. -/
  unchanged : ∀ readings events, (∀ reading ∈ readings, reading.1 = store) →
    Pages.Walk turn none readings events →
    events = ((kept store).reverse.filter selects).map (present store) ∧
      events.Pairwise fun a b => key b < key a
  /-- While the store changes, no entry is returned twice and none that stays is missed. -/
  changing : ∀ readings events, ReadsFrom store readings → Pages.Walk turn none readings events →
    (events.Pairwise fun a b => key b < key a) ∧
      ∀ entry ∈ kept store, selects entry = true → ∀ last, readings.getLast? = some last →
        (∃ entry' ∈ kept last.1, key entry' = key entry ∧ selects entry' = true) →
        ∃ event ∈ events, key event = key entry

end Paging

section Exact

variable {α : Type} {store : MemoryChatStore} {key : α → NonZeroU64}
  {kept : MemoryChatStore → List α} {present : MemoryChatStore → α → α} {selects : α → Bool}
  {turn : Reading → Option NonZeroU64 → List α × Option NonZeroU64}

/-- Each page shows the entries of its store, completed. -/
def Turns (key : α → NonZeroU64) (kept : MemoryChatStore → List α)
    (present : MemoryChatStore → α → α) (selects : α → Bool)
    (turn : Reading → Option NonZeroU64 → List α × Option NonZeroU64) : Prop :=
  ∀ reading before, turn reading before =
    ((Pages.page key selects (kept reading.1) before reading.2).1.map (present reading.1),
      (Pages.page key selects (kept reading.1) before reading.2).2)

/-- A turn whose entries keep their key shows the kept entries. -/
theorem Turns.shows (h : Turns key kept present selects turn)
    (hkey : ∀ store entry, key (present store entry) = key entry) :
    Pages.Shows key key selects (fun reading : Reading => (kept reading.1, reading.2.1)) turn := by
  intro reading before
  rw [h reading before]
  refine ⟨?_, rfl⟩
  exact List.forall₂_map_left_iff.mpr (List.forall₂_same.mpr fun entry _ => hkey reading.1 entry)

/-- Pages are exact when the entries stay in ascending order, and an entry that is there before
and after some calls is there in between. -/
theorem Turns.pagesExactly (h : Turns key kept present selects turn)
    (hkey : ∀ store entry, key (present store entry) = key entry)
    (hordered : ∀ calls, (kept (store.after calls)).Pairwise fun a b => key a < key b)
    (hstays : ∀ calls calls', ∀ entry ∈ kept store, selects entry = true →
      (∃ entry' ∈ kept ((store.after calls).after calls'),
        key entry' = key entry ∧ selects entry' = true) →
      ∃ entry' ∈ kept (store.after calls), key entry' = key entry ∧ selects entry' = true) :
    PagesExactly store key kept present selects turn := by
  have hshows := h.shows hkey
  have hsame : (kept store).Pairwise fun a b => key a < key b := hordered []
  have hreading : ∀ reading : Reading, reading.1 = store → ∀ before, ∃ limit, 0 < limit ∧
      turn reading before = ((Pages.page key selects (kept store) before limit).1.map
        (present store), (Pages.page key selects (kept store) before limit).2) := by
    rintro ⟨-, limit⟩ rfl before
    exact ⟨limit, limit.2.1, h _ before⟩
  refine ⟨fun limit before => ?_, fun limit => ?_, fun readings events hreadings hwalk => ?_,
    fun readings events hreads hwalk => ?_⟩
  · rw [hshows.next_eq_none_iff ⟨hsame, limit.2.1⟩]
    refine forall_congr' fun entry => ?_
    rw [Pages.mem_matching]
    exact ⟨fun hall hentry hselects hbefore => hall ⟨hentry, hbefore, hselects⟩,
      fun hall hentry => hall hentry.1 hentry.2.2 hentry.2.1⟩
  · obtain ⟨n, hwalk⟩ : ∃ n, Pages.Walk turn none
        ((List.range n).map fun i => (store, limit i))
        ((Pages.matching key selects (kept store) none).map (present store)) :=
      Pages.exists_walk hsame (fun i => (store, limit i)) fun i => hreading _ rfl
    exact ⟨n, _, hwalk⟩
  · have hevents := hwalk.eq_matching hsame fun reading hmem => hreading reading (hreadings _ hmem)
    refine ⟨?_, hshows.descending hwalk fun reading hmem => ?_⟩
    · rw [hevents, Pages.matching]
      simp only [Option.all_none, Bool.true_and]
    · rw [hreadings reading hmem]
      exact ⟨hsame, reading.2.2.1⟩
  · have hreadable : ∀ reading ∈ readings, Pages.Readable key (kept reading.1, reading.2.1) := by
      intro reading hmem
      obtain ⟨⟨calls, hcalls⟩, -⟩ := hreads.cases hmem
      rw [hcalls]
      exact ⟨hordered calls, reading.2.2.1⟩
    refine ⟨hshows.descending hwalk hreadable, fun entry hentry hselects last hlast hstill => ?_⟩
    refine hshows.complete hwalk hreadable (by rintro _ ⟨⟩) fun reading hmem => ?_
    obtain ⟨⟨calls, hcalls⟩, hlater⟩ := hreads.cases hmem
    obtain ⟨calls', hcalls'⟩ := hlater last hlast
    rw [hcalls', hcalls] at hstill
    rw [hcalls]
    exact hstays calls calls' entry hentry hselects hstill

end Exact

section Stores

variable {store : MemoryChatStore}

/-- A trace stays, and what it is about stays known. -/
theorem Grown.trace_stays {later : MemoryChatStore} (h : Grown store later)
    (htables : TablesSound store) (htables' : TablesSound later) (scope : RfTraceScope)
    {event : RfTraceEvent} (hevent : event ∈ store.rfTraceEvents.values)
    (hselects : scope.selects event = true) :
    ∃ event' ∈ later.rfTraceEvents.values, event'.id = event.id ∧
      scope.selects event' = true := by
  obtain ⟨id, hget⟩ := BTreeMap.mem_values.mp hevent
  obtain ⟨event', hget', hcorrelation⟩ := h.traces id event hget
  refine ⟨event', BTreeMap.mem_values.mpr ⟨id, hget'⟩, ?_, ?_⟩
  · rw [(htables.filed id event hget).1, (htables'.filed id event' hget').1]
  · cases scope with
    | all => rfl
    | timeline sequence =>
      obtain ⟨correlation, hsome, hsequence⟩ := (Option.any_eq_true _ _).mp hselects
      exact (Option.any_eq_true _ _).mpr ⟨correlation, hcorrelation correlation hsome, hsequence⟩

/-- The pages of the activity log are exact in every scope. -/
theorem activity_pagesExactly (h : StoreSound store) (scope : MessageActivityScope) :
    PagesExactly store MessageActivityEvent.id (·.activity) (·.projectActivity) scope.selects
      (activityTurn scope) := by
  refine Turns.pagesExactly (activityTurn_eq scope) projectActivity_id
    (fun calls => (h.after calls).log.ascending) fun calls calls' entry hentry hselects => ?_
  rintro ⟨entry', hentry', hid, -⟩
  exact ⟨entry, (grown_after h calls).kept_between h.log (grown_after (h.after calls) calls')
    hentry hentry' hid, rfl, hselects⟩

/-- The pages of the radio trace are exact in every scope. -/
theorem trace_pagesExactly (h : StoreSound store) (scope : RfTraceScope) :
    PagesExactly store RfTraceEvent.id (·.rfTraceEvents.values) (fun _ event => event)
      scope.selects (traceTurn scope) := by
  refine Turns.pagesExactly (fun reading before => ?_) (fun _ _ => rfl) (fun calls => ?_)
    fun calls calls' entry hentry hselects _ =>
      (grown_after h calls).trace_stays h.traces.tables (h.after calls).traces.tables scope hentry
        hselects
  · rw [traceTurn_eq, List.map_id']
    rfl
  · exact BTreeMap.pairwise_values fun id event hevent =>
      ((h.after calls).traces.tables.filed id event hevent).1

/-- Both queries of a store that any calls have led to return the selected entries exactly once,
newest first. -/
theorem paging_exact (calls : List Call) :
    (∀ scope : MessageActivityScope, PagesExactly (new.after calls) MessageActivityEvent.id
      (·.activity) (·.projectActivity) scope.selects (activityTurn scope)) ∧
    ∀ scope : RfTraceScope, PagesExactly (new.after calls) RfTraceEvent.id
      (·.rfTraceEvents.values) (fun _ event => event) scope.selects (traceTurn scope) := by
  have hsound := storeSound_new.after calls
  exact ⟨activity_pagesExactly hsound, trace_pagesExactly hsound⟩

end Stores

end Chat
