import ReticulumFirmware.Chat.StoreSound

/-!
# The activity log

The events of the log are numbered, stay within the bound, and show attempts of existing rows.
A submission that is accepted for two attempts can resolve to both; the rest of the calls never
add an attempt to what a submission resolves to.
-/

namespace Chat

open MemoryChatStore

/-- A row of the store has reached this attempt at this place. -/
def Shows (store : MemoryChatStore) (id : OutboxId) (sequence : TimelineSequence)
    (attempt : MessageAttemptNumber) : Prop :=
  ∃ row, store.outbox.get? id = some row ∧ row.sequence = sequence ∧
    attempt.get.toNat ≤ row.currentAttempt.get.toNat

/-- A row of the store has an acceptance of this attempt, or is past it. -/
def Spent (store : MemoryChatStore) (id : OutboxId) (attempt : MessageAttemptNumber) : Prop :=
  ∃ row, store.outbox.get? id = some row ∧ (attempt.get.toNat < row.currentAttempt.get.toNat ∨
    attempt = row.currentAttempt ∧ row.acceptance ≠ none)

/-- The log of a store. -/
structure LogSound (store : MemoryChatStore) : Prop where
  ordered : store.activity.Pairwise fun a b => a.id.get.toNat < b.id.get.toNat
  counted : ∀ event ∈ store.activity, event.id.get.toNat < store.nextActivityId.toNat
  bounded : store.activity.length ≤ maxMessageActivityEvents
  placed : ∀ event ∈ store.activity,
    event.timelineSequence.get.toNat < store.nextSequence.toNat
  shown : ∀ event ∈ store.activity, ∀ id, event.outboxId = some id →
    ∃ attempt, event.attemptNumber = some attempt ∧ Shows store id event.timelineSequence attempt
  spent : ∀ event ∈ store.activity, ∀ acceptance, event.kind = .outboundAccepted acceptance →
    ∃ id attempt, event.outboxId = some id ∧ event.attemptNumber = some attempt ∧
      Spent store id attempt
  once : ∀ id attempt location location', Begins store.activity id attempt location →
    Begins store.activity id attempt location' → location = location'

/-- The log of a store can be read. -/
theorem LogSound.readable {store : MemoryChatStore} (h : LogSound store) :
    Readable store.activity := by
  refine ⟨h.once, ?_⟩
  intro event hmem acceptance hkind
  obtain ⟨id, attempt, hid, hattempt, -⟩ := h.spent event hmem acceptance hkind
  exact ⟨id, attempt, hid, hattempt⟩

/-- Rows stay at their places, do not go back to an earlier attempt and do not lose the
acceptance of their attempt. -/
structure RowsGrow (store later : MemoryChatStore) : Prop where
  shows : ∀ id sequence attempt, Shows store id sequence attempt → Shows later id sequence attempt
  spent : ∀ id attempt, Spent store id attempt → Spent later id attempt

/-- A step that keeps the outbox rows lets them grow. -/
theorem RowsGrow.same {store later : MemoryChatStore} (houtbox : later.outbox = store.outbox) :
    RowsGrow store later := by
  constructor
  · intro id sequence attempt h
    rw [Shows, houtbox]
    exact h
  · intro id attempt h
    rw [Spent, houtbox]
    exact h

/-- A row that is new, or keeps its place and goes on in its attempts, lets the rows grow. -/
theorem RowsGrow.insert {store later : MemoryChatStore} {id : OutboxId} {row : OutboxRecord}
    (houtbox : later.outbox = store.outbox.insert id row)
    (hrow : ∀ old, store.outbox.get? id = some old → row.sequence = old.sequence ∧
      (old.currentAttempt.get.toNat < row.currentAttempt.get.toNat ∨
        row.currentAttempt = old.currentAttempt ∧
          (old.acceptance ≠ none → row.acceptance ≠ none))) : RowsGrow store later := by
  have hgrow : ∀ id' old, store.outbox.get? id' = some old → ∃ new,
      later.outbox.get? id' = some new ∧ new.sequence = old.sequence ∧
      (old.currentAttempt.get.toNat < new.currentAttempt.get.toNat ∨
        new.currentAttempt = old.currentAttempt ∧
          (old.acceptance ≠ none → new.acceptance ≠ none)) := by
    intro id' old hold
    rw [houtbox, BTreeMap.get?_insert]
    split_ifs with heq
    · subst heq
      exact ⟨row, rfl, hrow old hold⟩
    · exact ⟨old, hold, rfl, Or.inr ⟨rfl, fun h => h⟩⟩
  constructor
  · rintro id' sequence attempt ⟨old, hold, hsequence, hattempt⟩
    obtain ⟨new, hnew, hsame, hcurrent⟩ := hgrow id' old hold
    refine ⟨new, hnew, hsame.trans hsequence, ?_⟩
    rcases hcurrent with hlt | ⟨heq, -⟩
    · omega
    · rwa [heq]
  · rintro id' attempt ⟨old, hold, hspent⟩
    obtain ⟨new, hnew, -, hcurrent⟩ := hgrow id' old hold
    refine ⟨new, hnew, ?_⟩
    rcases hspent with hlt | ⟨rfl, hacceptance⟩
    · rcases hcurrent with hlt' | ⟨heq, -⟩
      · exact Or.inl (by omega)
      · exact Or.inl (by rwa [heq])
    · rcases hcurrent with hlt' | ⟨heq, hkept⟩
      · exact Or.inl hlt'
      · exact Or.inr ⟨heq.symm, hkept hacceptance⟩

/-- What an event has to be to enter the log. -/
structure Loggable (store later : MemoryChatStore) (event : MessageActivityEvent) : Prop where
  placed : event.timelineSequence.get.toNat < later.nextSequence.toNat
  shown : ∀ id, event.outboxId = some id → ∃ attempt, event.attemptNumber = some attempt ∧
    Shows later id event.timelineSequence attempt
  spent : ∀ acceptance, event.kind = .outboundAccepted acceptance → ∃ id attempt,
    event.outboxId = some id ∧ event.attemptNumber = some attempt ∧ Spent later id attempt
  /-- An attempt that begins is a new one. -/
  begun : ∀ id attempt sequence, event.attemptLocation ≠ none → event.outboxId = some id →
    event.attemptNumber = some attempt → ¬ Shows store id sequence attempt

/-- The log after an event. -/
theorem MemoryChatStore.Logged.mem {store : MemoryChatStore} {event : MessageActivityEvent}
    {activity : List MessageActivityEvent} {next : UInt64}
    (h : Logged store event activity next) {event' : MessageActivityEvent}
    (hmem : event' ∈ activity) : event' ∈ store.activity ∨ event' = event := by
  rw [h.kept] at hmem
  have hmem' := List.mem_of_mem_drop hmem
  rwa [List.mem_append, List.mem_singleton] at hmem'

/-- An attempt that begins in the log is of a row. -/
theorem LogSound.shows_of_begins {store : MemoryChatStore} (h : LogSound store) {id : OutboxId}
    {attempt : MessageAttemptNumber} {location : AttemptLocationStamp}
    (hbegins : Begins store.activity id attempt location) :
    ∃ sequence, Shows store id sequence attempt := by
  obtain ⟨event, hmem, hid, hattempt, -⟩ := hbegins
  obtain ⟨attempt', hattempt', hshows⟩ := h.shown event hmem id hid
  rw [hattempt] at hattempt'
  cases hattempt'
  exact ⟨_, hshows⟩

/-- The begin of an attempt is in the log, or it is the new event. -/
theorem MemoryChatStore.Logged.begins {store : MemoryChatStore} {event : MessageActivityEvent}
    {activity : List MessageActivityEvent} {next : UInt64}
    (h : Logged store event activity next) {id : OutboxId} {attempt : MessageAttemptNumber}
    {location : AttemptLocationStamp} (hbegins : Begins activity id attempt location) :
    Begins store.activity id attempt location ∨ event.outboxId = some id ∧
      event.attemptNumber = some attempt ∧ event.attemptLocation = some location := by
  obtain ⟨event', hmem, hid, hattempt, hlocation⟩ := hbegins
  rcases h.mem hmem with hold | rfl
  · exact Or.inl ⟨event', hold, hid, hattempt, hlocation⟩
  · exact Or.inr ⟨hid, hattempt, hlocation⟩

/-- The log stays sound when an event about a present row or message is appended. -/
theorem LogSound.logged {store later : MemoryChatStore} {event : MessageActivityEvent}
    (h : LogSound store) (hlogged : Logged store event later.activity later.nextActivityId)
    (hgrow : RowsGrow store later)
    (hnext : store.nextSequence.toNat ≤ later.nextSequence.toNat)
    (hevent : Loggable store later event) : LogSound later := by
  refine ⟨?_, ?_, ?_, ?_, ?_, ?_, ?_⟩
  · rw [hlogged.kept]
    refine List.Pairwise.sublist (List.drop_sublist _ _) ?_
    rw [List.pairwise_append]
    refine ⟨h.ordered, List.pairwise_singleton _ _, ?_⟩
    intro a ha b hb
    rw [List.mem_singleton] at hb
    rw [hb, hlogged.numbered]
    exact h.counted a ha
  · intro event' hmem
    rw [hlogged.counted]
    rcases hlogged.mem hmem with hold | rfl
    · have hcounted := h.counted event' hold
      omega
    · rw [hlogged.numbered]
      omega
  · rw [hlogged.kept, List.length_drop, List.length_append, List.length_singleton]
    omega
  · intro event' hmem
    rcases hlogged.mem hmem with hold | rfl
    · exact (h.placed event' hold).trans_le hnext
    · exact hevent.placed
  · intro event' hmem id hid
    rcases hlogged.mem hmem with hold | rfl
    · obtain ⟨attempt, hattempt, hshows⟩ := h.shown event' hold id hid
      exact ⟨attempt, hattempt, hgrow.shows _ _ _ hshows⟩
    · exact hevent.shown id hid
  · intro event' hmem acceptance hkind
    rcases hlogged.mem hmem with hold | rfl
    · obtain ⟨id, attempt, hid, hattempt, hspent⟩ := h.spent event' hold acceptance hkind
      exact ⟨id, attempt, hid, hattempt, hgrow.spent _ _ hspent⟩
    · exact hevent.spent acceptance hkind
  · intro id attempt location location' hfirst hsecond
    have hfresh : ∀ {location location'}, Begins store.activity id attempt location →
        event.outboxId = some id → event.attemptNumber = some attempt →
        event.attemptLocation = some location' → False := by
      intro location location' hbegins hid hattempt hlocation
      obtain ⟨sequence, hshows⟩ := h.shows_of_begins hbegins
      exact hevent.begun id attempt sequence (by simp [hlocation]) hid hattempt hshows
    rcases hlogged.begins hfirst with hold | ⟨hid, hattempt, hlocation⟩
    · rcases hlogged.begins hsecond with hold' | ⟨hid, hattempt, hlocation⟩
      · exact h.once id attempt _ _ hold hold'
      · exact (hfresh hold hid hattempt hlocation).elim
    · rcases hlogged.begins hsecond with hold' | ⟨-, -, hlocation'⟩
      · exact (hfresh hold' hid hattempt hlocation).elim
      · exact Option.some.inj (hlocation.symm.trans hlocation')

/-- The log stays sound where neither it nor the rows nor the counters change. -/
theorem LogSound.same {store later : MemoryChatStore} (h : LogSound store)
    (hactivity : later.activity = store.activity) (houtbox : later.outbox = store.outbox)
    (hsequence : later.nextSequence = store.nextSequence)
    (hnext : later.nextActivityId = store.nextActivityId) : LogSound later := by
  have hgrow : RowsGrow store later := .same houtbox
  refine ⟨?_, ?_, ?_, ?_, ?_, ?_, ?_⟩
  · rw [hactivity]
    exact h.ordered
  · rw [hactivity, hnext]
    exact h.counted
  · rw [hactivity]
    exact h.bounded
  · rw [hactivity, hsequence]
    exact h.placed
  · intro event hmem id hid
    rw [hactivity] at hmem
    obtain ⟨attempt, hattempt, hshows⟩ := h.shown event hmem id hid
    exact ⟨attempt, hattempt, hgrow.shows _ _ _ hshows⟩
  · intro event hmem acceptance hkind
    rw [hactivity] at hmem
    obtain ⟨id, attempt, hid, hattempt, hspent⟩ := h.spent event hmem acceptance hkind
    exact ⟨id, attempt, hid, hattempt, hgrow.spent _ _ hspent⟩
  · rw [hactivity]
    exact h.once

/-- The empty log. -/
theorem logSound_new : LogSound new := by
  have hnone : ∀ event, event ∉ new.activity := by
    intro event hmem
    cases hmem
  refine ⟨List.Pairwise.nil, ?_, Nat.zero_le _, ?_, ?_, ?_, ?_⟩
  · exact fun event hmem => absurd hmem (hnone event)
  · exact fun event hmem => absurd hmem (hnone event)
  · exact fun event hmem => absurd hmem (hnone event)
  · exact fun event hmem => absurd hmem (hnone event)
  · rintro id attempt location location' ⟨event, hmem, -⟩
    exact absurd hmem (hnone event)

/-- A change that logs an event. -/
structure LogStep (store later : MemoryChatStore) (event : MessageActivityEvent) : Prop where
  logged : Logged store event later.activity later.nextActivityId
  grow : RowsGrow store later
  next : store.nextSequence.toNat ≤ later.nextSequence.toNat
  loggable : Loggable store later event
  traces : later.rfTraceEvents = store.rfTraceEvents

/-- A change that logs nothing. -/
structure Unlogged (store later : MemoryChatStore) : Prop where
  activity : later.activity = store.activity
  outbox : later.outbox = store.outbox
  sequence : later.nextSequence = store.nextSequence
  next : later.nextActivityId = store.nextActivityId

/-- The event of a row that was just filed can be logged. -/
theorem loggable_of_row {store later : MemoryChatStore} {event : MessageActivityEvent}
    {id : OutboxId} {row : OutboxRecord} (hrow : later.outbox.get? id = some row)
    (hid : event.outboxId = some id) (hattempt : event.attemptNumber = some row.currentAttempt)
    (hsequence : event.timelineSequence = row.sequence)
    (hplaced : row.sequence.get.toNat < later.nextSequence.toNat)
    (haccepted : ∀ acceptance, event.kind = .outboundAccepted acceptance → row.acceptance ≠ none)
    (hbegun : event.attemptLocation ≠ none → ∀ old, store.outbox.get? id = some old →
      old.currentAttempt.get.toNat < row.currentAttempt.get.toNat) :
        Loggable store later event := by
  refine ⟨?_, ?_, ?_, ?_⟩
  · rwa [hsequence]
  · intro id' hid'
    rw [hid] at hid'
    cases hid'
    exact ⟨row.currentAttempt, hattempt, row, hrow, hsequence.symm, le_rfl⟩
  · intro acceptance hkind
    exact ⟨id, row.currentAttempt, hid, hattempt, row, hrow,
      Or.inr ⟨rfl, haccepted acceptance hkind⟩⟩
  · rintro id' attempt sequence hlocation hid' hattempt' ⟨old, hold, -, hle⟩
    rw [hid] at hid'
    cases hid'
    rw [hattempt] at hattempt'
    cases hattempt'
    have hlt := hbegun hlocation old hold
    omega

/-- The call records an acceptance of the current attempt of a row. -/
structure Records (store : MemoryChatStore) (call : Call) (event : MessageActivityEvent)
    (acceptance : AcceptanceIds) (id : OutboxId) (record : OutboxRecord) : Prop where
  call : ∃ now, call = .recordAcceptance now id acceptance
  row : store.outbox.get? id = some record
  waiting : record.acceptance = none
  free : store.acceptanceBoundElsewhere id acceptance = false
  outboxId : event.outboxId = some id
  attempt : event.attemptNumber = some record.currentAttempt
  unlocated : event.attemptLocation = none

/-- Every change logs one event at most, and an acceptance only when it is recorded. -/
theorem Change.log {store later : MemoryChatStore} {call : Call} (h : Change store call later)
    (hrows : RowsSound store) (hplaces : PlacesSound store) :
    Unlogged store later ∨ ∃ event, LogStep store later event ∧
      ∀ acceptance, event.kind = .outboundAccepted acceptance →
        ∃ id record, Records store call event acceptance id record := by
  cases h with
  | nothing | contact | retained => exact Or.inl ⟨rfl, rfl, rfl, rfl⟩
  | @inbound now message receiverLocation id sequence nextSequence activity incomplete
      nextActivityId hnew hsequence hnext hlogged =>
    refine Or.inr ⟨_, ⟨hlogged, .same rfl, by dsimp only; omega, ?_, rfl⟩, nofun⟩
    refine ⟨?_, ?_, ?_, ?_⟩
    · change sequence.get.toNat < nextSequence.toNat
      rw [hsequence]
      omega
    · rintro id ⟨⟩
    · rintro acceptance ⟨⟩
    · exact fun id attempt sequence hlocation => absurd rfl hlocation
  | @outbound now material location id outboxId sequence nextOutboxId nextSequence activity
      incomplete nextActivityId hnew hid hsequence hnextId hnext hlogged =>
    have hfresh : ∀ old, store.outbox.get? outboxId ≠ some old := by
      intro old hold
      have hpassed := (hrows outboxId old hold).counted
      rw [hid] at hpassed
      exact lt_irrefl _ hpassed
    refine Or.inr ⟨_, ⟨hlogged, .insert rfl ?_, by dsimp only; omega, ?_, rfl⟩, nofun⟩
    · exact fun old hold => absurd hold (hfresh old)
    · refine loggable_of_row BTreeMap.get?_insert_self rfl rfl rfl ?_ ?_ ?_
      · change sequence.get.toNat < nextSequence.toNat
        rw [hsequence]
        omega
      · rintro acceptance ⟨⟩
      · exact fun _ old hold => absurd hold (hfresh old)
  | @rearmed now outboxId idempotencyKey location record failure acceptance attempt id activity
      incomplete nextActivityId hrow hstatus hretryable hkey hfree hattempt hacceptance hlogged =>
    have hplaced := hplaces.passed _ _ (.outbound hrow)
    have hnext := MessageAttemptNumber.toNat_checkedNext hattempt
    refine Or.inr ⟨_, ⟨hlogged, .insert rfl ?_, le_rfl, ?_, rfl⟩, nofun⟩
    · intro old hold
      rw [hrow] at hold
      cases hold
      exact ⟨rfl, Or.inl (by change _ < attempt.get.toNat; omega)⟩
    · refine loggable_of_row BTreeMap.get?_insert_self rfl rfl rfl hplaced ?_ ?_
      · rintro acceptance ⟨⟩
      · intro _ old hold
        rw [hrow] at hold
        cases hold
        change _ < attempt.get.toNat
        omega
  | accepted hrow hnone hfree hlogged =>
    have hplaced := hplaces.passed _ _ (.outbound hrow)
    refine Or.inr ⟨_, ⟨hlogged, .insert rfl ?_, le_rfl, ?_, rfl⟩, ?_⟩
    · intro old hold
      rw [hrow] at hold
      cases hold
      exact ⟨rfl, Or.inr ⟨rfl, fun _ => Option.some_ne_none _⟩⟩
    · exact loggable_of_row BTreeMap.get?_insert_self rfl rfl rfl hplaced
        (fun _ _ => Option.some_ne_none _) fun hlocation => absurd rfl hlocation
    · rintro acceptance ⟨⟩
      exact ⟨_, _, ⟨_, rfl⟩, hrow, hnone, hfree, rfl, rfl, rfl⟩
  | projected hindex hrow hstatus hproject hlogged =>
    have hplaced := hplaces.passed _ _ (.outbound hrow)
    refine Or.inr ⟨_, ⟨hlogged, .insert rfl ?_, le_rfl, ?_, rfl⟩, nofun⟩
    · intro old hold
      rw [hrow] at hold
      cases hold
      exact ⟨rfl, Or.inr ⟨rfl, fun h => h⟩⟩
    · refine loggable_of_row BTreeMap.get?_insert_self rfl rfl rfl hplaced ?_
        fun hlocation => absurd rfl hlocation
      rintro acceptance ⟨⟩
  | imported himport =>
    have hframe := withoutTraces_imported himport
    exact Or.inl ⟨(congrArg MemoryChatStore.activity hframe :),
      (congrArg MemoryChatStore.outbox hframe :),
      (congrArg MemoryChatStore.nextSequence hframe :),
      (congrArg MemoryChatStore.nextActivityId hframe :)⟩

/-- Every effect of a call keeps the log sound. -/
theorem LogSound.change {store later : MemoryChatStore} {call : Call} (hlog : LogSound store)
    (hrows : RowsSound store) (hplaces : PlacesSound store) (h : Change store call later) :
    LogSound later := by
  rcases h.log hrows hplaces with hsame | ⟨event, hstep, -⟩
  · exact hlog.same hsame.activity hsame.outbox hsame.sequence hsame.next
  · exact hlog.logged hstep.logged hstep.grow hstep.next hstep.loggable

end Chat
