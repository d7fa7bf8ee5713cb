import Mathlib.Data.List.Sort
import ReticulumFirmware.Chat.MemoryStore
import ReticulumFirmware.Collections.Fold

/-!
# Closing and reopening the chat store

The restart image of the store, and reopening it with every index rebuilt and every
uniqueness check made.
-/

namespace Chat

/-- Current schema of the restart image. -/
abbrev memoryImageSchemaVersion : UInt16 := 9

/-- The restart image of a store. -/
structure MemoryImage where
  schemaVersion : UInt16
  contacts : List Contact
  inbound : List InboundRecord
  outbox : List OutboxRecord
  activity : List MessageActivityEvent
  activityHistoryIncomplete : Bool
  rfTraceBoots : List (RfTraceBootId × MemoryRfTraceBoot)
  rfTraceEvents : List RfTraceEvent
  nextOutboxId : UInt64
  nextSequence : UInt64
  nextActivityId : UInt64
  nextRfTraceId : UInt64

namespace MemoryChatStore

/-- Export the restart image. -/
def image (self : MemoryChatStore) : MemoryImage where
  schemaVersion := memoryImageSchemaVersion
  contacts := self.contacts.values
  inbound := self.inbound.values
  outbox := self.outbox.values
  activity := self.activity
  activityHistoryIncomplete := self.activityHistoryIncomplete
  rfTraceBoots := self.rfTraceBoots.entries
  rfTraceEvents := self.rfTraceEvents.values
  nextOutboxId := self.nextOutboxId
  nextSequence := self.nextSequence
  nextActivityId := self.nextActivityId
  nextRfTraceId := self.nextRfTraceId

/-- The location stamp that began an attempt, over the retained activity. -/
def attemptLocationOf (activity : List MessageActivityEvent) (outboxId : OutboxId)
    (attemptNumber : MessageAttemptNumber) : Except ChatStoreError (Option AttemptLocationStamp) :=
  activity.foldlM (fun found event =>
    if event.outboxId ≠ some outboxId ∨ event.attemptNumber ≠ some attemptNumber then .ok found
    else
      match event.attemptLocation with
      | none => .ok found
      | some location =>
        if found.any (· ≠ location) then .error (.invalidImage .inconsistentActivity)
        else .ok (some location)) none

/-- The message attempt that the activity resolves a submission to. -/
def rfTraceCorrelation (activity : List MessageActivityEvent) (submissionId : SubmissionId) :
    Except ChatStoreError (Option RfTraceMessageCorrelation) :=
  activity.foldlM (fun found event =>
    match event.kind with
    | .outboundAccepted acceptance =>
      if acceptance.submissionId ≠ submissionId then .ok found
      else
        match event.outboxId, event.attemptNumber with
        | some outboxId, some attemptNumber =>
          match attemptLocationOf activity outboxId attemptNumber with
          | .error error => .error error
          -- older activity may straddle the cutoff of the bounded history
          | .ok none => .ok found
          | .ok (some attemptLocation) =>
            let candidate : RfTraceMessageCorrelation :=
              ⟨event.timelineSequence, outboxId, attemptNumber, attemptLocation⟩
            if found.any (· ≠ candidate) then .error (.invalidImage .inconsistentActivity)
            else .ok (some candidate)
        | _, _ => .error (.invalidImage .inconsistentActivity)
    | _ => .ok found) none

/-- Check the correlation of one event against the rows, the activity and earlier tokens. -/
def validCorrelation (self : MemoryChatStore)
    (tokens : BTreeMap RnsAttemptToken RfTraceMessageCorrelation) (event : RfTraceEvent) :
    Option (BTreeMap RnsAttemptToken RfTraceMessageCorrelation) :=
  match event.correlation with
  | none => some tokens
  | some correlation =>
    match event.observation.rnsAttemptToken, self.outbox.get? correlation.outboxId with
    | some token, some outbox =>
      if outbox.sequence ≠ correlation.timelineSequence ∨
          outbox.currentAttempt.get < correlation.attemptNumber.get ∨
          (tokens.get? token).any (· ≠ correlation) then none
      else
        match event.observation.submissionId with
        | none => some (tokens.insert token correlation)
        | some submissionId =>
          match rfTraceCorrelation self.activity submissionId with
          | .error _ => none
          | .ok current =>
            if current.any (· ≠ correlation) then none
            else some (tokens.insert token correlation)
    | _, _ => none

/-- Whether the retained correlations agree with the rows and the activity. -/
def validPersistedRfTraceCorrelations (self : MemoryChatStore) : Bool :=
  (self.rfTraceEvents.values.foldlM self.validCorrelation .empty).isSome

/-- A store under reconstruction, with what was seen so far. -/
structure Opening where
  store : MemoryChatStore
  sequences : List UInt64 := []
  activityIds : List UInt64 := []
  greatestOutbox : UInt64 := 0
  greatestSequence : UInt64 := 0
  greatestActivity : UInt64 := 0
  greatestRfTrace : UInt64 := 0

namespace Opening

/-- Put a contact back, unless its destination is taken. -/
def addContact (opening : Opening) (contact : Contact) : Except ChatStoreError Opening :=
  if (opening.store.contacts.get? contact.destination).isSome then
    .error (.invalidImage .duplicateKey)
  else
    .ok { opening with store := { opening.store with
      contacts := opening.store.contacts.insert contact.destination contact } }

/-- Put a received message back, unless its place or its identifier is taken. -/
def addInbound (opening : Opening) (record : InboundRecord) : Except ChatStoreError Opening :=
  let sequence := record.sequence.get
  if sequence ∈ opening.sequences ∨
      (opening.store.inbound.get? record.message.messageId).isSome then
    .error (.invalidImage .duplicateKey)
  else
    .ok { opening with
      sequences := sequence :: opening.sequences
      greatestSequence := max opening.greatestSequence sequence
      store := { opening.store with
        inbound := opening.store.inbound.insert record.message.messageId record } }

/-- Whether acceptance and status of a row agree. -/
def consistentOutbox (record : OutboxRecord) : Bool :=
  match record.acceptance, record.status with
  | none, .committed => true
  | some _, .accepted | some _, .device _ => true
  | _, _ => false

/-- Index the acceptance of a row, if its identifiers are free. -/
def indexAcceptance (store : MemoryChatStore) (id : OutboxId) (acceptance : AcceptanceIds) :
    Option MemoryChatStore :=
  if (store.submissionIndex.get? acceptance.submissionId).isSome ∨
      (store.acceptedMessageIndex.get? acceptance.messageId).isSome then none
  else some { store with
    submissionIndex := store.submissionIndex.insert acceptance.submissionId id
    acceptedMessageIndex := store.acceptedMessageIndex.insert acceptance.messageId id }

/-- Put a row of the outbox back with its indexes, unless one of its keys is taken. -/
def addOutbox (opening : Opening) (record : OutboxRecord) : Except ChatStoreError Opening :=
  let sequence := record.sequence.get
  let key := record.material.idempotencyKey
  if sequence ∈ opening.sequences then .error (.invalidImage .duplicateKey)
  else if ¬ consistentOutbox record then .error (.invalidImage .inconsistentOutbox)
  else if (opening.store.idempotencyIndex.get? key).isSome then
    .error (.invalidImage .duplicateKey)
  else
    let store := { opening.store with
      idempotencyIndex := opening.store.idempotencyIndex.insert key record.id }
    match record.acceptance.elim (some store) (indexAcceptance store record.id) with
    | none => .error (.invalidImage .duplicateKey)
    | some store =>
      if (store.outbox.get? record.id).isSome then .error (.invalidImage .duplicateKey)
      else
        .ok { opening with
          sequences := sequence :: opening.sequences
          greatestOutbox := max opening.greatestOutbox record.id.get
          greatestSequence := max opening.greatestSequence sequence
          store := { store with outbox := store.outbox.insert record.id record } }

/-- Put an event of the activity log back, unless it refers to what is not there. -/
def addActivity (opening : Opening) (event : MessageActivityEvent) :
    Except ChatStoreError Opening :=
  if event.id.get ∈ opening.activityIds then .error (.invalidImage .duplicateKey)
  else if opening.store.nextSequence ≤ event.timelineSequence.get ∨
      event.outboxId.any (opening.store.nextOutboxId ≤ ·.get) then
    .error (.invalidImage .inconsistentActivity)
  else
    .ok { opening with
      activityIds := event.id.get :: opening.activityIds
      greatestActivity := max opening.greatestActivity event.id.get
      store := { opening.store with activity := opening.store.activity ++ [event] } }

/-- Put a traced boot back, unless it is there. -/
def addRfTraceBoot (opening : Opening) (boot : RfTraceBootId × MemoryRfTraceBoot) :
    Except ChatStoreError Opening :=
  if (opening.store.rfTraceBoots.get? boot.1).isSome then .error (.invalidImage .duplicateKey)
  else
    .ok { opening with store := { opening.store with
      rfTraceBoots := opening.store.rfTraceBoots.insert boot.1 boot.2 } }

/-- Put a trace event back, unless it contradicts its boot. -/
def addRfTraceEvent (opening : Opening) (event : RfTraceEvent) : Except ChatStoreError Opening :=
  let key := toLex (event.bootId, event.observation.eventSequence)
  match opening.store.rfTraceBoots.get? event.bootId with
  | none => .error (.invalidImage .inconsistentRfTrace)
  | some boot =>
    if boot.profile ≠ event.profile ∨ maxUnixTimestampMillis < event.importedAtUnixMs ∨
        (opening.store.rfTraceKeys.get? key).isSome ∨
        (opening.store.rfTraceEvents.get? event.id).isSome then
      .error (.invalidImage .inconsistentRfTrace)
    else
      .ok { opening with
        greatestRfTrace := max opening.greatestRfTrace event.id.get
        store := { opening.store with
          rfTraceKeys := opening.store.rfTraceKeys.insert key event.id
          rfTraceEvents := opening.store.rfTraceEvents.insert event.id event } }

/-- Order the activity by identifier and check its bound. -/
def sortActivity (opening : Opening) : Except ChatStoreError Opening :=
  let activity := opening.store.activity.insertionSort (fun a b => a.id ≤ b.id)
  if activity.length > maxMessageActivityEvents then
    .error (.invalidImage .inconsistentActivity)
  else .ok { opening with store := { opening.store with activity } }

/-- Check the retained correlations and the counters. -/
def finish (opening : Opening) : Except ChatStoreError MemoryChatStore :=
  let store := opening.store
  if ¬ store.validPersistedRfTraceCorrelations then .error (.invalidImage .inconsistentRfTrace)
  else if store.nextOutboxId ≤ opening.greatestOutbox ∨
      store.nextSequence ≤ opening.greatestSequence ∨
      store.nextActivityId ≤ opening.greatestActivity ∨
      store.nextRfTraceId ≤ opening.greatestRfTrace then
    .error (.invalidImage .invalidNextCounter)
  else .ok store

end Opening

/-- The store that reopening starts from. -/
def opening (image : MemoryImage) : Opening where
  store := { new with
    activityHistoryIncomplete := image.activityHistoryIncomplete
    nextOutboxId := image.nextOutboxId
    nextSequence := image.nextSequence
    nextActivityId := image.nextActivityId
    nextRfTraceId := image.nextRfTraceId }

/-- Rebuild the tables and indexes of an image. -/
def rebuild (image : MemoryImage) : Except ChatStoreError Opening :=
  image.contacts.foldlM Opening.addContact (opening image) >>= fun opening =>
  image.inbound.foldlM Opening.addInbound opening >>= fun opening =>
  image.outbox.foldlM Opening.addOutbox opening >>= fun opening =>
  image.activity.foldlM Opening.addActivity opening >>= fun opening =>
  opening.sortActivity >>= fun opening =>
  image.rfTraceBoots.foldlM Opening.addRfTraceBoot opening >>= fun opening =>
  image.rfTraceEvents.foldlM Opening.addRfTraceEvent opening

/-- Reopen an image. -/
def openImage (image : MemoryImage) : Except ChatStoreError MemoryChatStore :=
  if image.schemaVersion ≠ memoryImageSchemaVersion then .error (.invalidImage .schemaVersion)
  else if image.nextOutboxId = 0 ∨ image.nextSequence = 0 ∨ image.nextActivityId = 0 ∨
      image.nextRfTraceId = 0 then
    .error (.invalidImage .invalidNextCounter)
  else rebuild image >>= Opening.finish

/-- The part of a store under reconstruction that only rows touch. -/
def Opening.rows (opening : Opening) : BTreeMap OutboxId OutboxRecord × UInt64 :=
  (opening.store.outbox, opening.store.nextOutboxId)

/-- Adding a row of the image. -/
theorem Opening.addOutbox_ok {opening opening' : Opening} {record : OutboxRecord}
    (h : opening.addOutbox record = .ok opening') :
    opening.store.outbox.get? record.id = none ∧
      opening'.rows = (opening.store.outbox.insert record.id record,
        opening.store.nextOutboxId) := by
  unfold addOutbox at h
  simp only at h
  split_ifs at h
  split at h
  · cases h
  next store hstore =>
  have hrows : store.outbox = opening.store.outbox ∧
      store.nextOutboxId = opening.store.nextOutboxId := by
    unfold indexAcceptance at hstore
    cases hacceptance : record.acceptance with
    | none =>
      rw [hacceptance] at hstore
      cases hstore
      exact ⟨rfl, rfl⟩
    | some acceptance =>
      rw [hacceptance, Option.elim_some] at hstore
      split_ifs at hstore
      cases hstore
      exact ⟨rfl, rfl⟩
  split_ifs at h with hfresh
  cases h
  rw [hrows.1, Bool.not_eq_true, Option.isSome_eq_false_iff, Option.isNone_iff_eq_none] at hfresh
  exact ⟨hfresh, by simp only [rows, hrows]⟩

/-- The rows after adding a list of rows. -/
theorem Opening.rows_foldlM_addOutbox {opening opening' : Opening} {records : List OutboxRecord}
    (h : records.foldlM addOutbox opening = .ok opening') :
    (∀ id record, opening'.store.outbox.get? id = some record ↔
      opening.store.outbox.get? id = some record ∨ record ∈ records ∧ record.id = id) ∧
      opening'.store.nextOutboxId = opening.store.nextOutboxId := by
  induction records generalizing opening with
  | nil =>
    cases h
    simp
  | cons head rest ih =>
    obtain ⟨middle, hfirst, hrest⟩ := List.foldlM_cons_ok h
    obtain ⟨hfresh, hmiddle⟩ := addOutbox_ok hfirst
    obtain ⟨hrows, hnext⟩ := ih hrest
    obtain ⟨houtbox, hcounter⟩ := Prod.mk.inj hmiddle
    refine ⟨fun id record => ?_, hnext.trans hcounter⟩
    rw [hrows, houtbox, BTreeMap.get?_insert, List.mem_cons]
    by_cases hid : id = head.id
    · subst hid
      simp only [if_true, Option.some.injEq, hfresh]
      grind
    · simp only [if_neg hid]
      grind

/-- The steps that add no rows. -/
theorem Opening.rows_frame :
    (∀ o a o', addContact o a = .ok o' → o'.rows = o.rows) ∧
    (∀ o a o', addInbound o a = .ok o' → o'.rows = o.rows) ∧
    (∀ o a o', addActivity o a = .ok o' → o'.rows = o.rows) ∧
    (∀ o o', sortActivity o = .ok o' → o'.rows = o.rows) ∧
    (∀ o a o', addRfTraceBoot o a = .ok o' → o'.rows = o.rows) ∧
    ∀ o a o', addRfTraceEvent o a = .ok o' → o'.rows = o.rows := by
  refine ⟨fun o a o' h => ?_, fun o a o' h => ?_, fun o a o' h => ?_, fun o o' h => ?_,
    fun o a o' h => ?_, fun o a o' h => ?_⟩
  · unfold addContact at h
    split_ifs at h
    cases h
    rfl
  · unfold addInbound at h
    simp only at h
    split_ifs at h
    cases h
    rfl
  · unfold addActivity at h
    split_ifs at h
    cases h
    rfl
  · unfold sortActivity at h
    simp only at h
    split_ifs at h
    cases h
    rfl
  · unfold addRfTraceBoot at h
    split_ifs at h
    cases h
    rfl
  · unfold addRfTraceEvent at h
    simp only at h
    split at h
    · cases h
    · split_ifs at h
      cases h
      rfl

/-- The rows of a rebuilt store are those of the image. -/
theorem rebuild_rows {image : MemoryImage} {rebuilt : Opening} (h : rebuild image = .ok rebuilt) :
    (∀ id record, rebuilt.store.outbox.get? id = some record ↔
      record ∈ image.outbox ∧ record.id = id) ∧
      rebuilt.store.nextOutboxId = image.nextOutboxId := by
  obtain ⟨hcontact, hinboundStep, hactivityStep, hsortStep, hboot, hevent⟩ := Opening.rows_frame
  unfold rebuild at h
  obtain ⟨o₁, hcontacts, h⟩ := Except.bind_eq_ok.mp h
  obtain ⟨o₂, hinbound, h⟩ := Except.bind_eq_ok.mp h
  obtain ⟨o₃, houtbox, h⟩ := Except.bind_eq_ok.mp h
  obtain ⟨o₄, hactivity, h⟩ := Except.bind_eq_ok.mp h
  obtain ⟨o₅, hsort, h⟩ := Except.bind_eq_ok.mp h
  obtain ⟨o₆, hboots, hevents⟩ := Except.bind_eq_ok.mp h
  obtain ⟨hrows, hnext⟩ := Opening.rows_foldlM_addOutbox houtbox
  -- only the rows of the image touch the outbox
  have hbefore : o₂.rows = (.empty, image.nextOutboxId) :=
    (List.foldlM_ok_frame Opening.rows hinboundStep hinbound).trans
      (List.foldlM_ok_frame Opening.rows hcontact hcontacts)
  have hafter : rebuilt.rows = o₃.rows :=
    calc rebuilt.rows = o₆.rows := List.foldlM_ok_frame Opening.rows hevent hevents
      _ = o₅.rows := List.foldlM_ok_frame Opening.rows hboot hboots
      _ = o₄.rows := hsortStep _ _ hsort
      _ = o₃.rows := List.foldlM_ok_frame Opening.rows hactivityStep hactivity
  obtain ⟨hafter, hafter'⟩ := Prod.mk.inj hafter
  obtain ⟨hbefore, hbefore'⟩ := Prod.mk.inj hbefore
  refine ⟨fun id record => ?_, ?_⟩
  · rw [hafter, hrows, hbefore]
    simp
  · rw [hafter', hnext, hbefore']

/-- Reopening keeps exactly the rows of the image. -/
theorem openImage_rows {image : MemoryImage} {store : MemoryChatStore}
    (h : openImage image = .ok store) :
    (∀ id record, store.outbox.get? id = some record ↔ record ∈ image.outbox ∧ record.id = id) ∧
      store.nextOutboxId = image.nextOutboxId := by
  unfold openImage at h
  split_ifs at h
  obtain ⟨rebuilt, hrebuild, hfinish⟩ := Except.bind_eq_ok.mp h
  unfold Opening.finish at hfinish
  simp only at hfinish
  split_ifs at hfinish
  cases hfinish
  exact rebuild_rows hrebuild

end MemoryChatStore

end Chat
