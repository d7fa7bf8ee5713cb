import ReticulumFirmware.Chat.Engine

/-!
# Scanning the appliance's inbox

The engine scans an inbox that only grows, over a session and a store that may fail at
every call. It acknowledges a cursor only after every message up to it is retained.
-/

namespace Chat

open ChatEngine

/-- An inbox in cursor order. -/
structure DeviceInbox where
  entries : List InboxSummary
  sorted : entries.Pairwise (·.cursor < ·.cursor)

namespace DeviceInbox

/-- The first entry after a cursor. -/
def next (inbox : DeviceInbox) (after : Option InboxCursor) : Option InboxSummary :=
  inbox.entries.find? fun entry => after.all (· < entry.cursor)

/-- Messages are only appended. -/
def Extends (inbox later : DeviceInbox) : Prop := inbox.entries <+: later.entries

/-- An inbox extends itself. -/
theorem Extends.refl (inbox : DeviceInbox) : inbox.Extends inbox := List.prefix_refl _

/-- An extension of an extension is an extension. -/
theorem Extends.trans {a b c : DeviceInbox} (hab : a.Extends b) (hbc : b.Extends c) :
    a.Extends c :=
  List.IsPrefix.trans hab hbc

/-- An entry stays in every extension of its inbox. -/
theorem Extends.mem {inbox later : DeviceInbox} (h : inbox.Extends later) {entry : InboxSummary}
    (hentry : entry ∈ inbox.entries) : entry ∈ later.entries :=
  h.subset hentry

/-- An entry up to the cursor of an older one is not new. -/
theorem Extends.mem_of_le {inbox later : DeviceInbox} (h : inbox.Extends later)
    {old entry : InboxSummary} (hold : old ∈ inbox.entries) (hentry : entry ∈ later.entries)
    (hle : entry.cursor ≤ old.cursor) : entry ∈ inbox.entries := by
  obtain ⟨more, hmore⟩ := h
  have hsorted := later.sorted
  rw [← hmore, List.pairwise_append] at hsorted
  rw [← hmore, List.mem_append] at hentry
  rcases hentry with hentry | hentry
  · exact hentry
  · exact absurd (hsorted.2.2 old hold entry hentry) (not_lt.mpr hle)

/-- The next entry is in the inbox, after the cursor, and none lies between. -/
theorem next_eq_some {inbox : DeviceInbox} {after : Option InboxCursor} {summary : InboxSummary}
    (h : inbox.next after = some summary) :
    summary ∈ inbox.entries ∧ (∀ cursor, after = some cursor → cursor < summary.cursor) ∧
      ∀ entry ∈ inbox.entries, entry.cursor ≤ summary.cursor →
        entry = summary ∨ ∃ cursor, after = some cursor ∧ entry.cursor ≤ cursor := by
  obtain ⟨hafter, before, rest, hentries, hbefore⟩ := List.find?_eq_some_iff_append.mp h
  refine ⟨List.mem_of_find?_eq_some h, fun cursor hcursor => ?_, fun entry hentry hle => ?_⟩
  · simpa [hcursor] using hafter
  · have hsorted := inbox.sorted
    rw [hentries, List.pairwise_append, List.pairwise_cons] at hsorted
    rw [hentries, List.mem_append, List.mem_cons] at hentry
    rcases hentry with hentry | rfl | hentry
    · have hnot := hbefore entry hentry
      cases hcursor : after with
      | none => simp [hcursor] at hnot
      | some cursor => exact Or.inr ⟨cursor, rfl, by simpa [hcursor] using hnot⟩
    · exact Or.inl rfl
    · exact absurd (hsorted.2.1.1 entry hentry) (not_lt.mpr hle)

/-- At the end of a scan every entry is at or before the cursor. -/
theorem next_eq_none {inbox : DeviceInbox} {after : Option InboxCursor}
    (h : inbox.next after = none) {entry : InboxSummary} (hentry : entry ∈ inbox.entries) :
    ∃ cursor, after = some cursor ∧ entry.cursor ≤ cursor := by
  have hnot := List.find?_eq_none.mp h entry hentry
  cases hcursor : after with
  | none => simp [hcursor] at hnot
  | some cursor => exact ⟨cursor, rfl, by simpa [hcursor] using hnot⟩

end DeviceInbox

/-- The appliance as the scan sees it: its inbox and the acknowledgements it was sent. -/
structure InboxDevice where
  inbox : DeviceInbox
  sent : List InboxCursor

/-- A session with an append-only inbox. Every call may fail, and messages may arrive during
every call. -/
structure AppendOnlySession {E : Type} (session : LxmfSession InboxDevice E) : Prop where
  next : ∀ device after, device.inbox.Extends (session.nextInbox device after).2.inbox ∧
    (session.nextInbox device after).2.sent = device.sent ∧
    ∀ answer, (session.nextInbox device after).1 = .ok answer →
      answer = (session.nextInbox device after).2.inbox.next after
  read : ∀ device summary, device.inbox.Extends (session.readInbox device summary).2.inbox ∧
    (session.readInbox device summary).2.sent = device.sent
  acknowledge : ∀ device cursor,
    device.inbox.Extends (session.acknowledgeInboxThrough device cursor).2.inbox ∧
    (session.acknowledgeInboxThrough device cursor).2.sent = device.sent ++ [cursor]

/-- The in-memory store behind calls that may fail, before or after they took effect. -/
structure FailingStore {E : Type} (store : ChatStore MemoryChatStore E) : Prop where
  contains : ∀ state messageId answer, store.containsInbound state messageId = .ok answer →
    answer = state.containsInbound messageId
  commit : ∀ state message location, ∃ now,
    ((store.commitInboundWithReceiverLocation state message location).2 = state ∨
      (store.commitInboundWithReceiverLocation state message location).2 =
        (state.commitInboundWithReceiverLocation now message location).2) ∧
    ∀ outcome, (store.commitInboundWithReceiverLocation state message location).1 = .ok outcome →
      (state.commitInboundWithReceiverLocation now message location).1 = .ok outcome ∧
      (store.commitInboundWithReceiverLocation state message location).2 =
        (state.commitInboundWithReceiverLocation now message location).2

/-- Every retained message stays retained. -/
def MemoryChatStore.Retains (store later : MemoryChatStore) : Prop :=
  ∀ messageId, store.containsInbound messageId = true → later.containsInbound messageId = true

/-- A store retains its own messages. -/
theorem MemoryChatStore.Retains.refl (store : MemoryChatStore) : store.Retains store :=
  fun _ h => h

/-- An activity event leaves the inbound messages. -/
@[simp] theorem MemoryChatStore.inbound_appendActivity (store : MemoryChatStore)
    (event : MessageActivityEvent) (nextActivityId : UInt64) :
    (store.appendActivity event nextActivityId).inbound = store.inbound := by
  unfold MemoryChatStore.appendActivity
  dsimp only
  split_ifs <;> rfl

/-- Allocating a place leaves the inbound messages. -/
theorem MemoryChatStore.inbound_allocateSequence (store : MemoryChatStore) :
    store.allocateSequence.2.inbound = store.inbound := by
  unfold MemoryChatStore.allocateSequence
  split <;> rfl

/-- Committing a message either leaves the inbound messages or retains it. -/
theorem MemoryChatStore.inbound_commit (store : MemoryChatStore) (now : Option UInt64)
    (message : InboundMessage) (location : Option PhoneLocationSample) :
    (∃ failure, (store.commitInboundWithReceiverLocation now message location).1 =
        .error failure ∧
      (store.commitInboundWithReceiverLocation now message location).2.inbound = store.inbound) ∨
    ∃ record, (store.commitInboundWithReceiverLocation now message location).2.inbound =
      store.inbound.insert message.messageId record := by
  unfold MemoryChatStore.commitInboundWithReceiverLocation
  split
  · split
    · exact Or.inr ⟨_, rfl⟩
    · exact Or.inl ⟨_, rfl, rfl⟩
  · split
    · exact Or.inl ⟨_, rfl, rfl⟩
    · have hinbound := store.inbound_allocateSequence
      split
      · next heq =>
        rw [heq] at hinbound
        exact Or.inl ⟨_, rfl, hinbound⟩
      · next heq =>
        rw [heq] at hinbound
        right
        simp only [inbound_appendActivity, ← hinbound]
        exact ⟨_, rfl⟩

/-- An inbound commit retains every message of the store. -/
theorem MemoryChatStore.retains_commit (store : MemoryChatStore) (now : Option UInt64)
    (message : InboundMessage) (location : Option PhoneLocationSample) :
    store.Retains (store.commitInboundWithReceiverLocation now message location).2 := by
  intro messageId h
  unfold MemoryChatStore.containsInbound at h ⊢
  obtain ⟨-, -, heq⟩ | ⟨record, heq⟩ := store.inbound_commit now message location
  · rwa [heq]
  · rw [heq, BTreeMap.get?_insert]
    split_ifs
    · rfl
    · exact h

/-- After an inbound commit that succeeds the message is in the store. -/
theorem MemoryChatStore.contains_commit {store : MemoryChatStore} {now : Option UInt64}
    {message : InboundMessage} {location : Option PhoneLocationSample}
    {outcome : InboundCommitOutcome}
    (h : (store.commitInboundWithReceiverLocation now message location).1 = .ok outcome) :
    (store.commitInboundWithReceiverLocation now message location).2.containsInbound
      message.messageId = true := by
  obtain ⟨failure, herror, -⟩ | ⟨record, heq⟩ := store.inbound_commit now message location
  · rw [herror] at h
    cases h
  · rw [MemoryChatStore.containsInbound, heq, BTreeMap.get?_insert_self]
    rfl

/-- What one step of the scan can do, with the result and the acknowledgements sent. -/
inductive ScanStep (engine : ChatEngine MemoryChatStore) (inbox : DeviceInbox) {E : Type} :
    Except E InboxStep → List InboxCursor → ChatEngine MemoryChatStore → DeviceInbox → Prop
  | failed {error state inbox'} (hinbox : inbox.Extends inbox')
      (hstore : engine.store.Retains state) :
      ScanStep engine inbox (.error error) [] { engine with store := state } inbox'
  | ended {inbox'} (hinbox : inbox.Extends inbox') (hnext : inbox'.next engine.inboxAfter = none)
      (hpending : engine.inboxAckPending = none) :
      ScanStep engine inbox (.ok .endOfScan) [] engine inbox'
  | refused {cursor error answered inbox'} (hinbox : inbox.Extends answered)
      (hinbox' : answered.Extends inbox') (hnext : answered.next engine.inboxAfter = none)
      (hpending : engine.inboxAckPending = some cursor) :
      ScanStep engine inbox (.error error) [cursor] engine inbox'
  | acknowledged {cursor answered inbox'} (hinbox : inbox.Extends answered)
      (hinbox' : answered.Extends inbox') (hnext : answered.next engine.inboxAfter = none)
      (hpending : engine.inboxAckPending = some cursor) :
      ScanStep engine inbox (.ok (.acknowledged cursor)) [cursor]
        { engine with inboxAckPending := none } inbox'
  | advanced {summary step state answered inbox'} (hinbox : inbox.Extends answered)
      (hinbox' : answered.Extends inbox') (hnext : answered.next engine.inboxAfter = some summary)
      (hstep : step = .alreadyImported summary.messageId summary.cursor ∨
        ∃ outcome, step = .imported summary.messageId summary.cursor outcome)
      (hstore : engine.store.Retains state)
      (hcontains : state.containsInbound summary.messageId = true) :
      ScanStep engine inbox (.ok step) [] (advance { engine with store := state } summary.cursor)
        inbox'

/-- A step of the engine over a growing inbox is one of the scan's steps. -/
theorem scanStep_of_inboxStep {StoreError SessionError : Type}
    {store : ChatStore MemoryChatStore StoreError} {session : LxmfSession InboxDevice SessionError}
    (hstore : FailingStore store) (hsession : AppendOnlySession session)
    (engine : ChatEngine MemoryChatStore) (inbox : DeviceInbox)
    (location : Option PhoneLocationSample) :
    let r := inboxStepWithReceiverLocation store session engine ⟨inbox, []⟩ location
    ScanStep engine inbox r.1 r.2.2.sent r.2.1 r.2.2.inbox := by
  obtain ⟨hextends, hsent, hanswer⟩ := hsession.next ⟨inbox, []⟩ engine.inboxAfter
  unfold inboxStepWithReceiverLocation
  dsimp only at hextends hsent hanswer ⊢
  split
  · next error device heq =>
    rw [heq] at hextends hsent
    dsimp only at hextends hsent ⊢
    rw [hsent]
    exact .failed hextends (.refl _)
  · next device heq =>
    rw [heq] at hextends hsent hanswer
    have hnext := (hanswer none rfl).symm
    dsimp only at hextends hsent hnext ⊢
    split
    · next hpending =>
      rw [hsent]
      exact .ended hextends hnext hpending
    · next cursor hpending =>
      obtain ⟨hextends', hsent'⟩ := hsession.acknowledge device cursor
      rw [hsent] at hsent'
      split
      · next error device' heq' =>
        rw [heq'] at hextends' hsent'
        dsimp only at hextends' hsent' ⊢
        rw [hsent']
        exact .refused hextends hextends' hnext hpending
      · next device' heq' =>
        rw [heq'] at hextends' hsent'
        dsimp only at hextends' hsent' ⊢
        rw [hsent']
        exact .acknowledged hextends hextends' hnext hpending
  · next summary device heq =>
    rw [heq] at hextends hsent hanswer
    have hnext := (hanswer (some summary) rfl).symm
    dsimp only at hextends hsent hnext ⊢
    split
    · rw [hsent]
      exact .failed hextends (.refl _)
    · next hcontains =>
      rw [hsent]
      exact .advanced hextends (.refl _) hnext (Or.inl rfl) (.refl _)
        (hstore.contains _ _ _ hcontains).symm
    · obtain ⟨hextends', hsent'⟩ := hsession.read device summary
      rw [hsent] at hsent'
      split
      · next error device' heq' =>
        rw [heq'] at hextends' hsent'
        dsimp only at hextends' hsent' ⊢
        rw [hsent']
        exact .failed (hextends.trans hextends') (.refl _)
      · next message device' heq' =>
        rw [heq'] at hextends' hsent'
        dsimp only at hextends' hsent' ⊢
        split
        · rw [hsent']
          exact .failed (hextends.trans hextends') (.refl _)
        · next hid =>
          obtain ⟨now, hstate, hcommit⟩ := hstore.commit engine.store message location
          have hretains : engine.store.Retains
              (store.commitInboundWithReceiverLocation engine.store message location).2 := by
            rcases hstate with hstate | hstate <;> rw [hstate]
            · exact .refl _
            · exact engine.store.retains_commit now message location
          split
          · next error state heq'' =>
            rw [heq''] at hretains
            dsimp only
            rw [hsent']
            exact .failed (hextends.trans hextends') hretains
          · next outcome state heq'' =>
            rw [heq''] at hretains hcommit
            obtain ⟨hok, hcommitted⟩ := hcommit outcome rfl
            dsimp only at hretains hcommitted ⊢
            rw [hsent']
            refine .advanced hextends hextends' hnext (Or.inr ⟨outcome, ?_⟩) hretains ?_
            · rw [not_not.mp hid]
            · rw [hcommitted, ← not_not.mp hid]
              exact MemoryChatStore.contains_commit hok

end Chat
