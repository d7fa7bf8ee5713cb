import ReticulumFirmware.Chat.InboxScan

/-!
# Lifetimes of the inbox scan

Over every lifetime of an engine, with scans restarted at any point and errors at every
call, the cursors sent to the appliance never run ahead of what the store retains.
-/

namespace Chat

open ChatEngine

/-- One event of an engine's lifetime. -/
inductive InboxEvent (E : Type) where
  /-- Messages arrived between two calls. -/
  | arrived
  /-- The scan was restarted, over this inbox. -/
  | reset (inbox : DeviceInbox)
  /-- A step of the scan: its result, the acknowledgements it sent, and the inbox and the store
  it left. -/
  | step (result : Except E InboxStep) (sent : List InboxCursor) (inbox : DeviceInbox)
      (store : MemoryChatStore)

namespace InboxEvent

variable {E : Type}

/-- The acknowledgements sent by an event. -/
def sent : InboxEvent E → List InboxCursor
  | .step _ sent _ _ => sent
  | _ => []

/-- The entries that the current scan moved past, given those it had moved past before. -/
def scanned (earlier : List InboxSummary) : InboxEvent E → List InboxSummary
  | .reset _ => []
  | .step (.ok (.alreadyImported messageId cursor)) _ _ _ => earlier ++ [⟨cursor, messageId⟩]
  | .step (.ok (.imported messageId cursor _)) _ _ _ => earlier ++ [⟨cursor, messageId⟩]
  | _ => earlier

/-- The entries present when the current scan started. -/
def scanStart (earlier : List InboxSummary) : InboxEvent E → List InboxSummary
  | .reset inbox => inbox.entries
  | _ => earlier

/-- The event ended a scan. -/
def EndsScan : InboxEvent E → Prop
  | .step (.ok .endOfScan) _ _ _ => True
  | .step (.ok (.acknowledged _)) _ _ _ => True
  | _ => False

end InboxEvent

/-- The lifetimes of an engine over an inbox that starts with these entries. -/
inductive InboxRun (StoreError SessionError : Type) (start : DeviceInbox)
    (initial : MemoryChatStore) :
    List (InboxEvent (EngineError StoreError SessionError)) → ChatEngine MemoryChatStore →
      DeviceInbox → Prop
  | start : InboxRun StoreError SessionError start initial [] (ChatEngine.new initial) start
  | arrive {events engine inbox inbox'}
      (hrun : InboxRun StoreError SessionError start initial events engine inbox)
      (hextends : inbox.Extends inbox') :
      InboxRun StoreError SessionError start initial (events ++ [.arrived]) engine inbox'
  | reset {events engine inbox}
      (hrun : InboxRun StoreError SessionError start initial events engine inbox) :
      InboxRun StoreError SessionError start initial (events ++ [.reset inbox])
        engine.resetSessionScan inbox
  | step {events engine inbox store session location result engine' device}
      (hrun : InboxRun StoreError SessionError start initial events engine inbox)
      (hstore : FailingStore store) (hsession : AppendOnlySession session)
      (hstep : inboxStepWithReceiverLocation store session engine ⟨inbox, []⟩ location =
        (result, engine', device)) :
      InboxRun StoreError SessionError start initial
        (events ++ [.step result device.sent device.inbox engine'.store]) engine' device.inbox

/-- What the acknowledgements of a lifetime promise. -/
structure AcknowledgedDurable {E : Type} (start : DeviceInbox) (events : List (InboxEvent E)) :
    Prop where
  /-- Every entry up to an acknowledged cursor is retained when the cursor is sent. -/
  durable : ∀ result sent inbox store, .step result sent inbox store ∈ events →
    ∀ cursor ∈ sent, ∀ entry ∈ inbox.entries, entry.cursor ≤ cursor →
      store.containsInbound entry.messageId = true
  /-- The cursors sent never decrease. -/
  monotone : (events.flatMap InboxEvent.sent).Pairwise (· ≤ ·)
  /-- A scan that ends has moved past every entry that was there when it started. -/
  complete : ∀ earlier event later, events = earlier ++ event :: later → event.EndsScan →
    ∀ entry ∈ earlier.foldl InboxEvent.scanStart start.entries,
      entry ∈ earlier.foldl InboxEvent.scanned []

/-- The entries up to a cursor are retained. -/
def CoveredBy (store : MemoryChatStore) (inbox : DeviceInbox) (cursor : InboxCursor) : Prop :=
  (∃ entry ∈ inbox.entries, entry.cursor = cursor) ∧
    ∀ entry ∈ inbox.entries, entry.cursor ≤ cursor →
      store.containsInbound entry.messageId = true

/-- The invariant of a lifetime. -/
structure ScanInv {E : Type} (start : DeviceInbox) (events : List (InboxEvent E))
    (engine : ChatEngine MemoryChatStore) (inbox : DeviceInbox) : Prop where
  after : ∀ cursor, engine.inboxAfter = some cursor → CoveredBy engine.store inbox cursor
  pending : ∀ cursor, engine.inboxAckPending = some cursor → CoveredBy engine.store inbox cursor
  after_le : ∀ after cursor, engine.inboxAfter = some after →
    engine.inboxAckPending = some cursor → after ≤ cursor
  sent : ∀ cursor ∈ events.flatMap InboxEvent.sent, ∃ entry ∈ inbox.entries, entry.cursor = cursor
  scanned : ∀ entry ∈ inbox.entries, ∀ after, engine.inboxAfter = some after →
    entry.cursor ≤ after → entry ∈ events.foldl InboxEvent.scanned []
  present : ∀ entry ∈ events.foldl InboxEvent.scanStart start.entries, entry ∈ inbox.entries
  promise : AcknowledgedDurable start events

/-- What is covered stays covered as the store retains more and the inbox grows. -/
theorem CoveredBy.extend {store store' : MemoryChatStore} {inbox inbox' : DeviceInbox}
    {cursor : InboxCursor} (h : CoveredBy store inbox cursor) (hstore : store.Retains store')
    (hinbox : inbox.Extends inbox') : CoveredBy store' inbox' cursor := by
  obtain ⟨⟨last, hlast, rfl⟩, hcovered⟩ := h
  refine ⟨⟨last, hinbox.mem hlast, rfl⟩, fun entry hentry hle => ?_⟩
  exact hstore _ (hcovered entry (hinbox.mem_of_le hlast hentry hle) hle)

/-- Retaining the next message covers its cursor. -/
theorem CoveredBy.next {store : MemoryChatStore} {inbox : DeviceInbox}
    {after : Option InboxCursor} {summary : InboxSummary}
    (hafter : ∀ cursor, after = some cursor → CoveredBy store inbox cursor)
    (hnext : inbox.next after = some summary)
    (hcontains : store.containsInbound summary.messageId = true) :
    CoveredBy store inbox summary.cursor := by
  obtain ⟨hmem, -, hbetween⟩ := DeviceInbox.next_eq_some hnext
  refine ⟨⟨summary, hmem, rfl⟩, fun entry hentry hle => ?_⟩
  obtain rfl | ⟨cursor, hcursor, hle'⟩ := hbetween entry hentry hle
  · exact hcontains
  · exact (hafter cursor hcursor).2 entry hentry hle'

/-- One more event keeps the promise if it keeps it itself. -/
theorem AcknowledgedDurable.snoc {E : Type} {start : DeviceInbox} {events : List (InboxEvent E)}
    {event : InboxEvent E} (h : AcknowledgedDurable start events)
    (hdurable : ∀ result sent inbox store, event = .step result sent inbox store →
      ∀ cursor ∈ sent, ∀ entry ∈ inbox.entries, entry.cursor ≤ cursor →
        store.containsInbound entry.messageId = true)
    (hmonotone : event.sent.Pairwise (· ≤ ·) ∧
      ∀ earlier ∈ events.flatMap InboxEvent.sent, ∀ cursor ∈ event.sent, earlier ≤ cursor)
    (hcomplete : event.EndsScan → ∀ entry ∈ events.foldl InboxEvent.scanStart start.entries,
      entry ∈ events.foldl InboxEvent.scanned []) :
    AcknowledgedDurable start (events ++ [event]) := by
  constructor
  · intro result sent inbox store hmem
    rcases List.mem_append.mp hmem with hmem | hmem
    · exact h.durable result sent inbox store hmem
    · exact hdurable result sent inbox store (List.mem_singleton.mp hmem).symm
  · rw [List.flatMap_append, List.pairwise_append]
    exact ⟨h.monotone, by simpa using hmonotone.1, by simpa using hmonotone.2⟩
  · intro earlier ended later hevents hends
    rcases List.eq_nil_or_concat later with rfl | ⟨later, last, rfl⟩
    · obtain ⟨rfl, heq⟩ := List.append_inj' hevents rfl
      cases heq
      exact hcomplete hends
    · rw [List.concat_eq_append, ← List.cons_append, ← List.append_assoc] at hevents
      exact h.complete earlier ended later (List.append_inj' hevents rfl).1 hends

section Step

variable {E : Type} {start inbox inbox' : DeviceInbox} {events : List (InboxEvent E)}
  {event : InboxEvent E} {engine engine' : ChatEngine MemoryChatStore}

/-- An event that moves the scan nowhere. -/
theorem ScanInv.keep (h : ScanInv start events engine inbox)
    (hafter : engine'.inboxAfter = engine.inboxAfter)
    (hpending : engine'.inboxAckPending = engine.inboxAckPending ∨ engine'.inboxAckPending = none)
    (hstore : engine.store.Retains engine'.store) (hinbox : inbox.Extends inbox')
    (hscanned : ∀ earlier, event.scanned earlier = earlier)
    (hscanStart : ∀ earlier, event.scanStart earlier = earlier)
    (hsent : ∀ cursor ∈ event.sent, engine.inboxAckPending = some cursor)
    (hpromise : AcknowledgedDurable start (events ++ [event])) :
    ScanInv start (events ++ [event]) engine' inbox' := by
  have hpending' : ∀ cursor, engine'.inboxAckPending = some cursor →
      engine.inboxAckPending = some cursor := by
    intro cursor hcursor
    rcases hpending with heq | heq
    · rwa [← heq]
    · rw [heq] at hcursor
      cases hcursor
  refine ⟨fun cursor hcursor => ?_, fun cursor hcursor => ?_,
    fun after cursor hcursor hcursor' => ?_,
    fun cursor hcursor => ?_, fun entry hentry after hcursor hle => ?_, fun entry hentry => ?_,
    hpromise⟩
  · exact (h.after cursor (hafter ▸ hcursor)).extend hstore hinbox
  · exact (h.pending cursor (hpending' cursor hcursor)).extend hstore hinbox
  · exact h.after_le after cursor (hafter ▸ hcursor) (hpending' cursor hcursor')
  · rw [List.flatMap_append, List.mem_append] at hcursor
    rcases hcursor with hcursor | hcursor
    · obtain ⟨entry, hentry, heq⟩ := h.sent cursor hcursor
      exact ⟨entry, hinbox.mem hentry, heq⟩
    · obtain ⟨⟨entry, hentry, heq⟩, -⟩ := h.pending cursor (hsent cursor (by simpa using hcursor))
      exact ⟨entry, hinbox.mem hentry, heq⟩
  · rw [hafter] at hcursor
    obtain ⟨⟨last, hlast, rfl⟩, -⟩ := h.after after hcursor
    rw [List.foldl_append, List.foldl_cons, List.foldl_nil, hscanned]
    exact h.scanned entry (hinbox.mem_of_le hlast hentry hle) _ hcursor hle
  · rw [List.foldl_append, List.foldl_cons, List.foldl_nil, hscanStart] at hentry
    exact hinbox.mem (h.present entry hentry)

/-- At the end of a scan everything present at its start was scanned. -/
theorem ScanInv.scanned_of_end (h : ScanInv start events engine inbox)
    (hinbox : inbox.Extends inbox') (hnext : inbox'.next engine.inboxAfter = none)
    {entry : InboxSummary} (hentry : entry ∈ events.foldl InboxEvent.scanStart start.entries) :
    entry ∈ events.foldl InboxEvent.scanned [] := by
  have hmem := h.present entry hentry
  obtain ⟨after, hafter, hle⟩ := DeviceInbox.next_eq_none hnext (hinbox.mem hmem)
  exact h.scanned entry hmem after hafter hle

/-- The pending cursor at the end of a scan is not before any cursor sent earlier. -/
theorem ScanInv.sent_le (h : ScanInv start events engine inbox) (hinbox : inbox.Extends inbox')
    (hnext : inbox'.next engine.inboxAfter = none) {earlier cursor : InboxCursor}
    (hpending : engine.inboxAckPending = some cursor)
    (hearlier : earlier ∈ events.flatMap InboxEvent.sent) : earlier ≤ cursor := by
  obtain ⟨entry, hentry, rfl⟩ := h.sent earlier hearlier
  obtain ⟨after, hafter, hle⟩ := DeviceInbox.next_eq_none hnext (hinbox.mem hentry)
  exact hle.trans (h.after_le after cursor hafter hpending)

/-- The invariant of the scan is kept when messages arrive. -/
theorem ScanInv.arrive (h : ScanInv start events engine inbox) (hextends : inbox.Extends inbox') :
    ScanInv start (events ++ [.arrived]) engine inbox' := by
  refine h.keep rfl (Or.inl rfl) (.refl _) hextends (fun _ => rfl) (fun _ => rfl) ?_ ?_
  · simp [InboxEvent.sent]
  · exact h.promise.snoc (by simp) (by simp [InboxEvent.sent]) (by simp [InboxEvent.EndsScan])

/-- The invariant of the scan is kept when the session starts again. -/
theorem ScanInv.reset (h : ScanInv start events engine inbox) :
    ScanInv start (events ++ [.reset inbox]) engine.resetSessionScan inbox := by
  refine ⟨by simp [resetSessionScan], h.pending, by simp [resetSessionScan],
    fun cursor hcursor => ?_,
    by simp [resetSessionScan], fun entry hentry => ?_, ?_⟩
  · exact h.sent cursor (by simpa [InboxEvent.sent] using hcursor)
  · simpa [InboxEvent.scanStart] using hentry
  · exact h.promise.snoc (by simp) (by simp [InboxEvent.sent]) (by simp [InboxEvent.EndsScan])

/-- After an advance the scan stands at the cursor. -/
@[simp] theorem inboxAfter_advance (engine : ChatEngine MemoryChatStore) (cursor : InboxCursor) :
    (advance engine cursor).inboxAfter = some cursor := by
  unfold advance retainInboxAck
  split <;> rfl

/-- An advance leaves the store. -/
@[simp] theorem store_advance (engine : ChatEngine MemoryChatStore) (cursor : InboxCursor) :
    (advance engine cursor).store = engine.store := by
  unfold advance retainInboxAck
  split <;> rfl

/-- The pending cursor after moving past an entry. -/
theorem inboxAckPending_advance (engine : ChatEngine MemoryChatStore) (cursor : InboxCursor) :
    (advance engine cursor).inboxAckPending = some cursor ∨
      ∃ pending, engine.inboxAckPending = some pending ∧ cursor ≤ pending ∧
        (advance engine cursor).inboxAckPending = some pending := by
  unfold advance retainInboxAck
  split
  · exact Or.inl rfl
  · next hnot =>
    obtain ⟨pending, hpending, hle⟩ : ∃ pending, engine.inboxAckPending = some pending ∧
        cursor ≤ pending := by
      simpa [Option.all_eq_false] using hnot
    exact Or.inr ⟨pending, hpending, hle, hpending⟩

/-- Sending the pending cursor keeps the promise. -/
theorem ScanInv.promise_sent (h : ScanInv start events engine inbox) {answered : DeviceInbox}
    {cursor : InboxCursor} {result : Except E InboxStep} (hinbox : inbox.Extends answered)
    (hinbox' : answered.Extends inbox') (hnext : answered.next engine.inboxAfter = none)
    (hpending : engine.inboxAckPending = some cursor) :
    AcknowledgedDurable start (events ++ [.step result [cursor] inbox' engine.store]) := by
  refine h.promise.snoc ?_ ⟨List.pairwise_singleton .., fun earlier hearlier last hlast => ?_⟩
    fun _ entry hentry => h.scanned_of_end hinbox hnext hentry
  · intro result' sent inbox'' store heq
    cases heq
    intro last hlast entry hentry hle
    cases List.mem_singleton.mp hlast
    exact ((h.pending cursor hpending).extend (.refl _) (hinbox.trans hinbox')).2 entry hentry hle
  · cases List.mem_singleton.mp hlast
    exact h.sent_le hinbox hnext hpending hearlier

/-- Moving past the next entry, once its message is retained. -/
theorem ScanInv.advance (h : ScanInv start events engine inbox) {answered : DeviceInbox}
    {summary : InboxSummary} {step : InboxStep} {state : MemoryChatStore}
    (hinbox : inbox.Extends answered) (hinbox' : answered.Extends inbox')
    (hnext : answered.next engine.inboxAfter = some summary)
    (hstep : step = .alreadyImported summary.messageId summary.cursor ∨
      ∃ outcome, step = .imported summary.messageId summary.cursor outcome)
    (hstore : engine.store.Retains state)
    (hcontains : state.containsInbound summary.messageId = true) :
    ScanInv start (events ++ [.step (.ok step) [] inbox' state])
      (advance { engine with store := state } summary.cursor) inbox' := by
  obtain ⟨hmem, -, hbetween⟩ := DeviceInbox.next_eq_some hnext
  have hcovered : CoveredBy state inbox' summary.cursor :=
    (CoveredBy.next (fun cursor hcursor => (h.after cursor hcursor).extend hstore hinbox) hnext
      hcontains).extend (.refl _) hinbox'
  have hscanned : ∀ earlier, (InboxEvent.step (.ok step) [] inbox' state : InboxEvent E).scanned
      earlier = earlier ++ [summary] := by
    intro earlier
    rcases hstep with rfl | ⟨outcome, rfl⟩ <;> rfl
  have hends : ¬ (InboxEvent.step (.ok step) [] inbox' state : InboxEvent E).EndsScan := by
    rcases hstep with rfl | ⟨outcome, rfl⟩ <;> simp [InboxEvent.EndsScan]
  have hpending := inboxAckPending_advance { engine with store := state } summary.cursor
  refine ⟨fun cursor hcursor => ?_, fun cursor hcursor => ?_,
    fun after cursor hafter hcursor => ?_, fun cursor hcursor => ?_,
    fun entry hentry after hafter hle => ?_, fun entry hentry => ?_, ?_⟩
  · rw [inboxAfter_advance, Option.some.injEq] at hcursor
    rw [store_advance, ← hcursor]
    exact hcovered
  · rw [store_advance]
    obtain heq | ⟨pending, hold, -, heq⟩ := hpending <;>
      rw [heq, Option.some.injEq] at hcursor <;> subst hcursor
    · exact hcovered
    · exact (h.pending pending hold).extend hstore (hinbox.trans hinbox')
  · rw [inboxAfter_advance, Option.some.injEq] at hafter
    subst hafter
    obtain heq | ⟨pending, -, hle, heq⟩ := hpending <;>
      rw [heq, Option.some.injEq] at hcursor <;> subst hcursor
    · exact le_refl _
    · exact hle
  · obtain ⟨entry, hentry, heq⟩ := h.sent cursor (by simpa [InboxEvent.sent] using hcursor)
    exact ⟨entry, (hinbox.trans hinbox').mem hentry, heq⟩
  · rw [inboxAfter_advance, Option.some.injEq] at hafter
    subst hafter
    rw [List.foldl_append, List.foldl_cons, List.foldl_nil, hscanned, List.mem_append]
    -- an entry up to the new cursor is the new one or was scanned before
    have hentry' := hinbox'.mem_of_le hmem hentry hle
    obtain rfl | ⟨cursor, hcursor, hle'⟩ := hbetween entry hentry' hle
    · exact Or.inr (List.mem_singleton.mpr rfl)
    · obtain ⟨⟨last, hlast, rfl⟩, -⟩ := h.after cursor hcursor
      exact Or.inl (h.scanned entry (hinbox.mem_of_le hlast hentry' hle') _ hcursor hle')
  · rw [List.foldl_append, List.foldl_cons, List.foldl_nil] at hentry
    exact (hinbox.trans hinbox').mem (h.present entry hentry)
  · refine h.promise.snoc ?_ (by simp [InboxEvent.sent]) fun h => absurd h hends
    intro result sent inbox'' store heq
    cases heq
    simp

/-- Every step of the scan keeps the invariant. -/
theorem ScanInv.step (h : ScanInv start events engine inbox) {result : Except E InboxStep}
    {sent : List InboxCursor} (hstep : ScanStep engine inbox result sent engine' inbox') :
    ScanInv start (events ++ [.step result sent inbox' engine'.store]) engine' inbox' := by
  cases hstep with
  | failed hinbox hstore =>
    refine h.keep rfl (Or.inl rfl) hstore hinbox (fun _ => rfl) (fun _ => rfl)
      (by simp [InboxEvent.sent]) ?_
    refine h.promise.snoc ?_ (by simp [InboxEvent.sent]) (by simp [InboxEvent.EndsScan])
    intro result sent inbox store heq
    cases heq
    simp
  | ended hinbox hnext hpending =>
    refine h.keep rfl (Or.inl rfl) (.refl _) hinbox (fun _ => rfl) (fun _ => rfl)
      (by simp [InboxEvent.sent]) ?_
    refine h.promise.snoc ?_ (by simp [InboxEvent.sent])
      fun _ entry hentry => h.scanned_of_end hinbox hnext hentry
    intro result sent inbox store heq
    cases heq
    simp
  | refused hinbox hinbox' hnext hpending =>
    refine h.keep rfl (Or.inl rfl) (.refl _) (hinbox.trans hinbox') (fun _ => rfl) (fun _ => rfl) ?_
      (h.promise_sent hinbox hinbox' hnext hpending)
    simp [InboxEvent.sent, hpending]
  | acknowledged hinbox hinbox' hnext hpending =>
    refine h.keep rfl (Or.inr rfl) (.refl _) (hinbox.trans hinbox') (fun _ => rfl) (fun _ => rfl) ?_
      (h.promise_sent hinbox hinbox' hnext hpending)
    simp [InboxEvent.sent, hpending]
  | advanced hinbox hinbox' hnext hstep hstore hcontains =>
    rw [store_advance]
    exact h.advance hinbox hinbox' hnext hstep hstore hcontains

end Step

section Run

variable {StoreError SessionError : Type} {start inbox : DeviceInbox} {initial : MemoryChatStore}
  {events : List (InboxEvent (EngineError StoreError SessionError))}
  {engine : ChatEngine MemoryChatStore}

/-- The invariant holds over every lifetime. -/
theorem InboxRun.inv (hrun : InboxRun StoreError SessionError start initial events engine inbox) :
    ScanInv start events engine inbox := by
  induction hrun with
  | start =>
    refine ⟨by simp [ChatEngine.new], by simp [ChatEngine.new], by simp [ChatEngine.new], by simp,
      by simp [ChatEngine.new], fun entry hentry => hentry, by simp, by simp, by simp⟩
  | arrive _ hextends ih => exact ih.arrive hextends
  | reset _ ih => exact ih.reset
  | @step _ engine inbox _ _ location _ _ _ _ hstore hsession hstep ih =>
    have h := scanStep_of_inboxStep hstore hsession engine inbox location
    rw [hstep] at h
    exact ih.step h

/-- Over every lifetime of an engine, no message is acknowledged before the store retains it. -/
theorem inbox_acknowledged_durable
    (hrun : InboxRun StoreError SessionError start initial events engine inbox) :
    AcknowledgedDurable start events :=
  hrun.inv.promise

end Run

/-- An appliance that answers every call. -/
def answeringSession (message : InboundMessage) : LxmfSession InboxDevice Unit where
  submit device _ := (.error (), device)
  submissionStatus device _ := (.error (), device)
  nextInbox device after := (.ok (device.inbox.next after), device)
  readInbox device _ := (.ok message, device)
  acknowledgeInboxThrough device cursor :=
    (.ok (), { device with sent := device.sent ++ [cursor] })

/-- The session that answers with one message never takes a message away. -/
theorem appendOnly_answeringSession (message : InboundMessage) :
    AppendOnlySession (answeringSession message) := by
  constructor
  · intro device after
    refine ⟨.refl _, rfl, fun answer h => ?_⟩
    cases h
    rfl
  · exact fun device summary => ⟨.refl _, rfl⟩
  · exact fun device cursor => ⟨.refl _, rfl⟩

/-- The in-memory store itself. -/
theorem failingStore_memoryStore (now : Option UInt64) : FailingStore (memoryStore now) := by
  constructor
  · intro state messageId answer h
    cases h
    rfl
  · exact fun state message location => ⟨now, Or.inr rfl, fun outcome h => ⟨h, rfl⟩⟩

/-- A message of the appliance. -/
def smallMessage : InboundMessage :=
  ⟨Vector.replicate 32 5, Vector.replicate 16 1, Vector.replicate 16 2, ⟨7, by decide, by decide⟩,
    [], [0x68], none, none⟩

/-- An inbox with one message. -/
def smallInbox : DeviceInbox :=
  ⟨[⟨⟨1, by decide⟩, smallMessage.messageId⟩], List.pairwise_singleton ..⟩

/-- A step against that appliance. -/
def smallStep (engine : ChatEngine MemoryChatStore) (inbox : DeviceInbox) :
    Except (EngineError StoreFailure Unit) InboxStep × ChatEngine MemoryChatStore × InboxDevice :=
  inboxStepWithReceiverLocation (memoryStore none) (answeringSession smallMessage) engine
    ⟨inbox, []⟩ none

/-- Importing and acknowledging the only message of an inbox. -/
theorem inbox_acknowledged_durable_smallInbox :
    ∃ (events : List (InboxEvent (EngineError StoreFailure Unit)))
      (engine : ChatEngine MemoryChatStore) (inbox : DeviceInbox),
      InboxRun StoreFailure Unit smallInbox .new events engine inbox ∧
      events.flatMap InboxEvent.sent = [⟨1, by decide⟩] ∧
        AcknowledgedDurable smallInbox events := by
  have hstore := failingStore_memoryStore none
  have hsession := appendOnly_answeringSession smallMessage
  let first := smallStep (.new .new) smallInbox
  let second := smallStep first.2.1 first.2.2.inbox
  have hfirst : InboxRun StoreFailure Unit smallInbox .new _ first.2.1 first.2.2.inbox :=
    .step .start hstore hsession (show smallStep _ _ = (first.1, first.2.1, first.2.2) from rfl)
  have hsecond : InboxRun StoreFailure Unit smallInbox .new _ second.2.1 second.2.2.inbox :=
    .step hfirst hstore hsession (show smallStep _ _ = (second.1, second.2.1, second.2.2) from rfl)
  exact ⟨_, _, _, hsecond, by decide +kernel, inbox_acknowledged_durable hsecond⟩

end Chat
