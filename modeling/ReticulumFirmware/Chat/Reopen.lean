import ReticulumFirmware.Chat.Reuse

/-!
# Reopening the image of a store

Each table of a sound store passes the checks of its pass over the image, and the pass rebuilds
the table and its indexes.
-/

namespace Chat

open MemoryChatStore BTreeMap

/-- An element of a list whose keys ascend is new to the elements before it. -/
theorem List.Pairwise.ne_of_split {α κ : Type} [LinearOrder κ] {key : α → κ} {l done rest : List α}
    {a : α} (h : l.Pairwise fun a b => key a < key b) (hl : l = done ++ a :: rest) :
    ∀ b ∈ done, some (key b) ≠ some (key a) := by
  intro b hb heq
  rw [hl, List.pairwise_append] at h
  have hlt := h.2.2 b hb a List.mem_cons_self
  rw [Option.some.inj heq] at hlt
  exact lt_irrefl _ hlt

/-- The opening after the pass over some contacts. -/
def ContactsRebuilt (opening : Opening) (done : List Contact) (result : Opening) : Prop :=
  ∃ contacts, Induced contacts (fun contact : Contact => some contact.destination) id done ∧
    result = { opening with store := { opening.store with contacts } }

/-- The contacts are rebuilt. -/
theorem foldlM_addContact {store : MemoryChatStore} (h : PlacesSound store) (opening : Opening)
    (hempty : opening.store.contacts = .empty) :
    store.contacts.values.foldlM Opening.addContact opening =
      .ok { opening with store := { opening.store with contacts := store.contacts } } := by
  have hstart : ContactsRebuilt opening [] opening :=
    ⟨.empty, induced_empty, by rw [← hempty]⟩
  suffices hall : ∃ result, store.contacts.values.foldlM Opening.addContact opening = .ok result ∧
      ContactsRebuilt opening store.contacts.values result by
    obtain ⟨result, hresult, contacts, hinduced, rfl⟩ := hall
    rw [hresult, hinduced.eq (induced_values h.contacts)]
  refine List.foldlM_ok_of_steps hstart ?_
  rintro done contact rest _ hlist ⟨contacts, hinduced, rfl⟩
  have hfresh := List.Pairwise.ne_of_split (pairwise_values h.contacts) hlist
  have hnone := hinduced.fresh hfresh
  refine ⟨_, ?_, contacts.insert contact.destination contact, hinduced.insert rfl hfresh, rfl⟩
  unfold Opening.addContact
  rw [if_neg (by simp [hnone])]

/-- Places passed by the counter. -/
theorem max_toNat_lt {a b next : UInt64} (ha : a.toNat < next.toNat) (hb : b.toNat < next.toNat) :
    (max a b).toNat < next.toNat := by
  change (if a ≤ b then b else a).toNat < next.toNat
  split_ifs
  · exact hb
  · exact ha

/-- Numbers with the same value. -/
theorem NonZeroU64.eq_of_get {a b : NonZeroU64} (h : a.get = b.get) : a = b := by
  cases a
  cases b
  cases h
  rfl

/-- The opening after the pass over some inbound messages. -/
def InboundRebuilt (store : MemoryChatStore) (opening : Opening) (done : List InboundRecord)
    (result : Opening) : Prop :=
  ∃ inbound greatest, Induced inbound (fun record : InboundRecord =>
      some record.message.messageId) id done ∧
    greatest.toNat < store.nextSequence.toNat ∧
    result = { opening with
      sequences := (done.map fun record => record.sequence.get).reverse
      greatestSequence := greatest
      store := { opening.store with inbound } }

/-- An inbound message has its place. -/
theorem PlacesSound.holds_inbound {store : MemoryChatStore} (h : PlacesSound store)
    {record : InboundRecord} (hmem : record ∈ store.inbound.values) :
    Holds store record.sequence (.inl record.message.messageId) := by
  obtain ⟨key, hget⟩ := mem_values.mp hmem
  rw [h.inbound key record hget]
  exact .inbound hget

/-- The inbound messages are rebuilt. -/
theorem foldlM_addInbound {store : MemoryChatStore} (h : PlacesSound store) (opening : Opening)
    (hempty : opening.store.inbound = .empty) (hsequences : opening.sequences = [])
    (hgreatest : opening.greatestSequence.toNat < store.nextSequence.toNat) :
    ∃ greatest, greatest.toNat < store.nextSequence.toNat ∧
      store.inbound.values.foldlM Opening.addInbound opening =
        .ok { opening with
          sequences := (store.inbound.values.map fun record => record.sequence.get).reverse
          greatestSequence := greatest
          store := { opening.store with inbound := store.inbound } } := by
  have hstart : InboundRebuilt store opening [] opening := by
    refine ⟨.empty, opening.greatestSequence, induced_empty, hgreatest, ?_⟩
    rw [← hempty, List.map_nil, List.reverse_nil, ← hsequences]
  suffices hall : ∃ result, store.inbound.values.foldlM Opening.addInbound opening = .ok result ∧
      InboundRebuilt store opening store.inbound.values result by
    obtain ⟨result, hresult, inbound, greatest, hinduced, hpassed, rfl⟩ := hall
    refine ⟨greatest, hpassed, ?_⟩
    rw [hresult, hinduced.eq (induced_values h.inbound)]
  refine List.foldlM_ok_of_steps hstart ?_
  rintro done record rest _ hlist ⟨inbound, greatest, hinduced, hpassed, rfl⟩
  have hfresh := List.Pairwise.ne_of_split (pairwise_values h.inbound) hlist
  have hnone := hinduced.fresh hfresh
  have hrecord := h.holds_inbound (by rw [hlist]; simp : record ∈ store.inbound.values)
  have hunused : record.sequence.get ∉ (done.map fun record => record.sequence.get).reverse := by
    simp only [List.mem_reverse, List.mem_map, not_exists, not_and]
    intro record' hmem heq
    have hrecord' := h.holds_inbound (by rw [hlist]; simp [hmem] : record' ∈ store.inbound.values)
    rw [NonZeroU64.eq_of_get heq] at hrecord'
    have howner := Sum.inl.inj (h.single _ _ _ hrecord' hrecord)
    exact hfresh record' hmem (congrArg some howner)
  refine ⟨_, ?_, inbound.insert record.message.messageId record,
    max greatest record.sequence.get, hinduced.insert rfl hfresh,
    max_toNat_lt hpassed (h.passed _ _ hrecord), rfl⟩
  unfold Opening.addInbound
  dsimp only
  rw [if_neg (by simp only [hunused, hnone]; simp)]
  simp

section Indexes

variable {κ : Type} [LinearOrder κ] {index : BTreeMap κ OutboxId}
  {outbox : BTreeMap OutboxId OutboxRecord} {key : OutboxRecord → Option κ}

/-- The rows induce their index. -/
theorem Indexes.induced (h : Indexes index outbox key)
    (hfiled : ∀ id row, outbox.get? id = some row → row.id = id) :
    Induced index key OutboxRecord.id outbox.values := by
  intro k id
  rw [h k id]
  constructor
  · rintro ⟨row, hrow, hkey⟩
    exact ⟨row, mem_values.mpr ⟨id, hrow⟩, hkey, hfiled id row hrow⟩
  · rintro ⟨row, hmem, hkey, rfl⟩
    obtain ⟨id, hrow⟩ := mem_values.mp hmem
    rw [hfiled id row hrow]
    exact ⟨row, hrow, hkey⟩

/-- A row does not have the key of a row before it. -/
theorem Indexes.fresh (h : Indexes index outbox key)
    (hfiled : ∀ id row, outbox.get? id = some row → row.id = id) {done rest : List OutboxRecord}
    {row : OutboxRecord} (hlist : outbox.values = done ++ row :: rest) {k : κ}
    (hkey : key row = some k) : ∀ row' ∈ done, key row' ≠ some k := by
  intro row' hmem hkey'
  have hinduced := h.induced hfiled
  have hid := (hinduced k row.id).mpr ⟨row, by rw [hlist]; simp, hkey, rfl⟩
  have hid' := (hinduced k row'.id).mpr ⟨row', by rw [hlist]; simp [hmem], hkey', rfl⟩
  exact List.Pairwise.ne_of_split (pairwise_values hfiled) hlist row' hmem (hid'.symm.trans hid)

end Indexes

/-- The opening after the pass over some rows. -/
def OutboxRebuilt (store : MemoryChatStore) (opening : Opening) (done : List OutboxRecord)
    (result : Opening) : Prop :=
  ∃ outbox idempotencyIndex submissionIndex acceptedMessageIndex greatestOutbox greatestSequence,
    Induced outbox (fun row : OutboxRecord => some row.id) id done ∧
    Induced idempotencyIndex (fun row => some row.material.idempotencyKey) OutboxRecord.id done ∧
    Induced submissionIndex (fun row => row.acceptance.map (·.submissionId)) OutboxRecord.id done ∧
    Induced acceptedMessageIndex (fun row => row.acceptance.map (·.messageId))
      OutboxRecord.id done ∧
    greatestOutbox.toNat < store.nextOutboxId.toNat ∧
    greatestSequence.toNat < store.nextSequence.toNat ∧
    result = { opening with
      sequences := (done.map fun row => row.sequence.get).reverse ++ opening.sequences
      greatestOutbox, greatestSequence
      store := { opening.store with
        outbox, idempotencyIndex, submissionIndex, acceptedMessageIndex } }

/-- The acceptance of a row is indexed. -/
theorem indexAcceptance_elim (opened : MemoryChatStore) (row : OutboxRecord)
    {done : List OutboxRecord}
    (hsubmission : Induced opened.submissionIndex (fun row => row.acceptance.map (·.submissionId))
      OutboxRecord.id done)
    (hmessage : Induced opened.acceptedMessageIndex (fun row => row.acceptance.map (·.messageId))
      OutboxRecord.id done)
    (hfreshSubmission : ∀ k, row.acceptance.map (·.submissionId) = some k →
      ∀ row' ∈ done, row'.acceptance.map (·.submissionId) ≠ some k)
    (hfreshMessage : ∀ k, row.acceptance.map (·.messageId) = some k →
      ∀ row' ∈ done, row'.acceptance.map (·.messageId) ≠ some k) :
    ∃ submissionIndex acceptedMessageIndex,
      row.acceptance.elim (some opened) (Opening.indexAcceptance opened row.id) =
        some { opened with submissionIndex, acceptedMessageIndex } ∧
      Induced submissionIndex (fun row => row.acceptance.map (·.submissionId)) OutboxRecord.id
        (done ++ [row]) ∧
      Induced acceptedMessageIndex (fun row => row.acceptance.map (·.messageId)) OutboxRecord.id
        (done ++ [row]) := by
  cases hacceptance : row.acceptance with
  | none =>
    exact ⟨_, _, rfl, hsubmission.skip (by rw [hacceptance]; rfl),
      hmessage.skip (by rw [hacceptance]; rfl)⟩
  | some acceptance =>
    rw [hacceptance] at hfreshSubmission hfreshMessage
    have hfree := hfreshSubmission _ rfl
    have hfree' := hfreshMessage _ rfl
    refine ⟨_, _, ?_, hsubmission.insert (by rw [hacceptance]; rfl) hfree,
      hmessage.insert (by rw [hacceptance]; rfl) hfree'⟩
    rw [Option.elim_some, Opening.indexAcceptance,
      if_neg (by simp [hsubmission.fresh hfree, hmessage.fresh hfree'])]

/-- The rows and their indexes are rebuilt. -/
theorem foldlM_addOutbox {store : MemoryChatStore} (h : StoreSound store) (opening : Opening)
    (hempty : opening.store.outbox = .empty)
    (hidempotency : opening.store.idempotencyIndex = .empty)
    (hsubmission : opening.store.submissionIndex = .empty)
    (hmessage : opening.store.acceptedMessageIndex = .empty)
    (hsequences : opening.sequences =
      (store.inbound.values.map fun record => record.sequence.get).reverse)
    (houtbox : opening.greatestOutbox.toNat < store.nextOutboxId.toNat)
    (hsequence : opening.greatestSequence.toNat < store.nextSequence.toNat) :
    ∃ greatestOutbox greatestSequence sequences,
      greatestOutbox.toNat < store.nextOutboxId.toNat ∧
      greatestSequence.toNat < store.nextSequence.toNat ∧
      store.outbox.values.foldlM Opening.addOutbox opening =
        .ok { opening with
          sequences, greatestOutbox, greatestSequence
          store := { opening.store with
            outbox := store.outbox
            idempotencyIndex := store.idempotencyIndex
            submissionIndex := store.submissionIndex
            acceptedMessageIndex := store.acceptedMessageIndex } } := by
  have hfiled : ∀ id row, store.outbox.get? id = some row → row.id = id :=
    fun id row hrow => (h.rows id row hrow).filed
  have hstart : OutboxRebuilt store opening [] opening := by
    refine ⟨_, _, _, _, _, _, hempty ▸ induced_empty, hidempotency ▸ induced_empty,
      hsubmission ▸ induced_empty, hmessage ▸ induced_empty, houtbox, hsequence, ?_⟩
    rw [List.map_nil, List.reverse_nil, List.nil_append]
  suffices hall : ∃ result, store.outbox.values.foldlM Opening.addOutbox opening = .ok result ∧
      OutboxRebuilt store opening store.outbox.values result by
    obtain ⟨result, hresult, outbox, idempotencyIndex, submissionIndex, acceptedMessageIndex,
      greatestOutbox, greatestSequence, hrows, hkeys, hsubmissions, hmessages, hlt, hlt',
        rfl⟩ := hall
    obtain rfl := hrows.eq (induced_values hfiled)
    obtain rfl := hkeys.eq (h.indexes.idempotency.induced hfiled)
    obtain rfl := hsubmissions.eq (h.indexes.submission.induced hfiled)
    obtain rfl := hmessages.eq (h.indexes.message.induced hfiled)
    exact ⟨_, _, _, hlt, hlt', hresult⟩
  refine List.foldlM_ok_of_steps hstart ?_
  rintro done row rest _ hlist ⟨outbox, idempotencyIndex, submissionIndex, acceptedMessageIndex,
    greatestOutbox, greatestSequence, hrows, hkeys, hsubmissions, hmessages, hlt, hlt', rfl⟩
  have hfresh := List.Pairwise.ne_of_split (pairwise_values hfiled) hlist
  have hfreshKey := h.indexes.idempotency.fresh hfiled hlist rfl
  have hfiledRow : ∀ row' ∈ store.outbox.values, store.outbox.get? row'.id = some row' := by
    intro row' hmem
    obtain ⟨id, hget⟩ := mem_values.mp hmem
    rwa [hfiled id row' hget]
  have hrow := hfiledRow row (by rw [hlist]; simp)
  have hsound := h.rows row.id row hrow
  have hunused : row.sequence.get ∉
      (done.map fun row => row.sequence.get).reverse ++ opening.sequences := by
    rw [hsequences, List.mem_append, List.mem_reverse, List.mem_map, List.mem_reverse, List.mem_map]
    rintro (⟨row', hmem, heq⟩ | ⟨record, hmem, heq⟩)
    · have hrow' := hfiledRow row' (by rw [hlist]; simp [hmem])
      have hholds : Holds store row'.sequence (.inr row'.id) := .outbound hrow'
      rw [NonZeroU64.eq_of_get heq] at hholds
      have howner := Sum.inr.inj (h.places.single _ _ _ hholds (.outbound hrow))
      exact hfresh row' hmem (congrArg some howner)
    · have hholds := h.places.holds_inbound hmem
      rw [NonZeroU64.eq_of_get heq] at hholds
      cases h.places.single _ _ _ hholds (.outbound hrow)
  obtain ⟨submissionIndex', acceptedMessageIndex', hindexed, hsubmissions', hmessages'⟩ :=
    indexAcceptance_elim { opening.store with
        outbox, submissionIndex, acceptedMessageIndex
        idempotencyIndex := idempotencyIndex.insert row.material.idempotencyKey row.id } row
      hsubmissions hmessages (fun k hk => h.indexes.submission.fresh hfiled hlist hk)
      (fun k hk => h.indexes.message.fresh hfiled hlist hk)
  refine ⟨_, ?_, outbox.insert row.id row,
    idempotencyIndex.insert row.material.idempotencyKey row.id, submissionIndex',
    acceptedMessageIndex', max greatestOutbox row.id.get, max greatestSequence row.sequence.get,
    hrows.insert rfl hfresh, hkeys.insert rfl hfreshKey, hsubmissions', hmessages',
    max_toNat_lt hlt hsound.counted,
    max_toNat_lt hlt' (h.places.passed _ _ (.outbound hrow)), rfl⟩
  unfold Opening.addOutbox
  dsimp only
  rw [if_neg hunused, if_neg (by simp [hsound.consistent]),
    if_neg (by simp [hkeys.fresh hfreshKey]),
    hindexed]
  dsimp only
  rw [if_neg (by simp [hrows.fresh hfresh])]
  simp

/-- The opening after the pass over some events. -/
def ActivityRebuilt (store : MemoryChatStore) (opening : Opening)
    (done : List MessageActivityEvent) (result : Opening) : Prop :=
  ∃ greatest, greatest.toNat < store.nextActivityId.toNat ∧
    result = { opening with
      activityIds := (done.map fun event => event.id.get).reverse
      greatestActivity := greatest
      store := { opening.store with activity := done } }

/-- The log is rebuilt. -/
theorem foldlM_addActivity {store : MemoryChatStore} (h : StoreSound store) (opening : Opening)
    (hempty : opening.store.activity = []) (hids : opening.activityIds = [])
    (hsequence : opening.store.nextSequence = store.nextSequence)
    (houtbox : opening.store.nextOutboxId = store.nextOutboxId)
    (hgreatest : opening.greatestActivity.toNat < store.nextActivityId.toNat) :
    ∃ greatest activityIds, greatest.toNat < store.nextActivityId.toNat ∧
      store.activity.foldlM Opening.addActivity opening =
        .ok { opening with
          activityIds
          greatestActivity := greatest
          store := { opening.store with activity := store.activity } } := by
  have hstart : ActivityRebuilt store opening [] opening := by
    refine ⟨_, hgreatest, ?_⟩
    rw [List.map_nil, List.reverse_nil, ← hids, ← hempty]
  suffices hall : ∃ result, store.activity.foldlM Opening.addActivity opening = .ok result ∧
      ActivityRebuilt store opening store.activity result by
    obtain ⟨result, hresult, greatest, hlt, rfl⟩ := hall
    exact ⟨_, _, hlt, hresult⟩
  refine List.foldlM_ok_of_steps hstart ?_
  rintro done event rest _ hlist ⟨greatest, hlt, rfl⟩
  have hmem : event ∈ store.activity := by
    rw [hlist]
    simp
  have hunused : event.id.get ∉ (done.map fun event => event.id.get).reverse := by
    rw [List.mem_reverse, List.mem_map]
    rintro ⟨event', hmem', heq⟩
    have hordered := h.log.ordered
    rw [hlist, List.pairwise_append] at hordered
    have hlt := hordered.2.2 event' hmem' event List.mem_cons_self
    rw [heq] at hlt
    exact lt_irrefl _ hlt
  have hplaced := h.log.placed event hmem
  have hvalid : ¬ (opening.store.nextSequence ≤ event.timelineSequence.get ∨
      event.outboxId.any (opening.store.nextOutboxId ≤ ·.get) = true) := by
    rw [hsequence, houtbox, not_or, UInt64.le_iff_toNat_le, not_le]
    refine ⟨hplaced, ?_⟩
    cases hid : event.outboxId with
    | none => simp
    | some id =>
      obtain ⟨attempt, -, row, hrow, -⟩ := h.log.shown event hmem id hid
      have hcounted := (h.rows id row hrow).counted
      rw [Option.any_some, decide_eq_true_eq, UInt64.le_iff_toNat_le, not_le]
      exact hcounted
  refine ⟨_, ?_, max greatest event.id.get, max_toNat_lt hlt (h.log.counted event hmem), rfl⟩
  unfold Opening.addActivity
  dsimp only
  rw [if_neg hunused, if_neg hvalid]
  simp

/-- The log is in order already. -/
theorem sortActivity_eq {store : MemoryChatStore} (h : LogSound store) (opening : Opening)
    (hactivity : opening.store.activity = store.activity) :
    opening.sortActivity = .ok opening := by
  have hsorted : opening.store.activity.insertionSort (fun a b => a.id ≤ b.id) =
      opening.store.activity := by
    rw [hactivity]
    refine List.Pairwise.insertionSort_eq ?_
    refine h.ordered.imp ?_
    intro a b hlt
    exact le_of_lt hlt
  unfold Opening.sortActivity
  dsimp only
  rw [hsorted, if_neg (by rw [hactivity, not_lt]; exact h.bounded)]

/-- The opening after the pass over some boots. -/
def BootsRebuilt (opening : Opening) (done : List (RfTraceBootId × MemoryRfTraceBoot))
    (result : Opening) : Prop :=
  ∃ rfTraceBoots, Induced rfTraceBoots (fun boot : RfTraceBootId × MemoryRfTraceBoot =>
      some boot.1) Prod.snd done ∧
    result = { opening with store := { opening.store with rfTraceBoots } }

/-- The boots are rebuilt. -/
theorem foldlM_addRfTraceBoot (store : MemoryChatStore) (opening : Opening)
    (hempty : opening.store.rfTraceBoots = .empty) :
    store.rfTraceBoots.entries.foldlM Opening.addRfTraceBoot opening =
      .ok { opening with store := { opening.store with rfTraceBoots := store.rfTraceBoots } } := by
  have hstart : BootsRebuilt opening [] opening :=
    ⟨.empty, induced_empty, by rw [← hempty]⟩
  suffices hall : ∃ result,
      store.rfTraceBoots.entries.foldlM Opening.addRfTraceBoot opening = .ok result ∧
      BootsRebuilt opening store.rfTraceBoots.entries result by
    obtain ⟨result, hresult, boots, hinduced, rfl⟩ := hall
    have hboots : Induced store.rfTraceBoots (fun boot : RfTraceBootId × MemoryRfTraceBoot =>
        some boot.1) Prod.snd store.rfTraceBoots.entries := by
      intro boot value
      rw [get?_eq_some]
      simp
    rw [hresult, hinduced.eq hboots]
  refine List.foldlM_ok_of_steps hstart ?_
  rintro done boot rest _ hlist ⟨boots, hinduced, rfl⟩
  have hfresh := List.Pairwise.ne_of_split store.rfTraceBoots.sorted hlist
  refine ⟨_, ?_, boots.insert boot.1 boot.2, hinduced.insert rfl hfresh, rfl⟩
  unfold Opening.addRfTraceBoot
  rw [if_neg (by simp [hinduced.fresh hfresh])]

/-- The replay key of an event. -/
def RfTraceEvent.replayKey (event : RfTraceEvent) : RfTraceBootId ×ₗ RfTraceEventSequence :=
  toLex (event.bootId, event.observation.eventSequence)

/-- The opening after the pass over some trace events. -/
def EventsRebuilt (store : MemoryChatStore) (opening : Opening) (done : List RfTraceEvent)
    (result : Opening) : Prop :=
  ∃ rfTraceKeys rfTraceEvents greatest,
    Induced rfTraceKeys (fun event : RfTraceEvent => some event.replayKey) RfTraceEvent.id done ∧
    Induced rfTraceEvents (fun event : RfTraceEvent => some event.id) id done ∧
    greatest.toNat < store.nextRfTraceId.toNat ∧
    result = { opening with
      greatestRfTrace := greatest
      store := { opening.store with rfTraceKeys, rfTraceEvents } }

/-- The replay keys are those of the events. -/
theorem TablesSound.induced_keys {store : MemoryChatStore} (h : TablesSound store) :
    Induced store.rfTraceKeys (fun event : RfTraceEvent => some event.replayKey) RfTraceEvent.id
      store.rfTraceEvents.values := by
  intro key id
  have hkeyed := h.keyed (ofLex key).1 (ofLex key).2 id
  constructor
  · intro hget
    obtain ⟨event, hevent, hboot, hsequence⟩ := hkeyed.mp hget
    refine ⟨event, mem_values.mpr ⟨id, hevent⟩, ?_, (h.filed id event hevent).1⟩
    change some (toLex (event.bootId, event.observation.eventSequence)) = some key
    rw [hboot, hsequence]
    rfl
  · rintro ⟨event, hmem, hkey, rfl⟩
    obtain ⟨id, hget⟩ := mem_values.mp hmem
    refine hkeyed.mpr ⟨event, ?_, ?_, ?_⟩
    · rwa [(h.filed id event hget).1]
    · rw [← Option.some.inj hkey]
      rfl
    · rw [← Option.some.inj hkey]
      rfl

/-- The trace events and their replay keys are rebuilt. -/
theorem foldlM_addRfTraceEvent {store : MemoryChatStore} (h : TracesSound store)
    (opening : Opening) (hempty : opening.store.rfTraceEvents = .empty)
    (hkeys : opening.store.rfTraceKeys = .empty)
    (hboots : opening.store.rfTraceBoots = store.rfTraceBoots)
    (hgreatest : opening.greatestRfTrace.toNat < store.nextRfTraceId.toNat) :
    ∃ greatest, greatest.toNat < store.nextRfTraceId.toNat ∧
      store.rfTraceEvents.values.foldlM Opening.addRfTraceEvent opening =
        .ok { opening with
          greatestRfTrace := greatest
          store := { opening.store with
            rfTraceKeys := store.rfTraceKeys
            rfTraceEvents := store.rfTraceEvents } } := by
  have hfiled : ∀ id event, store.rfTraceEvents.get? id = some event → event.id = id :=
    fun id event hevent => (h.tables.filed id event hevent).1
  have hstart : EventsRebuilt store opening [] opening :=
    ⟨_, _, _, hkeys ▸ induced_empty, hempty ▸ induced_empty, hgreatest, rfl⟩
  suffices hall : ∃ result,
      store.rfTraceEvents.values.foldlM Opening.addRfTraceEvent opening = .ok result ∧
      EventsRebuilt store opening store.rfTraceEvents.values result by
    obtain ⟨result, hresult, keys, events, greatest, hkeys, hevents, hlt, rfl⟩ := hall
    obtain rfl := hkeys.eq h.tables.induced_keys
    obtain rfl := hevents.eq (induced_values hfiled)
    exact ⟨_, hlt, hresult⟩
  refine List.foldlM_ok_of_steps hstart ?_
  rintro done event rest _ hlist ⟨keys, events, greatest, hkeys, hevents, hlt, rfl⟩
  have hmem : event ∈ store.rfTraceEvents.values := by
    rw [hlist]
    simp
  obtain ⟨id, hget⟩ := mem_values.mp hmem
  have hfresh := List.Pairwise.ne_of_split (pairwise_values hfiled) hlist
  have hfreshKey : ∀ event' ∈ done, some event'.replayKey ≠ some event.replayKey := by
    intro event' hmem' heq
    have hall := h.tables.induced_keys event.replayKey
    have hid := (hall event.id).mpr ⟨event, hmem, rfl, rfl⟩
    have hid' := (hall event'.id).mpr ⟨event', by rw [hlist]; simp [hmem'], heq, rfl⟩
    exact hfresh event' hmem' (hid'.symm.trans hid)
  obtain ⟨boot, hboot, hprofile⟩ := h.profiled event ⟨id, hget⟩
  have htimed := h.timed event ⟨id, hget⟩
  have hcounted := (h.tables.filed id event hget).2
  rw [← hfiled id event hget] at hcounted
  refine ⟨_, ?_, keys.insert event.replayKey event.id, events.insert event.id event,
    max greatest event.id.get, hkeys.insert rfl hfreshKey, hevents.insert rfl hfresh,
    max_toNat_lt hlt hcounted, rfl⟩
  have hunseen : keys.get? (toLex (event.bootId, event.observation.eventSequence)) = none :=
    hkeys.fresh hfreshKey
  unfold Opening.addRfTraceEvent
  dsimp only
  rw [hboots, hboot]
  dsimp only
  rw [if_neg (by simp [hprofile, htimed, hunseen, hevents.fresh hfresh])]
  rfl

/-- The correlations of a sound store are valid. -/
theorem CorrelationsSound.valid {store : MemoryChatStore} (h : CorrelationsSound store)
    (hsound : StoreSound store) : store.validPersistedRfTraceCorrelations = true := by
  suffices hall : ∃ tokens, store.rfTraceEvents.values.foldlM store.validCorrelation .empty =
      some tokens ∧ ∀ token correlation, tokens.get? token = some correlation →
        Carries store token correlation by
    obtain ⟨tokens, htokens, -⟩ := hall
    rw [validPersistedRfTraceCorrelations, htokens]
    rfl
  refine List.foldlM_some_of_steps (by simp) ?_
  intro tokens event hmem htokens
  have hevent := mem_values_iff.mp hmem
  unfold validCorrelation
  cases hcorrelation : event.correlation with
  | none => exact ⟨tokens, rfl, htokens⟩
  | some correlation =>
    obtain ⟨token, htoken⟩ : ∃ token, event.observation.rnsAttemptToken = some token := by
      rw [← Option.ne_none_iff_exists']
      intro hnone
      rw [hsound.traces.tokened event hevent hnone] at hcorrelation
      cases hcorrelation
    have hcarries : Carries store token correlation := ⟨event, hevent, htoken, hcorrelation⟩
    obtain ⟨row, hrow, hsequence, hattempt⟩ := h.shown token correlation hcarries
    have hagree : (tokens.get? token).any (· ≠ correlation) = false := by
      rw [Option.any_eq_false]
      intro other hother
      have hsame := hsound.traces.agreed token _ _ (htokens token other hother) hcarries
      simp [hsame]
    have hcheck : ¬ (row.sequence ≠ correlation.timelineSequence ∨
        row.currentAttempt.get < correlation.attemptNumber.get ∨
        (tokens.get? token).any (· ≠ correlation) = true) := by
      rw [hagree, UInt32.lt_iff_toNat_lt]
      simp [hsequence, hattempt]
    have hbound : ∀ t c, (tokens.insert token correlation).get? t = some c →
        Carries store t c := by
      intro t c hget
      rw [get?_insert] at hget
      split_ifs at hget with heq
      · cases hget
        rw [heq]
        exact hcarries
      · exact htokens t c hget
    simp only [htoken, hrow]
    rw [if_neg hcheck]
    cases hsubmission : event.observation.submissionId with
    | none => exact ⟨_, rfl, hbound⟩
    | some submissionId =>
      have honly : ∀ candidate, Candidate store.activity submissionId candidate →
          candidate = correlation := fun candidate hcandidate =>
        h.settled event submissionId correlation candidate hevent hsubmission hcorrelation
          hcandidate
      obtain ⟨found, hfound⟩ := rfTraceCorrelation_readable hsound.log.readable
        fun candidate candidate' hc hc' => (honly candidate hc).trans (honly candidate' hc').symm
      have hsame : found.any (· ≠ correlation) = false := by
        rw [Option.any_eq_false]
        intro candidate hcandidate
        have heq := honly candidate ((rfTraceCorrelation_ok hfound candidate).mp hcandidate)
        simp [heq]
      simp only [hfound, hsame]
      exact ⟨_, rfl, hbound⟩

/-- Where the correlations are valid, a submission of a correlated event resolves to nothing
else. -/
theorem settled_of_valid {store : MemoryChatStore}
    (h : store.validPersistedRfTraceCorrelations = true) {event : RfTraceEvent}
    {submissionId : SubmissionId} {correlation candidate : RfTraceMessageCorrelation}
    (hevent : Retains store event)
    (hsubmission : event.observation.submissionId = some submissionId)
    (hcorrelation : event.correlation = some correlation)
    (hcandidate : Candidate store.activity submissionId candidate) : candidate = correlation := by
  obtain ⟨tokens, htokens⟩ := Option.isSome_iff_exists.mp h
  obtain ⟨before, after, hstep⟩ := List.foldlM_some_mem htokens (mem_values_iff.mpr hevent)
  unfold validCorrelation at hstep
  simp only [hcorrelation, hsubmission] at hstep
  split at hstep
  · split_ifs at hstep with hcheck
    split at hstep
    · cases hstep
    · next found hfound =>
      split_ifs at hstep with hsame
      have hsome := (rfTraceCorrelation_ok hfound candidate).mpr hcandidate
      rw [hsome] at hsame
      simpa using hsame
  · cases hstep

/-- The image of a sound store passes every pass. -/
theorem StoreSound.rebuild {store : MemoryChatStore} (h : StoreSound store) :
    ∃ result, rebuild store.image = .ok result ∧ result.store = store ∧
      result.greatestOutbox.toNat < store.nextOutboxId.toNat ∧
      result.greatestSequence.toNat < store.nextSequence.toNat ∧
      result.greatestActivity.toNat < store.nextActivityId.toNat ∧
      result.greatestRfTrace.toNat < store.nextRfTraceId.toNat := by
  obtain ⟨hcounter, hcounter', hcounter'', hcounterRf⟩ := h.counters
  let opened := opening store.image
  let contacted : Opening :=
    { opened with store := { opened.store with contacts := store.contacts } }
  have hcontacts : store.contacts.values.foldlM Opening.addContact opened = .ok contacted :=
    foldlM_addContact h.places opened rfl
  obtain ⟨greatest, hlt, hinbound⟩ := foldlM_addInbound h.places contacted rfl rfl hcounter'
  let received : Opening := { contacted with
    sequences := (store.inbound.values.map fun record => record.sequence.get).reverse
    greatestSequence := greatest
    store := { contacted.store with inbound := store.inbound } }
  obtain ⟨greatestOutbox, greatestSequence, sequences, hltOutbox, hltSequence, houtbox⟩ :=
    foldlM_addOutbox h received rfl rfl rfl rfl rfl hcounter hlt
  let filed : Opening := { received with
    sequences, greatestOutbox, greatestSequence
    store := { received.store with
      outbox := store.outbox
      idempotencyIndex := store.idempotencyIndex
      submissionIndex := store.submissionIndex
      acceptedMessageIndex := store.acceptedMessageIndex } }
  obtain ⟨greatestActivity, activityIds, hltActivity, hactivity⟩ :=
    foldlM_addActivity h filed rfl rfl rfl rfl hcounter''
  let logged : Opening := { filed with
    activityIds, greatestActivity
    store := { filed.store with activity := store.activity } }
  have hsorted : logged.sortActivity = .ok logged := sortActivity_eq h.log logged rfl
  let booted : Opening := { logged with
    store := { logged.store with rfTraceBoots := store.rfTraceBoots } }
  have hboots : store.rfTraceBoots.entries.foldlM Opening.addRfTraceBoot logged = .ok booted :=
    foldlM_addRfTraceBoot store logged rfl
  obtain ⟨greatestRfTrace, hltRfTrace, hevents⟩ :=
    foldlM_addRfTraceEvent h.traces booted rfl rfl rfl hcounterRf
  let traced : Opening := { booted with
    greatestRfTrace
    store := { booted.store with
      rfTraceKeys := store.rfTraceKeys
      rfTraceEvents := store.rfTraceEvents } }
  refine ⟨traced, ?_, rfl, hltOutbox, hltSequence, hltActivity, hltRfTrace⟩
  exact Except.bind_eq_ok.mpr ⟨_, hcontacts, Except.bind_eq_ok.mpr ⟨_, hinbound,
    Except.bind_eq_ok.mpr ⟨_, houtbox, Except.bind_eq_ok.mpr ⟨_, hactivity,
    Except.bind_eq_ok.mpr ⟨_, hsorted, Except.bind_eq_ok.mpr ⟨_, hboots, hevents⟩⟩⟩⟩⟩⟩

/-- A sound store reopens as it was. -/
theorem StoreSound.openImage {store : MemoryChatStore} (h : StoreSound store)
    (hvalid : store.validPersistedRfTraceCorrelations = true) :
    openImage store.image = .ok store := by
  obtain ⟨houtbox, hsequence, hactivity, htrace⟩ := h.counters
  have hnonzero : ∀ {value : UInt64}, 0 < value.toNat → value ≠ 0 := by
    rintro value hpos rfl
    exact lt_irrefl _ hpos
  have hcounters : ¬ (store.image.nextOutboxId = 0 ∨ store.image.nextSequence = 0 ∨
      store.image.nextActivityId = 0 ∨ store.image.nextRfTraceId = 0) := by
    rintro (hzero | hzero | hzero | hzero)
    · exact hnonzero houtbox hzero
    · exact hnonzero hsequence hzero
    · exact hnonzero hactivity hzero
    · exact hnonzero htrace hzero
  obtain ⟨result, hresult, hstore, hgreatest⟩ := h.rebuild
  unfold MemoryChatStore.openImage
  rw [if_neg (by simp [image]), if_neg hcounters, hresult]
  change Opening.finish result = .ok store
  unfold Opening.finish
  dsimp only
  rw [hstore, if_neg (by simp [hvalid]), if_neg]
  simp only [not_or, UInt64.not_le, UInt64.lt_iff_toNat_lt]
  exact hgreatest

end Chat
