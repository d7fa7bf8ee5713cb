import ReticulumFirmware.Chat.Reopen
import ReticulumFirmware.Collections.Groups

/-!
# The conversation list and the timelines

`conversation_peers` folds all messages into one accumulator for each peer, and
`conversation_timeline` sorts the messages of one peer. Both read the same two tables.
-/

namespace Chat

open Nor MemoryChatStore

/-- Projection of one message in a conversation timeline. -/
structure TimelineEntry where
  sequence : TimelineSequence
  peer : DestinationHash
  direction : TimelineDirection
  timestamp : UnixTimestampMillis
  messageId : Option MessageId
  outboxId : Option OutboxId
  outboxStatus : Option OutboxStatus
  submissionId : Option SubmissionId
  currentAttempt : Option MessageAttemptNumber
  packetEvidence : Option PacketEvidence
  ingress : Option MessageIngressObservation
  location : Option MessageLocation
  receiverLocation : Option PhoneLocationSample
  title : List Byte
  content : List Byte
  deriving DecidableEq

namespace TimelineEntry

/-- The entry of a received message. -/
def inbound (record : InboundRecord) : TimelineEntry where
  sequence := record.sequence
  peer := record.message.source
  direction := .inbound
  timestamp := record.message.timestamp
  messageId := some record.message.messageId
  outboxId := none
  outboxStatus := none
  submissionId := none
  currentAttempt := none
  packetEvidence := none
  ingress := record.message.ingress
  location := record.message.location
  receiverLocation := record.receiverLocation
  title := record.message.title
  content := record.message.content

/-- The entry of a row of the outbox. -/
def outbound (record : OutboxRecord) : TimelineEntry where
  sequence := record.sequence
  peer := record.material.destination
  direction := .outbound
  timestamp := record.material.timestamp
  messageId := record.acceptance.map (·.messageId)
  outboxId := some record.id
  outboxStatus := some record.status
  submissionId := record.acceptance.map (·.submissionId)
  currentAttempt := some record.currentAttempt
  packetEvidence :=
    match record.status with
    | .device state => state.packetEvidence
    | .committed | .accepted => none
  ingress := none
  location := record.material.location
  receiverLocation := none
  title := record.material.title
  content := record.material.content

/-- The timestamp, and the sequence number among equal timestamps. -/
def position (entry : TimelineEntry) : ℕ ×ₗ TimelineSequence :=
  toLex (entry.timestamp.get.toNat, entry.sequence)

end TimelineEntry

/-- The largest count. -/
abbrev usizeMax : ℕ := 2 ^ 64 - 1

/-- What is known of a peer so far. -/
structure ConversationPeerAccumulator where
  savedName : Option String
  messageCount : ℕ
  inboundMessageCount : ℕ
  lastMessage : Option TimelineEntry
  deriving DecidableEq

namespace ConversationPeerAccumulator

/-- A saved contact before any of its messages. -/
def contact (contact : Contact) : ConversationPeerAccumulator :=
  ⟨some contact.displayName, 0, 0, none⟩

/-- A peer without a contact before any of its messages. -/
def messageOnly : ConversationPeerAccumulator := ⟨none, 0, 0, none⟩

/-- Count a message, and keep it when it is later than the last one. -/
def observe (self : ConversationPeerAccumulator) (message : TimelineEntry) (inbound : Bool) :
    ConversationPeerAccumulator :=
  let replacesLast := self.lastMessage.all fun last => decide (last.position < message.position)
  { self with
    messageCount := min (self.messageCount + 1) usizeMax
    inboundMessageCount :=
      if inbound then min (self.inboundMessageCount + 1) usizeMax else self.inboundMessageCount
    lastMessage := if replacesLast then some message else self.lastMessage }

end ConversationPeerAccumulator

/-- A peer that is a saved contact or has messages. -/
structure ConversationPeer where
  peer : DestinationHash
  savedName : Option String
  messageCount : ℕ
  inboundMessageCount : ℕ
  lastMessage : Option TimelineEntry
  deriving DecidableEq

/-- Later last messages first, then contacts without a message. -/
def compareNewestFirst {κ π : Type} [LinearOrder κ] [LinearOrder π] (left right : Option κ × π) :
    Ordering :=
  (match left.1, right.1 with
    | some leftLast, some rightLast => compare rightLast leftLast
    | some _, none => .lt
    | none, some _ => .gt
    | none, none => compare left.2 right.2).then (compare left.2 right.2)

/-- The order of the list of peers. -/
def compareConversationPeers (left right : ConversationPeer) : Ordering :=
  compareNewestFirst (left.lastMessage.map (·.position), left.peer)
    (right.lastMessage.map (·.position), right.peer)

/-- The accumulators of all peers. -/
def accumulateConversations (contacts : List Contact) (inbound : List InboundRecord)
    (outbox : List OutboxRecord) : BTreeMap DestinationHash ConversationPeerAccumulator :=
  let peers := contacts.foldl (fun peers contact =>
    peers.insert contact.destination (.contact contact)) BTreeMap.empty
  let peers := inbound.foldl (fun peers record =>
    peers.upsert record.message.source .messageOnly (·.observe (.inbound record) true)) peers
  outbox.foldl (fun peers record =>
    peers.upsert record.material.destination .messageOnly
      (·.observe (.outbound record) false)) peers

/-- A peer with what its accumulator has seen. -/
def listed (entry : DestinationHash × ConversationPeerAccumulator) : ConversationPeer where
  peer := entry.1
  savedName := entry.2.savedName
  messageCount := entry.2.messageCount
  inboundMessageCount := entry.2.inboundMessageCount
  lastMessage := entry.2.lastMessage

/-- The list of peers that contacts and messages make. -/
def projectConversationPeers (contacts : List Contact) (inbound : List InboundRecord)
    (outbox : List OutboxRecord) : List ConversationPeer :=
  ((accumulateConversations contacts inbound outbox).entries.map listed).mergeSort
    fun left right => (compareConversationPeers left right).isLE

namespace MemoryChatStore

variable (self : MemoryChatStore)

/-- The list of peers of the store. -/
def conversationPeers : List ConversationPeer :=
  projectConversationPeers self.contacts.values self.inbound.values self.outbox.values

/-- The messages of a peer by timestamp, and by sequence number among equal timestamps. -/
def conversationTimeline (peer : DestinationHash) : List TimelineEntry :=
  ((self.inbound.values.filter fun record => record.message.source = peer).map
      TimelineEntry.inbound ++
    (self.outbox.values.filter fun record => record.material.destination = peer).map
      TimelineEntry.outbound).mergeSort
    fun left right => decide (left.position ≤ right.position)

end MemoryChatStore

section Accumulators

/-- All messages of a store. -/
def messages (store : MemoryChatStore) : List TimelineEntry :=
  store.inbound.values.map TimelineEntry.inbound ++ store.outbox.values.map TimelineEntry.outbound

/-- The messages of one peer. -/
def messagesOf (store : MemoryChatStore) (peer : DestinationHash) : List TimelineEntry :=
  (messages store).filter fun entry => entry.peer = peer

/-- Count a message in the direction that it has. -/
def ConversationPeerAccumulator.observeEntry (self : ConversationPeerAccumulator)
    (entry : TimelineEntry) : ConversationPeerAccumulator :=
  self.observe entry (decide (entry.direction = .inbound))

/-- The timeline of a peer has its messages. -/
theorem conversationTimeline_eq (store : MemoryChatStore) (peer : DestinationHash) :
    store.conversationTimeline peer =
      (messagesOf store peer).mergeSort fun left right =>
        decide (left.position ≤ right.position) := by
  rw [conversationTimeline, messagesOf, messages, List.filter_append, List.filter_map,
    List.filter_map]
  rfl

/-- A timeline is the peer's messages in some order. -/
theorem perm_conversationTimeline (store : MemoryChatStore) (peer : DestinationHash) :
    (store.conversationTimeline peer).Perm (messagesOf store peer) := by
  rw [conversationTimeline_eq]
  exact List.mergeSort_perm _ _

/-- A timeline is in ascending order. -/
theorem sorted_conversationTimeline (store : MemoryChatStore) (peer : DestinationHash) :
    (store.conversationTimeline peer).Pairwise fun a b => a.position ≤ b.position := by
  rw [conversationTimeline_eq]
  exact Groups.pairwise_mergeSort _

/-- The accumulators have seen one message after the other. -/
theorem accumulateConversations_eq (store : MemoryChatStore) :
    accumulateConversations store.contacts.values store.inbound.values store.outbox.values =
      (messages store).foldl (fun peers entry =>
          peers.upsert entry.peer .messageOnly (·.observeEntry entry))
        (store.contacts.values.foldl (fun peers contact =>
          peers.insert contact.destination (.contact contact)) BTreeMap.empty) := by
  rw [messages, List.foldl_append, List.foldl_map, List.foldl_map]
  rfl

variable {acc : ConversationPeerAccumulator} {entries : List TimelineEntry}

/-- Entries that are observed leave the saved name. -/
theorem savedName_foldl_observe :
    (entries.foldl ConversationPeerAccumulator.observeEntry acc).savedName = acc.savedName := by
  induction entries generalizing acc with
  | nil => rfl
  | cons entry rest ih => exact ih

/-- The last message is the newest one that was observed. -/
theorem lastMessage_foldl_observe :
    (entries.foldl ConversationPeerAccumulator.observeEntry acc).lastMessage =
      entries.foldl (Groups.newest TimelineEntry.position) acc.lastMessage := by
  induction entries generalizing acc with
  | nil => rfl
  | cons entry rest ih => exact ih

/-- Counts that fit are not cut off. -/
theorem messageCount_foldl_observe (h : acc.messageCount + entries.length ≤ usizeMax) :
    (entries.foldl ConversationPeerAccumulator.observeEntry acc).messageCount =
      acc.messageCount + entries.length := by
  induction entries generalizing acc with
  | nil => rfl
  | cons entry rest ih =>
    rw [List.length_cons] at h ⊢
    have hcount : (acc.observeEntry entry).messageCount = acc.messageCount + 1 :=
      Nat.min_eq_left (by omega)
    rw [List.foldl_cons, ih (by rw [hcount]; omega), hcount]
    omega

/-- Below the end of `usize`, the count of inbound messages grows by the inbound entries. -/
theorem inboundMessageCount_foldl_observe
    (h : acc.inboundMessageCount + entries.length ≤ usizeMax) :
    (entries.foldl ConversationPeerAccumulator.observeEntry acc).inboundMessageCount =
      acc.inboundMessageCount + entries.countP fun entry => entry.direction = .inbound := by
  induction entries generalizing acc with
  | nil => rfl
  | cons entry rest ih =>
    rw [List.length_cons] at h
    have hcount : (acc.observeEntry entry).inboundMessageCount =
        acc.inboundMessageCount + if entry.direction = .inbound then 1 else 0 := by
      unfold ConversationPeerAccumulator.observeEntry ConversationPeerAccumulator.observe
      dsimp only
      split_ifs with hinbound hinbound'
      · exact Nat.min_eq_left (by omega)
      · exact absurd (of_decide_eq_true hinbound) hinbound'
      · exact absurd (decide_eq_true ‹_›) hinbound
      · rfl
    rw [List.foldl_cons, List.countP_cons, ih (by rw [hcount]; split_ifs <;> omega), hcount]
    simp only [decide_eq_true_eq]
    omega

end Accumulators

section Positions

variable {store : MemoryChatStore}

/-- No two messages share a place in the timeline. -/
theorem PlacesSound.nodup_sequences (h : PlacesSound store) :
    ((messages store).map (·.sequence)).Nodup := by
  rw [messages, List.map_append, List.map_map, List.map_map, List.nodup_append]
  refine ⟨?_, ?_, ?_⟩
  · rw [BTreeMap.values, List.map_map]
    refine List.pairwise_map.mpr (store.inbound.sorted.imp_of_mem fun {a b} ha hb hlt hsame => ?_)
    have hsequence : a.2.sequence = b.2.sequence := hsame
    have hsingle := h.single a.2.sequence (.inl a.1) (.inl b.1)
      (.inbound (BTreeMap.get?_eq_some.mpr ha))
      (hsequence ▸ .inbound (BTreeMap.get?_eq_some.mpr hb))
    exact hlt.ne (Sum.inl.inj hsingle)
  · rw [BTreeMap.values, List.map_map]
    refine List.pairwise_map.mpr (store.outbox.sorted.imp_of_mem fun {a b} ha hb hlt hsame => ?_)
    have hsequence : a.2.sequence = b.2.sequence := hsame
    have hsingle := h.single a.2.sequence (.inr a.1) (.inr b.1)
      (.outbound (BTreeMap.get?_eq_some.mpr ha))
      (hsequence ▸ .outbound (BTreeMap.get?_eq_some.mpr hb))
    exact hlt.ne (Sum.inr.inj hsingle)
  · intro sequence hin sequence' hout hsame
    obtain ⟨record, hrecord, rfl⟩ := List.mem_map.mp hin
    obtain ⟨row, hrow, rfl⟩ := List.mem_map.mp hout
    obtain ⟨messageId, hmessageId⟩ := BTreeMap.mem_values.mp hrecord
    obtain ⟨id, hid⟩ := BTreeMap.mem_values.mp hrow
    have hsequence : record.sequence = row.sequence := hsame
    exact Sum.inl_ne_inr (h.single record.sequence (.inl messageId) (.inr id) (.inbound hmessageId)
      (hsequence ▸ .outbound hid))

/-- Messages are told apart by their positions. -/
theorem PlacesSound.eq_of_position_eq (h : PlacesSound store) {a b : TimelineEntry}
    (ha : a ∈ messages store) (hb : b ∈ messages store) (hposition : a.position = b.position) :
    a = b :=
  List.inj_on_of_nodup_map h.nodup_sequences ha hb (congrArg (fun p => (ofLex p).2) hposition)

/-- There are fewer messages than sequence numbers. -/
theorem PlacesSound.length_messages (h : PlacesSound store) :
    (messages store).length ≤ usizeMax := by
  have hpassed : ∀ n ∈ (messages store).map (·.sequence.get.toNat),
      n ∈ List.range store.nextSequence.toNat := by
    intro n hn
    obtain ⟨entry, hentry, rfl⟩ := List.mem_map.mp hn
    rw [List.mem_range]
    rcases List.mem_append.mp hentry with hentry | hentry
    · obtain ⟨record, hrecord, rfl⟩ := List.mem_map.mp hentry
      obtain ⟨messageId, hmessageId⟩ := BTreeMap.mem_values.mp hrecord
      exact h.passed _ _ (.inbound hmessageId)
    · obtain ⟨row, hrow, rfl⟩ := List.mem_map.mp hentry
      obtain ⟨id, hid⟩ := BTreeMap.mem_values.mp hrow
      exact h.passed _ _ (.outbound hid)
  have hnodup : ((messages store).map (·.sequence.get.toNat)).Nodup := by
    have hsequences := h.nodup_sequences
    rw [List.Nodup, List.pairwise_map] at hsequences ⊢
    refine hsequences.imp fun {a b} hne hsame => hne ?_
    exact NonZeroU64.eq_of_get (UInt64.toNat_inj.mp hsame)
  have hlength := (List.subperm_of_subset hnodup hpassed).length_le
  rw [List.length_map, List.length_range] at hlength
  exact Nat.le_sub_one_of_lt (hlength.trans_lt store.nextSequence.toNat_lt)

/-- A peer has at most as many messages as the store. -/
theorem length_messagesOf_le (store : MemoryChatStore) (peer : DestinationHash) :
    (messagesOf store peer).length ≤ (messages store).length :=
  (List.filter_sublist).length_le

/-- The accumulator of a peer is there exactly if the peer is a contact or has messages, and has
seen what the timeline shows. -/
theorem get?_accumulateConversations (h : PlacesSound store) (peer : DestinationHash) :
    (accumulateConversations store.contacts.values store.inbound.values store.outbox.values).get?
        peer =
      if messagesOf store peer = [] then (store.contacts.get? peer).map .contact
      else some ((messagesOf store peer).foldl ConversationPeerAccumulator.observeEntry
        (((store.contacts.get? peer).map .contact).getD .messageOnly)) := by
  have hcontacts : (store.contacts.values.foldl (fun peers contact =>
      peers.insert contact.destination (ConversationPeerAccumulator.contact contact))
        BTreeMap.empty).get? peer = (store.contacts.get? peer).map .contact := by
    have hpairs := BTreeMap.pairwise_values h.contacts
    have hinduced : BTreeMap.Induced (store.contacts.values.foldl (fun peers contact =>
        peers.insert contact.destination (ConversationPeerAccumulator.contact contact))
          BTreeMap.empty) (fun contact => some contact.destination) .contact
        store.contacts.values :=
      BTreeMap.induced_foldl_insert _ (hpairs.imp fun hlt => hlt.ne)
    ext accumulator
    rw [hinduced peer accumulator, Option.map_eq_some_iff]
    constructor
    · rintro ⟨contact, hcontact, hdestination, rfl⟩
      obtain ⟨key, hget⟩ := BTreeMap.mem_values.mp hcontact
      obtain rfl : contact.destination = peer := Option.some.inj hdestination
      rw [← h.contacts key contact hget] at hget
      exact ⟨contact, hget, rfl⟩
    · rintro ⟨contact, hget, rfl⟩
      exact ⟨contact, BTreeMap.mem_values.mpr ⟨peer, hget⟩,
        congrArg some (h.contacts peer contact hget), rfl⟩
  rw [accumulateConversations_eq, BTreeMap.get?_foldl_upsert, hcontacts]
  unfold messagesOf
  congr <;> funext entry <;> exact decide_eq_decide.mpr Iff.rfl

end Positions

section Order

variable {κ π : Type} [LinearOrder κ] [LinearOrder π]

/-- The place of a peer in the list. -/
def rank (peer : Option κ × π) : WithTop κᵒᵈ ×ₗ π :=
  toLex (match peer.1 with
    | some last => ↑(OrderDual.toDual last)
    | none => ⊤, peer.2)

/-- A comparison is at most equal exactly where the order says so. -/
theorem isLE_compare (a b : κ) : (compare a b).isLE = decide (a ≤ b) := by
  rcases lt_trichotomy a b with hlt | rfl | hgt
  · rw [compare_lt_iff_lt.mpr hlt, decide_eq_true hlt.le]
    rfl
  · rw [compare_eq_iff_eq.mpr rfl, decide_eq_true (le_refl a)]
    rfl
  · rw [compare_gt_iff_gt.mpr hgt, decide_eq_false (not_le_of_gt hgt)]
    rfl

/-- The comparison is the order of the places. -/
theorem isLE_compareNewestFirst (left right : Option κ × π) :
    (compareNewestFirst left right).isLE = decide (rank left ≤ rank right) := by
  obtain ⟨last, peer⟩ := left
  obtain ⟨last', peer'⟩ := right
  unfold compareNewestFirst rank
  simp only [Prod.Lex.toLex_le_toLex]
  cases last with
  | none =>
    cases last' with
    | none =>
      have hthen : (compare peer peer').then (compare peer peer') = compare peer peer' := by
        cases compare peer peer' <;> rfl
      dsimp only
      rw [hthen, isLE_compare]
      simp
    | some last' => simp
  | some last =>
    cases last' with
    | none => simp
    | some last' =>
      dsimp only
      simp only [WithTop.coe_lt_coe, WithTop.coe_inj, OrderDual.toDual_lt_toDual,
        OrderDual.toDual_inj]
      rcases lt_trichotomy last' last with hlt | heq | hgt
      · rw [compare_lt_iff_lt.mpr hlt]
        simp [hlt]
      · rw [compare_eq_iff_eq.mpr heq, Ordering.eq_then, isLE_compare]
        simp [heq]
      · rw [compare_gt_iff_gt.mpr hgt]
        simp [hgt.ne, not_lt_of_gt hgt]

/-- Whoever comes before a peer with a message has a message that is not older. -/
theorem last_of_rank_le {left right : Option κ × π} (h : rank left ≤ rank right) {last : κ}
    (hlast : right.1 = some last) : ∃ newer, left.1 = some newer ∧ last ≤ newer := by
  obtain ⟨newer?, peer⟩ := left
  obtain ⟨last?, peer'⟩ := right
  obtain rfl : last? = some last := hlast
  unfold rank at h
  rw [Prod.Lex.toLex_le_toLex] at h
  cases newer? with
  | none => simp at h
  | some newer =>
    refine ⟨newer, rfl, ?_⟩
    rcases h with hlt | ⟨heq, -⟩
    · exact (OrderDual.toDual_lt_toDual.mp (WithTop.coe_lt_coe.mp hlt)).le
    · exact (OrderDual.toDual_inj.mp (WithTop.coe_inj.mp heq)).ge

/-- In a sorted list, whoever comes before a peer with a message has one that is not older. -/
theorem pairwise_newestFirst {α : Type} (place : α → Option κ × π) (peers : List α) :
    (peers.mergeSort fun left right =>
        (compareNewestFirst (place left) (place right)).isLE).Pairwise fun left right =>
      ∀ last, (place right).1 = some last → ∃ newer, (place left).1 = some newer ∧
        last ≤ newer := by
  simp only [isLE_compareNewestFirst]
  have hsorted : (peers.mergeSort fun left right =>
      decide (rank (place left) ≤ rank (place right))).Pairwise fun left right =>
        rank (place left) ≤ rank (place right) := Groups.pairwise_mergeSort peers
  exact hsorted.imp fun hrank last => last_of_rank_le hrank

end Order

section List

/-- A list of conversations that agrees with the timelines of a store. -/
structure AgreesWithTimelines (store : MemoryChatStore) (peers : List ConversationPeer) : Prop where
  listed : ∀ destination, (∃ peer ∈ peers, peer.peer = destination) ↔
    (store.contacts.get? destination).isSome ∨ store.conversationTimeline destination ≠ []
  once : (peers.map (·.peer)).Nodup
  named : ∀ peer ∈ peers, peer.savedName = (store.contacts.get? peer.peer).map (·.displayName)
  counted : ∀ peer ∈ peers,
    peer.messageCount = (store.conversationTimeline peer.peer).length ∧
      peer.inboundMessageCount = (store.conversationTimeline peer.peer).countP
        fun entry => entry.direction = .inbound
  last : ∀ peer ∈ peers,
    peer.lastMessage = (store.conversationTimeline peer.peer).getLast?
  /-- Who comes later has an older last message, or none. -/
  ordered : peers.Pairwise fun earlier later => ∀ message, later.lastMessage = some message →
    ∃ newer, earlier.lastMessage = some newer ∧ message.position < newer.position

/-- What the list says of one peer. -/
theorem accumulator_agrees {store : MemoryChatStore} (h : PlacesSound store)
    {peer : DestinationHash} {accumulator : ConversationPeerAccumulator}
    (hget : (accumulateConversations store.contacts.values store.inbound.values
      store.outbox.values).get? peer = some accumulator) :
    accumulator.savedName = (store.contacts.get? peer).map (·.displayName) ∧
      accumulator.messageCount = (store.conversationTimeline peer).length ∧
      accumulator.inboundMessageCount = ((store.conversationTimeline peer).countP
        fun entry => entry.direction = .inbound) ∧
      accumulator.lastMessage = (store.conversationTimeline peer).getLast? := by
  have hperm := perm_conversationTimeline store peer
  obtain ⟨start, hname, hcount, hinbound, hlast, rfl⟩ : ∃ start : ConversationPeerAccumulator,
      start.savedName = (store.contacts.get? peer).map (·.displayName) ∧ start.messageCount = 0 ∧
      start.inboundMessageCount = 0 ∧ start.lastMessage = none ∧
      accumulator = (messagesOf store peer).foldl ConversationPeerAccumulator.observeEntry
        start := by
    rw [get?_accumulateConversations h] at hget
    cases hcontact : store.contacts.get? peer with
    | none =>
      rw [hcontact] at hget
      split_ifs at hget with hnil
      · cases hget
      · exact ⟨.messageOnly, rfl, rfl, rfl, rfl, (Option.some.inj hget).symm⟩
    | some contact =>
      rw [hcontact] at hget
      refine ⟨.contact contact, rfl, rfl, rfl, rfl, ?_⟩
      split_ifs at hget with hnil
      · rw [hnil]
        exact (Option.some.inj hget).symm
      · exact (Option.some.inj hget).symm
  have hfits : (messagesOf store peer).length ≤ usizeMax :=
    (length_messagesOf_le store peer).trans h.length_messages
  refine ⟨by rw [savedName_foldl_observe, hname], ?_, ?_, ?_⟩
  · rw [messageCount_foldl_observe (by rw [hcount]; omega), hcount, Nat.zero_add,
      hperm.length_eq]
  · rw [inboundMessageCount_foldl_observe (by rw [hinbound]; omega), hinbound, Nat.zero_add,
      hperm.countP_eq]
  · rw [lastMessage_foldl_observe, hlast]
    exact Groups.foldl_newest_eq_getLast hperm (sorted_conversationTimeline store peer)
      fun a ha b hb => h.eq_of_position_eq (List.mem_of_mem_filter ha) (List.mem_of_mem_filter hb)

variable {store : MemoryChatStore}

/-- Who is listed, and with what. -/
theorem mem_conversationPeers {peer : ConversationPeer} :
    peer ∈ store.conversationPeers ↔ ∃ accumulator,
      (accumulateConversations store.contacts.values store.inbound.values
        store.outbox.values).get? peer.peer = some accumulator ∧
      peer = listed (peer.peer, accumulator) := by
  rw [conversationPeers, projectConversationPeers, List.mem_mergeSort, List.mem_map]
  constructor
  · rintro ⟨⟨destination, accumulator⟩, hentry, rfl⟩
    exact ⟨accumulator, BTreeMap.get?_eq_some.mpr hentry, rfl⟩
  · rintro ⟨accumulator, hget, hpeer⟩
    exact ⟨(peer.peer, accumulator), BTreeMap.get?_eq_some.mp hget, hpeer.symm⟩

/-- No peer is listed twice. -/
theorem nodup_conversationPeers : (store.conversationPeers.map (·.peer)).Nodup := by
  rw [conversationPeers, projectConversationPeers,
    ((List.mergeSort_perm _ _).map ConversationPeer.peer).nodup_iff, List.map_map]
  exact List.pairwise_map.mpr ((BTreeMap.sorted _).imp fun hlt => hlt.ne)

/-- The conversations of a store with sound tables. -/
theorem PlacesSound.agreesWithTimelines (h : PlacesSound store) :
    AgreesWithTimelines store store.conversationPeers := by
  have hagrees : ∀ peer ∈ store.conversationPeers,
      peer.savedName = (store.contacts.get? peer.peer).map (·.displayName) ∧
        peer.messageCount = (store.conversationTimeline peer.peer).length ∧
        peer.inboundMessageCount = ((store.conversationTimeline peer.peer).countP
          fun entry => entry.direction = .inbound) ∧
        peer.lastMessage = (store.conversationTimeline peer.peer).getLast? := by
    intro peer hpeer
    obtain ⟨accumulator, hget, hsame⟩ := mem_conversationPeers.mp hpeer
    have haccumulator := accumulator_agrees h hget
    rw [hsame]
    exact haccumulator
  have hlast : ∀ peer ∈ store.conversationPeers, ∀ message, peer.lastMessage = some message →
      message ∈ messagesOf store peer.peer := by
    intro peer hpeer message hmessage
    rw [(hagrees peer hpeer).2.2.2] at hmessage
    exact (perm_conversationTimeline store peer.peer).mem_iff.mp (List.mem_of_getLast? hmessage)
  refine ⟨fun destination => ?_, nodup_conversationPeers, fun peer hpeer => (hagrees peer hpeer).1,
    fun peer hpeer => ⟨(hagrees peer hpeer).2.1, (hagrees peer hpeer).2.2.1⟩,
    fun peer hpeer => (hagrees peer hpeer).2.2.2, ?_⟩
  · have htimeline : store.conversationTimeline destination = [] ↔
        messagesOf store destination = [] := by
      rw [← List.length_eq_zero_iff, ← List.length_eq_zero_iff,
        (perm_conversationTimeline store destination).length_eq]
    rw [ne_eq, htimeline]
    constructor
    · rintro ⟨peer, hpeer, rfl⟩
      obtain ⟨accumulator, hget, -⟩ := mem_conversationPeers.mp hpeer
      rw [get?_accumulateConversations h] at hget
      split_ifs at hget with hnil
      · obtain ⟨contact, hcontact, -⟩ := Option.map_eq_some_iff.mp hget
        exact Or.inl (Option.isSome_iff_exists.mpr ⟨contact, hcontact⟩)
      · exact Or.inr hnil
    · intro hlisted
      obtain ⟨accumulator, hget⟩ : ∃ accumulator, (accumulateConversations store.contacts.values
          store.inbound.values store.outbox.values).get? destination = some accumulator := by
        rw [get?_accumulateConversations h]
        split_ifs with hnil
        · obtain ⟨contact, hcontact⟩ :=
            Option.isSome_iff_exists.mp (hlisted.resolve_right (not_not.mpr hnil))
          exact ⟨.contact contact, by rw [hcontact]; rfl⟩
        · exact ⟨_, rfl⟩
      exact ⟨listed (destination, accumulator), mem_conversationPeers.mpr ⟨accumulator, hget, rfl⟩,
        rfl⟩
  · have hnodup : store.conversationPeers.Pairwise fun a b => a.peer ≠ b.peer :=
      List.pairwise_map.mp nodup_conversationPeers
    have hsorted := pairwise_newestFirst
      (fun peer : ConversationPeer => (peer.lastMessage.map (·.position), peer.peer))
      ((accumulateConversations store.contacts.values store.inbound.values
        store.outbox.values).entries.map listed)
    refine (List.Pairwise.and hsorted hnodup).imp_of_mem ?_
    rintro earlier later hearlier hlater ⟨hsorted, hne⟩ message hmessage
    obtain ⟨position, hposition, hle⟩ := hsorted message.position
      (Option.map_eq_some_iff.mpr ⟨message, hmessage, rfl⟩)
    obtain ⟨newer, hnewer, rfl⟩ := Option.map_eq_some_iff.mp hposition
    refine ⟨newer, hnewer, lt_of_le_of_ne hle fun hsame => hne ?_⟩
    -- no message belongs to two peers
    obtain ⟨hin, hpeer⟩ := List.mem_filter.mp (hlast later hlater message hmessage)
    obtain ⟨hin', hpeer'⟩ := List.mem_filter.mp (hlast earlier hearlier newer hnewer)
    rw [← of_decide_eq_true hpeer, ← of_decide_eq_true hpeer',
      h.eq_of_position_eq hin hin' hsame]

/-- The conversation list of a store that any calls have led to agrees with its timelines. -/
theorem conversationPeers_agree (calls : List Call) :
    AgreesWithTimelines (new.after calls) (new.after calls).conversationPeers :=
  (storeSound_new.after calls).places.agreesWithTimelines

end List

end Chat
