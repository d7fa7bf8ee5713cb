import ReticulumFirmware.Chat.Resolution
import ReticulumFirmware.Chat.StatusProgress

/-!
# What holds of every store

The tables, the indexes and the activity log of a reachable store. Every part is kept by every
change, and none of them depends on the arguments of the calls.
-/

namespace Chat

open MemoryChatStore

/-- A timeline place belongs to an inbound message or to an outbound row. -/
inductive Holds (store : MemoryChatStore) : TimelineSequence → MessageId ⊕ OutboxId → Prop
  | inbound {messageId record} (h : store.inbound.get? messageId = some record) :
      Holds store record.sequence (.inl messageId)
  | outbound {id row} (h : store.outbox.get? id = some row) : Holds store row.sequence (.inr id)

/-- Entries are filed under their keys, and no two messages share a place. -/
structure PlacesSound (store : MemoryChatStore) : Prop where
  contacts : ∀ destination contact, store.contacts.get? destination = some contact →
    contact.destination = destination
  inbound : ∀ messageId record, store.inbound.get? messageId = some record →
    record.message.messageId = messageId
  passed : ∀ sequence owner, Holds store sequence owner →
    sequence.get.toNat < store.nextSequence.toNat
  single : ∀ sequence owner owner', Holds store sequence owner → Holds store sequence owner' →
    owner = owner'

/-- The empty store holds no messages. -/
theorem placesSound_new : PlacesSound new := by
  have hnone : ∀ sequence owner, ¬ Holds new sequence owner := by
    intro sequence owner h
    cases h with
    | inbound h => cases h
    | outbound h => cases h
  refine ⟨?_, ?_, ?_, ?_⟩
  · intro destination contact h
    cases h
  · intro messageId record h
    cases h
  · exact fun sequence owner h => absurd h (hnone sequence owner)
  · exact fun sequence owner owner' h => absurd h (hnone sequence owner)

/-- Places stay sound when no message moves. -/
theorem PlacesSound.same {store later : MemoryChatStore} (h : PlacesSound store)
    (hcontacts : ∀ destination contact, later.contacts.get? destination = some contact →
      contact.destination = destination)
    (hinbound : ∀ messageId record, later.inbound.get? messageId = some record →
      record.message.messageId = messageId)
    (hholds : ∀ sequence owner, Holds later sequence owner → Holds store sequence owner)
    (hnext : later.nextSequence = store.nextSequence) : PlacesSound later := by
  refine ⟨hcontacts, hinbound, ?_, ?_⟩
  · intro sequence owner howner
    rw [hnext]
    exact h.passed sequence owner (hholds sequence owner howner)
  · intro sequence owner owner' howner howner'
    exact h.single sequence _ _ (hholds sequence owner howner) (hholds sequence owner' howner')

/-- Places stay sound when a message takes the next one. -/
theorem PlacesSound.place {store later : MemoryChatStore} {sequence : TimelineSequence}
    (h : PlacesSound store) (owner : MessageId ⊕ OutboxId)
    (hcontacts : later.contacts = store.contacts)
    (hinbound : ∀ messageId record, later.inbound.get? messageId = some record →
      record.message.messageId = messageId)
    (hsequence : sequence.get = store.nextSequence)
    (hholds : ∀ sequence' owner', Holds later sequence' owner' →
      Holds store sequence' owner' ∨ sequence' = sequence ∧ owner' = owner)
    (hnext : later.nextSequence.toNat = store.nextSequence.toNat + 1) : PlacesSound later := by
  have hfresh : ∀ owner', ¬ Holds store sequence owner' := by
    intro owner' howner'
    have hpassed := h.passed sequence owner' howner'
    rw [hsequence] at hpassed
    exact lt_irrefl _ hpassed
  refine ⟨?_, hinbound, ?_, ?_⟩
  · rw [hcontacts]
    exact h.contacts
  · intro sequence' owner' howner'
    rcases hholds sequence' owner' howner' with hold | ⟨rfl, -⟩
    · have hpassed := h.passed sequence' owner' hold
      omega
    · rw [hsequence]
      omega
  · intro sequence' first second hfirst hsecond
    rcases hholds sequence' first hfirst with hold | ⟨rfl, hnew⟩
    · rcases hholds sequence' second hsecond with hold' | ⟨rfl, -⟩
      · exact h.single sequence' _ _ hold hold'
      · exact absurd hold (hfresh first)
    · rcases hholds sequence' second hsecond with hold' | ⟨-, hnew'⟩
      · exact absurd hold' (hfresh second)
      · rw [hnew, hnew']

/-- Places stay sound when a row is replaced by one at its place. -/
theorem PlacesSound.replaced {store later : MemoryChatStore} {id : OutboxId}
    {row row' : OutboxRecord} (h : PlacesSound store) (hcontacts : later.contacts = store.contacts)
    (hinbound : later.inbound = store.inbound)
    (houtbox : later.outbox = store.outbox.insert id row')
    (hrow : store.outbox.get? id = some row) (hsequence : row'.sequence = row.sequence)
    (hnext : later.nextSequence = store.nextSequence) : PlacesSound later := by
  refine h.same ?_ ?_ ?_ hnext
  · rw [hcontacts]
    exact h.contacts
  · rw [hinbound]
    exact h.inbound
  · intro sequence owner howner
    cases howner with
    | inbound hget =>
      rw [hinbound] at hget
      exact .inbound hget
    | outbound hget =>
      rw [houtbox, BTreeMap.get?_insert] at hget
      split_ifs at hget with heq
      · cases hget
        rw [heq, hsequence]
        exact .outbound hrow
      · exact .outbound hget

/-- Every effect of a call keeps the places of the messages sound. -/
theorem Change.places {store later : MemoryChatStore} {call : Call} (h : Change store call later)
    (hsound : PlacesSound store) : PlacesSound later := by
  cases h with
  | nothing => exact hsound
  | contact contact =>
    refine hsound.same ?_ hsound.inbound ?_ rfl
    · intro destination contact' hget
      rw [BTreeMap.get?_insert] at hget
      split_ifs at hget with heq
      · cases hget
        exact heq.symm
      · exact hsound.contacts destination contact' hget
    · intro sequence owner howner
      cases howner with
      | inbound h => exact .inbound h
      | outbound h => exact .outbound h
  | @retained now message receiverLocation existing retained hexisting hretained =>
    have hkey := hsound.inbound message.messageId existing hexisting
    refine hsound.same hsound.contacts ?_ ?_ rfl
    · intro messageId record hget
      rw [BTreeMap.get?_insert] at hget
      split_ifs at hget with heq
      · cases hget
        rw [heq]
        exact hretained.trans hkey
      · exact hsound.inbound messageId record hget
    · intro sequence owner howner
      cases howner with
      | inbound h =>
        rw [BTreeMap.get?_insert] at h
        split_ifs at h with heq
        · cases h
          have hold : Holds store existing.sequence (.inl message.messageId) := .inbound hexisting
          rw [heq]
          exact hold
        · exact .inbound h
      | outbound h => exact .outbound h
  | @inbound now message receiverLocation id sequence nextSequence activity incomplete
      nextActivityId hnew hsequence hnext hlogged =>
    refine hsound.place (.inl message.messageId) rfl ?_ hsequence ?_ hnext
    · intro messageId record hget
      rw [BTreeMap.get?_insert] at hget
      split_ifs at hget with heq
      · cases hget
        exact heq.symm
      · exact hsound.inbound messageId record hget
    · intro sequence' owner howner
      cases howner with
      | inbound h =>
        rw [BTreeMap.get?_insert] at h
        split_ifs at h with heq
        · cases h
          exact Or.inr ⟨rfl, by rw [heq]⟩
        · exact Or.inl (.inbound h)
      | outbound h => exact Or.inl (.outbound h)
  | @outbound now material location id outboxId sequence nextOutboxId nextSequence activity
      incomplete nextActivityId hnew hid hsequence hnextId hnext hlogged =>
    refine hsound.place (.inr outboxId) rfl hsound.inbound hsequence ?_ hnext
    intro sequence' owner howner
    cases howner with
    | inbound h => exact Or.inl (.inbound h)
    | outbound h =>
      rw [BTreeMap.get?_insert] at h
      split_ifs at h with heq
      · cases h
        exact Or.inr ⟨rfl, by rw [heq]⟩
      · exact Or.inl (.outbound h)
  | rearmed hrow => exact hsound.replaced rfl rfl rfl hrow rfl rfl
  | accepted hrow => exact hsound.replaced rfl rfl rfl hrow rfl rfl
  | projected hindex hrow => exact hsound.replaced rfl rfl rfl hrow rfl rfl
  | imported himport =>
    have hframe := withoutTraces_imported himport
    have hcontacts := (congrArg MemoryChatStore.contacts hframe :)
    have hinbound := (congrArg MemoryChatStore.inbound hframe :)
    have houtbox := (congrArg MemoryChatStore.outbox hframe :)
    have hnext := (congrArg MemoryChatStore.nextSequence hframe :)
    refine hsound.same ?_ ?_ ?_ hnext
    · intro destination contact hget
      exact hsound.contacts destination contact (hcontacts ▸ hget)
    · intro messageId record hget
      exact hsound.inbound messageId record (hinbound ▸ hget)
    · intro sequence owner howner
      cases howner with
      | inbound h => exact .inbound (hinbound ▸ h)
      | outbound h => exact .outbound (houtbox ▸ h)

section Indexes

variable {κ : Type} [LinearOrder κ] {index : BTreeMap κ OutboxId}
  {outbox : BTreeMap OutboxId OutboxRecord} {key : OutboxRecord → Option κ} {id : OutboxId}
  {row old : OutboxRecord} {k k' : κ}

/-- An index is the map that the rows induce by a key. -/
def Indexes (index : BTreeMap κ OutboxId) (outbox : BTreeMap OutboxId OutboxRecord)
    (key : OutboxRecord → Option κ) : Prop :=
  ∀ k id, index.get? k = some id ↔ ∃ row, outbox.get? id = some row ∧ key row = some k

/-- No other row has a key that is not indexed. -/
theorem Indexes.none_of_free (h : Indexes index outbox key)
    (hfree : ∀ other, index.get? k = some other → other = id)
    (hother : ∀ row, outbox.get? id = some row → key row ≠ some k) : index.get? k = none := by
  rw [Option.eq_none_iff_forall_ne_some]
  intro other hget
  have hsame := hfree other hget
  obtain ⟨row, hrow, hkey⟩ := (h k other).mp hget
  rw [hsame] at hrow
  exact hother row hrow hkey

/-- A row with the same key in the place of another. -/
theorem Indexes.same (h : Indexes index outbox key) (hrow : outbox.get? id = some old)
    (hkey : key row = key old) : Indexes index (outbox.insert id row) key := by
  intro k id'
  rw [h, BTreeMap.get?_insert]
  split_ifs with heq
  · simp [heq, hrow, hkey]
  · rfl

/-- A row without a key where there was none. -/
theorem Indexes.unkeyed (h : Indexes index outbox key) (hrow : outbox.get? id = none)
    (hkey : key row = none) : Indexes index (outbox.insert id row) key := by
  intro k id'
  rw [h, BTreeMap.get?_insert]
  split_ifs with heq
  · simp [heq, hrow, hkey]
  · rfl

/-- A row takes a key that is not indexed. -/
theorem Indexes.insert (h : Indexes index outbox key) (hfree : index.get? k = none)
    (hrow : ∀ old, outbox.get? id = some old → key old = none) (hkey : key row = some k) :
    Indexes (index.insert k id) (outbox.insert id row) key := by
  intro k' id'
  rw [BTreeMap.get?_insert, BTreeMap.get?_insert]
  by_cases hid : id' = id
  · subst hid
    rw [if_pos rfl]
    split_ifs with hk
    · simp [hkey, hk]
    · have hother : index.get? k' ≠ some id' := by
        intro hget
        obtain ⟨old, hold, holdKey⟩ := (h k' id').mp hget
        rw [hrow old hold] at holdKey
        cases holdKey
      simp [hother, hkey, Ne.symm hk]
  · rw [if_neg hid]
    split_ifs with hk
    · subst hk
      have hother : ∀ row, outbox.get? id' = some row → key row ≠ some k' := by
        intro row hrow hkey
        have hget := (h k' id').mpr ⟨row, hrow, hkey⟩
        rw [hfree] at hget
        cases hget
      constructor
      · rintro ⟨⟩
        exact absurd rfl hid
      · rintro ⟨row, hrow, hkey⟩
        exact absurd hkey (hother row hrow)
    · exact h k' id'

/-- A row goes with its key. -/
theorem Indexes.drop (h : Indexes index outbox key) (hrow : outbox.get? id = some old)
    (hold : key old = some k) : Indexes (index.remove k) (outbox.remove id) key := by
  intro k' id'
  rw [BTreeMap.get?_remove, BTreeMap.get?_remove]
  by_cases hid : id' = id
  · subst hid
    have hother : index.get? k' = some id' → k' = k := by
      intro hget
      obtain ⟨row', hrow', hkey'⟩ := (h k' id').mp hget
      rw [hrow] at hrow'
      cases hrow'
      rw [hold] at hkey'
      exact (Option.some.inj hkey').symm
    rw [if_pos rfl]
    split_ifs with hk
    · simp
    · constructor
      · exact fun hget => absurd (hother hget) hk
      · rintro ⟨row, hrow, -⟩
        cases hrow
  · rw [if_neg hid]
    split_ifs with hk
    · subst hk
      constructor
      · rintro ⟨⟩
      · rintro ⟨row', hrow', hkey'⟩
        have hget := (h k' id').mpr ⟨row', hrow', hkey'⟩
        rw [(h k' id).mpr ⟨old, hrow, hold⟩] at hget
        exact absurd (Option.some.inj hget).symm hid
    · exact h k' id'

/-- A row gives its key up. -/
theorem Indexes.remove (h : Indexes index outbox key) (hrow : outbox.get? id = some old)
    (hold : key old = some k) (hkey : key row = none) :
    Indexes (index.remove k) (outbox.insert id row) key := by
  rw [← BTreeMap.insert_remove]
  exact (h.drop hrow hold).unkeyed (by simp [BTreeMap.get?_remove]) hkey

/-- A row takes another key that is not indexed. -/
theorem Indexes.rekey (h : Indexes index outbox key) (hrow : outbox.get? id = some old)
    (hold : key old = some k) (hkey : key row = some k') (hfree : index.get? k' = none) :
    Indexes ((index.remove k).insert k' id) (outbox.insert id row) key := by
  rw [← BTreeMap.insert_remove (m := outbox)]
  refine (h.drop hrow hold).insert ?_ ?_ hkey
  · rw [BTreeMap.get?_remove, hfree, ite_self]
  · simp [BTreeMap.get?_remove]

end Indexes

/-- The three indexes are those that the rows induce. -/
structure IndexesSound (store : MemoryChatStore) : Prop where
  idempotency : Indexes store.idempotencyIndex store.outbox
    fun row => some row.material.idempotencyKey
  submission : Indexes store.submissionIndex store.outbox
    fun row => row.acceptance.map (·.submissionId)
  message : Indexes store.acceptedMessageIndex store.outbox
    fun row => row.acceptance.map (·.messageId)

/-- The empty store has empty indexes. -/
theorem indexesSound_new : IndexesSound new := by
  have hempty : ∀ {κ : Type} [LinearOrder κ] (key : OutboxRecord → Option κ),
      Indexes (.empty : BTreeMap κ OutboxId) new.outbox key := by
    intro κ _ key k id
    constructor
    · intro h
      cases h
    · rintro ⟨row, hrow, -⟩
      cases hrow
  exact ⟨hempty _, hempty _, hempty _⟩

/-- Indexes stay sound when rows and indexes stay. -/
theorem IndexesSound.same {store later : MemoryChatStore} (h : IndexesSound store)
    (houtbox : later.outbox = store.outbox)
    (hidempotency : later.idempotencyIndex = store.idempotencyIndex)
    (hsubmission : later.submissionIndex = store.submissionIndex)
    (hmessage : later.acceptedMessageIndex = store.acceptedMessageIndex) : IndexesSound later := by
  refine ⟨?_, ?_, ?_⟩
  · rw [houtbox, hidempotency]
    exact h.idempotency
  · rw [houtbox, hsubmission]
    exact h.submission
  · rw [houtbox, hmessage]
    exact h.message

/-- Every effect of a call keeps the indexes sound. -/
theorem Change.indexes {store later : MemoryChatStore} {call : Call} (h : Change store call later)
    (hrows : RowsSound store) (hsound : IndexesSound store) : IndexesSound later := by
  cases h with
  | nothing | contact | retained | inbound => exact hsound.same rfl rfl rfl rfl
  | @outbound now material location id outboxId sequence nextOutboxId nextSequence activity
      incomplete nextActivityId hnew hid hsequence hnextId hnext hlogged =>
    have hfresh : store.outbox.get? outboxId = none := by
      rw [Option.eq_none_iff_forall_ne_some]
      intro row hrow
      have hpassed := (hrows outboxId row hrow).counted
      rw [hid] at hpassed
      exact lt_irrefl _ hpassed
    refine ⟨?_, ?_, ?_⟩
    · exact hsound.idempotency.insert hnew (by simp [hfresh]) rfl
    · exact hsound.submission.unkeyed hfresh rfl
    · exact hsound.message.unkeyed hfresh rfl
  | @rearmed now outboxId idempotencyKey location record failure acceptance attempt id activity
      incomplete nextActivityId hrow hstatus hretryable hkey hfree hattempt hacceptance hlogged =>
    refine ⟨?_, ?_, ?_⟩
    · have hunused := hsound.idempotency.none_of_free hfree (by simpa [hrow] using hkey)
      exact hsound.idempotency.rekey hrow rfl rfl hunused
    · exact hsound.submission.remove hrow (by rw [hacceptance]; rfl) rfl
    · exact hsound.message.remove hrow (by rw [hacceptance]; rfl) rfl
  | @accepted now outboxId acceptance record id activity incomplete nextActivityId hrow hnone hfree
      hlogged =>
    have hunkeyed : ∀ old, store.outbox.get? outboxId = some old → old.acceptance = none := by
      intro old hold
      rw [hrow] at hold
      cases hold
      exact hnone
    unfold acceptanceBoundElsewhere at hfree
    rw [Bool.or_eq_false_iff, Option.any_eq_false, Option.any_eq_false] at hfree
    have hsubmission := hsound.submission.none_of_free (by simpa using hfree.1)
      (fun old hold => by simp [hunkeyed old hold])
    have hmessage := hsound.message.none_of_free (by simpa using hfree.2)
      (fun old hold => by simp [hunkeyed old hold])
    refine ⟨hsound.idempotency.same hrow rfl, ?_, ?_⟩
    · exact hsound.submission.insert hsubmission (fun old hold => by simp [hunkeyed old hold]) rfl
    · exact hsound.message.insert hmessage (fun old hold => by simp [hunkeyed old hold]) rfl
  | projected hindex hrow =>
    exact ⟨hsound.idempotency.same hrow rfl, hsound.submission.same hrow rfl,
      hsound.message.same hrow rfl⟩
  | imported himport =>
    have hframe := withoutTraces_imported himport
    exact hsound.same (congrArg MemoryChatStore.outbox hframe :)
      (congrArg MemoryChatStore.idempotencyIndex hframe :)
      (congrArg MemoryChatStore.submissionIndex hframe :)
      (congrArg MemoryChatStore.acceptedMessageIndex hframe :)

/-- No counter is zero. -/
structure CountersSound (store : MemoryChatStore) : Prop where
  outboxId : 0 < store.nextOutboxId.toNat
  sequence : 0 < store.nextSequence.toNat
  activityId : 0 < store.nextActivityId.toNat
  rfTraceId : 0 < store.nextRfTraceId.toNat

/-- The new store has sound counters. -/
theorem countersSound_new : CountersSound new := by
  constructor <;> decide

/-- An import leaves the trace counter positive. -/
theorem nextRfTraceId_imported {store : MemoryChatStore} {batch : RfTraceImportBatch}
    {staged : ImportState} (hpos : 0 < store.nextRfTraceId.toNat)
    (h : store.importRfTraceBatchInner batch = .ok staged) :
    0 < staged.store.nextRfTraceId.toNat := by
  obtain ⟨-, -, tokens, -, stored, hstored, enriched, henriched, rfl⟩ :=
    importRfTraceBatchInner_ok h
  have hstoredPos : 0 < stored.store.nextRfTraceId.toNat := by
    refine List.foldlM_ok_invariant (P := fun state => 0 < state.store.nextRfTraceId.toNat) ?_
      hstored hpos
    intro state observation state' hstep hstate
    unfold importObservation at hstep
    dsimp only at hstep
    split at hstep
    · split at hstep
      · cases hstep
      · split at hstep
        · cases hstep
          exact hstate
        · split at hstep
          · cases hstep
          · cases hstep
            exact hstate
        · cases hstep
          exact hstate
    · split at hstep
      · cases hstep
      · next id next hreserve =>
        cases hstep
        unfold reserveRfTraceId at hreserve
        split at hreserve
        · next hnext hnew =>
          cases hreserve
          have hadded := toNat_checkedAddOne hnext
          change 0 < next.toNat
          omega
        · cases hreserve
  refine List.foldlM_ok_invariant (P := fun state => 0 < state.store.nextRfTraceId.toNat) ?_
    henriched hstoredPos
  intro state entry state' hstep hstate
  rcases enrichEvent_ok hstep with ⟨-, rfl⟩ | hstore
  · exact hstate
  · rw [hstore]
    exact hstate

/-- Every effect of a call keeps the counters sound. -/
theorem Change.counters {store later : MemoryChatStore} {call : Call} (h : Change store call later)
    (hsound : CountersSound store) : CountersSound later := by
  obtain ⟨houtbox, hsequence, hactivity, htrace⟩ := hsound
  cases h with
  | nothing | contact | retained => exact ⟨houtbox, hsequence, hactivity, htrace⟩
  | inbound hnew hsequence' hnext hlogged =>
    have hcounted := hlogged.counted
    exact ⟨houtbox, by dsimp only; omega, by dsimp only; omega, htrace⟩
  | outbound hnew hid hsequence' hnextId hnext hlogged =>
    have hcounted := hlogged.counted
    exact ⟨by dsimp only; omega, by dsimp only; omega, by dsimp only; omega, htrace⟩
  | rearmed hrow hstatus hretryable hkey hfree hattempt hacceptance hlogged =>
    have hcounted := hlogged.counted
    exact ⟨houtbox, hsequence, by dsimp only; omega, htrace⟩
  | accepted hrow hnone hfree hlogged =>
    have hcounted := hlogged.counted
    exact ⟨houtbox, hsequence, by dsimp only; omega, htrace⟩
  | projected hindex hrow hstatus hproject hlogged =>
    have hcounted := hlogged.counted
    exact ⟨houtbox, hsequence, by dsimp only; omega, htrace⟩
  | imported himport =>
    have hframe := withoutTraces_imported himport
    have houtbox' := (congrArg MemoryChatStore.nextOutboxId hframe :)
    have hsequence' := (congrArg MemoryChatStore.nextSequence hframe :)
    have hactivity' := (congrArg MemoryChatStore.nextActivityId hframe :)
    exact ⟨houtbox'.symm ▸ houtbox, hsequence'.symm ▸ hsequence, hactivity'.symm ▸ hactivity,
      nextRfTraceId_imported htrace himport⟩

end Chat
