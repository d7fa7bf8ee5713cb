import ReticulumFirmware.Chat.SubmissionDevice

/-!
# The invariant of submissions

An attempt of a row is named by its idempotency key over the whole run. Every committed
record is that of an attempt, and every recorded acceptance names the record of its row.
-/

namespace Chat

open Nor Prog Outbox ChatEngine MemoryChatStore

variable {ε E : Type} {geometry : Geometry} {sha256 : Sha256} {binding : OutboxBinding}
  {principal : Vector Byte 16} {compose : OutboxMaterial → MessageId × List Byte} {start : Flash}

/-- A submission attempt of a row. -/
structure Attempt where
  id : OutboxId
  number : MessageAttemptNumber
  material : OutboxMaterial

/-- The current attempt of a row. -/
def OutboxRecord.attempt (row : OutboxRecord) : Attempt :=
  ⟨row.id, row.currentAttempt, row.material⟩

/-- Two attempts have the same key exactly if they are the same attempt, of the same material. -/
def Attempt.Consistent (a b : Attempt) : Prop :=
  (a.material.idempotencyKey = b.material.idempotencyKey ↔ a.id = b.id ∧ a.number = b.number) ∧
    (a.id = b.id ∧ a.number = b.number → a.material = b.material)

/-- An attempt is consistent with itself. -/
theorem Attempt.Consistent.refl (a : Attempt) : a.Consistent a := by
  simp [Attempt.Consistent]

/-- Consistency of attempts is symmetric. -/
theorem Attempt.Consistent.symm {a b : Attempt} (h : a.Consistent b) : b.Consistent a := by
  unfold Attempt.Consistent at *
  grind

/-- Attempts with different keys and numbers. -/
theorem Attempt.consistent_of_ne {a b : Attempt}
    (hkey : a.material.idempotencyKey ≠ b.material.idempotencyKey)
    (hnumber : ¬ (a.id = b.id ∧ a.number = b.number)) : a.Consistent b :=
  ⟨iff_of_false hkey hnumber, fun h => absurd h hnumber⟩

/-- Consistent attempts with one key have one material. -/
theorem Attempt.Consistent.material_eq {a b : Attempt} (h : a.Consistent b)
    (hkey : a.material.idempotencyKey = b.material.idempotencyKey) : a.material = b.material :=
  h.2 (h.1.mp hkey)

/-- What a run promises, over all the snapshots it passed. -/
structure ExactlyOnce (sha256 : Sha256) (binding : OutboxBinding) (principal : Vector Byte 16)
    (compose : OutboxMaterial → MessageId × List Byte) (history : List Snapshot) : Prop where
  /-- An idempotency key names one attempt of one row. -/
  attempts : ∀ s ∈ history, ∀ row ∈ s.rows, ∀ s' ∈ history, ∀ row' ∈ s'.rows,
    row.attempt.Consistent row'.attempt
  /-- A key has at most one committed record. -/
  unique : ∀ s ∈ history, ∀ s' ∈ history, ∀ slot < 64, ∀ slot' < 64, ∀ entry entry',
    CommittedAt sha256 binding s.flash slot entry →
      CommittedAt sha256 binding s'.flash slot' entry' →
    entry.key = entry'.key → slot = slot'
  /-- Every committed record is that of an attempt. -/
  origin : ∀ s ∈ history, ∀ slot < 64, ∀ entry, CommittedAt sha256 binding s.flash slot entry →
    ∃ s' ∈ history, ∃ row ∈ s'.rows,
      HoldsMaterial sha256 binding principal compose s.flash slot row.material
  /-- A recorded acceptance names the record with the row's key and wire. -/
  named : ∀ s ∈ history, ∀ row ∈ s.rows, ∀ ids, row.acceptance = some ids →
    ∃ slot < 64, ids.submissionId.get.toNat = slot + 1 ∧ ids.messageId = (compose row.material).1 ∧
      HoldsMaterial sha256 binding principal compose s.flash slot row.material
  /-- Acceptances of different attempts name different records. -/
  separate : ∀ s ∈ history, ∀ row ∈ s.rows, ∀ s' ∈ history, ∀ row' ∈ s'.rows, ∀ ids ids',
    row.acceptance = some ids → row'.acceptance = some ids' →
    ids.submissionId = ids'.submissionId → row.id = row'.id ∧
      row.currentAttempt = row'.currentAttempt

/-- The invariant of a run. -/
structure SubmissionInv (sha256 : Sha256) (binding : OutboxBinding) (principal : Vector Byte 16)
    (compose : OutboxMaterial → MessageId × List Byte) (ops : List SubmissionOp)
    (history : List Snapshot) (engine : ChatEngine MemoryChatStore) (device : OutboxDevice) :
    Prop where
  current : ⟨engine.store, device.flash⟩ ∈ history
  deviceInv : DeviceInv sha256 binding device
  evolves : ∀ s ∈ history, Evolves sha256 binding s.flash device.flash
  keyed : ∀ id row, engine.store.outbox.get? id = some row → row.id = id
  given : ∀ s ∈ history, ∀ row ∈ s.rows,
    row.material.idempotencyKey ∈ ops.flatMap SubmissionOp.keys
  attempts : ∀ s ∈ history, ∀ row ∈ s.rows, ∀ s' ∈ history, ∀ row' ∈ s'.rows,
    row.attempt.Consistent row'.attempt
  numbered : ∀ s ∈ history, ∀ row ∈ s.rows,
    row.id.get.toNat < engine.store.nextOutboxId.toNat
  later : ∀ s ∈ history, ∀ row ∈ s.rows, ∃ row', engine.store.outbox.get? row.id = some row' ∧
    row.currentAttempt.get.toNat ≤ row'.currentAttempt.get.toNat
  origin : ∀ s ∈ history, ∀ slot < 64, ∀ entry, CommittedAt sha256 binding s.flash slot entry →
    ∃ s' ∈ history, ∃ row ∈ s'.rows,
      HoldsMaterial sha256 binding principal compose s.flash slot row.material
  named : ∀ s ∈ history, ∀ row ∈ s.rows, ∀ ids, row.acceptance = some ids →
    ∃ slot < 64, ids.submissionId.get.toNat = slot + 1 ∧ ids.messageId = (compose row.material).1 ∧
      HoldsMaterial sha256 binding principal compose s.flash slot row.material

/-- A row that starts a new attempt under a key of the step. -/
structure FreshRow (op : SubmissionOp) (store : MemoryChatStore) (row : OutboxRecord) : Prop where
  key : row.material.idempotencyKey ∈ op.keys
  acceptance : row.acceptance = none
  number : store.nextOutboxId.toNat ≤ row.id.get.toNat ∨
    ∃ earlier, store.outbox.get? row.id = some earlier ∧
      earlier.currentAttempt.get.toNat < row.currentAttempt.get.toNat

/-- What a step may do to the rows: at most one starts a new attempt. -/
structure RowsStep (op : SubmissionOp) (store later : MemoryChatStore) : Prop where
  next_le : store.nextOutboxId.toNat ≤ later.nextOutboxId.toNat
  keyed : ∀ id row, later.outbox.get? id = some row → row.id = id
  numbered : ∀ id row, later.outbox.get? id = some row → id.get.toNat < later.nextOutboxId.toNat
  kept : ∀ id row, store.outbox.get? id = some row → ∃ row', later.outbox.get? id = some row' ∧
    row.currentAttempt.get.toNat ≤ row'.currentAttempt.get.toNat
  origin : ∃ fresh, ∀ id row, later.outbox.get? id = some row →
    (∃ earlier, store.outbox.get? id = some earlier ∧ row.attempt = earlier.attempt) ∨
      id = fresh ∧ FreshRow op store row

section Step

variable {ops : List SubmissionOp} {op : SubmissionOp} {history : List Snapshot}
  {engine engine' : ChatEngine MemoryChatStore} {device device' : OutboxDevice}

/-- A row of the outbox is in the history, with the flash as it is now. -/
theorem SubmissionInv.mem_rows
    (h : SubmissionInv sha256 binding principal compose ops history engine device) {id : OutboxId}
    {row : OutboxRecord} (hrow : engine.store.outbox.get? id = some row) :
    ∃ s ∈ history, s.flash = device.flash ∧ row ∈ s.rows :=
  ⟨_, h.current, rfl, BTreeMap.mem_values.mpr ⟨id, hrow⟩⟩

/-- A new row is consistent with every row seen before. -/
theorem SubmissionInv.consistent
    (h : SubmissionInv sha256 binding principal compose ops history engine device)
    (hkeys : ((ops ++ [op]).flatMap SubmissionOp.keys).Nodup)
    {row : OutboxRecord} {id : OutboxId}
    (hrow : (∃ earlier, engine.store.outbox.get? id = some earlier ∧
      row.attempt = earlier.attempt) ∨ FreshRow op engine.store row)
    {s : Snapshot} (hs : s ∈ history) {old : OutboxRecord} (hold : old ∈ s.rows) :
    row.attempt.Consistent old.attempt := by
  rcases hrow with ⟨earlier, hearlier, heq⟩ | hfresh
  · obtain ⟨s', hs', -, hmem⟩ := h.mem_rows hearlier
    rw [heq]
    exact h.attempts s' hs' earlier hmem s hs old hold
  · apply Attempt.consistent_of_ne
    · rw [List.flatMap_append, List.nodup_append'] at hkeys
      intro heq
      replace heq : row.material.idempotencyKey = old.material.idempotencyKey := heq
      have hgiven := h.given s hs old hold
      exact hkeys.2.2 hgiven (by simpa [← heq] using hfresh.key)
    · rintro ⟨heq, hnumber⟩
      replace heq : row.id = old.id := heq
      replace hnumber : row.currentAttempt = old.currentAttempt := hnumber
      rcases hfresh.number with hle | ⟨earlier, hearlier, hlt⟩
      · have := h.numbered s hs old hold
        rw [heq] at hle
        omega
      · obtain ⟨current, hcurrent, hle⟩ := h.later s hs old hold
        rw [← heq, hearlier] at hcurrent
        cases hcurrent
        rw [← hnumber] at hle
        omega

/-- One step keeps the invariant, given what it did on either side. -/
theorem SubmissionInv.snoc {submitted : OutboxMaterial → Prop}
    (h : SubmissionInv sha256 binding principal compose ops history engine device)
    (hkeys : ((ops ++ [op]).flatMap SubmissionOp.keys).Nodup)
    (hdevice : DeviceEffect sha256 binding principal compose submitted device device')
    (hsubmitted : ∀ material, submitted material → ∃ id row,
      engine.store.outbox.get? id = some row ∧ row.material = material)
    (hrows : RowsStep op engine.store engine'.store)
    (hnamed : ∀ id row, engine'.store.outbox.get? id = some row → ∀ ids, row.acceptance = some ids →
      ∃ slot < 64, ids.submissionId.get.toNat = slot + 1 ∧
        ids.messageId = (compose row.material).1 ∧
        HoldsMaterial sha256 binding principal compose device'.flash slot row.material) :
    SubmissionInv sha256 binding principal compose (ops ++ [op])
      (history ++ [⟨engine'.store, device'.flash⟩]) engine' device' := by
  obtain ⟨fresh, horigin⟩ := hrows.origin
  have horigin' : ∀ id row, engine'.store.outbox.get? id = some row →
      (∃ earlier, engine.store.outbox.get? id = some earlier ∧ row.attempt = earlier.attempt) ∨
        FreshRow op engine.store row := fun id row hrow =>
    (horigin id row hrow).imp_right And.right
  have hold : ∀ id row, engine'.store.outbox.get? id = some row → ∀ s ∈ history, ∀ old ∈ s.rows,
      row.attempt.Consistent old.attempt := fun id row hrow s hs old hmem =>
    h.consistent hkeys (horigin' id row hrow) hs hmem
  have hnew : ∀ id row, engine'.store.outbox.get? id = some row → ∀ id' row',
      engine'.store.outbox.get? id' = some row' → row.attempt.Consistent row'.attempt := by
    intro id row hrow id' row' hrow'
    rcases horigin id' row' hrow' with ⟨earlier, hearlier, heq⟩ | ⟨rfl, -⟩
    · obtain ⟨s, hs, -, hmem⟩ := h.mem_rows hearlier
      rw [heq]
      exact hold id row hrow s hs earlier hmem
    rcases horigin id row hrow with ⟨earlier, hearlier, heq⟩ | ⟨rfl, -⟩
    · obtain ⟨s, hs, -, hmem⟩ := h.mem_rows hearlier
      rw [heq]
      exact (hold _ row' hrow' s hs earlier hmem).symm
    · rw [hrow] at hrow'
      cases hrow'
      exact .refl _
  constructor
  case current => simp
  case deviceInv => exact hdevice.inv
  case keyed => exact hrows.keyed
  case evolves =>
    intro s hs
    rcases List.mem_append.mp hs with hs | hs
    · exact (h.evolves s hs).trans hdevice.evolves
    · rw [List.mem_singleton.mp hs]
      exact .refl _
  case given =>
    intro s hs row hrow
    rw [List.flatMap_append, List.mem_append]
    rcases List.mem_append.mp hs with hs | hs
    · exact Or.inl (h.given s hs row hrow)
    · rw [List.mem_singleton.mp hs] at hrow
      obtain ⟨id, hid⟩ := BTreeMap.mem_values.mp hrow
      rcases horigin' id row hid with ⟨earlier, hearlier, heq⟩ | hfresh
      · obtain ⟨s', hs', -, hmem⟩ := h.mem_rows hearlier
        have hmaterial : row.material = earlier.material := congrArg Attempt.material heq
        rw [hmaterial]
        exact Or.inl (h.given s' hs' earlier hmem)
      · exact Or.inr (by simpa using hfresh.key)
  case attempts =>
    intro s hs row hrow s' hs' row' hrow'
    rcases List.mem_append.mp hs with hs | hs <;> rcases List.mem_append.mp hs' with hs' | hs'
    · exact h.attempts s hs row hrow s' hs' row' hrow'
    · rw [List.mem_singleton.mp hs'] at hrow'
      obtain ⟨id', hid'⟩ := BTreeMap.mem_values.mp hrow'
      exact (hold id' row' hid' s hs row hrow).symm
    · rw [List.mem_singleton.mp hs] at hrow
      obtain ⟨id, hid⟩ := BTreeMap.mem_values.mp hrow
      exact hold id row hid s' hs' row' hrow'
    · rw [List.mem_singleton.mp hs] at hrow
      rw [List.mem_singleton.mp hs'] at hrow'
      obtain ⟨id, hid⟩ := BTreeMap.mem_values.mp hrow
      obtain ⟨id', hid'⟩ := BTreeMap.mem_values.mp hrow'
      exact hnew id row hid id' row' hid'
  case numbered =>
    intro s hs row hrow
    rcases List.mem_append.mp hs with hs | hs
    · exact Nat.lt_of_lt_of_le (h.numbered s hs row hrow) hrows.next_le
    · rw [List.mem_singleton.mp hs] at hrow
      obtain ⟨id, hid⟩ := BTreeMap.mem_values.mp hrow
      rw [hrows.keyed id row hid]
      exact hrows.numbered id row hid
  case later =>
    intro s hs row hrow
    rcases List.mem_append.mp hs with hs | hs
    · obtain ⟨middle, hmiddle, hle⟩ := h.later s hs row hrow
      obtain ⟨last, hlast, hle'⟩ := hrows.kept _ _ hmiddle
      exact ⟨last, hlast, hle.trans hle'⟩
    · rw [List.mem_singleton.mp hs] at hrow
      obtain ⟨id, hid⟩ := BTreeMap.mem_values.mp hrow
      rw [hrows.keyed id row hid]
      exact ⟨row, hid, le_refl _⟩
  case origin =>
    intro s hs slot hslot entry hentry
    rcases List.mem_append.mp hs with hs | hs
    · obtain ⟨s', hs', row, hrow, hholds⟩ := h.origin s hs slot hslot entry hentry
      exact ⟨s', List.mem_append_left _ hs', row, hrow, hholds⟩
    · rw [List.mem_singleton.mp hs] at hentry ⊢
      rcases hdevice.fresh slot hslot entry hentry with ⟨earlier, hearlier⟩ | ⟨material, hm, hholds⟩
      · obtain ⟨s', hs', row, hrow, hholds⟩ := h.origin _ h.current slot hslot earlier hearlier
        exact ⟨s', List.mem_append_left _ hs', row, hrow, hholds.evolves hdevice.evolves⟩
      · obtain ⟨id, row, hrow, rfl⟩ := hsubmitted material hm
        obtain ⟨s', hs', -, hmem⟩ := h.mem_rows hrow
        exact ⟨s', List.mem_append_left _ hs', row, hmem, hholds⟩
  case named =>
    intro s hs row hrow ids hids
    rcases List.mem_append.mp hs with hs | hs
    · exact h.named s hs row hrow ids hids
    · rw [List.mem_singleton.mp hs] at hrow ⊢
      obtain ⟨id, hid⟩ := BTreeMap.mem_values.mp hrow
      exact hnamed id row hid ids hids

/-- The acceptances of the current rows still name their records. -/
theorem SubmissionInv.named_evolves {submitted : OutboxMaterial → Prop}
    (h : SubmissionInv sha256 binding principal compose ops history engine device)
    (hdevice : DeviceEffect sha256 binding principal compose submitted device device')
    {id : OutboxId} {row : OutboxRecord} (hrow : engine.store.outbox.get? id = some row)
    {ids : AcceptanceIds} (hids : row.acceptance = some ids) :
    ∃ slot < 64, ids.submissionId.get.toNat = slot + 1 ∧ ids.messageId = (compose row.material).1 ∧
      HoldsMaterial sha256 binding principal compose device'.flash slot row.material := by
  obtain ⟨s, hs, hflash, hmem⟩ := h.mem_rows hrow
  obtain ⟨slot, hslot, hid, hmessage, hholds⟩ := h.named s hs row hmem ids hids
  rw [hflash] at hholds
  exact ⟨slot, hslot, hid, hmessage, hholds.evolves hdevice.evolves⟩

/-- A store with the same rows has taken a step of the rows. -/
theorem SubmissionInv.rowsStep_same
    (h : SubmissionInv sha256 binding principal compose ops history engine device)
    {later : MemoryChatStore} (hsame : engine.store.SameRows later) :
    RowsStep op engine.store later := by
  obtain ⟨houtbox, hnext⟩ := hsame
  refine ⟨by rw [hnext], by rw [houtbox]; exact h.keyed, fun id row hrow => ?_,
    fun id row hrow => ⟨row, by rwa [houtbox], le_refl _⟩,
    ⟨⟨1, by decide⟩, fun id row hrow => Or.inl ⟨row, by rwa [← houtbox], rfl⟩⟩⟩
  rw [houtbox] at hrow
  obtain ⟨s, hs, -, hmem⟩ := h.mem_rows hrow
  rw [hnext, ← h.keyed id row hrow]
  exact h.numbered s hs row hmem

/-- Binding one row. -/
theorem SubmissionInv.rowsStep_insert
    (h : SubmissionInv sha256 binding principal compose ops history engine device)
    {later : MemoryChatStore} {id : OutboxId} {row : OutboxRecord}
    (houtbox : later.outbox = engine.store.outbox.insert id row) (hid : row.id = id)
    (hnext : engine.store.nextOutboxId.toNat ≤ later.nextOutboxId.toNat)
    (hlt : id.get.toNat < later.nextOutboxId.toNat)
    (hkept : ∀ earlier, engine.store.outbox.get? id = some earlier →
      earlier.currentAttempt.get.toNat ≤ row.currentAttempt.get.toNat)
    (horigin : (∃ earlier, engine.store.outbox.get? id = some earlier ∧
      row.attempt = earlier.attempt) ∨ FreshRow op engine.store row) :
    RowsStep op engine.store later := by
  have hget : ∀ id' row', later.outbox.get? id' = some row' →
      id' = id ∧ row' = row ∨ id' ≠ id ∧ engine.store.outbox.get? id' = some row' := by
    intro id' row' hrow'
    rw [houtbox, BTreeMap.get?_insert] at hrow'
    grind
  refine ⟨hnext, fun id' row' hrow' => ?_, fun id' row' hrow' => ?_, fun id' old hold => ?_,
    ⟨id, fun id' row' hrow' => ?_⟩⟩
  · rcases hget id' row' hrow' with ⟨rfl, rfl⟩ | ⟨-, hold⟩
    · exact hid
    · exact h.keyed id' row' hold
  · rcases hget id' row' hrow' with ⟨rfl, rfl⟩ | ⟨-, hold⟩
    · exact hlt
    · obtain ⟨s, hs, -, hmem⟩ := h.mem_rows hold
      rw [← h.keyed id' row' hold]
      exact Nat.lt_of_lt_of_le (h.numbered s hs row' hmem) hnext
  · rw [houtbox, BTreeMap.get?_insert]
    by_cases heq : id' = id
    · subst heq
      exact ⟨row, by simp, hkept old hold⟩
    · exact ⟨old, by simpa [heq] using hold, le_refl _⟩
  · rcases hget id' row' hrow' with ⟨rfl, rfl⟩ | ⟨-, hold⟩
    · exact horigin.imp_right fun hfresh => ⟨rfl, hfresh⟩
    · exact Or.inl ⟨row', hold, rfl⟩

/-- Replacing a row by one of the same attempt. -/
theorem SubmissionInv.rowsStep_replaced
    (h : SubmissionInv sha256 binding principal compose ops history engine device)
    {later : MemoryChatStore} {id : OutboxId} {record row : OutboxRecord}
    (hrecord : engine.store.outbox.get? id = some record)
    (hreplaced : engine.store.RowReplaced later id row) (hattempt : row.attempt = record.attempt) :
    RowsStep op engine.store later := by
  obtain ⟨s, hs, -, hmem⟩ := h.mem_rows hrecord
  have hid := h.keyed id record hrecord
  have hnumber : row.currentAttempt = record.currentAttempt := congrArg Attempt.number hattempt
  refine h.rowsStep_insert hreplaced.1 ((congrArg Attempt.id hattempt).trans hid)
    (by rw [hreplaced.2]) ?_ (fun earlier hearlier => ?_) (Or.inl ⟨record, hrecord, hattempt⟩)
  · rw [hreplaced.2, ← hid]
    exact h.numbered s hs record hmem
  · rw [hrecord] at hearlier
    cases hearlier
    rw [hnumber]

end Step

end Chat
