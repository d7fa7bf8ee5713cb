import ReticulumFirmware.Outbox.Delivered

/-!
# The index and the append frontier

Records before the frontier are torn or committed, records after it are erased, and no two
committed records share a principal and a key. An index in memory tracks the committed
records before its own next slot, which may lag behind the frontier.
-/

namespace Outbox

open Nor

variable {ε : Type} {sha256 : Sha256} {binding : OutboxBinding} {f g : Flash}

/-- The principal-scoped idempotency key of an entry. -/
def OutboxEntry.key (entry : OutboxEntry) : Vector Byte 16 × Vector Byte 16 :=
  (entry.principal, entry.idempotencyKey)

/-- A retained entry has its key. -/
theorem OutboxEntry.Retained.key_eq {a b : OutboxEntry} (h : a.Retained b) : b.key = a.key := by
  rw [h.1]
  rfl

/-- A record that holds an append, complete or not. -/
def Used (sha256 : Sha256) (binding : OutboxBinding) (f : Flash) (slot : ℕ) : Prop :=
  recordState sha256 binding f slot = some .torn ∨ ∃ entry, CommittedAt sha256 binding f slot entry

/-- A used record is not erased. -/
theorem Used.not_erased {slot : ℕ} (h : Used sha256 binding f slot) :
    ¬ f.Erased (slot * 4096) 4096 := by
  intro herased
  have hstate : recordState sha256 binding f slot = some .erased := recordState_erased herased
  rcases h with htorn | ⟨entry, hentry⟩
  · rw [htorn] at hstate
    cases hstate
  · rw [recordState_eq_committed.mpr hentry] at hstate
    cases hstate

/-- A used record stays used as the flash evolves. -/
theorem Used.evolves {slot : ℕ} (h : Used sha256 binding f slot)
    (hevolves : Evolves sha256 binding f g) : Used sha256 binding g slot := by
  rcases h with htorn | ⟨entry, hentry⟩
  · exact Or.inl (hevolves.torn slot htorn)
  · obtain ⟨later, hlater, -⟩ := hevolves.committed slot entry hentry
    exact Or.inr ⟨later, hlater⟩

/-- The invariant of the partition. -/
structure StoreInv (sha256 : Sha256) (binding : OutboxBinding) (f : Flash) (frontier : ℕ) :
    Prop where
  le : frontier ≤ 64
  used : ∀ slot < frontier, Used sha256 binding f slot
  erased : ∀ slot, frontier ≤ slot → slot < 64 → f.Erased (slot * 4096) 4096
  unique : ∀ slot < frontier, ∀ slot' < frontier, ∀ entry entry',
    CommittedAt sha256 binding f slot entry → CommittedAt sha256 binding f slot' entry' →
    entry.key = entry'.key → slot = slot'

/-- The index is up to date for the records before its next slot. -/
structure Tracks (sha256 : Sha256) (binding : OutboxBinding) (f : Flash)
    (current : MountedOutbox) : Prop where
  binding_eq : current.binding = binding
  indexLen_eq : current.indexLen = 64
  nextSlot_le : current.nextSlot ≤ 64
  length_le : current.entries.length ≤ current.nextSlot
  used : ∀ slot < current.nextSlot, Used sha256 binding f slot
  entries : ∀ entry ∈ current.entries, entry.slot < current.nextSlot ∧
    ∃ later, CommittedAt sha256 binding f entry.slot later ∧ entry.Retained later
  complete : ∀ slot < current.nextSlot, ∀ later, CommittedAt sha256 binding f slot later →
    ∃ entry ∈ current.entries, entry.slot = slot ∧ entry.Retained later

/-- An index stays up to date while the records evolve. -/
theorem Tracks.evolves {current : MountedOutbox} (h : Tracks sha256 binding f current)
    (hevolves : Evolves sha256 binding f g) : Tracks sha256 binding g current := by
  refine ⟨h.binding_eq, h.indexLen_eq, h.nextSlot_le, h.length_le,
    fun slot hslot => (h.used slot hslot).evolves hevolves, fun entry hentry => ?_,
    fun slot hslot last hlast => ?_⟩
  · obtain ⟨hslot, later, hlater, hretained⟩ := h.entries entry hentry
    obtain ⟨last, hlast, hretained', -⟩ := hevolves.committed _ later hlater
    exact ⟨hslot, last, hlast, hretained.trans hretained'⟩
  · rcases h.used slot hslot with htorn | ⟨later, hlater⟩
    · have hstate := recordState_eq_committed.mpr hlast
      rw [hevolves.torn slot htorn] at hstate
      cases hstate
    · obtain ⟨entry, hentry, hentrySlot, hretained⟩ := h.complete slot hslot later hlater
      obtain ⟨last', hlast', hretained', -⟩ := hevolves.committed slot later hlater
      rw [hlast.unique hlast']
      exact ⟨entry, hentry, hentrySlot, hretained.trans hretained'⟩

/-- An index whose next record is erased has reached the frontier. -/
theorem Tracks.nextSlot_eq {current : MountedOutbox} {frontier : ℕ}
    (h : Tracks sha256 binding f current) (hinv : StoreInv sha256 binding f frontier)
    (herased : f.Erased (current.nextSlot * 4096) 4096) (hlt : current.nextSlot < 64) :
    current.nextSlot = frontier := by
  apply Nat.le_antisymm
  · by_contra hlt'
    have := (h.used frontier (by omega)).not_erased
    exact this (hinv.erased frontier le_rfl (by omega))
  · by_contra hlt'
    exact (hinv.used current.nextSlot (by omega)).not_erased herased

/-- The index past a torn record. -/
theorem Tracks.skip {current : MountedOutbox} (h : Tracks sha256 binding f current)
    (hlt : current.nextSlot < 64)
    (htorn : recordState sha256 binding f current.nextSlot = some .torn) :
    Tracks sha256 binding f { current with nextSlot := current.nextSlot + 1 } := by
  refine ⟨h.binding_eq, h.indexLen_eq, hlt, Nat.le_succ_of_le h.length_le, fun slot hslot => ?_,
    fun entry hentry => ?_, fun slot hslot later hlater => ?_⟩
  · rcases Nat.lt_succ_iff_lt_or_eq.mp hslot with hslot | rfl
    · exact h.used slot hslot
    · exact Or.inl htorn
  · obtain ⟨hslot, hlater⟩ := h.entries entry hentry
    exact ⟨Nat.lt_succ_of_lt hslot, hlater⟩
  · rcases Nat.lt_succ_iff_lt_or_eq.mp hslot with hslot | rfl
    · exact h.complete slot hslot later hlater
    · have hstate := recordState_eq_committed.mpr hlater
      rw [htorn] at hstate
      cases hstate

/-- The index with the committed record at its next slot. -/
theorem Tracks.push {current : MountedOutbox} {entry : OutboxEntry}
    (h : Tracks sha256 binding f current) (hlt : current.nextSlot < 64)
    (hentry : CommittedAt sha256 binding f current.nextSlot entry) :
    Tracks sha256 binding f (current.push entry) := by
  have hslotEq := hentry.entry_spec.1
  refine ⟨h.binding_eq, h.indexLen_eq, hlt, ?_, fun slot hslot => ?_, fun indexed hindexed => ?_,
    fun slot hslot later hlater => ?_⟩
  · have := h.length_le
    simp only [MountedOutbox.push, List.length_append, List.length_singleton]
    omega
  · rcases Nat.lt_succ_iff_lt_or_eq.mp hslot with hslot | rfl
    · exact h.used slot hslot
    · exact Or.inr ⟨entry, hentry⟩
  · rcases List.mem_append.mp hindexed with hindexed | hindexed
    · obtain ⟨hslot, hlater⟩ := h.entries indexed hindexed
      exact ⟨Nat.lt_succ_of_lt hslot, hlater⟩
    · rw [List.mem_singleton.mp hindexed, hslotEq]
      exact ⟨Nat.lt_succ_self _, entry, hentry, .refl entry⟩
  · rcases Nat.lt_succ_iff_lt_or_eq.mp hslot with hslot | rfl
    · obtain ⟨indexed, hindexed, hspec⟩ := h.complete slot hslot later hlater
      exact ⟨indexed, List.mem_append_left _ hindexed, hspec⟩
    · rw [hlater.unique hentry]
      exact ⟨entry, by simp [MountedOutbox.push], hslotEq, .refl entry⟩

/-- The rule for a classification inside a larger program. -/
theorem wp_inspectRecord {β : Type} {φ : Faults} {G : Mutation → Prop} {slot : ℕ}
    {next : Except (OutboxError ε) RecordState → Prog ε β} {Q : β → Flash → Prop}
    {C : Flash → Prop} (hC : φ.cut = true → C f)
    (hok : wp φ G (next (stateAnswer slot (recordState sha256 binding f slot))) Q C f)
    (herror : ∀ error, wp φ G (next (.error (.backend error))) Q C f) :
    wp φ G ((inspectRecord sha256 binding slot).run >>= next) Q C f := by
  apply wp_bind
  refine (query_inspectRecord sha256 binding slot).wp hC ?_ fun _ => herror
  have hrun : (Prog.run (inspectRecord sha256 binding slot : OutboxAction ε _).run f).1 =
      stateAnswer slot (recordState sha256 binding f slot) := by
    show (Action.eval (inspectRecord sha256 binding slot) f).1 = _
    rw [eval_inspectRecord]
  rwa [hrun]

/-- Reconciling keeps the index up to date and leaves the flash alone; if it succeeds, the
index has reached an erased record or the end. -/
theorem wp_reconcileFrom {φ : Faults} {G : Mutation → Prop} {fuel : ℕ} {current : MountedOutbox}
    (htracks : Tracks sha256 binding f current) (hfuel : 64 ≤ fuel + current.nextSlot) :
    wp φ G (reconcileFrom sha256 fuel current : Prog ε (Outcome ε Unit))
      (fun r g => g = f ∧ Tracks sha256 binding f r.1 ∧ (r.2 = .ok () →
        r.1.nextSlot = 64 ∨ f.Erased (r.1.nextSlot * 4096) 4096))
      (· = f) f := by
  induction fuel generalizing current with
  | zero =>
    have := htracks.nextSlot_le
    exact wp_pure (fun _ => rfl) ⟨rfl, htracks, fun _ => Or.inl (by simp only; omega)⟩
  | succ fuel ih =>
    unfold reconcileFrom
    split
    · next hlt =>
      obtain rfl := htracks.binding_eq
      refine wp_inspectRecord (fun _ => rfl) ?_ fun error =>
        wp_pure (fun _ => rfl) ⟨rfl, htracks, by simp⟩
      cases hstate : recordState sha256 current.binding f current.nextSlot with
      | none => exact wp_pure (fun _ => rfl) ⟨rfl, htracks, by simp⟩
      | some state =>
        cases state with
        | erased =>
          exact wp_pure (fun _ => rfl)
            ⟨rfl, htracks, fun _ => Or.inr (erased_of_recordState hstate)⟩
        | torn => exact ih (htracks.skip hlt hstate) (by simp only; omega)
        | committed entry =>
          simp only [stateAnswer]
          split
          · exact wp_pure (fun _ => rfl) ⟨rfl, htracks, by simp⟩
          · exact ih (htracks.push hlt (recordState_eq_committed.mp hstate))
              (by simp only [MountedOutbox.push]; omega)
    · next hge =>
      replace hge : ¬ current.nextSlot < 64 := hge
      have := htracks.nextSlot_le
      exact wp_pure (fun _ => rfl) ⟨rfl, htracks, fun _ => Or.inl (by simp only; omega)⟩

end Outbox
