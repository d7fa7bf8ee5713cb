import ReticulumFirmware.Outbox.Mount

/-!
# Accepting messages

Accepting keeps the invariant of the partition wherever it stops, and keeps the index up
to date when it returns. A record that it adds is that of the offered message.
-/

namespace Outbox

open Nor

variable {ε : Type} {sha256 : Sha256} {binding : OutboxBinding} {f g : Flash} {frontier : ℕ}

/-- The principal-scoped idempotency key of an offered message. -/
def OutboxCandidate.key (candidate : OutboxCandidate) : Vector Byte 16 × Vector Byte 16 :=
  (candidate.principal, candidate.idempotencyKey)

/-- An entry that is found by its key is in the outbox. -/
theorem idempotency_some {current : MountedOutbox} {candidate : OutboxCandidate}
    {entry : OutboxEntry}
    (h : current.idempotency candidate.principal candidate.idempotencyKey = some entry) :
    entry ∈ current.entries ∧ entry.key = candidate.key := by
  have hkey := List.find?_some h
  simp only [decide_eq_true_eq] at hkey
  exact ⟨List.mem_of_find?_eq_some h, Prod.ext hkey.1 hkey.2⟩

/-- Where no entry is found by a key none has it. -/
theorem idempotency_none {current : MountedOutbox} {candidate : OutboxCandidate}
    (h : current.idempotency candidate.principal candidate.idempotencyKey = none) :
    ∀ entry ∈ current.entries, entry.key ≠ candidate.key := by
  intro entry hentry hkey
  have hnot := List.find?_eq_none.mp h entry hentry
  simp only [decide_eq_true_eq] at hnot
  exact hnot ⟨congrArg Prod.fst hkey, congrArg Prod.snd hkey⟩

/-- What accepting a message may do to the partition. -/
structure AcceptEffect (sha256 : Sha256) (binding : OutboxBinding) (candidate : OutboxCandidate)
    (f g : Flash) : Prop where
  evolves : Evolves sha256 binding f g
  inv : ∃ frontier, StoreInv sha256 binding g frontier
  fresh : ∀ slot < 64, ∀ entry, CommittedAt sha256 binding g slot entry →
    (∃ earlier, CommittedAt sha256 binding f slot earlier) ∨
      WrittenAt sha256 binding candidate slot g

/-- An unchanged partition is an effect. -/
theorem AcceptEffect.refl {candidate : OutboxCandidate}
    (hinv : StoreInv sha256 binding f frontier) :
    AcceptEffect sha256 binding candidate f f :=
  ⟨.refl f, ⟨frontier, hinv⟩, fun _ _ entry h => Or.inl ⟨entry, h⟩⟩

/-- A committed record of the other slots was there before. -/
theorem StoreInv.used_of_ne {slot : ℕ} (hinv : StoreInv sha256 binding f frontier)
    (hsame : SameOutside frontier f g) (hslot : slot < frontier) : Used sha256 binding g slot := by
  have hne : slot ≠ frontier := by omega
  rcases hinv.used slot hslot with htorn | ⟨entry, hentry⟩
  · exact Or.inl ((hsame.recordState_eq hne).trans htorn)
  · exact Or.inr ⟨entry, (hsame.committedAt_iff hne entry).mpr hentry⟩

/-- The invariant after the record at the frontier was used. -/
theorem StoreInv.succ {candidate : OutboxCandidate} (hinv : StoreInv sha256 binding f frontier)
    (hlt : frontier < 64) (hsame : SameOutside frontier f g)
    (hused : recordState sha256 binding g frontier = some .torn ∨
      WrittenAt sha256 binding candidate frontier g)
    (hkey : ∀ slot < frontier, ∀ entry, CommittedAt sha256 binding f slot entry →
      entry.key ≠ candidate.key) : StoreInv sha256 binding g (frontier + 1) := by
  have hfrontier : ∀ entry, CommittedAt sha256 binding g frontier entry →
      entry.key = candidate.key := by
    intro entry hentry
    rcases hused with htorn | hwritten
    · have := recordState_eq_committed.mpr hentry
      rw [htorn] at this
      cases this
    · rw [hentry.unique (recordState_eq_committed.mp hwritten.1)]
      rfl
  have hbefore : ∀ slot < frontier, ∀ entry, CommittedAt sha256 binding g slot entry →
      CommittedAt sha256 binding f slot entry := fun slot hslot entry hentry =>
    (hsame.committedAt_iff (by omega) entry).mp hentry
  refine ⟨hlt, fun slot hslot => ?_, fun slot hle hslot => ?_,
    fun slot hslot slot' hslot' entry entry' hentry hentry' heq => ?_⟩
  · rcases Nat.lt_succ_iff_lt_or_eq.mp hslot with hslot | rfl
    · exact hinv.used_of_ne hsame hslot
    · exact hused.imp id fun hwritten => ⟨_, recordState_eq_committed.mp hwritten.1⟩
  · intro i hi
    have hin : InRecord slot (slot * 4096 + i) := ⟨by omega, by omega⟩
    rw [hsame _ (hin.ne (by omega))]
    exact hinv.erased slot (by omega) hslot i hi
  · rcases Nat.lt_succ_iff_lt_or_eq.mp hslot with hslot | rfl <;>
      rcases Nat.lt_succ_iff_lt_or_eq.mp hslot' with hslot' | rfl
    · exact hinv.unique slot hslot slot' hslot' entry entry' (hbefore slot hslot entry hentry)
        (hbefore slot' hslot' entry' hentry') heq
    · exact absurd (heq.trans (hfrontier entry' hentry'))
        (hkey slot hslot entry (hbefore slot hslot entry hentry))
    · exact absurd (heq.symm.trans (hfrontier entry hentry))
        (hkey slot' hslot' entry' (hbefore slot' hslot' entry' hentry'))
    · rfl

/-- A record write at the frontier is an effect of its message. -/
theorem WriteOutcome.effect {candidate : OutboxCandidate}
    (h : WriteOutcome sha256 binding candidate frontier f g)
    (hinv : StoreInv sha256 binding f frontier) (hlt : frontier < 64)
    (hkey : ∀ slot < frontier, ∀ entry, CommittedAt sha256 binding f slot entry →
      entry.key ≠ candidate.key) : AcceptEffect sha256 binding candidate f g := by
  have herased := hinv.erased frontier le_rfl hlt
  refine ⟨h.outside.evolves_of_erased herased, ?_, fun slot _ entry hentry => ?_⟩
  · rcases h.appended with hunused | hused
    · refine ⟨frontier, hinv.le, fun slot hslot => hinv.used_of_ne h.outside hslot,
        fun slot hle hslot => ?_, fun slot hslot slot' hslot' entry entry' hentry hentry' heq => ?_⟩
      · by_cases heq : slot = frontier
        · rwa [heq]
        · intro i hi
          have hin : InRecord slot (slot * 4096 + i) := ⟨by omega, by omega⟩
          rw [h.outside _ (hin.ne (Ne.symm heq))]
          exact hinv.erased slot hle hslot i hi
      · exact hinv.unique slot hslot slot' hslot' entry entry'
          ((h.outside.committedAt_iff (by omega) entry).mp hentry)
          ((h.outside.committedAt_iff (by omega) entry').mp hentry') heq
    · exact ⟨frontier + 1, hinv.succ hlt h.outside hused hkey⟩
  · by_cases heq : slot = frontier
    · subst heq
      rcases h.appended with hunused | htorn | hwritten
      · have hstate := recordState_eq_committed.mpr hentry
        rw [recordState_erased hunused] at hstate
        cases hstate
      · have hstate := recordState_eq_committed.mpr hentry
        rw [htorn] at hstate
        cases hstate
      · exact Or.inr hwritten
    · exact Or.inl ⟨entry, (h.outside.committedAt_iff heq entry).mp hentry⟩

/-- What the answer to an offered message says about the partition. -/
def AcceptAnswer (sha256 : Sha256) (binding : OutboxBinding) (candidate : OutboxCandidate)
    (g : Flash) : Except (OutboxError ε) OutboxAcceptance → Prop
  | .ok (.accepted entry) => entry = candidate.entry sha256 entry.slot ∧ entry.slot < 64 ∧
      WrittenAt sha256 binding candidate entry.slot g
  | .ok (.replay entry) => entry.key = candidate.key ∧ entry.Matches sha256 candidate ∧
      entry.slot < 64 ∧
      ∃ later, CommittedAt sha256 binding g entry.slot later ∧ entry.Retained later
  | _ => True

/-- An indexed entry answers a message it matches. -/
theorem Tracks.replay {current : MountedOutbox} {candidate : OutboxCandidate} {entry : OutboxEntry}
    (h : Tracks sha256 binding f current)
    (hentry : current.idempotency candidate.principal candidate.idempotencyKey = some entry)
    (hmatches : entry.Matches sha256 candidate) :
    AcceptAnswer sha256 binding candidate f
      (.ok (.replay entry) : Except (OutboxError ε) OutboxAcceptance) := by
  obtain ⟨hmem, hkey⟩ := idempotency_some hentry
  obtain ⟨hslot, hlater⟩ := h.entries entry hmem
  exact ⟨hkey, hmatches, Nat.lt_of_lt_of_le hslot h.nextSlot_le, hlater⟩

/-- Looking for the message after a failed write. -/
theorem wp_recoverAppend {φ : Faults} {current : MountedOutbox} {candidate : OutboxCandidate}
    (htracks : Tracks sha256 binding f current) (writeError : OutboxError ε) :
    wp φ (fun _ => True) (recoverAppend sha256 current candidate writeError)
      (fun r g => g = f ∧ Tracks sha256 binding f r.1 ∧
        AcceptAnswer sha256 binding candidate f r.2) (· = f) f := by
  unfold recoverAppend
  apply wp_bind
  refine (wp_reconcileFrom htracks (by simp)).mono (fun r g hr => ?_) fun _ => id
  obtain ⟨current', reconciled⟩ := r
  obtain ⟨rfl, htracks', -⟩ := hr
  cases reconciled with
  | error error => exact wp_pure (fun _ => rfl) ⟨rfl, htracks', trivial⟩
  | ok _ =>
    simp only
    split
    · next recovered hrecovered =>
      split
      · next hmatches =>
        exact wp_pure (fun _ => rfl) ⟨rfl, htracks', htracks'.replay hrecovered hmatches⟩
      · exact wp_pure (fun _ => rfl) ⟨rfl, htracks', trivial⟩
    · exact wp_pure (fun _ => rfl) ⟨rfl, htracks', trivial⟩

/-- What accepting a message leaves and answers. -/
def AcceptPost (sha256 : Sha256) (binding : OutboxBinding) (candidate : OutboxCandidate)
    (f : Flash) (r : Outcome ε OutboxAcceptance) (g : Flash) : Prop :=
  AcceptEffect sha256 binding candidate f g ∧ Tracks sha256 binding g r.1 ∧
    AcceptAnswer sha256 binding candidate g r.2

/-- Appending at the frontier. -/
theorem wp_append {φ : Faults} {geometry : Geometry} {current : MountedOutbox}
    {candidate : OutboxCandidate} (htracks : Tracks sha256 binding f current)
    (hinv : StoreInv sha256 binding f current.nextSlot) (hlt : current.nextSlot < 64)
    (hvalid : candidate.Valid)
    (hnone : current.idempotency candidate.principal candidate.idempotencyKey = none) :
    wp φ (fun _ => True) (append geometry sha256 current candidate : Prog ε _)
      (AcceptPost sha256 binding candidate f) (AcceptEffect sha256 binding candidate f) f := by
  obtain rfl := htracks.binding_eq
  have hkey : ∀ slot < current.nextSlot, ∀ entry,
      CommittedAt sha256 current.binding f slot entry → entry.key ≠ candidate.key := by
    intro slot hslot entry hentry
    obtain ⟨indexed, hindexed, -, hretained⟩ := htracks.complete slot hslot entry hentry
    rw [hretained.key_eq]
    exact idempotency_none hnone indexed hindexed
  unfold append
  apply wp_bind
  refine (wp_writeRecord hvalid hlt (hinv.erased _ le_rfl hlt)).mono (fun r g hr => ?_)
    fun g hg => hg.effect hinv hlt hkey
  obtain ⟨houtcome, hwritten⟩ := hr
  have heffect := houtcome.effect hinv hlt hkey
  have htracks' := htracks.evolves heffect.evolves
  cases r with
  | error writeError =>
    refine (wp_recoverAppend htracks' writeError).mono (fun r h hr => ?_) fun h hh => ?_
    · obtain ⟨rfl, hr⟩ := hr
      exact ⟨heffect, hr⟩
    · rw [hh]
      exact heffect
  | ok _ =>
    have hcommitted := (hwritten rfl).1
    refine wp_inspectRecord (fun _ => heffect) ?_ fun error =>
      wp_pure (fun _ => heffect) ⟨heffect, htracks', trivial⟩
    rw [hcommitted]
    simp only [stateAnswer, if_true]
    refine wp_pure (fun _ => heffect) ⟨heffect, ?_, rfl, hlt, hwritten rfl⟩
    exact htracks'.push hlt (recordState_eq_committed.mp hcommitted)

/-- Accepting a message. -/
theorem wp_accept {φ : Faults} {geometry : Geometry} {current : MountedOutbox}
    {candidate : OutboxCandidate} (htracks : Tracks sha256 binding f current)
    (hinv : StoreInv sha256 binding f frontier) :
    wp φ (fun _ => True) (accept geometry sha256 current candidate : Prog ε _)
      (AcceptPost sha256 binding candidate f) (AcceptEffect sha256 binding candidate f) f := by
  have hrefl : AcceptEffect sha256 binding candidate f f := .refl hinv
  unfold accept
  split
  · apply wp_bind
    refine (wp_reconcileFrom htracks (by simp)).mono (fun r g hr => ?_) fun g hg => by rwa [hg]
    obtain ⟨current', reconciled⟩ := r
    obtain ⟨rfl, htracks', hreached⟩ := hr
    cases reconciled with
    | error error => exact wp_pure (fun _ => hrefl) ⟨hrefl, htracks', trivial⟩
    | ok _ =>
      simp only
      split
      · next hvalid =>
        split
        · next existing hexisting =>
          split
          · next hmatches =>
            exact wp_pure (fun _ => hrefl) ⟨hrefl, htracks', htracks'.replay hexisting hmatches⟩
          · exact wp_pure (fun _ => hrefl) ⟨hrefl, htracks', trivial⟩
        · next hnone =>
          split
          · exact wp_pure (fun _ => hrefl) ⟨hrefl, htracks', trivial⟩
          · next hfull =>
            replace hfull : ¬ current'.nextSlot ≥ 64 := hfull
            have herased := (hreached rfl).resolve_left (by simp only; omega)
            have hfrontier := htracks'.nextSlot_eq hinv herased (by simp only; omega)
            rw [← hfrontier] at hinv
            exact wp_append htracks' hinv (by omega) hvalid hnone
      · exact wp_pure (fun _ => hrefl) ⟨hrefl, htracks', trivial⟩
  · exact wp_pure (fun _ => hrefl) ⟨hrefl, htracks, trivial⟩

end Outbox
