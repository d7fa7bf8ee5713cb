import ReticulumFirmware.Outbox.Append

/-!
# Delivery receipts

Programming the delivered marker of a committed record, complete or not, keeps the intent
and never turns a complete marker back. This file also says what a committed record holds.
-/

namespace Outbox

open Nor

variable {sha256 : Sha256} {binding : OutboxBinding} {slot : ℕ} {f g : Flash}

/-- The delivered area is decoded exactly if the marker can still be completed there. -/
theorem decodeDelivered_read {offset : ℕ} {delivered : Bool} :
    decodeDelivered (f.read offset 32) = some delivered ↔
      f.Covers offset deliveredMarker ∧
        (delivered = true ↔ f.read offset 32 = deliveredMarker) := by
  have hcovers : covers (f.read offset 32) deliveredMarker = true ↔
      f.Covers offset deliveredMarker := @Flash.covers_read f offset deliveredMarker
  unfold decodeDelivered
  split
  · next hmarker =>
    have hcover : f.Covers offset deliveredMarker := covers_of_read hmarker
    cases delivered <;> simp [hmarker, hcover]
  · next hmarker =>
    have hor : ((f.read offset 32).all (· == erasedByte) || covers (f.read offset 32)
        deliveredMarker) = true ↔ f.Covers offset deliveredMarker := by
      rw [Bool.or_eq_true, hcovers, Flash.read_all_erased]
      exact ⟨fun h => h.elim (fun herased => herased.covers) id, Or.inr⟩
    split
    · next h => cases delivered <;> simp [hmarker, hor.mp h]
    · next h =>
      have hcover : ¬ f.Covers offset deliveredMarker := fun hc => h (hor.mpr hc)
      simp [hcover]

/-- What a committed record holds. -/
structure CommittedAt (sha256 : Sha256) (binding : OutboxBinding) (f : Flash) (slot : ℕ)
    (entry : OutboxEntry) : Prop where
  claim : f.read (slot * 4096) 32 = claimMarker
  commit : f.read (slot * 4096 + 800) 32 = commitMarker
  tail : f.Erased (slot * 4096 + 864) 3232
  intent : decodeIntent sha256 binding slot (f.read (slot * 4096) 832) =
    some { entry with delivered := false }
  delivered : decodeDelivered (f.read (slot * 4096 + 832) 32) = some entry.delivered

/-- Decoding an intent leaves it undelivered, in its slot. -/
theorem decodeIntent_some {record : List Byte} {entry : OutboxEntry}
    (h : decodeIntent sha256 binding slot record = some entry) :
    entry.slot = slot ∧ entry.submissionId = slot + 1 ∧ entry.delivered = false ∧
      entry.wireLen ≤ 512 ∧ sha256 (slice record wireOffset entry.wireLen) = entry.wireDigest := by
  unfold decodeIntent at h
  simp only at h
  split at h
  · cases h
  split at h
  · cases h
  next hlen =>
  split at h
  · cases h
  split at h
  · cases h
  split at h
  · cases h
  next hdigest =>
  simp only [not_or, not_not] at hlen hdigest
  cases h
  exact ⟨rfl, hlen.2, rfl, hlen.1.2, hdigest⟩

/-- A record is classified as committed exactly if it holds the entry. -/
theorem recordState_eq_committed {entry : OutboxEntry} :
    recordState sha256 binding f slot = some (.committed entry) ↔
      CommittedAt sha256 binding f slot entry := by
  constructor
  · intro h
    have hparts : f.read (slot * 4096) 32 = claimMarker ∧
        f.read (slot * 4096 + 800) 32 = commitMarker ∧ f.Erased (slot * 4096 + 864) 3232 := by
      unfold recordState at h
      simp only [slice_claim, slice_commit] at h
      split at h
      · split at h <;> simp at h
      · split at h
        · split at h <;> simp at h
        · next hcommit =>
          split at h
          · cases h
          · next hclaim =>
            split at h
            · next htail =>
              exact ⟨not_not.mp hclaim, not_not.mp hcommit, Flash.read_all_erased.mp htail⟩
            · cases h
    obtain ⟨hclaim, hcommit, htail⟩ := hparts
    rw [recordState_committed hclaim hcommit htail, decodeRecord, take_delivered,
      slice_delivered] at h
    obtain ⟨decoded, hdecoded, heq⟩ := Option.map_eq_some_iff.mp h
    obtain ⟨intent, hintent, hdelivered⟩ := Option.bind_eq_some_iff.mp hdecoded
    obtain ⟨delivered, hmarker, rfl⟩ := Option.map_eq_some_iff.mp hdelivered
    cases heq
    refine ⟨hclaim, hcommit, htail, ?_, hmarker⟩
    have hfalse := (decodeIntent_some hintent).2.2.1
    rw [hintent]
    cases intent
    simp_all
  · rintro ⟨hclaim, hcommit, htail, hintent, hdelivered⟩
    rw [recordState_committed hclaim hcommit htail, decodeRecord, take_delivered,
      slice_delivered, hintent, hdelivered]
    rfl

/-- An entry that may only have been marked delivered since. -/
def OutboxEntry.Retained (entry later : OutboxEntry) : Prop :=
  later = { entry with delivered := later.delivered } ∧
    (entry.delivered = true → later.delivered = true)

/-- An entry is retained as itself. -/
theorem OutboxEntry.Retained.refl (entry : OutboxEntry) : entry.Retained entry :=
  ⟨rfl, id⟩

/-- An entry that is retained twice is retained. -/
theorem OutboxEntry.Retained.trans {a b c : OutboxEntry} (hab : a.Retained b)
    (hbc : b.Retained c) : a.Retained c := by
  refine ⟨?_, fun h => hbc.2 (hab.2 h)⟩
  rw [hbc.1, hab.1]

/-- A retained entry has its submission identifier. -/
theorem OutboxEntry.Retained.submissionId_eq {a b : OutboxEntry} (h : a.Retained b) :
    b.submissionId = a.submissionId := by
  rw [h.1]

/-- What a committed record guarantees of its entry. -/
theorem CommittedAt.entry_spec {entry : OutboxEntry} (h : CommittedAt sha256 binding f slot entry) :
    entry.slot = slot ∧ entry.submissionId = slot + 1 ∧ entry.wireLen ≤ 512 := by
  obtain ⟨hslot, hid, -, hlen, -⟩ := decodeIntent_some h.intent
  exact ⟨hslot, hid, hlen⟩

/-- A slot holds at most one entry. -/
theorem CommittedAt.unique {entry entry' : OutboxEntry}
    (h : CommittedAt sha256 binding f slot entry) (h' : CommittedAt sha256 binding f slot entry') :
    entry = entry' := by
  have heq := (recordState_eq_committed.mpr h).symm.trans (recordState_eq_committed.mpr h')
  simpa using heq

/-- The records of an outbox only grow: torn ones stay torn, committed ones keep intent and
wire and can only become delivered. -/
structure Evolves (sha256 : Sha256) (binding : OutboxBinding) (f g : Flash) : Prop where
  torn : ∀ slot, recordState sha256 binding f slot = some .torn →
    recordState sha256 binding g slot = some .torn
  committed : ∀ slot entry, CommittedAt sha256 binding f slot entry →
    ∃ later, CommittedAt sha256 binding g slot later ∧ entry.Retained later ∧
      ∀ n ≤ 512, g.read (slot * 4096 + 256) n = f.read (slot * 4096 + 256) n

/-- A flash evolves into itself. -/
theorem Evolves.refl (f : Flash) : Evolves sha256 binding f f :=
  ⟨fun _ h => h, fun _ entry h => ⟨entry, h, .refl entry, fun _ _ => rfl⟩⟩

/-- Evolution is transitive. -/
theorem Evolves.trans {h : Flash} (hfg : Evolves sha256 binding f g)
    (hgh : Evolves sha256 binding g h) : Evolves sha256 binding f h := by
  refine ⟨fun slot htorn => hgh.torn slot (hfg.torn slot htorn), fun slot entry hentry => ?_⟩
  obtain ⟨later, hlater, hretained, hwire⟩ := hfg.committed slot entry hentry
  obtain ⟨last, hlast, hretained', hwire'⟩ := hgh.committed slot later hlater
  exact ⟨last, hlast, hretained.trans hretained', fun n hn => (hwire' n hn).trans (hwire n hn)⟩

/-- The state of another record. -/
theorem SameOutside.recordState_eq {slot' : ℕ} (h : SameOutside slot f g) (hne : slot' ≠ slot) :
    recordState sha256 binding g slot' = recordState sha256 binding f slot' :=
  recordState_congr fun a ha => h a (ha.ne hne.symm)

/-- Sameness outside a record keeps the other records. -/
theorem SameOutside.committedAt_iff {slot' : ℕ} (h : SameOutside slot f g) (hne : slot' ≠ slot)
    (entry : OutboxEntry) :
    CommittedAt sha256 binding g slot' entry ↔ CommittedAt sha256 binding f slot' entry := by
  rw [← recordState_eq_committed, ← recordState_eq_committed, h.recordState_eq hne]

/-- The wire of another record. -/
theorem SameOutside.read_wire {slot' n : ℕ} (h : SameOutside slot f g) (hne : slot' ≠ slot)
    (hn : n ≤ 512) : g.read (slot' * 4096 + 256) n = f.read (slot' * 4096 + 256) n := by
  apply Flash.read_eq_read_iff.mpr
  intro i hi
  have hin : InRecord slot' (slot' * 4096 + 256 + i) := ⟨by omega, by omega⟩
  exact h _ (hin.ne hne.symm)

/-- Changing one record evolves the outbox if that record does. -/
theorem SameOutside.evolves (h : SameOutside slot f g)
    (htorn : recordState sha256 binding f slot = some .torn →
      recordState sha256 binding g slot = some .torn)
    (hcommitted : ∀ entry, CommittedAt sha256 binding f slot entry →
      ∃ later, CommittedAt sha256 binding g slot later ∧ entry.Retained later ∧
        ∀ n ≤ 512, g.read (slot * 4096 + 256) n = f.read (slot * 4096 + 256) n) :
    Evolves sha256 binding f g := by
  constructor
  · intro slot' hslot'
    by_cases hne : slot' = slot
    · subst hne
      exact htorn hslot'
    · rwa [h.recordState_eq hne]
  · intro slot' entry hentry
    by_cases hne : slot' = slot
    · subst hne
      exact hcommitted entry hentry
    · exact ⟨entry, (h.committedAt_iff hne entry).mpr hentry, .refl entry,
        fun n hn => h.read_wire hne hn⟩

/-- Writing into an erased record evolves the outbox. -/
theorem SameOutside.evolves_of_erased (h : SameOutside slot f g)
    (hf : f.Erased (slot * 4096) 4096) : Evolves sha256 binding f g := by
  have herased : recordState sha256 binding f slot = some .erased := recordState_erased hf
  apply h.evolves
  · rw [herased]
    intro htorn
    cases htorn
  · intro entry hentry
    have := recordState_eq_committed.mpr hentry
    rw [herased] at this
    cases this

/-- Programming the delivered marker of a committed record keeps its intent. -/
theorem CommittedAt.program_delivered {entry : OutboxEntry}
    (h : CommittedAt sha256 binding f slot entry)
    (ht : Flash.Torn f (f.program (slot * 4096 + 832) deliveredMarker) g) :
    ∃ later, CommittedAt sha256 binding g slot later ∧ entry.Retained later := by
  obtain ⟨hcovers, hmarker⟩ := decodeDelivered_read.mp h.delivered
  have hread : ∀ {at_ n}, at_ + n ≤ slot * 4096 + 832 → g.read at_ n = f.read at_ n :=
    fun hle => ht.program_read (Or.inl hle)
  have hcovers' : g.Covers (slot * 4096 + 832) deliveredMarker := by
    intro i hi
    have hlow := (ht.program_between (slot * 4096 + 832 + i)).1
    have hand : f (slot * 4096 + 832 + i) &&& deliveredMarker.getD i 0 =
        deliveredMarker.getD i 0 := by
      rw [BitVec.and_comm]
      exact hcovers i hi
    rwa [Flash.program_of_mem hi, hand] at hlow
  refine ⟨{ entry with delivered := decide (g.read (slot * 4096 + 832) 32 = deliveredMarker) },
    ⟨(hread (by omega)).trans h.claim, (hread (by omega)).trans h.commit, ?_, ?_, ?_⟩, rfl, ?_⟩
  · exact ht.program_erased h.tail (Or.inr (by simp))
  · rw [hread (by omega)]
    exact h.intent
  · exact decodeDelivered_read.mpr ⟨hcovers', by simp⟩
  · intro hdelivered
    have hself : f.program (slot * 4096 + 832) deliveredMarker = f := by
      apply Flash.program_eq_self
      intro i hi
      rw [Flash.byte_of_read_eq (hmarker.mp hdelivered) hi]
      exact BitsLE.refl _
    simp [ht.eq_of_target_eq hself, hmarker.mp hdelivered]

end Outbox
