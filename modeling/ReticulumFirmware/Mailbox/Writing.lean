import ReticulumFirmware.Mailbox.Sector
import ReticulumFirmware.Nor.Replace

/-!
# Contents left by a snapshot write

A snapshot is written into a sector that is erased first. Wherever this stops, the other sector
is as before, and the written one is as before, can be reused or holds the complete snapshot. An
interrupted erase is the one way out: it may damage a superseded snapshot and leave its commit
marker, unless the marker goes with the rest.
-/

namespace Mailbox

open Nor

variable {ε : Type} {sha256 : Sha256} {binding : MailboxStoreBinding} {geometry : Geometry}
  {f g : Flash} {sector : MailboxStoreSector} {store : MountedMailboxStore}
  {generation : NonZeroU64} {acknowledged : Option MailboxStoreCursor}

/-- The head of a protected prefix tells the partition. -/
theorem take_encodeProtectedPrefix (binding : MailboxStoreBinding) (generation generation' : ℕ)
    (acknowledged acknowledged' : Option MailboxStoreCursor) :
    slice (encodeProtectedPrefix binding generation acknowledged) 0 80 =
      slice (encodeProtectedPrefix binding generation' acknowledged') 0 80 := by
  have hhead : ∀ generation acknowledged,
      slice (encodeProtectedPrefix binding generation acknowledged) 0 80 =
        ((protectedFields binding generation acknowledged).take 8).flatten :=
    fun generation acknowledged => take_flatten (protectedFields_widths ..) 8
  rw [hhead, hhead]
  rfl

/-- The end of the prefix is reserved. -/
theorem reserved_encodeProtectedPrefix (binding : MailboxStoreBinding) (generation : ℕ)
    (acknowledged : Option MailboxStoreCursor) :
    slice (encodeProtectedPrefix binding generation acknowledged) 160 96 = List.replicate 96 0 := by
  cases acknowledged with
  | none => exact slice_flatten (protectedFields_widths ..) (i := 12) rfl rfl rfl
  | some cursor => exact slice_flatten (protectedFields_widths ..) (i := 12) rfl rfl rfl

/-- The fields that a torn record must be able to take are those of every snapshot. -/
theorem slice_tornFields {range : ℕ × ℕ} (h : range ∈ tornFields) (generation generation' : ℕ)
    (acknowledged acknowledged' : Option MailboxStoreCursor) :
    slice (encodeProtectedPrefix binding generation acknowledged) range.1 range.2 =
      slice (encodeProtectedPrefix binding generation' acknowledged') range.1 range.2 := by
  have hhead := take_encodeProtectedPrefix binding generation generation' acknowledged acknowledged'
  have hinside : ∀ {at_ n} {buffer buffer' : List Byte}, at_ + n ≤ 80 →
      slice buffer 0 80 = slice buffer' 0 80 → slice buffer at_ n = slice buffer' at_ n := by
    intro at_ n buffer buffer' hn heq
    have hleft : slice (slice buffer 0 80) at_ n = slice buffer (0 + at_) n := slice_slice hn
    have hright : slice (slice buffer' 0 80) at_ n = slice buffer' (0 + at_) n := slice_slice hn
    rw [Nat.zero_add] at hleft hright
    rw [← hleft, ← hright, heq]
  simp only [tornFields, List.mem_cons, List.not_mem_nil, or_false] at h
  rcases h with rfl | rfl | rfl | rfl | rfl
  · exact hinside (by decide) hhead
  · exact hinside (by decide) hhead
  · exact hinside (by decide) hhead
  · exact hinside (by decide) hhead
  · exact (reserved_encodeProtectedPrefix ..).trans (reserved_encodeProtectedPrefix ..).symm

/-- A record area that covers a snapshot's record may be torn. -/
theorem covers_tornFields {offset : ℕ} {generation : ℕ}
    (h : f.Covers offset (snapshotRecord sha256 binding generation acknowledged)) :
    ∀ range ∈ tornFields, f.Covers (offset + range.1)
      (slice (encodeProtectedPrefix binding (2 ^ 64 - 1) none) range.1 range.2) := by
  intro range hrange
  have hinside := tornFields_inside hrange
  have hslice :
      slice (slice (snapshotRecord sha256 binding generation acknowledged) 0 256) range.1 range.2 =
        slice (snapshotRecord sha256 binding generation acknowledged) (0 + range.1) range.2 :=
    slice_slice hinside
  rw [slice_snapshotRecord_protected, Nat.zero_add] at hslice
  rw [slice_tornFields hrange _ generation _ acknowledged, hslice]
  intro i hi
  have hlength : (slice (snapshotRecord sha256 binding generation acknowledged)
      range.1 range.2).length = range.2 := by
    apply length_slice
    rw [length_snapshotRecord]
    omega
  rw [hlength] at hi
  have hcover := h (range.1 + i) (by rw [length_snapshotRecord]; omega)
  rw [List.getD_eq_getElem?_getD] at hcover ⊢
  rwa [getElem?_slice hi, Nat.add_assoc]

/-- Setting bits of a reusable sector keeps it reusable. -/
theorem Reusable.above (h : Reusable binding f sector) (hle : ∀ a, BitsLE (f a) (g a)) :
    Reusable binding g sector := by
  refine ⟨h.commit.mono hle, fun hmarker => h.uncommitted ?_,
    fun i hi => eq_erased_of_bitsLE (h.remainder i hi ▸ hle _),
    fun range hrange => (h.fields range hrange).mono hle⟩
  refine h.commit.read_eq fun i hi => ?_
  rw [← Flash.byte_of_read_eq (show g.read _ commitMarker.length = _ from hmarker) hi]
  exact hle _

/-- Setting bits of a snapshot's sector makes it reusable once the commit marker is damaged. -/
theorem Holds.reusable_above (h : Holds sha256 binding f store) (hle : ∀ a, BitsLE (f a) (g a))
    (hmarker : g.read (store.activeSector.offset + 288) 32 ≠ commitMarker) :
    Reusable binding g store.activeSector := by
  have hcovers : f.Covers store.activeSector.offset
      (snapshotRecord sha256 binding store.generation.get store.acknowledged) := by
    intro i hi
    have hrecord := h.record
    have hlength : (snapshotRecord sha256 binding store.generation.get
      store.acknowledged).length = 320 := length_snapshotRecord ..
    rw [← hlength] at hrecord
    rw [Flash.byte_of_read_eq hrecord hi]
    exact .refl _
  have hcommit : f.read (store.activeSector.offset + 288) 32 = commitMarker := by
    have hslice : slice (f.read store.activeSector.offset 320) 288 32 = _ :=
      Flash.slice_read (by decide)
    rw [← hslice, h.record, slice_snapshotRecord_commit]
  refine ⟨fun i hi => ?_, hmarker, fun i hi => eq_erased_of_bitsLE (h.remainder i hi ▸ hle _),
    fun range hrange => (covers_tornFields hcovers range hrange).mono hle⟩
  rw [← Flash.byte_of_read_eq (show f.read _ commitMarker.length = _ from hcommit) hi]
  exact hle _

section Script

variable (sha256 binding sector generation acknowledged)

/-- The snapshot that a write to a sector commits. -/
abbrev written : MountedMailboxStore := ⟨binding, generation, acknowledged, sector⟩

/-- The programs of a snapshot are one program of its record. -/
theorem applyAll_snapshotScript (f : Flash) :
    f.applyAll (snapshotScript sha256 binding sector generation acknowledged) =
      f.program sector.offset (snapshotRecord sha256 binding generation.get acknowledged) := by
  have hprefix : (encodeProtectedPrefix binding generation.get acknowledged).length = 256 :=
    length_encodeProtectedPrefix ..
  have hrecord : snapshotRecord sha256 binding generation.get acknowledged =
      encodeProtectedPrefix binding generation.get acknowledged ++ ((snapshotDigest sha256
        (encodeProtectedPrefix binding generation.get acknowledged)).toList ++ commitMarker) := by
    simp [snapshotRecord]
  rw [hrecord, ← Flash.program_program, ← Flash.program_program, hprefix, Vector.length_toList]
  rfl

/-- A snapshot is written into the record of its sector. -/
theorem snapshotScript_inside :
    ∀ p ∈ snapshotScript sha256 binding sector generation acknowledged,
      sector.offset ≤ p.offset ∧ p.offset + p.bytes.length ≤ sector.offset + 320 := by
  intro p hp
  simp only [snapshotScript, List.mem_cons, List.not_mem_nil, or_false] at hp
  rcases hp with rfl | rfl | rfl
  · simp
  · simp [show digestOffset = 256 from rfl]
  · simp [commitMarker]

end Script

/-- A write to an erased sector commits its snapshot. -/
theorem holds_applyAll (herased : f.Erased sector.offset 4096) :
    Holds sha256 binding (f.applyAll (snapshotScript sha256 binding sector generation acknowledged))
      (written binding sector generation acknowledged) := by
  have hlength : (snapshotRecord sha256 binding generation.get acknowledged).length = 320 :=
    length_snapshotRecord ..
  rw [applyAll_snapshotScript]
  refine ⟨?_, fun i hi => ?_, rfl⟩
  · have hrange : f.Erased sector.offset
        (snapshotRecord sha256 binding generation.get acknowledged).length :=
      herased.mono (by omega) (by omega)
    have hread := Flash.read_program_erased hrange
    rwa [hlength] at hread
  · rw [Flash.program_of_not_mem (by dsimp only; omega)]
    exact herased.mono (by dsimp only; omega) (by dsimp only; omega) i hi

/-- Interrupted contents of a write to an erased sector are reusable or complete. -/
theorem sector_of_trajectory (herased : f.Erased sector.offset 4096)
    (h : Trajectory (snapshotScript sha256 binding sector generation acknowledged) f g) :
    Reusable binding g sector ∨
      Holds sha256 binding g (written binding sector generation acknowledged) := by
  have hcomplete : Holds sha256 binding
      (f.applyAll (snapshotScript sha256 binding sector generation acknowledged))
      (written binding sector generation acknowledged) := holds_applyAll herased
  have hmarker : f.Erased (sector.offset + 288) 32 := herased.mono (by omega) (by omega)
  obtain ⟨hcommit, hdone⟩ := @Trajectory.commitLast
    [⟨sector.offset, encodeProtectedPrefix binding generation.get acknowledged⟩,
      ⟨sector.offset + 256, (snapshotDigest sha256
        (encodeProtectedPrefix binding generation.get acknowledged)).toList⟩]
    (sector.offset + 288) commitMarker f g h (by simp) hmarker erased_ne_commitMarker.symm
  by_cases hread : g.read (sector.offset + 288) 32 = commitMarker
  · rw [hdone.mp hread]
    exact Or.inr hcomplete
  · left
    refine ⟨hcommit, hread, fun i hi => ?_, ?_⟩
    · rw [h.eq_of_not_covers fun p hp => ?_]
      · exact herased.mono (by omega) (by omega) i hi
      · have hinside := snapshotScript_inside _ _ _ _ _ p hp
        unfold Patch.Covers
        omega
    · have hrecord := hcomplete.record
      have hlength : (snapshotRecord sha256 binding generation.get acknowledged).length = 320 :=
        length_snapshotRecord ..
      rw [← hlength] at hrecord
      exact covers_tornFields (h.covers hrecord)

/-- An erase is clean when it changes nothing or damages the commit marker. -/
def CleanErase (m : Mutation) : Prop :=
  m.kind = .erase → m.after.read (m.start + 288) 32 = commitMarker → m.after = m.before

/-- A sector can be reused or holds a snapshot. -/
def Settled (sha256 : Sha256) (binding : MailboxStoreBinding) (f : Flash)
    (sector : MailboxStoreSector) : Prop :=
  Reusable binding f sector ∨ ∃ store, Holds sha256 binding f store ∧ store.activeSector = sector

/-- The two sectors do not overlap. -/
theorem MailboxStoreSector.apart (sector : MailboxStoreSector) :
    sector.other.offset + 4096 ≤ sector.offset ∨ sector.offset + 4096 ≤ sector.other.offset := by
  cases sector with
  | a => exact Or.inr (by decide)
  | b => exact Or.inl (by decide)

/-- What the replacement of a settled sector leaves. -/
theorem replacing_sector (hsettled : Settled sha256 binding f sector)
    (h : Replacing CleanErase f sector.offset (sector.offset + 4096)
      (snapshotScript sha256 binding sector generation acknowledged) g) :
    SameSector f g sector.other ∧ (g = f ∨ Reusable binding g sector ∨
      Holds sha256 binding g (written binding sector generation acknowledged)) := by
  have hapart := sector.apart
  cases h with
  | unchanged => exact ⟨fun _ _ _ => rfl, Or.inl rfl⟩
  | @erasing m hkind hstart hbefore ht hclean =>
    refine ⟨fun a h₁ h₂ => ?_, ?_⟩
    · symm
      exact ht.eq_of_eq (Flash.erase_of_not_mem (by omega))
    · rcases hsettled with hreusable | ⟨store, hholds, rfl⟩
      · exact Or.inr (Or.inl (hreusable.above fun a => ht.le_erase a))
      · by_cases hmarker : m.after.read (store.activeSector.offset + 288) 32 = commitMarker
        · rw [← hstart] at hmarker
          exact Or.inl ((hclean hkind hmarker).trans hbefore)
        · exact Or.inr (Or.inl (hholds.reusable_above (fun a => ht.le_erase a) hmarker))
  | writing ht =>
    have herased : (f.erase sector.offset (sector.offset + 4096)).Erased sector.offset 4096 :=
      Flash.erase_erased f sector.offset 4096
    refine ⟨fun a h₁ h₂ => ?_, Or.inr (sector_of_trajectory herased ht)⟩
    rw [ht.eq_of_not_covers fun p hp => ?_]
    · exact (Flash.erase_of_not_mem (by omega)).symm
    · have hinside := snapshotScript_inside _ _ _ _ _ p hp
      unfold Patch.Covers
      omega

/-- Check that a sector reads back erased. -/
def checkErased (sector : MailboxStoreSector) : MailboxAction ε Unit := do
  let erased ← Action.chunksErased .backend sector.offset (List.replicate 16 256)
  Action.ensure (erased = true) (.fault (.readbackMismatch sector))

/-- Read a written snapshot back. -/
def readBack (sha256 : Sha256) (binding : MailboxStoreBinding) (sector : MailboxStoreSector) :
    MailboxAction ε MountedMailboxStore := do
  let record ← Action.read .backend sector.offset recordSize
  match decodeSnapshot sha256 binding sector record with
  | some store => pure store
  | none => throw (.fault (.readbackMismatch sector))

/-- A snapshot replaces the contents of its sector and is read back. -/
theorem write_eq (sector : MailboxStoreSector) (generation : NonZeroU64)
    (acknowledged : Option MailboxStoreCursor) :
    (ensureErased sector >>= fun _ =>
        writeSnapshot sha256 binding sector generation acknowledged : MailboxAction ε _) =
      Action.replace .backend sector.offset (sector.offset + 4096) (checkErased sector)
        (snapshotScript sha256 binding sector generation acknowledged) >>= fun _ =>
        readBack sha256 binding sector := by
  have tail : (writeSnapshot sha256 binding sector generation acknowledged : MailboxAction ε _) =
      Action.writeAll .backend (snapshotScript sha256 binding sector generation acknowledged) >>=
        fun _ => readBack sha256 binding sector := rfl
  simp only [tail, ensureErased, Action.replace, checkErased, bind_assoc,
    show sectorSize = 4096 from rfl]

/-- The check that a sector is erased only reads. -/
theorem query_checkErased :
    Query .backend (checkErased sector : MailboxAction ε Unit).run :=
  .bind (Action.query_chunksErased ..) fun _ => .ensureAction ..

/-- The snapshot is read back by reads only. -/
theorem query_readBack :
    Query .backend (readBack sha256 binding sector : MailboxAction ε _).run := by
  refine .bind (.readAction ..) fun record => ?_
  cases decodeSnapshot sha256 binding sector record with
  | some store => exact .pureAction ..
  | none => exact .throwAction ..

/-- An erased sector passes the check. -/
theorem eval_checkErased (h : f.Erased sector.offset 4096) :
    (checkErased sector : MailboxAction ε Unit).eval f = (.ok (), f) := by
  have hchunks : (Action.chunksErased .backend sector.offset (List.replicate 16 256) :
      MailboxAction ε Bool).eval f =
        (.ok ((f.read sector.offset 4096).all (· == erasedByte)), f) := Action.eval_chunksErased ..
  rw [checkErased, Action.eval_bind_ok hchunks, Flash.read_all_erased.mpr h]
  rfl

/-- A snapshot that is held is read back. -/
theorem eval_readBack (h : Holds sha256 binding f store) :
    (readBack sha256 binding store.activeSector : MailboxAction ε _).eval f = (.ok store, f) := by
  have hread : (Action.read .backend store.activeSector.offset recordSize :
      MailboxAction ε _).eval f = (.ok (f.read store.activeSector.offset 320), f) := rfl
  have hdecode : decodeSnapshot sha256 binding store.activeSector
      (f.read store.activeSector.offset 320) = some store :=
    (decodeSnapshot_eq_some (Flash.length_read ..)).mpr ⟨h.record, h.binding, rfl⟩
  rw [readBack, Action.eval_bind_ok hread, hdecode]
  rfl

/-- A write changes its sector step by step, and answers the snapshot that it has committed. -/
theorem wp_write {φ : Faults} :
    wp φ (ReplaceStep f sector.offset (sector.offset + 4096)
        (snapshotScript sha256 binding sector generation acknowledged))
      (ensureErased sector >>= fun _ =>
        writeSnapshot sha256 binding sector generation acknowledged : MailboxAction ε _).run
      (fun r g => match r with
        | .ok store => store = written binding sector generation acknowledged ∧
            Holds sha256 binding g store
        | .error _ => φ.Reporting)
      (fun _ => True) f := by
  have herased : (f.erase sector.offset (sector.offset + 4096)).Erased sector.offset 4096 :=
    Flash.erase_erased f sector.offset 4096
  rw [write_eq]
  apply wp_action_bind
  refine (wp_replace query_checkErased (eval_checkErased herased)).mono ?_ fun _ _ => trivial
  intro r g hr
  cases r with
  | error _ => exact hr
  | ok _ =>
    obtain rfl := hr
    have hholds : Holds sha256 binding ((f.erase sector.offset (sector.offset + 4096)).applyAll
        (snapshotScript sha256 binding sector generation acknowledged))
        (written binding sector generation acknowledged) := holds_applyAll herased
    generalize (f.erase sector.offset (sector.offset + 4096)).applyAll
      (snapshotScript sha256 binding sector generation acknowledged) = g at hholds ⊢
    have hread := eval_readBack (ε := ε) hholds
    have hanswer : (Prog.run (readBack sha256 binding sector : MailboxAction ε _).run g).1 =
        .ok (written binding sector generation acknowledged) := congrArg Prod.fst hread
    refine query_readBack.wp (fun _ => trivial) ?_ fun hread _ => Or.inl hread
    rw [hanswer]
    exact ⟨rfl, hholds⟩

/-- The executions of a write whose erases are clean. -/
structure WriteOutcome (φ : Faults) (sha256 : Sha256) (store : MountedMailboxStore) (f g : Flash)
    (r : Option (Except (MailboxStoreError ε) MountedMailboxStore)) : Prop where
  replacing : Replacing CleanErase f store.activeSector.offset (store.activeSector.offset + 4096)
    (snapshotScript sha256 store.binding store.activeSector store.generation store.acknowledged) g
  ok : ∀ result, r = some (.ok result) → result = store ∧ Holds sha256 store.binding g store
  error : ∀ e, r = some (.error e) → φ.Reporting

/-- A write has one of its outcomes, wherever it is cut. -/
theorem exec_write {φ : Faults} {tr : List Mutation}
    {r : Option (Except (MailboxStoreError ε) MountedMailboxStore)}
    (hx : Prog.Exec φ (ensureErased sector >>= fun _ =>
      writeSnapshot sha256 binding sector generation acknowledged : MailboxAction ε _).run f tr r g)
    (hclean : ∀ m ∈ tr, CleanErase m) :
    WriteOutcome φ sha256 (written binding sector generation acknowledged) f g r := by
  obtain ⟨hsteps, hr⟩ := wp_write tr r g hx
  refine ⟨.of_chain hx.chain hsteps hclean, ?_, ?_⟩
  · rintro result rfl
    obtain ⟨rfl, hholds⟩ := hr
    exact ⟨rfl, hholds⟩
  · rintro e rfl
    exact hr

end Mailbox
