import ReticulumFirmware.ProductIdentity.Stability

/-!
# Recoverability of interrupted provisioning

A partition that only boots have written stays bootable as long as an interrupted erase
does not damage the claim of an uncommitted first mirror while it leaves other programmed
bytes behind. That one interruption produces contents that every later boot rejects.
-/

namespace ProductIdentity

open Nor

variable {ε ρ : Type} {sha256 : Sha256} {mirror : IdentityMirror} {f g : Flash}

/-- Setting bits of the sector cannot complete both markers. -/
def NeverCommits (f : Flash) (mirror : IdentityMirror) : Prop :=
  ∀ g : Flash, (∀ a, InMirror mirror a → BitsLE (f a) (g a)) → ¬ Committed g mirror

/-- A sector that can never commit cannot after more bits are set. -/
theorem NeverCommits.mono (h : NeverCommits f mirror)
    (hle : ∀ a, InMirror mirror a → BitsLE (f a) (g a)) : NeverCommits g mirror :=
  fun g' hg' => h g' fun a ha => (hle a ha).trans (hg' a ha)

/-- A sector that can never commit is not valid. -/
theorem NeverCommits.ne_valid (h : NeverCommits f mirror) (key : PrivateKey) :
    sectorState sha256 f mirror ≠ .valid key := fun hvalid =>
  h f (fun _ _ => .refl _) (committed_of_valid hvalid)

/-- An uncommitted sector stays without its markers when bits are set. -/
theorem Uncommitted.neverCommits (h : Uncommitted f mirror) : NeverCommits f mirror := by
  rintro g hle ⟨-, -, hcommit⟩
  have hle : ∀ i < 32, BitsLE (f (mirror.offset + 224 + i)) (g (mirror.offset + 224 + i)) :=
    fun i hi => hle _ (by unfold InMirror; omega)
  rcases h.2 with ⟨-, hrest⟩ | ⟨-, hcovers, hne⟩
  · refine read_ne_commitMarker (fun i hi => ?_) hcommit
    have herased : f (mirror.offset + 224 + i) = erasedByte := hrest.mono (by omega) (by omega) i hi
    have hbit := hle i hi
    rw [herased] at hbit
    exact eq_erased_of_bitsLE hbit
  · apply hne
    refine hcovers.read_eq fun i hi => ?_
    have hbyte : g (mirror.offset + 224 + i) = commitMarker.getD i 0 :=
      Flash.byte_of_read_eq (show g.read _ commitMarker.length = _ from hcommit) hi
    rw [← hbyte]
    exact hle i hi

/-- An interrupted erase keeps an uncommitted sector uncommitted when it leaves the claim
complete or everything behind it erased. -/
theorem Uncommitted.torn_erase (h : Uncommitted f mirror)
    (ht : f.Torn (f.erase mirror.offset (mirror.offset + 4096)) g)
    (hclean : g.read mirror.offset 32 = claimMarker ∨ g.Erased (mirror.offset + 32) 224) :
    Uncommitted g mirror := by
  have hle := ht.le_erase
  have htail : g.Erased (mirror.offset + 256) 3840 := fun i hi =>
    eq_erased_of_bitsLE (h.1 i hi ▸ hle _)
  refine ⟨htail, ?_⟩
  rcases hclean with hclaim | hrest
  · refine Or.inr ⟨hclaim, ?_, fun hcommit => ?_⟩
    · rcases h.2 with ⟨-, hrest⟩ | ⟨-, hcovers, -⟩
      · exact (hrest.mono (by omega) (by simp)).covers.mono hle
      · exact hcovers.mono hle
    · exact h.neverCommits g (fun a _ => hle a) ⟨htail, hclaim, hcommit⟩
  · refine Or.inl ⟨?_, hrest⟩
    rcases h.2 with ⟨hcovers, -⟩ | ⟨hclaim, -⟩
    · exact hcovers.mono hle
    · refine Flash.Covers.mono (fun i hi => ?_) hle
      rw [Flash.byte_of_read_eq (show f.read _ claimMarker.length = _ from hclaim) hi]
      exact .refl _

/-- The peer of a mirror stays uncommitted. -/
theorem SameOutside.uncommitted_other (h : SameOutside mirror f g)
    (hother : Uncommitted f mirror.other) : Uncommitted g mirror.other := by
  have hstate : sectorState echoDigest g mirror.other = sectorState echoDigest f mirror.other :=
    h.sectorState_other
  rw [@uncommitted_iff echoDigest, hstate]
  exact uncommitted_iff.mp hother

/-- The contents from which a boot without faults succeeds, as long as only boots write. -/
def Bootable (sha256 : Sha256) (f : Flash) : Prop :=
  (∃ mirror key, sectorState sha256 f mirror = .valid key ∧
    (sectorState sha256 f mirror.other = .valid key ∨ NeverCommits f mirror.other)) ∨
  ∀ mirror, Uncommitted f mirror

/-- Bootable contents can be decided. -/
theorem Bootable.selection (h : Bootable sha256 f) :
    ∃ selected, selection sha256 f = .ok selected := by
  rcases h with ⟨mirror, key, hvalid, hother⟩ | hvacant
  · rcases hother with hother | hnever
    · exact ⟨_, selection_of_valid hvalid hother⟩
    · refine selection_of_holds ⟨⟨mirror, hvalid⟩, fun mirror' key' hkey' => ?_⟩
      by_cases hmirror : mirror' = mirror
      · rw [hmirror, hvalid] at hkey'
        cases hkey'
        rfl
      · rw [IdentityMirror.eq_other_of_ne hmirror] at hkey'
        exact absurd hkey' (hnever.ne_valid key')
  · exact selection_of_uncommitted hvacant

/-- An erase issued while no mirror is valid leaves the claim of the first mirror complete
or everything behind it erased. -/
def CleanErase (sha256 : Sha256) (m : Mutation) : Prop :=
  m.kind = .erase → (∀ mirror key, sectorState sha256 m.before mirror ≠ .valid key) →
    m.after.read 0 32 = claimMarker ∨ m.after.Erased 32 224

/-- One mutation of a boot keeps the contents bootable. -/
theorem BootStep.bootable {m : Mutation} (hm : BootStep sha256 m) (hclean : CleanErase sha256 m)
    (hbefore : Bootable sha256 m.before) : Bootable sha256 m.after := by
  obtain ⟨mirror, key, f, hstep, hcase⟩ := hm
  have hother : sectorState sha256 m.after mirror.other = sectorState sha256 f mirror.other :=
    hstep.after.sectorState_other
  rcases hstep.step with ⟨-, hpending⟩ | ⟨hkind, rfl, htorn⟩
  · rcases hcase with hvalid | ⟨rfl, hvacant⟩
    · refine Or.inl ⟨mirror.other, key, hother.trans hvalid, ?_⟩
      rw [IdentityMirror.other_other]
      exact hpending.symm.imp_right Uncommitted.neverCommits
    · have hb : Uncommitted m.after .b :=
        hstep.after.uncommitted_other (hvacant .b)
      rcases hpending with hun | hvalid
      · refine Or.inr ?_
        rintro (_ | _)
        · exact hun
        · exact hb
      · exact Or.inl ⟨.a, key, hvalid, Or.inr hb.neverCommits⟩
  · rcases hcase with hvalid | ⟨rfl, hvacant⟩
    · -- the peer is valid, so the erased mirror had no complete pair of markers
      have hnever : NeverCommits m.before mirror := by
        rcases hbefore with ⟨mirror', key', hvalid', hpeer⟩ | hvacant
        · have hne : mirror' ≠ mirror := fun heq => hstep.notValid key' (heq ▸ hvalid')
          rw [IdentityMirror.eq_other_of_ne hne, IdentityMirror.other_other] at hpeer
          exact hpeer.resolve_left (hstep.notValid key')
        · exact (hvacant mirror).neverCommits
      refine Or.inl ⟨mirror.other, key, hother.trans hvalid, Or.inr ?_⟩
      rw [IdentityMirror.other_other]
      exact hnever.mono fun a _ => htorn.le_erase a
    · have hb : Uncommitted m.after .b :=
        hstep.after.uncommitted_other (hvacant .b)
      have ha := (hvacant .a).torn_erase htorn
        (hclean hkind fun mirror => (hvacant mirror).ne_valid)
      refine Or.inr ?_
      rintro (_ | _)
      · exact ha
      · exact hb

/-- The mutations of a boot keep the contents bootable. -/
theorem bootable_of_chain {tr : List Mutation} (hchain : Mutation.Chain f tr g)
    (htr : ∀ m ∈ tr, BootStep sha256 m ∧ CleanErase sha256 m) (hf : Bootable sha256 f) :
    Bootable sha256 g := by
  induction tr generalizing f with
  | nil =>
    obtain rfl : g = f := hchain
    exact hf
  | cons m tr ih =>
    obtain ⟨rfl, hrest⟩ := hchain
    have hm := htr m List.mem_cons_self
    exact ih hrest (fun m hm => htr m (List.mem_cons_of_mem _ hm)) (hm.1.bootable hm.2 hf)

/-- Boots whose erases are clean keep the contents bootable. -/
theorem Boots.bootable {φ : Faults} {geometry : Geometry} {calls : List (BootCall ε ρ)}
    (h : Boots φ sha256 geometry f calls g)
    (hclean : ∀ call ∈ calls, ∀ m ∈ call.trace, CleanErase sha256 m) (hf : Bootable sha256 f) :
    Bootable sha256 g := by
  induction h with
  | nil => exact hf
  | @cons call calls f g _ hstart hboot hrest ih =>
    have hsteps := (boot_exec hboot.all).1
    refine ih (fun call hcall => hclean call (List.mem_cons_of_mem _ hcall)) ?_
    exact bootable_of_chain hboot.chain
      (fun m hm => ⟨hsteps m hm, hclean call List.mem_cons_self m hm⟩) hf

/-- A boot without faults returns a key that both mirrors hold. -/
def Recovers (ε ρ : Type) (sha256 : Sha256) (geometry : Geometry) (f : Flash) : Prop :=
  ∀ bytes, ∃ key source,
    ((bootLoadOrProvision sha256 geometry (.ok bytes) : IdentityAction ε ρ _).eval f).1 =
      .ok (key, ⟨source, .redundant, false⟩)

/-- After any boots of an erased partition, each interrupted anywhere, a boot without faults
returns a redundant identity, as long as the erases were clean. -/
theorem provisioning_recovers {geometry : Geometry} {calls : List (BootCall ε ρ)}
    (hgeometry : validateFlash geometry = true) (hf : f.Erased 0 partitionSize)
    (h : Boots Faults.cuts sha256 geometry f calls g)
    (hclean : ∀ call ∈ calls, ∀ m ∈ call.trace, CleanErase sha256 m) :
    Recovers ε ρ sha256 geometry g := by
  intro bytes
  have hvacant : ∀ mirror, Uncommitted f mirror := by
    rintro (_ | _)
    · exact uncommitted_of_erased (hf.mono (by decide) (by decide))
    · exact uncommitted_of_erased (hf.mono (by decide) (by decide))
  have hwp : wp Faults.none (BootStep sha256)
      (bootLoadOrProvision sha256 geometry (.ok bytes) : IdentityAction ε ρ _).run
      (Answered Faults.none sha256) (fun _ => True) g :=
    wp_bootLoadOrProvision
      (Or.inr ⟨hgeometry, (h.bootable hclean (Or.inr hvacant)).selection, bytes, rfl⟩)
  exact hwp.run.2.resolve_left (by simp [Faults.Reporting, Faults.none])

/-- The contents after the first stage of a record write on an erased first mirror. -/
def claimed : Flash := Flash.erased.program 0 claimMarker

/-- The claim is complete and one byte of the body is programmed. -/
def tornBody : Flash := claimed.program 32 [0x52]

/-- One byte of the body is programmed and the claim is erased. -/
def deadEnd : Flash := Flash.erased.program 32 [0x52]

/-- The first stage of a record write on an erased first mirror. -/
theorem exec_writeClaim :
    Prog.Exec Faults.cuts (writeVerified .a 0 claimMarker : IdentityAction ε ρ Unit).run
      Flash.erased [⟨.program, 0, 32, Flash.erased, claimed⟩] (some (.ok ())) claimed := by
  have hread : claimed.read 0 claimMarker.length = claimMarker :=
    Flash.read_program_erased fun _ _ => rfl
  have hwrite : Prog.Exec Faults.cuts (Action.write .backend 0 claimMarker :
      IdentityAction ε ρ Unit).run Flash.erased [⟨.program, 0, 32, Flash.erased, claimed⟩]
      (some (.ok ())) claimed := .write (.done _ _)
  have hverify : Prog.Exec Faults.cuts (Action.read .backend 0 claimMarker.length :
      IdentityAction ε ρ _).run claimed [] (some (.ok claimMarker)) claimed :=
    (Query.readAction ..).exec_eval _ (by rw [Action.eval_read, hread])
  have hensure : Prog.Exec Faults.cuts (Action.ensure (claimMarker = claimMarker)
      (.readbackMismatch .a) : IdentityAction ε ρ Unit).run claimed [] (some (.ok ())) claimed :=
    .done _ _
  exact hwrite.action_bind (hverify.action_bind hensure)

/-- The body starts with the first byte of the header magic. -/
theorem recordBody_eq_cons (sha256 : Sha256) (privateKey : PrivateKey) :
    ∃ rest, recordBody sha256 privateKey = [0x52] ++ rest := by
  have hmagic : slice (encodeRecord sha256 privateKey) 32 8 = headerMagic :=
    slice_flatten (recordFields_widths sha256 privateKey) (i := 1) rfl rfl (by decide)
  have hsplit := slice_add (encodeRecord sha256 privateKey) 32 8 184
  rw [hmagic] at hsplit
  exact ⟨_, hsplit⟩

/-- An interrupted body write may leave one byte of the body behind. -/
theorem torn_tornBody (sha256 : Sha256) (privateKey : PrivateKey) :
    claimed.Torn (claimed.program 32 (recordBody sha256 privateKey)) tornBody := by
  obtain ⟨rest, hrest⟩ := recordBody_eq_cons sha256 privateKey
  rw [hrest]
  exact Flash.torn_program_append claimed 32 [0x52] rest

/-- Power is lost while the body of the first mirror is programmed. -/
theorem boot_to_tornBody (sha256 : Sha256) (bytes : PrivateKey) :
    ∃ tr, (∀ m ∈ tr, m.kind = .program) ∧
      Prog.Exec Faults.cuts (bootLoadOrProvision sha256 deviceGeometry (.ok bytes) :
        IdentityAction ε ρ _).run Flash.erased tr none tornBody := by
  have hstate : ∀ mirror, sectorState sha256 Flash.erased mirror = .erased := fun mirror =>
    sectorState_eq_erased_iff.mpr fun _ _ => rfl
  have hselection : selection sha256 Flash.erased = .ok (.vacant .erased .erased) := by
    rw [selection, hstate, hstate]
    rfl
  have hselect : Prog.Exec Faults.cuts
    (selectBoth sha256 : IdentityAction ε ρ _).run Flash.erased []
      (some (.ok (.vacant .erased .erased))) Flash.erased :=
    (query_selectBoth sha256).exec_eval _ (by rw [eval_selectBoth, hselection]; rfl)
  have hbody : Prog.Exec Faults.cuts (writeVerified .a 32
      (recordBody sha256 (clampGenerated bytes)) : IdentityAction ε ρ Unit).run claimed
      [⟨.program, 32, 32 + (recordBody sha256 (clampGenerated bytes)).length, claimed, tornBody⟩]
      none tornBody := .writeCut rfl (torn_tornBody sha256 _)
  have hwrite : ∃ tr, (∀ m ∈ tr, m.kind = .program) ∧
      Prog.Exec Faults.cuts (writeRecord sha256 .a (clampGenerated bytes) :
        IdentityAction ε ρ Unit).run Flash.erased tr none tornBody := by
    rw [writeRecord_eq]
    exact ⟨_, by simp, exec_writeClaim.action_bind (Prog.Exec.action_bind_none hbody)⟩
  obtain ⟨tr, htr, hwrite⟩ := hwrite
  have hattempt : Prog.Exec Faults.cuts (Action.attempt (repairMirror sha256 .a .erased
      (clampGenerated bytes)) : IdentityAction ε ρ _).run Flash.erased tr none tornBody :=
    hwrite.bind_none
  rw [bootLoadOrProvision]
  exact ⟨[] ++ ([] ++ tr), htr, Prog.Exec.action_bind (.done _ _)
    (hselect.action_bind hattempt.action_bind_none)⟩

/-- A first boot is interrupted in the body; the second one recovers. -/
theorem provisioning_recovers_tornBody :
    Recovers Unit Unit echoDigest deviceGeometry tornBody := by
  obtain ⟨tr, htr, hboot⟩ := @boot_to_tornBody Unit Unit echoDigest
    (Vector.replicate 64 0x5a)
  let call : BootCall Unit Unit := ⟨.ok (Vector.replicate 64 0x5a), Flash.erased, tr, none⟩
  have hboots : Boots Faults.cuts echoDigest deviceGeometry Flash.erased [call] tornBody :=
    .cons rfl hboot (.nil _)
  refine provisioning_recovers (by decide) (fun _ _ => rfl) hboots ?_
  intro call hcall m hm hkind
  rw [List.mem_singleton.mp hcall] at hm
  simp [htr m hm] at hkind

/-- Power is lost while the next boot erases the interrupted first mirror. -/
theorem boot_to_deadEnd (sha256 : Sha256) (bytes : PrivateKey) :
    ∃ tr, Prog.Exec Faults.cuts (bootLoadOrProvision sha256 deviceGeometry (.ok bytes) :
      IdentityAction ε ρ _).run tornBody tr none deadEnd := by
  have ha : sectorState sha256 tornBody .a = .torn := by
    have hclaim : ClaimWritten .a claimed := claim_done fun _ _ => rfl
    have hun : Uncommitted tornBody .a := body_torn hclaim (torn_tornBody sha256 bytes)
    refine (uncommitted_iff.mp hun).resolve_left fun herased => ?_
    have hbyte := sectorState_eq_erased_iff.mp herased 32 (by decide)
    exact absurd hbyte (by decide)
  have hb : sectorState sha256 tornBody .b = .erased := by
    refine sectorState_eq_erased_iff.mpr fun i hi => ?_
    rw [tornBody, Flash.program_of_not_mem (by simp; omega), claimed,
      Flash.program_of_not_mem (by simp; omega)]
    rfl
  have hselection : selection sha256 tornBody = .ok (.vacant .torn .erased) := by
    rw [selection, ha, hb]
    rfl
  have hselect : Prog.Exec Faults.cuts (selectBoth sha256 : IdentityAction ε ρ _).run tornBody []
      (some (.ok (.vacant .torn .erased))) tornBody :=
    (query_selectBoth sha256).exec_eval _ (by rw [eval_selectBoth, hselection]; rfl)
  have htorn : tornBody.Torn (tornBody.erase 0 4096) deadEnd := by
    intro a i
    by_cases ha : a < 32
    · right
      rw [deadEnd, Flash.program_of_not_mem (Or.inl ha), Flash.erase, if_pos (by omega)]
      rfl
    · left
      have hclaimed : claimed a = Flash.erased a :=
        Flash.program_of_not_mem (Or.inr (by simp; omega))
      rw [deadEnd, tornBody, Flash.program, Flash.program, hclaimed]
  have herase : Prog.Exec Faults.cuts (Action.erase .backend 0 4096 :
      IdentityAction ε ρ Unit).run tornBody [⟨.erase, 0, 4096, tornBody, deadEnd⟩] none deadEnd :=
    .eraseCut rfl htorn
  have hattempt : Prog.Exec Faults.cuts (Action.attempt (repairMirror sha256 .a .torn
      (clampGenerated bytes)) : IdentityAction ε ρ _).run tornBody _ none deadEnd :=
    (Prog.Exec.action_bind_none (Prog.Exec.action_bind_none herase)).bind_none
  rw [bootLoadOrProvision]
  exact ⟨[] ++ ([] ++ _), Prog.Exec.action_bind (.done _ _)
    (hselect.action_bind hattempt.action_bind_none)⟩

/-- Every boot of the dead end fails. -/
theorem eval_deadEnd (sha256 : Sha256) (bytes : PrivateKey) :
    ((bootLoadOrProvision sha256 deviceGeometry (.ok bytes) : IdentityAction ε ρ _).eval
      deadEnd).1 = .error (.unknownProgrammedData .a) := by
  have hclaim : deadEnd.Erased 0 32 := fun i hi =>
    Flash.program_of_not_mem (Or.inl (by omega))
  have hrest : ¬ deadEnd.Erased 32 224 := fun h => absurd (h 0 (by decide)) (by decide)
  have hstate : sectorState sha256 deadEnd .a = .unknown := by
    rcases sectorState_cases sha256 deadEnd .a with h | h | h | h
    · exact absurd (h.2.mono (by simp) (by simp)) hrest
    · rcases h.2.1.2 with ⟨-, h⟩ | ⟨h, -⟩
      · exact absurd h hrest
      · exact absurd h (read_ne_claimMarker hclaim)
    · exact absurd h.1.2.1 (read_ne_claimMarker hclaim)
    · exact h.1
  have hb : sectorState sha256 deadEnd .b = .erased :=
    sectorState_eq_erased_iff.mpr fun i _ => Flash.program_of_not_mem (Or.inr (by simp; omega))
  have hselect : (selectBoth sha256 : IdentityAction ε ρ _).eval deadEnd =
      (.error (.unknownProgrammedData .a), deadEnd) := by
    rw [eval_selectBoth, selection, hstate, hb]
    rfl
  rw [bootLoadOrProvision, Action.eval_bind_ok (show _ = (Except.ok (), deadEnd) from rfl),
    Action.eval_bind_error hselect]

/-- Two interrupted boots of an erased partition can leave contents that no later boot
recovers, whatever the hash function. -/
theorem provisioning_dead_end :
    ¬ ∃ sha256 : Sha256, ∀ (calls : List (BootCall Unit Unit)) (g : Flash),
      Boots Faults.cuts sha256 deviceGeometry Flash.erased calls g →
      (∀ call ∈ calls, call.result = none) → Recovers Unit Unit sha256 deviceGeometry g := by
  rintro ⟨sha256, h⟩
  let bytes : PrivateKey := Vector.replicate 64 0x5a
  obtain ⟨tr, -, hfirst⟩ := @boot_to_tornBody Unit Unit sha256 bytes
  obtain ⟨tr', hsecond⟩ := @boot_to_deadEnd Unit Unit sha256 bytes
  let first : BootCall Unit Unit := ⟨.ok bytes, Flash.erased, tr, none⟩
  let second : BootCall Unit Unit := ⟨.ok bytes, tornBody, tr', none⟩
  have hboots : Boots Faults.cuts sha256 deviceGeometry Flash.erased [first, second] deadEnd :=
    .cons rfl hfirst (.cons rfl hsecond (.nil _))
  obtain ⟨key, source, hok⟩ := h [first, second] deadEnd hboots (by simp [first, second]) bytes
  rw [eval_deadEnd] at hok
  cases hok

end ProductIdentity
