import ReticulumFirmware.ProductIdentity.Sector

/-!
# Writing, erasing and repairing one mirror

Every mutation that a repair makes addresses one mirror that is not valid at that
moment. A program leaves the mirror uncommitted or, at the very end, valid with the
requested key; an erase is issued only before any program.
-/

namespace ProductIdentity

open Nor

variable {ε ρ : Type} {sha256 : Sha256} {mirror : IdentityMirror} {privateKey : PrivateKey}
variable {f g : Flash}

/-- The mirror is uncommitted or holds the key. -/
def Pending (sha256 : Sha256) (mirror : IdentityMirror) (privateKey : PrivateKey) (f : Flash) :
    Prop :=
  Uncommitted f mirror ∨ sectorState sha256 f mirror = .valid privateKey

/-- Contents that differ only inside one mirror. -/
def SameOutside (mirror : IdentityMirror) (f g : Flash) : Prop :=
  ∀ a, ¬ InMirror mirror a → g a = f a

/-- What is known of a mutation that repairs a mirror of the contents `f`. -/
structure RepairStep (sha256 : Sha256) (mirror : IdentityMirror) (privateKey : PrivateKey)
    (f : Flash) (m : Mutation) : Prop where
  /-- The mutation addresses the repaired mirror only. -/
  range : mirror.offset ≤ m.start ∧ m.stop ≤ mirror.offset + 4096
  /-- Nothing outside the mirror has changed before the mutation. -/
  before : SameOutside mirror f m.before
  /-- Nothing outside the mirror has changed after the mutation. -/
  after : SameOutside mirror f m.after
  /-- The mirror is not valid when it is addressed. -/
  notValid : ∀ key, sectorState sha256 m.before mirror ≠ .valid key
  /-- A program keeps the mirror pending; an erase starts from `f`. -/
  step : (m.kind = .program ∧ Pending sha256 mirror privateKey m.after) ∨
    (m.kind = .erase ∧ m.before = f ∧
      f.Torn (f.erase mirror.offset (mirror.offset + 4096)) m.after)

/-- An uncommitted mirror is not valid. -/
theorem Uncommitted.ne_valid (h : Uncommitted f mirror) (key : PrivateKey) :
    sectorState sha256 f mirror ≠ .valid key := fun hvalid =>
  h.not_committed (committed_of_valid hvalid)

/-- An interrupted program inside a mirror changes nothing outside it. -/
theorem sameOutside_of_torn {offset : ℕ} {bytes : List Byte}
    (ht : f.Torn (f.program offset bytes) g) (hstart : mirror.offset ≤ offset)
    (hstop : offset + bytes.length ≤ mirror.offset + 4096) : SameOutside mirror f g := by
  intro a ha
  apply ht.program_of_not_mem
  unfold InMirror at ha
  omega

/-- Sameness outside a mirror is transitive. -/
theorem SameOutside.trans {h : Flash} (hfg : SameOutside mirror f g)
    (hgh : SameOutside mirror g h) : SameOutside mirror f h :=
  fun a ha => (hgh a ha).trans (hfg a ha)

/-- The peer of a mirror keeps its state. -/
theorem SameOutside.sectorState_other (h : SameOutside mirror f g) :
    sectorState sha256 g mirror.other = sectorState sha256 f mirror.other := by
  refine sectorState_congr fun a ha => h a fun hin => ?_
  exact hin.not_other ha

/-- The bytes between the markers. -/
abbrev recordBody (sha256 : Sha256) (privateKey : PrivateKey) : List Byte :=
  slice (encodeRecord sha256 privateKey) headerOffset bodyWriteSize

/-- A record begins with the claim marker. -/
theorem slice_claim (sha256 : Sha256) (privateKey : PrivateKey) :
    slice (encodeRecord sha256 privateKey) claimOffset claimSize = claimMarker :=
  slice_flatten (recordFields_widths sha256 privateKey) (i := 0) rfl rfl rfl

/-- A record ends with the commit marker. -/
theorem slice_commit (sha256 : Sha256) (privateKey : PrivateKey) :
    slice (encodeRecord sha256 privateKey) commitOffset commitSize = commitMarker :=
  slice_flatten (recordFields_widths sha256 privateKey) (i := 11) rfl rfl rfl

/-- The body of a record has 192 bytes. -/
@[simp] theorem length_recordBody (sha256 : Sha256) (privateKey : PrivateKey) :
    (recordBody sha256 privateKey).length = 192 :=
  length_slice (by rw [length_encodeRecord]; decide)

/-- The three written slices make up the record. -/
theorem encodeRecord_eq (sha256 : Sha256) (privateKey : PrivateKey) :
    encodeRecord sha256 privateKey = claimMarker ++ recordBody sha256 privateKey ++
      commitMarker := by
  have hsplit : slice (encodeRecord sha256 privateKey) 0 (32 + 192 + 32) = _ :=
    slice_all (length_encodeRecord sha256 privateKey)
  rw [← hsplit, slice_add, slice_add, ← slice_claim sha256 privateKey,
    ← slice_commit sha256 privateKey]
  rfl

/-- The claim is programmed. -/
def ClaimWritten (mirror : IdentityMirror) (f : Flash) : Prop :=
  f.read mirror.offset 32 = claimMarker ∧ f.Erased (mirror.offset + 32) 4064

/-- The claim and the body are programmed. -/
def BodyWritten (sha256 : Sha256) (mirror : IdentityMirror) (privateKey : PrivateKey) (f : Flash) :
    Prop :=
  f.read mirror.offset 32 = claimMarker ∧
    f.read (mirror.offset + 32) 192 = recordBody sha256 privateKey ∧
    f.Erased (mirror.offset + 224) 3872

/-- A claimed sector without a commit marker is uncommitted. -/
theorem uncommitted_of_claim (hclaim : f.read mirror.offset 32 = claimMarker)
    (htail : f.Erased (mirror.offset + 224) 3872) : Uncommitted f mirror :=
  ⟨htail.mono (by omega) (by omega), Or.inr ⟨hclaim, (htail.mono (by omega) (by simp)).covers,
    read_ne_commitMarker (htail.mono (by omega) (by omega))⟩⟩

/-- An interrupted claim leaves the sector uncommitted. -/
theorem claim_torn (hf : f.Erased mirror.offset 4096)
    (ht : f.Torn (f.program mirror.offset claimMarker) g) : Uncommitted g mirror := by
  have hrest : g.Erased (mirror.offset + 32) 4064 :=
    ht.program_erased (hf.mono (by omega) (by omega)) (by simp)
  exact ⟨hrest.mono (by omega) (by omega), Or.inl
    ⟨ht.program_covers (hf.mono (by omega) (by simp)), hrest.mono (by omega) (by omega)⟩⟩

/-- On an erased sector the claim is written. -/
theorem claim_done (hf : f.Erased mirror.offset 4096) :
    ClaimWritten mirror (f.program mirror.offset claimMarker) :=
  ⟨Flash.read_program_erased (hf.mono (by omega) (by simp)),
    (Flash.Torn.finish f _).program_erased (hf.mono (by omega) (by omega)) (by simp)⟩

/-- An interrupted body leaves the sector uncommitted. -/
theorem body_torn (hf : ClaimWritten mirror f)
    (ht : f.Torn (f.program (mirror.offset + 32) (recordBody sha256 privateKey)) g) :
    Uncommitted g mirror :=
  uncommitted_of_claim ((ht.program_read (by omega)).trans hf.1)
    (ht.program_erased (hf.2.mono (by omega) (by omega)) (by rw [length_recordBody]; omega))

/-- Behind a claim the body is written. -/
theorem body_done (hf : ClaimWritten mirror f) : BodyWritten sha256 mirror privateKey
    (f.program (mirror.offset + 32) (recordBody sha256 privateKey)) := by
  have ht := Flash.Torn.finish f (f.program (mirror.offset + 32) (recordBody sha256 privateKey))
  refine ⟨(ht.program_read (by omega)).trans hf.1, ?_,
    ht.program_erased (hf.2.mono (by omega) (by omega)) (by rw [length_recordBody]; omega)⟩
  rw [← length_recordBody sha256 privateKey]
  exact Flash.read_program_erased (hf.2.mono (by omega) (by rw [length_recordBody]; omega))

/-- An interrupted commit leaves the sector uncommitted or valid. -/
theorem commit_torn (hf : BodyWritten sha256 mirror privateKey f)
    (ht : f.Torn (f.program (mirror.offset + 224) commitMarker) g) :
    Pending sha256 mirror privateKey g := by
  have hclaim : g.read mirror.offset 32 = claimMarker :=
    (ht.program_read (by omega)).trans hf.1
  have hbody : g.read (mirror.offset + 32) 192 = recordBody sha256 privateKey :=
    (ht.program_read (by omega)).trans hf.2.1
  have htail : g.Erased (mirror.offset + 256) 3840 :=
    ht.program_erased (hf.2.2.mono (by omega) (by omega)) (by simp)
  by_cases hcommit : g.read (mirror.offset + 224) 32 = commitMarker
  · refine Or.inr (sectorState_eq_valid ⟨htail, hclaim, hcommit⟩ ?_)
    have hread : g.read mirror.offset 256 = g.read mirror.offset 32 ++
        g.read (mirror.offset + 32) 192 ++ g.read (mirror.offset + 224) 32 := by
      rw [show 256 = 32 + 192 + 32 by rfl, Flash.read_add, Flash.read_add]
    rw [hread, hclaim, hbody, hcommit, encodeRecord_eq]
  · exact Or.inl ⟨htail, Or.inr ⟨hclaim, ht.program_covers (hf.2.2.mono (by omega) (by simp)),
      hcommit⟩⟩

/-- Behind a body the commit marker makes the mirror valid. -/
theorem commit_done (hf : BodyWritten sha256 mirror privateKey f) :
    sectorState sha256 (f.program (mirror.offset + 224) commitMarker) mirror =
      .valid privateKey := by
  refine (commit_torn hf (.finish f _)).resolve_left fun hun => hun.not_committed ?_
  have ht := Flash.Torn.finish f (f.program (mirror.offset + 224) commitMarker)
  exact ⟨ht.program_erased (hf.2.2.mono (by omega) (by omega)) (by simp),
    (ht.program_read (by omega)).trans hf.1,
    Flash.read_program_erased (hf.2.2.mono (by omega) (by simp))⟩

/-- A program of a stage is a repair step. -/
theorem repairStep_program {f₀ : Flash} {offset : ℕ} {bytes : List Byte}
    (hun : Uncommitted f mirror) (hsame : SameOutside mirror f₀ f)
    (hstart : mirror.offset ≤ offset) (hstop : offset + bytes.length ≤ mirror.offset + 4096)
    (ht : f.Torn (f.program offset bytes) g) (hpending : Pending sha256 mirror privateKey g) :
    RepairStep sha256 mirror privateKey f₀ ⟨.program, offset, offset + bytes.length, f, g⟩ where
  range := ⟨hstart, hstop⟩
  before := hsame
  after := hsame.trans (sameOutside_of_torn ht hstart hstop)
  notValid := hun.ne_valid
  step := Or.inl ⟨rfl, hpending⟩

/-- What a repair of a mirror of the contents `f₀` answers: a success leaves the mirror
valid, and only a backend that reports errors makes it fail. -/
def Repaired (φ : Faults) (sha256 : Sha256) (mirror : IdentityMirror) (privateKey : PrivateKey)
    (f₀ : Flash) (r : Except (IdentityStoreError ε ρ) Unit) (g : Flash) : Prop :=
  SameOutside mirror f₀ g ∧
    (r = .ok () → sectorState sha256 g mirror = .valid privateKey) ∧
    (φ.Reporting ∨ r = .ok ())

/-- A repair may fail where the backend reports errors. -/
theorem repaired_of_error {φ : Faults} {f₀ : Flash} {error : IdentityStoreError ε ρ}
    (hφ : φ.Reporting) (hsame : SameOutside mirror f₀ g) :
    Repaired φ sha256 mirror privateKey f₀ (.error error) g :=
  ⟨hsame, by simp, Or.inl hφ⟩

/-- A verified program of an erased range succeeds unless the backend reports an error. -/
theorem wp_writeVerified {φ : Faults} {G : Mutation → Prop} {offset : ℕ} {bytes : List Byte}
    {next : Unit → IdentityAction ε ρ Unit}
    {Q : Except (IdentityStoreError ε ρ) Unit → Flash → Prop}
    (hf : f.Erased (mirror.offset + offset) bytes.length)
    (hG : ∀ g, f.Torn (f.program (mirror.offset + offset) bytes) g →
      G ⟨.program, mirror.offset + offset, mirror.offset + offset + bytes.length, f, g⟩)
    (hok : wp φ G (next ()).run Q (fun _ => True) (f.program (mirror.offset + offset) bytes))
    (herror : φ.Reporting → ∀ error g, f.Torn (f.program (mirror.offset + offset) bytes) g →
      Q (.error error) g) :
    wp φ G (writeVerified mirror offset bytes >>= next).run Q (fun _ => True) f := by
  rw [writeVerified, bind_assoc]
  apply wp_write_bind hG (fun _ _ _ => trivial)
  · rw [bind_assoc]
    apply wp_read_bind (fun _ => trivial)
    · apply wp_ensure_bind (fun _ => trivial)
      · exact fun _ => hok
      · exact fun hne => absurd (Flash.read_program_erased hf) hne
    · exact fun he e => herror (Or.inl he) _ _ (.finish f _)
  · exact fun he e g ht => herror (Or.inr (Or.inl he)) _ g ht

/-- The stages of a record write, with the bytes that each one programs. -/
theorem writeRecord_eq (sha256 : Sha256) (mirror : IdentityMirror) (privateKey : PrivateKey) :
    (writeRecord sha256 mirror privateKey : IdentityAction ε ρ Unit) = (do
      writeVerified mirror 0 claimMarker
      writeVerified mirror 32 (recordBody sha256 privateKey)
      Action.write .backend (mirror.offset + 224) commitMarker
      verifyRecord sha256 mirror privateKey) := by
  simp only [writeRecord, slice_claim, slice_commit]

/-- Writing a record into an erased mirror: every stage is a repair step, and the record
is valid when the write returns without an error. -/
theorem wp_writeRecord {φ : Faults} {f₀ : Flash} (hf : f.Erased mirror.offset 4096)
    (hsame : SameOutside mirror f₀ f) :
    wp φ (RepairStep sha256 mirror privateKey f₀)
      (writeRecord sha256 mirror privateKey : IdentityAction ε ρ Unit).run
      (Repaired φ sha256 mirror privateKey f₀) (fun _ => True) f := by
  have hbodyLength := length_recordBody sha256 privateKey
  rw [writeRecord_eq]
  apply wp_writeVerified (hf.mono (by omega) (by simp))
  · exact fun g ht => repairStep_program (uncommitted_of_erased hf) hsame (by omega) (by simp) ht
      (Or.inl (claim_torn hf ht))
  · have hclaim : ClaimWritten mirror (f.program (mirror.offset + 0) claimMarker) := claim_done hf
    have hsame : SameOutside mirror f₀ (f.program (mirror.offset + 0) claimMarker) :=
      hsame.trans (sameOutside_of_torn (.finish f _) (by omega) (by simp))
    generalize f.program (mirror.offset + 0) claimMarker = f at hclaim hsame ⊢
    apply wp_writeVerified (hclaim.2.mono (by omega) (by omega))
    · exact fun g ht => repairStep_program
        (uncommitted_of_claim hclaim.1 (hclaim.2.mono (by omega) (by omega))) hsame (by omega)
        (by omega) ht (Or.inl (body_torn hclaim ht))
    · have hbody : BodyWritten sha256 mirror privateKey _ := body_done hclaim
      have hsame : SameOutside mirror f₀
          (f.program (mirror.offset + 32) (recordBody sha256 privateKey)) :=
        hsame.trans (sameOutside_of_torn (.finish f _) (by omega) (by omega))
      generalize f.program (mirror.offset + 32) (recordBody sha256 privateKey) = f
        at hbody hsame ⊢
      apply wp_write_bind
      · exact fun g ht => repairStep_program (uncommitted_of_claim hbody.1 hbody.2.2) hsame
          (by omega) (by simp) ht (commit_torn hbody ht)
      · exact fun _ _ _ => trivial
      · have hvalid := commit_done hbody
        have hsame : SameOutside mirror f₀ (f.program (mirror.offset + 224) commitMarker) :=
          hsame.trans (sameOutside_of_torn (.finish f _) (by omega) (by simp))
        rw [verifyRecord]
        refine (query_scanMirror sha256 mirror).wp_bind (fun _ => trivial)
          (eval_scanMirror ..) ?_ (by simp) fun he _ => repaired_of_error (Or.inl he) hsame
        rw [hvalid]
        rintro _ ⟨⟩
        exact wp_ensure (fun _ => trivial) (fun _ => ⟨hsame, fun _ => hvalid, Or.inr rfl⟩) (by simp)
      · exact fun he _ g ht => repaired_of_error (Or.inr (Or.inl he))
          (hsame.trans (sameOutside_of_torn ht (by omega) (by simp)))
    · exact fun hφ _ g ht => repaired_of_error hφ
        (hsame.trans (sameOutside_of_torn ht (by omega) (by omega)))
  · exact fun hφ _ g ht => repaired_of_error hφ
      (hsame.trans (sameOutside_of_torn ht (by omega) (by simp)))

/-- Erasing a mirror that is not valid leaves it erased unless the backend reports an error. -/
theorem wp_eraseMirror {φ : Faults} {next : Unit → IdentityAction ε ρ Unit}
    (hstate : ∀ key, sectorState sha256 f mirror ≠ .valid key)
    (hok : ∀ g, g.Erased mirror.offset 4096 → SameOutside mirror f g →
      wp φ (RepairStep sha256 mirror privateKey f) (next ()).run
        (Repaired φ sha256 mirror privateKey f) (fun _ => True) g) :
    wp φ (RepairStep sha256 mirror privateKey f) (eraseMirror sha256 mirror >>= next).run
      (Repaired φ sha256 mirror privateKey f) (fun _ => True) f := by
  -- an interrupted erase stays inside the sector
  have hsame : ∀ g, f.Torn (f.erase mirror.offset (mirror.offset + 4096)) g →
      SameOutside mirror f g := fun g ht a ha =>
    ht.eq_of_eq (Flash.erase_of_not_mem (by unfold InMirror at ha; omega))
  have herased := Flash.erase_erased f mirror.offset 4096
  rw [eraseMirror, bind_assoc]
  apply wp_erase_bind
  · exact fun g ht => ⟨⟨by simp, by simp⟩, fun _ _ => rfl, hsame g ht, hstate,
      Or.inr ⟨rfl, rfl, ht⟩⟩
  · exact fun _ _ => trivial
  · rw [bind_assoc]
    refine (query_scanMirror sha256 mirror).wp_bind (fun _ => trivial) (eval_scanMirror ..) ?_
      (by simp) fun he _ => repaired_of_error (Or.inl he) (hsame _ (.finish f _))
    rw [sectorState_eq_erased_iff.mpr herased]
    rintro _ ⟨⟩
    exact hok _ herased (hsame _ (.finish f _))
  · exact fun he _ g ht => repaired_of_error (Or.inr (Or.inr he)) (hsame g ht)

/-- Repairing a mirror that is not valid. -/
theorem wp_repairMirror {φ : Faults} {state : SectorState}
    (hstate : sectorState sha256 f mirror = state) (hnot : ∀ key, state ≠ .valid key) :
    wp φ (RepairStep sha256 mirror privateKey f)
      (repairMirror sha256 mirror state privateKey : IdentityAction ε ρ Unit).run
      (Repaired φ sha256 mirror privateKey f) (fun _ => True) f := by
  cases state with
  | erased => exact wp_writeRecord (sectorState_eq_erased_iff.mp hstate) fun _ _ => rfl
  | valid key => exact absurd rfl (hnot key)
  | torn | committedCorrupt | unknown =>
    exact wp_eraseMirror (by simp [hstate]) fun g herased hsame =>
      wp_writeRecord herased hsame

end ProductIdentity
