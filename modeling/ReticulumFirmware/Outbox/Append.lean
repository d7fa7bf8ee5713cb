import ReticulumFirmware.Outbox.Records

/-!
# Writing one record

From an erased record, the claim, the body and the commit marker are programmed in order.
Wherever this stops, the record is still erased, torn, or committed with the offered
message, and no other record is touched.
-/

namespace Outbox

open Nor

variable {ε : Type} {sha256 : Sha256} {binding : OutboxBinding} {slot : ℕ}
  {candidate : OutboxCandidate} {f g : Flash}

/-- No other record changes. -/
def SameOutside (slot : ℕ) (f g : Flash) : Prop := ∀ a, ¬ InRecord slot a → g a = f a

/-- A flash is the same as itself outside a record. -/
theorem SameOutside.refl (slot : ℕ) (f : Flash) : SameOutside slot f f := fun _ _ => rfl

/-- Sameness outside a record is transitive. -/
theorem SameOutside.trans {h : Flash} (hfg : SameOutside slot f g) (hgh : SameOutside slot g h) :
    SameOutside slot f h := fun a ha => (hgh a ha).trans (hfg a ha)

/-- A program inside a record, complete or not. -/
theorem sameOutside_of_torn {offset : ℕ} {bytes : List Byte}
    (ht : Flash.Torn f (f.program offset bytes) g) (hstart : slot * 4096 ≤ offset)
    (hstop : offset + bytes.length ≤ slot * 4096 + 4096) : SameOutside slot f g := by
  intro a ha
  unfold InRecord at ha
  exact ht.program_of_not_mem (by omega)

/-- The record of an offered message is committed in its slot, with its wire. -/
def WrittenAt (sha256 : Sha256) (binding : OutboxBinding) (candidate : OutboxCandidate)
    (slot : ℕ) (g : Flash) : Prop :=
  recordState sha256 binding g slot = some (.committed (candidate.entry sha256 slot)) ∧
    g.read (slot * 4096 + 256) candidate.wire.length = candidate.wire

/-- What an append may leave in its slot. -/
def AppendedAt (sha256 : Sha256) (binding : OutboxBinding) (candidate : OutboxCandidate)
    (slot : ℕ) (g : Flash) : Prop :=
  g.Erased (slot * 4096) 4096 ∨ recordState sha256 binding g slot = some .torn ∨
    WrittenAt sha256 binding candidate slot g

/-- A range that holds a list still covers it. -/
theorem covers_of_read {offset : ℕ} {bytes : List Byte}
    (h : f.read offset bytes.length = bytes) : f.Covers offset bytes := by
  intro i hi
  rw [Flash.byte_of_read_eq h hi]
  exact BitsLE.refl _

/-- A claimed record is not erased. -/
theorem not_erased_of_claim (h : f.read (slot * 4096) 32 = claimMarker) :
    ¬ f.Erased (slot * 4096) 864 := by
  intro herased
  have hread : f.read (slot * 4096) 32 = List.replicate 32 erasedByte :=
    (herased.mono (by omega) (by omega)).read_eq
  rw [h] at hread
  exact absurd hread (by decide)

/-- Erased bytes are not the commit marker. -/
theorem read_ne_commitMarker {offset : ℕ} (h : f.Erased offset 32) :
    f.read offset 32 ≠ commitMarker := by
  rw [h.read_eq]
  decide

/-- An interrupted claim leaves the record erased or torn. -/
theorem appended_of_claim (hf : f.Erased (slot * 4096) 4096)
    (ht : Flash.Torn f (f.program (slot * 4096) claimMarker) g) :
    AppendedAt sha256 binding candidate slot g := by
  have hrest : g.Erased (slot * 4096 + 32) 4064 :=
    ht.program_erased (hf.mono (by omega) (by omega)) (by simp)
  have hclaim : g.Covers (slot * 4096) claimMarker :=
    ht.program_covers (hf.mono (by omega) (by simp))
  by_cases hsome : g.Erased (slot * 4096) 864
  · left
    intro i hi
    by_cases hi' : i < 864
    · exact hsome i hi'
    · have := hrest (i - 32) (by omega)
      rwa [show slot * 4096 + 32 + (i - 32) = slot * 4096 + i by omega] at this
  · refine Or.inr (Or.inl (recordState_torn hclaim ?_ hsome))
    exact read_ne_commitMarker (hrest.mono (by omega) (by omega))

/-- A record whose commit marker is missing after its claim is torn. -/
theorem torn_of_claim (hclaim : f.read (slot * 4096) 32 = claimMarker)
    (hcommit : f.read (slot * 4096 + 800) 32 ≠ commitMarker) :
    recordState sha256 binding f slot = some .torn :=
  recordState_torn (covers_of_read hclaim) hcommit (not_erased_of_claim hclaim)

/-- The bytes before the delivered marker of a complete record. -/
theorem read_intent {entry : OutboxEntry} {wire : List Byte}
    (hclaim : f.read (slot * 4096) 32 = claimMarker)
    (hbody : f.read (slot * 4096 + 32) 768 = encodeBody sha256 binding entry wire)
    (hcommit : f.read (slot * 4096 + 800) 32 = commitMarker) :
    f.read (slot * 4096) 832 = encodeIntent sha256 binding entry wire := by
  have h₁ : f.read (slot * 4096) (32 + 800) = _ := Flash.read_add f (slot * 4096) 32 800
  have h₂ : f.read (slot * 4096 + 32) (768 + 32) = _ := Flash.read_add f (slot * 4096 + 32) 768 32
  rw [h₁, h₂, Nat.add_assoc (slot * 4096) 32 768, hclaim, hbody, hcommit, encodeIntent,
    List.append_assoc]

/-- A complete record is committed with the offered message. -/
theorem writtenAt_of_reads (hvalid : candidate.Valid) (hslot : slot < 64)
    (hclaim : f.read (slot * 4096) 32 = claimMarker)
    (hbody : f.read (slot * 4096 + 32) 768 =
      encodeBody sha256 binding (candidate.entry sha256 slot) candidate.wire)
    (hcommit : f.read (slot * 4096 + 800) 32 = commitMarker)
    (hrest : f.Erased (slot * 4096 + 832) 3264) :
    WrittenAt sha256 binding candidate slot f := by
  have hintent := read_intent hclaim hbody hcommit
  have hwireLen : candidate.wire.length ≤ 512 := by
    simp only [OutboxCandidate.Valid, not_or, not_lt] at hvalid
    exact hvalid.2.1
  constructor
  · have hdelivered : f.read (slot * 4096 + 832) 32 = List.replicate 32 erasedByte :=
      (hrest.mono (by omega) (by omega)).read_eq
    rw [recordState_committed hclaim hcommit (hrest.mono (by omega) (by omega)), decodeRecord,
      take_delivered, hintent, decodeIntent_encodeIntent hvalid hslot, slice_delivered, hdelivered]
    rfl
  · have hread : f.read (slot * 4096 + 256) candidate.wire.length =
        slice (f.read (slot * 4096) 832) 256 candidate.wire.length :=
      (Flash.slice_read (by omega)).symm
    rw [hread, hintent]
    exact slice_encodeIntent (i := 2) rfl rfl rfl

/-- The result of a record write: nothing else changed, and success means committed. -/
structure WriteOutcome (sha256 : Sha256) (binding : OutboxBinding) (candidate : OutboxCandidate)
    (slot : ℕ) (f g : Flash) : Prop where
  outside : SameOutside slot f g
  appended : AppendedAt sha256 binding candidate slot g

/-- A claim that is torn anywhere is an outcome of the write. -/
theorem outcome_of_claim (hf : f.Erased (slot * 4096) 4096)
    (ht : Flash.Torn f (f.program (slot * 4096) claimMarker) g) :
    WriteOutcome sha256 binding candidate slot f g :=
  ⟨sameOutside_of_torn ht le_rfl (by simp), appended_of_claim hf ht⟩

/-- An interrupted body leaves the record torn. -/
theorem outcome_of_body {f₁ : Flash} {body : List Byte} (hbody : body.length = 768)
    (hsame : SameOutside slot f f₁) (hclaim : f₁.read (slot * 4096) 32 = claimMarker)
    (hrest : f₁.Erased (slot * 4096 + 32) 4064)
    (ht : Flash.Torn f₁ (f₁.program (slot * 4096 + 32) body) g) :
    WriteOutcome sha256 binding candidate slot f g := by
  have hclaim' : g.read (slot * 4096) 32 = claimMarker :=
    (ht.program_read (by omega)).trans hclaim
  have hcommit : g.Erased (slot * 4096 + 800) 32 :=
    ht.program_erased (hrest.mono (by omega) (by omega)) (by omega)
  exact ⟨hsame.trans (sameOutside_of_torn ht (by omega) (by omega)),
    Or.inr (Or.inl (torn_of_claim hclaim' (read_ne_commitMarker hcommit)))⟩

/-- An interrupted commit marker leaves the record torn or committed. -/
theorem outcome_of_commit {f₂ : Flash} (hvalid : candidate.Valid) (hslot : slot < 64)
    (hsame : SameOutside slot f f₂) (hclaim : f₂.read (slot * 4096) 32 = claimMarker)
    (hbody : f₂.read (slot * 4096 + 32) 768 =
      encodeBody sha256 binding (candidate.entry sha256 slot) candidate.wire)
    (hrest : f₂.Erased (slot * 4096 + 800) 3296)
    (ht : Flash.Torn f₂ (f₂.program (slot * 4096 + 800) commitMarker) g) :
    WriteOutcome sha256 binding candidate slot f g ∧
      (g.read (slot * 4096 + 800) 32 = commitMarker →
        WrittenAt sha256 binding candidate slot g) := by
  have hclaim' : g.read (slot * 4096) 32 = claimMarker :=
    (ht.program_read (by omega)).trans hclaim
  have hbody' : g.read (slot * 4096 + 32) 768 =
      encodeBody sha256 binding (candidate.entry sha256 slot) candidate.wire :=
    (ht.program_read (by omega)).trans hbody
  have hrest' : g.Erased (slot * 4096 + 832) 3264 :=
    ht.program_erased (hrest.mono (by omega) (by omega)) (by simp)
  have hwritten : g.read (slot * 4096 + 800) 32 = commitMarker →
      WrittenAt sha256 binding candidate slot g :=
    fun hcommit => writtenAt_of_reads hvalid hslot hclaim' hbody' hcommit hrest'
  refine ⟨⟨hsame.trans (sameOutside_of_torn ht (by omega) (by simp)), ?_⟩, hwritten⟩
  by_cases hcommit : g.read (slot * 4096 + 800) 32 = commitMarker
  · exact Or.inr (Or.inr (hwritten hcommit))
  · exact Or.inr (Or.inl (torn_of_claim hclaim' hcommit))

/-- An erased record passes the check. -/
theorem eval_ensureErased (hf : f.Erased (slot * 4096) 4096) :
    (ensureErased slot : OutboxAction ε Unit).eval f = (.ok (), f) := by
  have hscan : (recordIsErased slot : OutboxAction ε Bool).eval f = (.ok true, f) := by
    rw [recordIsErased, eval_tailIsErased (by decide), Nat.add_zero,
      Flash.read_all_erased.mpr hf]
  rw [ensureErased, Action.eval_bind_ok hscan]
  rfl

/-- The check of a record only reads. -/
theorem query_ensureErased (slot : ℕ) :
    Query .backend (ensureErased slot : OutboxAction ε Unit).run :=
  .bind (query_chunksErased ..) fun _ => query_ensure ..

/-- Writing a record over an erased one. -/
theorem wp_writeRecord {φ : Faults} {geometry : Geometry} (hvalid : candidate.Valid)
    (hslot : slot < 64) (hf : f.Erased (slot * 4096) 4096) :
    wp φ (fun _ => True) (writeRecord geometry sha256 binding (candidate.entry sha256 slot)
        candidate.wire : OutboxAction ε Unit).run
      (fun r g => WriteOutcome sha256 binding candidate slot f g ∧
        (r = .ok () → WrittenAt sha256 binding candidate slot g))
      (WriteOutcome sha256 binding candidate slot f) f := by
  have hwire : candidate.wire.length ≤ 512 := by
    simp only [OutboxCandidate.Valid, not_or, not_lt] at hvalid
    exact hvalid.2.1
  have hbodyLength : (encodeBody sha256 binding (candidate.entry sha256 slot)
      candidate.wire).length = 768 := length_encodeBody hwire
  have hstart : WriteOutcome sha256 binding candidate slot f f := ⟨.refl slot f, Or.inl hf⟩
  unfold writeRecord
  refine wp_ensure_bind (fun _ => hstart) (fun _ => ?_) fun _ => ⟨hstart, by simp⟩
  refine (query_ensureErased _).wp_bind (fun _ => hstart) (eval_ensureErased hf) (fun _ _ => ?_)
    (by simp) fun _ _ => ⟨hstart, by simp⟩
  have hbase : (candidate.entry sha256 slot).slot * recordSize + claimOffset = slot * 4096 :=
    Nat.add_zero _
  have hheader : (candidate.entry sha256 slot).slot * recordSize + headerOffset =
      slot * 4096 + 32 := rfl
  have hmarker : (candidate.entry sha256 slot).slot * recordSize + commitOffset =
      slot * 4096 + 800 := rfl
  dsimp only
  rw [hbase, hheader, hmarker]
  refine wp_write_bind (fun _ _ => trivial) (fun _ g ht => outcome_of_claim hf ht) ?_
    fun _ _ g ht => ⟨outcome_of_claim hf ht, by simp⟩
  have htorn₁ := Flash.Torn.finish f (f.program (slot * 4096) claimMarker)
  have hsame₁ : SameOutside slot f (f.program (slot * 4096) claimMarker) :=
    sameOutside_of_torn htorn₁ le_rfl (by simp)
  have hclaim₁ : (f.program (slot * 4096) claimMarker).read (slot * 4096) 32 = claimMarker :=
    Flash.read_program_erased (hf.mono le_rfl (by simp))
  have hrest₁ : (f.program (slot * 4096) claimMarker).Erased (slot * 4096 + 32) 4064 :=
    htorn₁.program_erased (hf.mono (by omega) (by omega)) (by simp)
  generalize f.program (slot * 4096) claimMarker = f₁ at hsame₁ hclaim₁ hrest₁
  generalize hbody : encodeBody sha256 binding (candidate.entry sha256 slot) candidate.wire = body
    at hbodyLength
  refine wp_write_bind (fun _ _ => trivial)
    (fun _ g ht => outcome_of_body hbodyLength hsame₁ hclaim₁ hrest₁ ht) ?_
    fun _ _ g ht => ⟨outcome_of_body hbodyLength hsame₁ hclaim₁ hrest₁ ht, by simp⟩
  have htorn₂ := Flash.Torn.finish f₁ (f₁.program (slot * 4096 + 32) body)
  have hsame₂ : SameOutside slot f (f₁.program (slot * 4096 + 32) body) :=
    hsame₁.trans (sameOutside_of_torn htorn₂ (by omega) (by omega))
  have hclaim₂ := (htorn₂.program_read (by omega)).trans hclaim₁
  have hbody₂ := Flash.read_program_erased (hrest₁.mono le_rfl (by omega) :
    f₁.Erased (slot * 4096 + 32) body.length)
  have hrest₂ : (f₁.program (slot * 4096 + 32) body).Erased (slot * 4096 + 800) 3296 :=
    htorn₂.program_erased (hrest₁.mono (by omega) (by omega)) (by omega)
  rw [hbodyLength] at hbody₂
  generalize f₁.program (slot * 4096 + 32) body = f₂ at hsame₂ hclaim₂ hbody₂ hrest₂
  have hcommit : ∀ {g}, Flash.Torn f₂ (f₂.program (slot * 4096 + 800) commitMarker) g → _ :=
    outcome_of_commit hvalid hslot hsame₂ hclaim₂ (hbody₂.trans hbody.symm) hrest₂
  refine wp_write (fun _ _ => trivial) (fun _ g ht => (hcommit ht).1) ?_ ?_
  · have hdone := Flash.read_program_erased (hrest₂.mono le_rfl (by simp) :
      f₂.Erased (slot * 4096 + 800) commitMarker.length)
    have hlast := hcommit (Flash.Torn.finish f₂ _)
    exact wp_pure (fun _ => hlast.1) ⟨hlast.1, fun _ => hlast.2 hdone⟩
  · exact fun _ _ g ht => wp_pure (fun _ => (hcommit ht).1) ⟨(hcommit ht).1,
      by simp [Except.mapError]⟩

end Outbox
