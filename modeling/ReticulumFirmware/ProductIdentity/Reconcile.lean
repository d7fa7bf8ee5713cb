import ReticulumFirmware.ProductIdentity.Repair

/-!
# Boot decisions

What one boot does to the partition, over every execution: each mutation repairs a mirror
whose peer is valid, or the first mirror of a partition without a committed identity, and
a returned key is the key of the mirrors.
-/

namespace ProductIdentity

open Nor

variable {ε ρ : Type} {sha256 : Sha256} {f g : Flash}

/-- No mirror is valid with a key other than this one, and some mirror is valid with it. -/
def Holds (sha256 : Sha256) (f : Flash) (privateKey : PrivateKey) : Prop :=
  (∃ mirror, sectorState sha256 f mirror = .valid privateKey) ∧
    ∀ mirror key, sectorState sha256 f mirror = .valid key → key = privateKey

/-- What a selection says about the mirrors. -/
def SelectionSpec (sha256 : Sha256) (f : Flash) : Selection → Prop
  | .redundant record => ∀ mirror, sectorState sha256 f mirror = .valid record
  | .single authoritative record other =>
    sectorState sha256 f authoritative = .valid record ∧
      sectorState sha256 f authoritative.other = other ∧ ∀ key, other ≠ .valid key
  | .vacant a b => sectorState sha256 f .a = a ∧ sectorState sha256 f .b = b ∧
      ∀ mirror, Uncommitted f mirror

/-- A successful selection describes both mirrors. -/
theorem selection_spec {selected : Selection} (h : selection sha256 f = .ok selected) :
    SelectionSpec sha256 f selected := by
  unfold selection at h
  have hvacant : ∀ {mirror}, sectorState sha256 f mirror = .erased ∨
      sectorState sha256 f mirror = .torn → Uncommitted f mirror := uncommitted_iff.mpr
  cases ha : sectorState sha256 f .a with
  | valid record =>
    rw [ha] at h
    cases hb : sectorState sha256 f .b with
    | valid peer =>
      rw [hb, select] at h
      split at h
      · next heq =>
        cases h
        rintro (_ | _)
        · exact ha
        · rw [hb, heq]
      · cases h
    | erased | torn | committedCorrupt | unknown =>
      rw [hb] at h
      cases h
      exact ⟨ha, hb, by simp⟩
  | erased | torn =>
    rw [ha] at h
    cases hb : sectorState sha256 f .b with
    | valid record =>
      rw [hb] at h
      cases h
      exact ⟨hb, ha, by simp⟩
    | erased | torn =>
      rw [hb] at h
      simp only [select, reduceCtorEq, if_false, Except.ok.injEq] at h
      subst h
      refine ⟨ha, hb, ?_⟩
      rintro (_ | _)
      · exact hvacant (by simp [ha])
      · exact hvacant (by simp [hb])
    | committedCorrupt | unknown => simp [hb, select] at h
  | committedCorrupt | unknown =>
    rw [ha] at h
    cases hb : sectorState sha256 f .b with
    | valid record =>
      rw [hb] at h
      cases h
      exact ⟨hb, ha, by simp⟩
    | erased | torn | committedCorrupt | unknown => simp [hb, select] at h

/-- The key of a selected record is the key of the mirrors. -/
theorem SelectionSpec.holds_redundant {record : PrivateKey}
    (h : SelectionSpec sha256 f (.redundant record)) : Holds sha256 f record := by
  refine ⟨⟨.a, h .a⟩, fun mirror key hkey => ?_⟩
  have := h mirror
  rw [hkey] at this
  cases this
  rfl

/-- A single authoritative mirror holds the key. -/
theorem SelectionSpec.holds_single {authoritative : IdentityMirror} {record : PrivateKey}
    {other : SectorState} (h : SelectionSpec sha256 f (.single authoritative record other)) :
    Holds sha256 f record := by
  obtain ⟨hvalid, hother, hnot⟩ := h
  refine ⟨⟨authoritative, hvalid⟩, fun mirror key hkey => ?_⟩
  by_cases hmirror : mirror = authoritative
  · subst hmirror
    rw [hkey] at hvalid
    cases hvalid
    rfl
  · rw [← IdentityMirror.eq_other_of_ne hmirror, hkey] at hother
    exact absurd hother.symm (hnot key)

/-- A valid first mirror without a valid peer is selected alone. -/
theorem select_valid_left {record : PrivateKey} {other : SectorState}
    (h : ∀ key, other ≠ .valid key) :
      select (.valid record) other = .ok (.single .a record other) := by
  cases other with
  | valid key => exact absurd rfl (h key)
  | erased | torn | committedCorrupt | unknown => rfl

/-- Two mirrors with the same key are selected as redundant. -/
theorem selection_of_valid {mirror : IdentityMirror} {record : PrivateKey}
    (hmirror : sectorState sha256 f mirror = .valid record)
    (hother : sectorState sha256 f mirror.other = .valid record) :
    selection sha256 f = .ok (.redundant record) := by
  cases mirror with
  | a =>
    have hother : sectorState sha256 f .b = .valid record := hother
    rw [selection, hmirror, hother, select, if_pos rfl]
  | b =>
    have hother : sectorState sha256 f .a = .valid record := hother
    rw [selection, hmirror, hother, select, if_pos rfl]

/-- The mirrors can be decided between when they hold one key. -/
theorem selection_of_holds {record : PrivateKey} (h : Holds sha256 f record) :
    ∃ selected, selection sha256 f = .ok selected := by
  obtain ⟨⟨mirror, hmirror⟩, hunique⟩ := h
  cases hother : sectorState sha256 f mirror.other with
  | valid key => exact ⟨_, selection_of_valid hmirror (by rw [hother, hunique _ _ hother])⟩
  | erased | torn | committedCorrupt | unknown =>
    cases mirror with
    | a =>
      have hother : sectorState sha256 f .b = _ := hother
      exact ⟨_, by rw [selection, hmirror, hother]; rfl⟩
    | b =>
      have hother : sectorState sha256 f .a = _ := hother
      exact ⟨_, by rw [selection, hmirror, hother]; rfl⟩

/-- Uncommitted mirrors can be decided between. -/
theorem selection_of_uncommitted (h : ∀ mirror, Uncommitted f mirror) :
    ∃ selected, selection sha256 f = .ok selected := by
  have ha : sectorState sha256 f .a = .erased ∨ sectorState sha256 f .a = .torn :=
    uncommitted_iff.mp (h .a)
  have hb : sectorState sha256 f .b = .erased ∨ sectorState sha256 f .b = .torn :=
    uncommitted_iff.mp (h .b)
  rcases ha with ha | ha <;> rcases hb with hb | hb <;>
    exact ⟨_, by rw [selection, ha, hb]; rfl⟩

/-- A mutation of a boot repairs the peer of a valid mirror, or the first mirror of a
partition without a committed identity. -/
def BootStep (sha256 : Sha256) (m : Mutation) : Prop :=
  ∃ mirror privateKey f, RepairStep sha256 mirror privateKey f m ∧
    (sectorState sha256 f mirror.other = .valid privateKey ∨
      (mirror = .a ∧ ∀ mirror, Uncommitted f mirror))

/-- What a boot answers: a returned key is the key of the mirrors, and without backend
errors both mirrors are verified. -/
def Answered (φ : Faults) (sha256 : Sha256)
    (r : Except (IdentityStoreError ε ρ) (PrivateKey × IdentityBootReport)) (g : Flash) : Prop :=
  (∀ key report, r = .ok (key, report) → Holds sha256 g key) ∧
    (φ.Reporting ∨ ∃ key source, r = .ok (key, ⟨source, .redundant, false⟩))

/-- A boot may fail where the backend reports errors. -/
theorem answered_error {φ : Faults} {error : IdentityStoreError ε ρ} (hφ : φ.Reporting) :
    Answered φ sha256 (.error error) g :=
  ⟨by simp, Or.inl hφ⟩

/-- A boot may answer the key that both mirrors hold. -/
theorem answered_redundant {φ : Faults} {key : PrivateKey} {source : IdentityBootSource}
    (h : Holds sha256 g key) :
    Answered φ sha256 (.ok (key, ⟨source, .redundant, false⟩) :
      Except (IdentityStoreError ε ρ) (PrivateKey × IdentityBootReport)) g :=
  ⟨by rintro _ _ ⟨⟩; exact h, Or.inr ⟨key, source, rfl⟩⟩

/-- Deciding again inside a boot: the program continues with a selection of the contents. -/
theorem wp_selectBoth {φ : Faults} {G : Mutation → Prop}
    {next : Selection → IdentityAction ε ρ (PrivateKey × IdentityBootReport)}
    (hok : ∀ selected, selection sha256 f = .ok selected → SelectionSpec sha256 f selected →
      wp φ G (next selected).run (Answered φ sha256) (fun _ => True) f)
    (herror : φ.Reporting ∨ ∃ selected, selection sha256 f = .ok selected) :
    wp φ G (selectBoth sha256 >>= next).run (Answered φ sha256) (fun _ => True) f := by
  refine (query_selectBoth sha256).wp_bind (fun _ => trivial) (eval_selectBoth ..) ?_ ?_ ?_
  · intro selected h
    cases hselection : selection sha256 f with
    | ok selected' =>
      rw [hselection] at h
      cases h
      exact hok selected hselection (selection_spec hselection)
    | error error => simp [hselection, Except.mapError] at h
  · intro error h
    refine answered_error (herror.resolve_right ?_)
    rintro ⟨selected, hselected⟩
    simp [hselected, Except.mapError] at h
  · exact fun he _ => answered_error (Or.inl he)

/-- Repairing the peer of the sole valid mirror. -/
theorem wp_finishSingle {φ : Faults} {authoritative : IdentityMirror} {record : PrivateKey}
    {other : SectorState} {provisioned : Bool}
    (hf : SelectionSpec sha256 f (.single authoritative record other)) :
    wp φ (BootStep sha256)
      (finishSingle sha256 authoritative record other provisioned : IdentityAction ε ρ _).run
      (Answered φ sha256) (fun _ => True) f := by
  obtain ⟨hvalid, hother, hnot⟩ := hf
  rw [finishSingle]
  apply wp_attempt_bind
  have hrepair : wp φ (RepairStep sha256 authoritative.other record f)
      (repairMirror sha256 authoritative.other other record : IdentityAction ε ρ Unit).run
      (Repaired φ sha256 authoritative.other record f) (fun _ => True) f :=
    wp_repairMirror hother hnot
  refine (hrepair.guard ?_).mono ?_ fun _ h => h
  · exact fun m hm => ⟨authoritative.other, record, f, hm, Or.inl (by simpa using hvalid)⟩
  rintro repaired g ⟨hsame, hok, hreport⟩
  have hkept : sectorState sha256 g authoritative = .valid record := by
    have hpeer : sectorState sha256 g authoritative.other.other =
        sectorState sha256 f authoritative.other.other := hsame.sectorState_other
    rwa [IdentityMirror.other_other, hvalid] at hpeer
  have hredundant : repaired = .ok () → selection sha256 g = .ok (.redundant record) :=
    fun h => selection_of_valid hkept (hok h)
  apply wp_selectBoth
  · intro selected hselected hspec
    cases selected with
    | redundant reloaded =>
      exact wp_ensure_bind (fun _ => trivial)
        (fun _ => wp_pure (fun _ => trivial) (answered_redundant hspec.holds_redundant))
        fun hne => answered_error (hreport.resolve_right fun h => hne (by
          have := hselected.symm.trans (hredundant h)
          cases this
          rfl))
    | single mirror reloaded peer =>
      have hφ : φ.Reporting := hreport.resolve_right fun h => by
        simp [hredundant h] at hselected
      refine wp_ensure_bind (fun _ => trivial) (fun _ => ?_) fun _ => answered_error hφ
      cases repaired with
      | ok _ => exact wp_pure (fun _ => trivial) (answered_error hφ)
      | error _ =>
        exact wp_pure (fun _ => trivial)
          ⟨by rintro _ _ ⟨⟩; exact hspec.holds_single, Or.inl hφ⟩
    | vacant a b =>
      have hφ : φ.Reporting := hreport.resolve_right fun h => by
        simp [hredundant h] at hselected
      cases repaired <;> exact wp_pure (fun _ => trivial) (answered_error hφ)
  · exact hreport.imp_right fun h => ⟨_, hredundant h⟩

/-- Provisioning the first mirror of a partition without a committed identity. -/
theorem wp_repairPrimary {φ : Faults} {a b : SectorState} {generated : PrivateKey}
    {next : Except (IdentityStoreError ε ρ) Unit →
      IdentityAction ε ρ (PrivateKey × IdentityBootReport)}
    (hf : SelectionSpec sha256 f (.vacant a b))
    (hnext : ∀ primary g, φ.Reporting ∨
        (primary = .ok () ∧
          selection sha256 g = .ok (.single .a generated (sectorState sha256 g .b))) →
      wp φ (BootStep sha256) (next primary).run (Answered φ sha256) (fun _ => True) g) :
    wp φ (BootStep sha256) (Action.attempt (repairMirror sha256 .a a generated) >>= next).run
      (Answered φ sha256) (fun _ => True) f := by
  obtain ⟨ha, hb, hvacant⟩ := hf
  have hnot : ∀ key, a ≠ .valid key := ha ▸ (hvacant .a).ne_valid
  have hrepair : wp φ (RepairStep sha256 .a generated f)
      (repairMirror sha256 .a a generated : IdentityAction ε ρ Unit).run
      (Repaired φ sha256 .a generated f) (fun _ => True) f := wp_repairMirror ha hnot
  apply wp_attempt_bind
  refine (hrepair.guard ?_).mono ?_ fun _ h => h
  · exact fun m hm => ⟨.a, generated, f, hm, Or.inr ⟨rfl, hvacant⟩⟩
  rintro primary g ⟨hsame, hok, hreport⟩
  refine hnext primary g (hreport.imp_right fun hprimary => ⟨hprimary, ?_⟩)
  have hpeer : sectorState sha256 g .b = sectorState sha256 f .b := hsame.sectorState_other
  rw [selection, hok hprimary, hpeer]
  exact select_valid_left (hvacant .b).ne_valid

/-- The answer and the mutations of one boot. Without backend errors it succeeds when the
geometry is compatible, the mirrors can be decided between and the entropy source answers. -/
theorem wp_bootLoadOrProvision {φ : Faults} {geometry : Geometry} {rng : Except ρ PrivateKey}
    (hready : φ.Reporting ∨ (validateFlash geometry = true ∧
      (∃ selected, selection sha256 f = .ok selected) ∧ ∃ bytes, rng = .ok bytes)) :
    wp φ (BootStep sha256) (bootLoadOrProvision sha256 geometry rng : IdentityAction ε ρ _).run
      (Answered φ sha256) (fun _ => True) f := by
  rw [bootLoadOrProvision]
  apply wp_ensure_bind (fun _ => trivial)
  · intro _
    apply wp_selectBoth
    · intro selected _ hspec
      cases selected with
      | redundant record =>
        exact wp_pure (fun _ => trivial) (answered_redundant hspec.holds_redundant)
      | single authoritative record other => exact wp_finishSingle hspec
      | vacant a b =>
        cases rng with
        | error error =>
          exact wp_pure (fun _ => trivial) (answered_error (hready.resolve_right (by simp)))
        | ok bytes =>
          refine wp_repairPrimary hspec fun primary g hprimary => ?_
          apply wp_selectBoth
          · intro selected hselected hspec
            cases selected with
            | redundant record =>
              refine wp_ensure_bind (fun _ => trivial)
                (fun _ => wp_pure (fun _ => trivial) (answered_redundant hspec.holds_redundant))
                fun _ => answered_error (hprimary.resolve_right ?_)
              rintro ⟨-, h⟩
              simp [h] at hselected
            | single authoritative record other =>
              refine wp_ensure_bind (fun _ => trivial) (fun _ => wp_finishSingle hspec)
                fun hne => answered_error (hprimary.resolve_right ?_)
              rintro ⟨-, h⟩
              simp_all
            | vacant a b =>
              have hφ : φ.Reporting := hprimary.resolve_right <| by
                rintro ⟨-, h⟩
                simp [h] at hselected
              cases primary <;> exact wp_pure (fun _ => trivial) (answered_error hφ)
          · exact hprimary.imp_right fun h => ⟨_, h.2⟩
    · exact hready.imp_right fun h => h.2.1
  · exact fun hne => answered_error (hready.resolve_right fun h => hne h.1)

end ProductIdentity
