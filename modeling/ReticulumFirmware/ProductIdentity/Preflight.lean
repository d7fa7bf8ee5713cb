import ReticulumFirmware.Collections.Fold
import ReticulumFirmware.Nor.Answer
import ReticulumFirmware.ProductIdentity.Stability

/-!
# The preflight of the identity predicts the boot

`inspect_identity` takes the decision of a boot without its mutations. What a boot without backend
faults then does is determined by this decision and by the answer of the entropy source.
-/

namespace ProductIdentity

open Nor

variable {ε ρ : Type} {sha256 : Sha256} {f g : Flash} {geometry : Geometry}
  {rng : Except ρ PrivateKey}

/-- What an inspection tells about the identity. -/
inductive IdentityPreflight where
  | vacant
  | committed (coverage : IdentityMirrorCoverage)
  deriving DecidableEq, Repr

/-- The classification of a decision. -/
def IdentityPreflight.ofSelection : Selection → IdentityPreflight
  | .redundant _ => .committed .redundant
  | .single _ _ _ => .committed .single
  | .vacant _ _ => .vacant

/-- Inspect the identity without programming or erasing. -/
def inspectIdentity (sha256 : Sha256) (geometry : Geometry) :
    IdentityAction ε ρ IdentityPreflight := do
  Action.ensure (validateReadFlash geometry = true) .incompatibleFlash
  let selected ← selectBoth sha256
  pure (.ofSelection selected)

/-- An inspection only reads. -/
theorem query_inspectIdentity :
    Query .backend (inspectIdentity sha256 geometry : IdentityAction ε ρ _).run :=
  .bind (.ensureAction ..) fun _ => .bind (query_selectBoth ..) fun _ => .pureAction ..

/-- An inspection tells the decision between the mirrors. -/
theorem answer_inspectIdentity :
    (inspectIdentity sha256 geometry : IdentityAction ε ρ _).answer f =
      if validateReadFlash geometry = true then
        ((selection sha256 f).map IdentityPreflight.ofSelection).mapError mapSelectionError
      else .error .incompatibleFlash := by
  rw [inspectIdentity, Action.answer_ensure_bind]
  split
  · rw [(query_selectBoth _).answer_bind, Action.answer, eval_selectBoth]
    cases selection sha256 f <;> rfl
  · rfl

/-- Both mirrors hold the key. -/
def Redundant (sha256 : Sha256) (f : Flash) (key : PrivateKey) : Prop :=
  ∀ mirror, sectorState sha256 f mirror = .valid key

/-- What a boot without faults answers and leaves after a decision. -/
def Settles (sha256 : Sha256) (rng : Except ρ PrivateKey) :
    Except SelectionError Selection →
      Except (IdentityStoreError ε ρ) (PrivateKey × IdentityBootReport) → Flash → Prop
  | .error error, r, _ => r = .error (mapSelectionError error)
  | .ok (.redundant record), r, _ => r = .ok (record, ⟨.loaded, .redundant, false⟩)
  | .ok (.single _ record _), r, g =>
    r = .ok (record, ⟨.repaired, .redundant, false⟩) ∧ Redundant sha256 g record
  | .ok (.vacant _ _), r, g =>
    (∃ error, rng = .error error ∧ r = .error (.entropy error)) ∨
      ∃ bytes, rng = .ok bytes ∧ Redundant sha256 g (clampGenerated bytes) ∧
        r = .ok (clampGenerated bytes, ⟨.provisioned, .redundant, false⟩)

/-- The decisions after which a boot addresses a mirror. -/
def Mutates (rng : Except ρ PrivateKey) : Except SelectionError Selection → Prop
  | .ok (.single _ _ _) => True
  | .ok (.vacant _ _) => ∃ bytes, rng = .ok bytes
  | _ => False

/-- Two mirrors with one key are redundant. -/
theorem redundant_of_valid {mirror : IdentityMirror} {key : PrivateKey}
    (hmirror : sectorState sha256 f mirror = .valid key)
    (hother : sectorState sha256 f mirror.other = .valid key) : Redundant sha256 f key := by
  intro mirror'
  by_cases h : mirror' = mirror
  · rw [h, hmirror]
  · rw [IdentityMirror.eq_other_of_ne h, hother]

/-- Without faults the peer of the sole valid mirror is repaired. -/
theorem wp_finishSingle_none {G : Mutation → Prop} (hG : ∀ m, G m)
    {authoritative : IdentityMirror} {record : PrivateKey} {other : SectorState}
    {provisioned : Bool} (hf : SelectionSpec sha256 f (.single authoritative record other)) :
    wp Faults.none G
      (finishSingle sha256 authoritative record other provisioned : IdentityAction ε ρ _).run
      (fun r g => r = .ok (record, ⟨if provisioned then .provisioned else .repaired, .redundant,
        false⟩) ∧ Redundant sha256 g record) (fun _ => True) f := by
  obtain ⟨hvalid, hother, hnot⟩ := hf
  rw [finishSingle]
  apply wp_attempt_bind
  have hrepair : wp Faults.none (RepairStep sha256 authoritative.other record f)
      (repairMirror sha256 authoritative.other other record : IdentityAction ε ρ Unit).run
      (Repaired Faults.none sha256 authoritative.other record f) (fun _ => True) f :=
    wp_repairMirror hother hnot
  refine (hrepair.guard fun m _ => hG m).mono ?_ fun _ h => h
  rintro repaired g ⟨hsame, hok, hreport⟩
  have hrepaired : repaired = .ok () :=
    hreport.resolve_left (by simp [Faults.Reporting, Faults.none])
  have hkept : sectorState sha256 g authoritative = .valid record := by
    have hpeer : sectorState sha256 g authoritative.other.other =
        sectorState sha256 f authoritative.other.other := hsame.sectorState_other
    rwa [IdentityMirror.other_other, hvalid] at hpeer
  have hselection := selection_of_valid hkept (hok hrepaired)
  refine (query_selectBoth sha256).wp_bind (fun _ => trivial) (eval_selectBoth ..) ?_ ?_ ?_
  · intro selected h
    rw [hselection] at h
    obtain rfl := Except.ok.inj h
    exact wp_ensure_bind (fun _ => trivial)
      (fun _ => wp_pure (fun _ => trivial) ⟨rfl, redundant_of_valid hkept (hok hrepaired)⟩)
      fun hne => absurd rfl hne
  · intro error h
    rw [hselection] at h
    cases h
  · exact fun he _ => Bool.noConfusion he

/-- A boot without faults does what its decision says, and mutates only if it has to. -/
theorem wp_boot_none (hgeometry : validateFlash geometry = true) :
    wp Faults.none (fun _ => Mutates rng (selection sha256 f))
      (bootLoadOrProvision sha256 geometry rng : IdentityAction ε ρ _).run
      (fun r g => Settles sha256 rng (selection sha256 f) r g) (fun _ => True) f := by
  rw [bootLoadOrProvision]
  apply wp_ensure_bind (fun _ => trivial) ?_ fun hne => absurd hgeometry hne
  intro _
  refine (query_selectBoth sha256).wp_bind (fun _ => trivial) (eval_selectBoth ..) ?_ ?_ ?_
  · intro selected h
    have hselection : selection sha256 f = .ok selected := Except.mapError_eq_ok.mp h
    have hspec := selection_spec hselection
    rw [hselection]
    cases selected with
    | redundant record => exact wp_pure (fun _ => trivial) rfl
    | single authoritative record other => exact wp_finishSingle_none (fun _ => trivial) hspec
    | vacant a b =>
      cases rng with
      | error error => exact wp_pure (fun _ => trivial) (Or.inl ⟨error, rfl, rfl⟩)
      | ok bytes =>
        obtain ⟨ha, -, hvacant⟩ := hspec
        have hnot : ∀ key, a ≠ .valid key := ha ▸ (hvacant .a).ne_valid
        have hrepair : wp Faults.none (RepairStep sha256 .a (clampGenerated bytes) f)
            (repairMirror sha256 .a a (clampGenerated bytes) : IdentityAction ε ρ Unit).run
            (Repaired Faults.none sha256 .a (clampGenerated bytes) f) (fun _ => True) f :=
          wp_repairMirror ha hnot
        apply wp_attempt_bind
        refine (hrepair.guard fun m _ => ⟨bytes, rfl⟩).mono ?_ fun _ h => h
        rintro primary g ⟨hsame, hok, hreport⟩
        have hprimary : primary = .ok () :=
          hreport.resolve_left (by simp [Faults.Reporting, Faults.none])
        have hpeer : sectorState sha256 g .b = sectorState sha256 f .b := hsame.sectorState_other
        have hselection' : selection sha256 g =
            .ok (.single .a (clampGenerated bytes) (sectorState sha256 g .b)) := by
          rw [selection, hok hprimary, hpeer]
          exact select_valid_left (hvacant .b).ne_valid
        refine (query_selectBoth sha256).wp_bind (fun _ => trivial) (eval_selectBoth ..) ?_ ?_ ?_
        · intro selected' h'
          rw [hselection'] at h'
          obtain rfl := Except.ok.inj h'
          refine wp_ensure_bind (fun _ => trivial) (fun _ => ?_) fun hne => absurd rfl hne
          refine (wp_finishSingle_none (fun _ => ⟨bytes, rfl⟩) (selection_spec hselection')).mono ?_
            fun _ h => h
          rintro r g' ⟨rfl, hredundant⟩
          exact Or.inr ⟨bytes, rfl, hredundant, rfl⟩
        · intro error h'
          rw [hselection'] at h'
          cases h'
        · exact fun he _ => Bool.noConfusion he
  · intro error h
    cases hselection : selection sha256 f with
    | ok selected =>
      rw [hselection] at h
      cases h
    | error failure =>
      rw [hselection] at h
      obtain rfl := Except.error.inj h
      exact congrArg Except.error rfl
  · exact fun he _ => Bool.noConfusion he

section Outcomes

variable (sha256 : Sha256) (rng : Except ρ PrivateKey) (f g : Flash) (tr : List Mutation)
  (r : Except (IdentityStoreError ε ρ) (PrivateKey × IdentityBootReport))

/-- A boot loads the key of both mirrors and writes nothing. -/
def LoadsUnchanged : Prop :=
  tr = [] ∧ g = f ∧ ∃ key, Redundant sha256 f key ∧ r = .ok (key, ⟨.loaded, .redundant, false⟩)

/-- A boot returns the key of the sole valid mirror once the other mirror holds it too. -/
def RepairsOther : Prop :=
  ∃ mirror key, sectorState sha256 f mirror = .valid key ∧
    (∀ key', sectorState sha256 f mirror.other ≠ .valid key') ∧ Redundant sha256 g key ∧
    r = .ok (key, ⟨.repaired, .redundant, false⟩)

/-- A boot returns a fresh key that both mirrors hold. -/
def Provisions : Prop :=
  ∃ bytes, rng = .ok bytes ∧ Redundant sha256 g (clampGenerated bytes) ∧
    r = .ok (clampGenerated bytes, ⟨.provisioned, .redundant, false⟩)

/-- A boot fails because of the entropy source and writes nothing. -/
def LacksEntropy : Prop :=
  tr = [] ∧ g = f ∧ ∃ error, rng = .error error ∧ r = .error (.entropy error)

/-- A boot fails with an error of the partition and writes nothing. -/
def FailsWith (error : IdentityStoreError ε ρ) : Prop :=
  tr = [] ∧ g = f ∧ r = .error error ∧ ∀ cause, error ≠ .entropy cause

end Outcomes

/-- No selection error is blamed on the entropy. -/
theorem mapSelectionError_ne_entropy (error : SelectionError) (cause : ρ) :
    (mapSelectionError error : IdentityStoreError ε ρ) ≠ .entropy cause := by
  cases error <;> simp [mapSelectionError]

/-- The executions of a boot without faults, by the decision between the mirrors. -/
theorem boot_cases {tr : List Mutation}
    {r : Except (IdentityStoreError ε ρ) (PrivateKey × IdentityBootReport)}
    (hgeometry : validateFlash geometry = true)
    (hx : Prog.Exec Faults.none (bootLoadOrProvision sha256 geometry rng).run f tr (some r) g) :
    Settles sha256 rng (selection sha256 f) r g ∧
      (¬ Mutates rng (selection sha256 f) → tr = [] ∧ g = f) := by
  obtain ⟨hguard, hsettles⟩ := wp_boot_none hgeometry tr (some r) g hx
  refine ⟨hsettles, fun hquiet => ?_⟩
  have htr : tr = [] := List.eq_nil_iff_forall_not_mem.mpr fun m hm => hquiet (hguard m hm)
  have hchain := hx.chain
  rw [htr] at hchain
  exact ⟨htr, hchain⟩

/-- On an incompatible flash a boot fails as such and changes nothing. -/
theorem boot_incompatible {tr : List Mutation}
    {r : Except (IdentityStoreError ε ρ) (PrivateKey × IdentityBootReport)}
    (hgeometry : validateFlash geometry = false)
    (hx : Prog.Exec Faults.none (bootLoadOrProvision sha256 geometry rng).run f tr (some r) g) :
    FailsWith f g tr r .incompatibleFlash := by
  have hwp : wp Faults.none (fun _ => False)
      (bootLoadOrProvision sha256 geometry rng : IdentityAction ε ρ _).run
      (fun r _ => r = .error .incompatibleFlash) (fun _ => True) f := by
    rw [bootLoadOrProvision]
    exact wp_ensure_bind (fun _ => trivial) (fun htrue => by simp [hgeometry] at htrue) fun _ => rfl
  obtain ⟨hguard, hresult⟩ := hwp tr (some r) g hx
  have htr : tr = [] := List.eq_nil_iff_forall_not_mem.mpr hguard
  have hchain := hx.chain
  rw [htr] at hchain
  exact ⟨htr, hchain, hresult, by simp⟩

/-- The outcome of a boot that an inspection foretells. -/
def Foretold (sha256 : Sha256) (rng : Except ρ PrivateKey) (f g : Flash) (tr : List Mutation)
    (r : Except (IdentityStoreError ε ρ) (PrivateKey × IdentityBootReport)) :
    Except (IdentityStoreError ε ρ) IdentityPreflight → Prop
  | .ok (.committed .redundant) => LoadsUnchanged sha256 f g tr r
  | .ok (.committed .single) => RepairsOther sha256 f g r
  | .ok .vacant => Provisions sha256 rng g r ∨ LacksEntropy rng f g tr r
  | .error error => FailsWith f g tr r error

/-- An outcome is foretold by one answer only. -/
theorem Foretold.unique {tr : List Mutation}
    {r : Except (IdentityStoreError ε ρ) (PrivateKey × IdentityBootReport)}
    {answer answer' : Except (IdentityStoreError ε ρ) IdentityPreflight}
    (h : Foretold sha256 rng f g tr r answer) (h' : Foretold sha256 rng f g tr r answer') :
    answer = answer' := by
  obtain error | _ | _ | _ := answer <;> obtain error' | _ | _ | _ := answer' <;>
    simp only [Foretold, LoadsUnchanged, RepairsOther, Provisions, LacksEntropy, FailsWith] at h h'
  all_goals grind

/-- A boot without faults has the outcome that the inspection foretells. -/
theorem foretold_of_boot {tr : List Mutation}
    {r : Except (IdentityStoreError ε ρ) (PrivateKey × IdentityBootReport)}
    (hgeometry : validateReadFlash geometry = true → validateFlash geometry = true)
    (hx : Prog.Exec Faults.none (bootLoadOrProvision sha256 geometry rng).run f tr (some r) g) :
    Foretold sha256 rng f g tr r
      ((inspectIdentity sha256 geometry : IdentityAction ε ρ _).answer f) := by
  rw [answer_inspectIdentity]
  by_cases hread : validateReadFlash geometry = true
  · rw [if_pos hread]
    obtain ⟨hsettles, hquiet⟩ := boot_cases (hgeometry hread) hx
    cases hselection : selection sha256 f with
    | error error =>
      rw [hselection] at hsettles hquiet
      obtain ⟨htr, hg⟩ := hquiet id
      exact ⟨htr, hg, hsettles, mapSelectionError_ne_entropy error⟩
    | ok selected =>
      have hspec := selection_spec hselection
      rw [hselection] at hsettles hquiet
      cases selected with
      | redundant record =>
        obtain ⟨htr, hg⟩ := hquiet id
        exact ⟨htr, hg, record, hspec, hsettles⟩
      | single mirror record other =>
        obtain ⟨hvalid, rfl, hnot⟩ := hspec
        exact ⟨mirror, record, hvalid, hnot, hsettles.2, hsettles.1⟩
      | vacant a b =>
        rcases hsettles with ⟨error, rfl, hr⟩ | ⟨bytes, hbytes, hredundant, hr⟩
        · obtain ⟨htr, hg⟩ := hquiet (by simp [Mutates])
          exact Or.inr ⟨htr, hg, error, rfl, hr⟩
        · exact Or.inl ⟨bytes, hbytes, hredundant, hr⟩
  · rw [if_neg hread]
    have hincompatible : validateFlash geometry = false := by
      rw [validateFlash, Bool.eq_false_iff.mpr hread, Bool.false_and]
    exact boot_incompatible hincompatible hx

/-- The inspection writes nothing in any execution. On a flash that the format can write where it
can read, its answer without faults is the one that foretells the boot of the same contents
without faults. The key that any boot returns is stored in a valid mirror afterwards. -/
theorem preflight_predicts_boot
    (hgeometry : validateReadFlash geometry = true → validateFlash geometry = true) :
    (∀ φ tr r g, Prog.Exec φ (inspectIdentity sha256 geometry : IdentityAction ε ρ _).run f tr r g →
      tr = [] ∧ g = f) ∧
    (∀ tr r g, Prog.Exec Faults.none
        (bootLoadOrProvision sha256 geometry rng : IdentityAction ε ρ _).run f tr (some r) g →
      ∀ answer, (inspectIdentity sha256 geometry : IdentityAction ε ρ _).answer f = answer ↔
        Foretold sha256 rng f g tr r answer) ∧
    ∀ φ tr key report g, Prog.Exec φ (bootLoadOrProvision sha256 geometry rng :
        IdentityAction ε ρ _).run f tr (some (.ok (key, report))) g →
      ∃ mirror, sectorState sha256 g mirror = .valid key := by
  refine ⟨fun φ tr r g hx => ?_, fun tr r g hx answer => ?_, fun φ tr key report g hx => ?_⟩
  · obtain ⟨hg, htr, -⟩ := query_inspectIdentity.exec hx
    exact ⟨htr, hg⟩
  · have hforetold := foretold_of_boot hgeometry hx
    constructor
    · rintro rfl
      exact hforetold
    · exact hforetold.unique
  · exact ((boot_exec hx.all).2 key report rfl).1

/-- An erased partition is vacant. -/
theorem selection_erased (sha256 : Sha256) :
    selection sha256 Flash.erased = .ok (.vacant .erased .erased) := by
  have herased : ∀ mirror, sectorState sha256 Flash.erased mirror = .erased := fun mirror =>
    sectorState_eq_erased_iff.mpr fun _ _ => rfl
  rw [selection, herased, herased]
  rfl

/-- A boot of a vacant partition fails with the entropy source, before any write. -/
theorem boot_without_entropy {a b : SectorState} {error : ρ} {tr : List Mutation}
    {r : Except (IdentityStoreError ε ρ) (PrivateKey × IdentityBootReport)}
    (hgeometry : validateFlash geometry = true)
    (hselection : selection sha256 f = .ok (.vacant a b))
    (hx : Prog.Exec Faults.none (bootLoadOrProvision sha256 geometry (.error error)).run f tr
      (some r) g) : r = .error (.entropy error) ∧ tr = [] := by
  obtain ⟨hsettles, hquiet⟩ := boot_cases hgeometry hx
  rw [hselection] at hsettles hquiet
  obtain ⟨cause, hcause, hr⟩ | ⟨bytes, hbytes, -⟩ := hsettles
  · obtain rfl := Except.error.inj hcause
    exact ⟨hr, (hquiet (by simp [Mutates])).1⟩
  · cases hbytes

/-- An erased partition is vacant, on any geometry that can be read. -/
theorem answer_inspectIdentity_erased (hread : validateReadFlash geometry = true) :
    (inspectIdentity sha256 geometry : IdentityAction ε ρ _).answer Flash.erased = .ok .vacant := by
  rw [answer_inspectIdentity, if_pos hread, selection_erased]
  rfl

/-- The geometry of a partition that can be read but is erased in larger sectors. -/
def coarseGeometry : Geometry := ⟨partitionSize, 4, 4, 2 * mirrorSectorSize⟩

/-- A vacant partition is not provisioned when the entropy source fails or the sectors do not fit
the format. -/
theorem preflight_vacant_unprovisioned :
    ((inspectIdentity echoDigest deviceGeometry : IdentityAction Unit Unit _).answer Flash.erased =
        .ok .vacant ∧
      ∀ tr r g, Prog.Exec Faults.none (bootLoadOrProvision echoDigest deviceGeometry (.error ()) :
          IdentityAction Unit Unit _).run Flash.erased tr (some r) g →
        r = .error (.entropy ()) ∧ tr = []) ∧
    (inspectIdentity echoDigest coarseGeometry : IdentityAction Unit Unit _).answer Flash.erased =
        .ok .vacant ∧
      ∀ rng tr r g, Prog.Exec Faults.none (bootLoadOrProvision echoDigest coarseGeometry rng :
          IdentityAction Unit Unit _).run Flash.erased tr (some r) g →
        r = .error .incompatibleFlash ∧ tr = [] := by
  refine ⟨⟨answer_inspectIdentity_erased rfl, fun tr r g hx => ?_⟩,
    answer_inspectIdentity_erased rfl, fun rng tr r g hx => ?_⟩
  · exact boot_without_entropy rfl (selection_erased _) hx
  · have hgeometry : validateFlash coarseGeometry = false := rfl
    obtain ⟨htr, -, hr, -⟩ := boot_incompatible hgeometry hx
    exact ⟨hr, htr⟩

/-- The prediction for an erased partition, which is provisioned. -/
theorem preflight_predicts_boot_erased :
    (inspectIdentity echoDigest deviceGeometry : IdentityAction Unit Unit _).answer Flash.erased =
        .ok .vacant ∧
      ∃ tr r g, Prog.Exec Faults.none (bootLoadOrProvision echoDigest deviceGeometry
          (.ok (Vector.replicate 64 0x5a)) :
            IdentityAction Unit Unit _).run Flash.erased tr (some r)
            g ∧
        Foretold echoDigest (.ok (Vector.replicate 64 0x5a) : Except Unit PrivateKey) Flash.erased g
          tr r (.ok .vacant) := by
  have hvacant : (inspectIdentity echoDigest deviceGeometry :
      IdentityAction Unit Unit _).answer Flash.erased = .ok .vacant :=
    answer_inspectIdentity_erased (by decide)
  obtain ⟨tr, hx⟩ := Prog.exec_run Faults.none (bootLoadOrProvision echoDigest deviceGeometry
    (.ok (Vector.replicate 64 0x5a)) : IdentityAction Unit Unit _).run Flash.erased
  exact ⟨hvacant, tr, _, _, hx,
    ((preflight_predicts_boot fun _ => by decide).2.1 tr _ _ hx (.ok .vacant)).mp hvacant⟩

end ProductIdentity
