import ReticulumFirmware.ProductIdentity.Reconcile

/-!
# Stability of the node identity

Over every sequence of boots, with every backend error and power loss, the first key that
a boot returns or that a scan could have found is the only key that later boots return.
No boot ever addresses a valid mirror.
-/

namespace ProductIdentity

open Nor

variable {ε ρ : Type} {sha256 : Sha256} {f g : Flash}

/-- One boot as it happened. The answer is `none` when power was lost. -/
structure BootCall (ε ρ : Type) where
  /-- The answer of the entropy source. -/
  rng : Except ρ PrivateKey
  /-- Contents when the boot started. -/
  start : Flash
  /-- Programs and erases in order. -/
  trace : List Mutation
  /-- The answer of the boot. -/
  result : Option (Except (IdentityStoreError ε ρ) (PrivateKey × IdentityBootReport))

/-- The contents that occur during a boot. -/
def BootCall.states (call : BootCall ε ρ) : List Flash :=
  call.start :: call.trace.map Mutation.after

/-- A sequence of boots of one partition, each under the faults `φ`. -/
inductive Boots (φ : Faults) (sha256 : Sha256) (geometry : Geometry) :
    Flash → List (BootCall ε ρ) → Flash → Prop
  | nil (f : Flash) : Boots φ sha256 geometry f [] f
  | cons {call : BootCall ε ρ} {calls : List (BootCall ε ρ)} {f g h : Flash}
      (hstart : call.start = f)
      (hboot : Prog.Exec φ (bootLoadOrProvision sha256 geometry call.rng).run f call.trace
        call.result g)
      (hrest : Boots φ sha256 geometry g calls h) : Boots φ sha256 geometry f (call :: calls) h

/-- A mutation addresses a mirror that is not valid and changes nothing outside it. -/
def SparesValid (sha256 : Sha256) (m : Mutation) : Prop :=
  ∃ mirror : IdentityMirror, (mirror.offset ≤ m.start ∧ m.stop ≤ mirror.offset + mirrorSectorSize) ∧
    (∀ key, sectorState sha256 m.before mirror ≠ .valid key) ∧
    SameOutside mirror m.before m.after

/-- A step of a boot spares every valid mirror. -/
theorem BootStep.sparesValid {m : Mutation} (h : BootStep sha256 m) : SparesValid sha256 m := by
  obtain ⟨mirror, key, f, hstep, -⟩ := h
  exact ⟨mirror, hstep.range, hstep.notValid,
    fun a ha => (hstep.after a ha).trans (hstep.before a ha).symm⟩

/-- A mutation that spares valid mirrors keeps them. -/
theorem SparesValid.valid {m : Mutation} (hm : SparesValid sha256 m) {mirror : IdentityMirror}
    {key : PrivateKey} (h : sectorState sha256 m.before mirror = .valid key) :
    sectorState sha256 m.after mirror = .valid key := by
  obtain ⟨target, -, hnot, hsame⟩ := hm
  have hne : mirror ≠ target := fun heq => hnot key (heq ▸ h)
  rw [IdentityMirror.eq_other_of_ne hne] at h ⊢
  rw [hsame.sectorState_other, h]

/-- A valid mirror of any contents of a trace is valid with the same key at its end. -/
theorem valid_of_chain {tr : List Mutation} (hchain : Mutation.Chain f tr g)
    (htr : ∀ m ∈ tr, BootStep sha256 m) {s : Flash}
    (hs : s ∈ f :: tr.map Mutation.after) {mirror : IdentityMirror} {key : PrivateKey}
    (h : sectorState sha256 s mirror = .valid key) : sectorState sha256 g mirror = .valid key := by
  induction tr generalizing f s with
  | nil =>
    obtain rfl : g = f := hchain
    rw [List.map_nil, List.mem_singleton] at hs
    rwa [← hs]
  | cons m tr ih =>
    obtain ⟨rfl, hrest⟩ := hchain
    have hm := htr m List.mem_cons_self
    have htr := fun m hm => htr m (List.mem_cons_of_mem _ hm)
    rcases List.mem_cons.mp hs with rfl | hs
    · exact ih hrest htr List.mem_cons_self (hm.sparesValid.valid h)
    · exact ih hrest htr hs h

/-- What one boot leaves: its mutations are boot steps, and a returned key is the key of
the mirrors. -/
theorem boot_exec {geometry : Geometry} {rng : Except ρ PrivateKey} {tr : List Mutation}
    {r : Option (Except (IdentityStoreError ε ρ) (PrivateKey × IdentityBootReport))}
    (hx : Prog.Exec Faults.all (bootLoadOrProvision sha256 geometry rng).run f tr r g) :
    (∀ m ∈ tr, BootStep sha256 m) ∧
      ∀ key report, r = some (.ok (key, report)) → Holds sha256 g key := by
  have hwp : wp Faults.all (BootStep sha256)
      (bootLoadOrProvision sha256 geometry rng : IdentityAction ε ρ _).run
      (Answered Faults.all sha256) (fun _ => True) f :=
    wp_bootLoadOrProvision (Or.inl (Or.inl rfl))
  obtain ⟨htr, hr⟩ := hwp tr r g hx
  refine ⟨htr, ?_⟩
  rintro key report rfl
  exact hr.1 key report rfl

/-- Once a mirror is valid with a key, no later boot returns another one. -/
theorem Boots.returns_valid {geometry : Geometry} {calls : List (BootCall ε ρ)}
    (h : Boots Faults.all sha256 geometry f calls g) {mirror : IdentityMirror}
    {key : PrivateKey} (hvalid : sectorState sha256 f mirror = .valid key)
    {call : BootCall ε ρ} (hcall : call ∈ calls) {key' : PrivateKey} {report : IdentityBootReport}
    (hresult : call.result = some (.ok (key', report))) : key' = key := by
  induction h with
  | nil => cases hcall
  | cons hstart hboot hrest ih =>
    obtain ⟨htr, hreturns⟩ := boot_exec hboot
    have hkept := valid_of_chain hboot.chain htr List.mem_cons_self hvalid
    rcases List.mem_cons.mp hcall with rfl | hcall
    · exact ((hreturns key' report hresult).2 mirror key hkept).symm
    · exact ih hkept hcall

/-- The first key that a boot returns, or that a scan finds in some contents during a boot,
is the only key that the boots after it return. Every program and erase addresses a mirror
that is not valid. -/
theorem identity_stable {geometry : Geometry} {calls : List (BootCall ε ρ)}
    (h : Boots Faults.all sha256 geometry f calls g) :
    (∀ (i j : ℕ) (early late : BootCall ε ρ) (key : PrivateKey),
      calls[i]? = some early → calls[j]? = some late →
      ((i < j ∧ ∃ report, early.result = some (.ok (key, report))) ∨
        (i ≤ j ∧ ∃ s ∈ early.states, ∃ mirror, sectorState sha256 s mirror = .valid key)) →
      ∀ key' report, late.result = some (.ok (key', report)) → key' = key) ∧
    ∀ call ∈ calls, ∀ m ∈ call.trace, SparesValid sha256 m := by
  induction h with
  | nil => simp
  | @cons call calls f g _ hstart hboot hrest ih =>
    subst hstart
    obtain ⟨htr, hreturns⟩ := boot_exec hboot
    refine ⟨?_, List.forall_mem_cons.mpr ⟨fun m hm => (htr m hm).sparesValid, ih.2⟩⟩
    intro i j early late key hearly hlate hknown key' report hresult
    cases i with
    | succ i =>
      -- the head of the sequence is before both boots
      cases j with
      | zero => simp at hknown
      | succ j =>
        refine ih.1 i j early late key hearly hlate ?_ key' report hresult
        simpa using hknown
    | zero =>
      obtain rfl : call = early := by simpa using hearly
      have hvalid : (∃ report, call.result = some (.ok (key, report))) ∨
          (∃ s ∈ call.states, ∃ mirror, sectorState sha256 s mirror = .valid key) →
          ∃ mirror, sectorState sha256 g mirror = .valid key := by
        rintro (⟨report, hreport⟩ | ⟨s, hs, mirror, hs'⟩)
        · exact (hreturns key report hreport).1
        · exact ⟨mirror, valid_of_chain hboot.chain htr hs hs'⟩
      obtain ⟨mirror, hkept⟩ := hvalid (hknown.imp And.right And.right)
      cases j with
      | zero =>
        obtain rfl : call = late := by simpa using hlate
        exact ((hreturns key' report hresult).2 mirror key hkept).symm
      | succ j =>
        exact hrest.returns_valid hkept (List.mem_of_getElem? hlate) hresult

/-- A boot without faults from contents that can be decided between returns a key that the
mirrors then hold. -/
theorem boot_run {geometry : Geometry} (hgeometry : validateFlash geometry = true)
    {selected : Selection} (hselected : selection sha256 f = .ok selected) (bytes : PrivateKey) :
    ∃ key source tr g, Holds sha256 g key ∧
      Prog.Exec Faults.all
        (bootLoadOrProvision sha256 geometry (.ok bytes) : IdentityAction ε ρ _).run f tr
        (some (.ok (key, ⟨source, .redundant, false⟩))) g := by
  have hwp : wp Faults.none (BootStep sha256)
      (bootLoadOrProvision sha256 geometry (.ok bytes) : IdentityAction ε ρ _).run
      (Answered Faults.none sha256) (fun _ => True) f :=
    wp_bootLoadOrProvision (Or.inr ⟨hgeometry, ⟨selected, hselected⟩, bytes, rfl⟩)
  obtain ⟨hholds, hreport | ⟨key, source, hresult⟩⟩ := hwp.run
  · simp [Faults.Reporting, Faults.none] at hreport
  · obtain ⟨tr, hx⟩ := Prog.exec_run Faults.all
      (bootLoadOrProvision sha256 geometry (.ok bytes) : IdentityAction ε ρ _).run f
    rw [hresult] at hx
    exact ⟨key, source, tr, _, hholds key _ hresult, hx⟩

/-- The geometry of the identity partition of the device. -/
def deviceGeometry : Geometry := ⟨partitionSize, 4, 4, mirrorSectorSize⟩

/-- A digest for concrete runs: the first half of the private key. -/
def echoDigest : Sha256 := fun bytes => copyArray digestSize (bytes.drop 112)

/-- Provisioning an erased partition and booting again returns the provisioned key. -/
theorem identity_stable_provisioned :
    ∃ (first second : BootCall Unit Unit) (g : Flash) (key key' : PrivateKey)
      (report report' : IdentityBootReport),
      Boots Faults.all echoDigest deviceGeometry Flash.erased [first, second] g ∧
      first.result = some (.ok (key, report)) ∧ second.result = some (.ok (key', report')) ∧
      key' = key := by
  have hvacant : ∀ mirror, Uncommitted Flash.erased mirror := fun mirror =>
    uncommitted_of_erased fun _ _ => rfl
  obtain ⟨selected, hselected⟩ : ∃ selected, selection echoDigest Flash.erased = .ok selected :=
    selection_of_uncommitted hvacant
  obtain ⟨key, source, tr, g, hholds, hfirst⟩ :=
    boot_run (show validateFlash deviceGeometry = true by decide) hselected
      (Vector.replicate 64 0x5a)
  obtain ⟨selected', hselected'⟩ := selection_of_holds hholds
  obtain ⟨key', source', tr', g', -, hsecond⟩ :=
    boot_run (show validateFlash deviceGeometry = true by decide) hselected'
      (Vector.replicate 64 0x33)
  let first : BootCall Unit Unit := ⟨.ok (Vector.replicate 64 0x5a), Flash.erased, tr,
    some (.ok (key, ⟨source, .redundant, false⟩))⟩
  let second : BootCall Unit Unit := ⟨.ok (Vector.replicate 64 0x33), g, tr',
    some (.ok (key', ⟨source', .redundant, false⟩))⟩
  have hboots : Boots Faults.all echoDigest deviceGeometry Flash.erased [first, second] g' :=
    .cons rfl hfirst (.cons rfl hsecond (.nil g'))
  exact ⟨first, second, g', key, key', _, _, hboots, rfl, rfl,
    (identity_stable hboots).1 0 1 first second key rfl rfl (Or.inl ⟨by decide, _, rfl⟩) key' _ rfl⟩

end ProductIdentity
