import ReticulumFirmware.Settings.Sector

/-!
# Committing a successor generation

A mounted generation stays mounted while its peer sector is erased and rewritten, until the
commit marker of the successor is complete. The exceptions are the first generation, which
has no peer to fall back to, and an erase that damages a committed record while it leaves
the marker.
-/

namespace Settings

open Nor

variable {α ε π : Type} {format : Format α} {sha256 : Sha256} {geometry : Geometry} {f g : Flash}
  {current : Generation α} {value : α}

/-- A generation is the direct successor of another. -/
def Follows (newer older : Generation α) : Prop :=
  newer.generation = older.generation + 1 ∧
    newer.predecessorGeneration = older.generation ∧ newer.predecessorDigest = older.digest

/-- What the peer of the current sector may hold. -/
def Yields (format : Format α) (sha256 : Sha256) (current : Generation α) (f : Flash)
    (sector : ℕ) : Prop :=
  sectorState format sha256 f sector = .erased ∨ sectorState format sha256 f sector = .incomplete ∨
    ∃ older, sectorState format sha256 f sector = .valid older ∧ Follows current older

/-- A valid generation whose peer yields is mounted. -/
theorem mounted_of_yields {sector : ℕ} (hsector : sector = 0 ∨ sector = 1)
    (hvalid : sectorState format sha256 f sector = .valid current)
    (hpeer : Yields format sha256 current f (1 - sector)) :
    mounted π format sha256 f = .ok current := by
  have hrange := (valid_generation hvalid).2.2.2
  have hlinked : ∀ older, Follows current older →
      (linked current older : Except (Fault π) _) = .ok current := by
    rintro older ⟨hnext, hgeneration, hdigest⟩
    unfold linked successorOrZero
    rw [if_neg]
    rw [if_pos (by omega)]
    simp [hnext, hgeneration, hdigest]
  unfold mounted
  rcases hsector with rfl | rfl
  · rw [hvalid]
    rcases hpeer with hpeer | hpeer | ⟨older, hpeer, hfollows⟩
    · rw [hpeer]
      rfl
    · rw [hpeer]
      rfl
    · rw [hpeer]
      have hlt : older.generation < current.generation := by
        have := hfollows.1
        omega
      simp only [selectGeneration]
      rw [if_pos hlt, hlinked older hfollows]
  · rw [hvalid]
    rcases hpeer with hpeer | hpeer | ⟨older, hpeer, hfollows⟩
    · rw [hpeer]
      rfl
    · rw [hpeer]
      rfl
    · rw [hpeer]
      have hlt : older.generation < current.generation := by
        have := hfollows.1
        omega
      simp only [selectGeneration]
      rw [if_neg (by omega), if_pos hlt, hlinked older hfollows]

/-- Only a direct successor is accepted beside an older generation. -/
theorem follows_of_linked {newer older settings : Generation α} (hnewer : newer.generation ≠ 0)
    (h : (linked newer older : Except (Fault π) _) = .ok settings) :
    settings = newer ∧ Follows newer older := by
  unfold linked at h
  split at h
  · cases h
  · next hbad =>
    cases h
    obtain ⟨hnext, hpair⟩ := not_or.mp hbad
    rw [not_not] at hnext hpair
    obtain ⟨hgeneration, hdigest⟩ := Prod.mk.injEq .. ▸ hpair
    refine ⟨rfl, ?_, hgeneration, hdigest⟩
    unfold successorOrZero at hnext
    split at hnext
    · exact hnext
    · exact absurd hnext hnewer

/-- What a successful mount found. -/
theorem mounted_cases (h : mounted π format sha256 f = .ok current) :
    (current = empty format ∧ f.Erased 0 4096 ∧ f.Erased 4096 4096) ∨
      ∃ sector, (sector = 0 ∨ sector = 1) ∧ current.activeSector = some sector ∧
        sectorState format sha256 f sector = .valid current ∧
        Yields format sha256 current f (1 - sector) := by
  unfold mounted at h
  cases hfirst : sectorState format sha256 f 0 with
  | erased =>
    cases hsecond : sectorState format sha256 f 1 with
    | erased =>
      left
      rw [hfirst, hsecond] at h
      cases h
      exact ⟨rfl, erased_of_sectorState hfirst, erased_of_sectorState hsecond⟩
    | valid settings =>
      right
      rw [hfirst, hsecond] at h
      cases h
      exact ⟨1, Or.inr rfl, (valid_generation hsecond).2.1, hsecond, Or.inl hfirst⟩
    | incomplete | corrupt =>
      rw [hfirst, hsecond] at h
      cases h
  | incomplete =>
    cases hsecond : sectorState format sha256 f 1 with
    | valid settings =>
      right
      rw [hfirst, hsecond] at h
      cases h
      exact ⟨1, Or.inr rfl, (valid_generation hsecond).2.1, hsecond, Or.inr (Or.inl hfirst)⟩
    | erased | incomplete | corrupt =>
      rw [hfirst, hsecond] at h
      cases h
  | valid first =>
    right
    have hvalid := valid_generation hfirst
    cases hsecond : sectorState format sha256 f 1 with
    | erased =>
      rw [hfirst, hsecond] at h
      cases h
      exact ⟨0, Or.inl rfl, hvalid.2.1, hfirst, Or.inl hsecond⟩
    | incomplete =>
      rw [hfirst, hsecond] at h
      cases h
      exact ⟨0, Or.inl rfl, hvalid.2.1, hfirst, Or.inr (Or.inl hsecond)⟩
    | valid second =>
      have hvalid' := valid_generation hsecond
      rw [hfirst, hsecond] at h
      simp only [selectGeneration] at h
      split at h
      · obtain ⟨rfl, hfollows⟩ := follows_of_linked hvalid.2.2.1 h
        exact ⟨0, Or.inl rfl, hvalid.2.1, hfirst, Or.inr (Or.inr ⟨second, hsecond, hfollows⟩)⟩
      · split at h
        · obtain ⟨rfl, hfollows⟩ := follows_of_linked hvalid'.2.2.1 h
          exact ⟨1, Or.inr rfl, hvalid'.2.1, hsecond, Or.inr (Or.inr ⟨first, hfirst, hfollows⟩)⟩
        · cases h
    | corrupt =>
      rw [hfirst, hsecond] at h
      cases h
  | corrupt =>
    rw [hfirst] at h
    cases hsecond : sectorState format sha256 f 1 <;> rw [hsecond] at h <;> cases h

/-- Erased media mounts as the empty generation. -/
theorem mounted_erased (hf : f.Erased 0 quotaBytes) :
    mounted π format sha256 f = .ok (empty format) := by
  have hfirst : sectorState format sha256 f 0 = .erased :=
    sectorState_erased (hf.mono (by omega) (by decide))
  have hsecond : sectorState format sha256 f 1 = .erased :=
    sectorState_erased (hf.mono (by omega) (by decide))
  unfold mounted
  rw [hfirst, hsecond]
  rfl

/-- A mounted generation fits its 64-bit field. -/
theorem generation_lt (h : mounted π format sha256 f = .ok current) :
    current.generation < 2 ^ 64 := by
  rcases mounted_cases h with ⟨rfl, -⟩ | ⟨sector, -, -, hvalid, -⟩
  · exact Nat.two_pow_pos 64
  · exact (valid_generation hvalid).2.2.2

/-- The sector a successor of a mounted generation is written to. -/
def target (current : Generation α) : ℕ :=
  match current.activeSector with
  | some 0 => 1
  | _ => 0

/-- Erased media is written in its first sector. -/
@[simp] theorem target_empty (format : Format α) : target (empty format) = 0 := rfl

/-- The generation that a completed commit leaves. -/
def successor (format : Format α) (sha256 : Sha256) (current : Generation α) (value : α) :
    Generation α :=
  recordGeneration format sha256 (current.generation + 1) current.generation current.digest value
    (target current)

/-- The record of the successor. -/
def successorRecord (format : Format α) (sha256 : Sha256) (current : Generation α) (value : α) :
    List Byte :=
  encodeRecord format sha256 (current.generation + 1) current.generation current.digest value

/-- The two programs of a commit. -/
def commitScript (format : Format α) (sha256 : Sha256) (current : Generation α) (value : α) :
    List Patch := [
  ⟨target current * 4096, slice (successorRecord format sha256 current value) 0 224⟩,
  ⟨target current * 4096 + 224, format.commitMarker⟩]

/-- The contents when the inactive sector has been erased. -/
def eraseTarget (current : Generation α) (f : Flash) : Flash :=
  f.erase (target current * 4096) (target current * 4096 + 4096)

/-- A successor can be linked to this generation: only the first one has the digest that
stands for no predecessor. -/
def Linkable (current : Generation α) : Prop :=
  current.generation ≠ 0 → current.digest ≠ zeroDigest

/-- The body of a successor has 224 bytes. -/
theorem length_successorBody (format : Format α) (sha256 : Sha256) (current : Generation α)
    (value : α) : (slice (successorRecord format sha256 current value) 0 224).length = 224 :=
  length_slice (by simp [successorRecord])

/-- A successor ends with the commit marker. -/
theorem slice_successorMarker (format : Format α) (sha256 : Sha256) (current : Generation α)
    (value : α) :
    slice (successorRecord format sha256 current value) 224 32 = format.commitMarker :=
  slice_encodeRecord (i := 8) rfl rfl format.length_commitMarker

/-- The target of a mounted generation is one of the two sectors. -/
theorem target_cases (current : Generation α) : target current = 0 ∨ target current = 1 := by
  unfold target
  split
  · exact Or.inr rfl
  · exact Or.inl rfl

/-- The target is the peer of the active sector. -/
theorem target_of_active {sector : ℕ} (hsector : sector = 0 ∨ sector = 1)
    (hactive : current.activeSector = some sector) : target current = 1 - sector := by
  unfold target
  rw [hactive]
  rcases hsector with rfl | rfl <;> rfl

/-- Changes to one sector do not reach the other. -/
theorem sameSector_of_outside {sector : ℕ} (hsector : sector = 0 ∨ sector = 1)
    (h : ∀ a, a < sector * 4096 ∨ sector * 4096 + 4096 ≤ a → g a = f a) :
    SameSector (1 - sector) f g := by
  intro a hstart hstop
  apply h
  rcases hsector with rfl | rfl <;> omega

/-- Contents between the erase of a sector and a completed commit leave the other sector. -/
theorem outside_of_trajectory (h : Trajectory (commitScript format sha256 current value)
    (eraseTarget current f) g) {a : ℕ}
    (ha : a < target current * 4096 ∨ target current * 4096 + 4096 ≤ a) : g a = f a := by
  have hkept : g a = eraseTarget current f a := by
    apply h.eq_of_not_covers
    intro p hp
    unfold Patch.Covers
    rcases List.mem_cons.mp hp with rfl | hp
    · simp only [length_successorBody]
      omega
    · rw [List.mem_singleton.mp hp]
      simp only [format.length_commitMarker]
      omega
  rw [hkept]
  exact Flash.erase_of_not_mem ha

/-- The target sector is erased before the first program. -/
theorem erased_eraseTarget (current : Generation α) (f : Flash) :
    (eraseTarget current f).Erased (target current * 4096) 4096 := by
  unfold eraseTarget
  exact Flash.erase_erased f _ 4096

/-- The body and the marker together are the record. -/
theorem successorRecord_eq :
    slice (successorRecord format sha256 current value) 0 224 ++ format.commitMarker =
      successorRecord format sha256 current value := by
  have hsplit := slice_add (successorRecord format sha256 current value) 0 224 32
  rw [Nat.zero_add, slice_successorMarker] at hsplit
  rw [← hsplit]
  exact slice_all (by simp [successorRecord])

/-- The bytes of a completed commit. -/
theorem read_committed (format : Format α) (sha256 : Sha256) (current : Generation α) (value : α)
    (f : Flash) :
    ((eraseTarget current f).applyAll (commitScript format sha256 current value)).read
      (target current * 4096) 256 = successorRecord format sha256 current value := by
  have hlength : (successorRecord format sha256 current value).length = 256 := by
    simp [successorRecord]
  have hone : (eraseTarget current f).applyAll (commitScript format sha256 current value) =
      (eraseTarget current f).program (target current * 4096)
        (successorRecord format sha256 current value) := by
    have h := Flash.program_program (eraseTarget current f) (target current * 4096)
      (slice (successorRecord format sha256 current value) 0 224) format.commitMarker
    rw [length_successorBody, successorRecord_eq] at h
    exact h
  have herased : (eraseTarget current f).Erased (target current * 4096)
      (successorRecord format sha256 current value).length := by
    rw [hlength]
    exact (erased_eraseTarget current f).mono (by omega) (by omega)
  have hread := Flash.read_program_erased herased
  rw [hone]
  rwa [hlength] at hread

/-- A mounted generation can be linked to exactly when only erased media has the digest that
stands for no predecessor. -/
theorem linkable_iff (hmounted : mounted π format sha256 f = .ok current)
    (hlinkable : Linkable current) : current.digest = zeroDigest ↔ current.generation = 0 := by
  constructor
  · intro hdigest
    by_contra hzero
    exact hlinkable hzero hdigest
  · intro hzero
    rcases mounted_cases hmounted with ⟨rfl, -⟩ | ⟨sector, -, -, hvalid, -⟩
    · rfl
    · exact absurd hzero (valid_generation hvalid).2.2.1

/-- The marker of the target is complete. -/
def Committed (format : Format α) (current : Generation α) (g : Flash) : Prop :=
  g.read (target current * 4096 + 224) 32 = format.commitMarker

/-- Wherever a commit stops, the target covers the marker, and holds it only when both
programs are complete. -/
theorem marker_of_trajectory
    (h : Trajectory (commitScript format sha256 current value) (eraseTarget current f) g) :
    g.Covers (target current * 4096 + 224) format.commitMarker ∧
      (Committed format current g →
        g.read (target current * 4096) 256 = successorRecord format sha256 current value) := by
  have hsplit : Trajectory ([⟨target current * 4096,
      slice (successorRecord format sha256 current value) 0 224⟩] ++
      [⟨target current * 4096 + 224, format.commitMarker⟩]) (eraseTarget current f) g := h
  have hlast := hsplit.commitLast ?_ ?_ ?_
  · refine ⟨hlast.1, fun hcommitted => ?_⟩
    rw [hlast.2.mp (by rw [format.length_commitMarker]; exact hcommitted)]
    exact read_committed format sha256 current value f
  · intro p hp
    rw [List.mem_singleton.mp hp]
    simp [length_successorBody]
  · rw [format.length_commitMarker]
    exact (erased_eraseTarget current f).mono (by omega) (by omega)
  · rw [format.length_commitMarker]
    exact format.commitMarker_ne_erased

/-- The active sector of a mounted generation keeps its state while the target changes. -/
theorem active_unchanged {sector : ℕ} (hsector : sector = 0 ∨ sector = 1)
    (hactive : current.activeSector = some sector)
    (h : ∀ a, a < target current * 4096 ∨ target current * 4096 + 4096 ≤ a → g a = f a) :
    sectorState format sha256 g sector = sectorState format sha256 f sector := by
  have htarget := target_of_active hsector hactive
  have hsame := sameSector_of_outside (target_cases current) h
  have hpeer : 1 - target current = sector := by
    rcases hsector with rfl | rfl <;> omega
  rw [hpeer] at hsame
  exact sectorState_congr hsame

/-- The peer of the target is erased when no generation is mounted. -/
theorem peer_of_empty (herased : f.Erased 4096 4096)
    (h : ∀ a, a < target (empty format) * 4096 ∨ target (empty format) * 4096 + 4096 ≤ a →
      g a = f a) : sectorState format sha256 g 1 = .erased := by
  have hpeer : 1 - target (empty format) = 1 := rfl
  have hsame := sameSector_of_outside (target_cases (empty format)) h
  rw [hpeer] at hsame
  rw [sectorState_congr hsame]
  exact sectorState_erased herased

/-- A target that holds the successor's record is mounted as the successor. -/
theorem mounted_committed (hmounted : mounted π format sha256 f = .ok current)
    (hlinkable : Linkable current) (hrange : current.generation + 1 < 2 ^ 64)
    (houtside : ∀ a, a < target current * 4096 ∨ target current * 4096 + 4096 ≤ a → g a = f a)
    (hcommitted : Committed format current g)
    (hrecord : g.read (target current * 4096) 256 = successorRecord format sha256 current value) :
    mounted π format sha256 g = .ok (successor format sha256 current value) := by
  have hvalid : sectorState format sha256 g (target current) =
      .valid (successor format sha256 current value) := by
    apply sectorState_valid hcommitted
    rw [hrecord]
    exact parseRecord_encodeRecord _ hrange (linkable_iff hmounted hlinkable)
  apply mounted_of_yields (target_cases current) hvalid
  rcases mounted_cases hmounted with ⟨rfl, -, herased⟩ | ⟨sector, hsector, hactive, hcurrent, -⟩
  · exact Or.inl (peer_of_empty herased houtside)
  · have htarget := target_of_active hsector hactive
    have hpeer : 1 - target current = sector := by
      rcases hsector with rfl | rfl <;> omega
    rw [hpeer]
    refine Or.inr (Or.inr ⟨current, ?_, rfl, rfl, rfl⟩)
    rw [active_unchanged hsector hactive houtside]
    exact hcurrent

/-- A generation stays mounted while its peer is erased or incomplete. -/
theorem mounted_unchanged (hmounted : mounted π format sha256 f = .ok current)
    (hgeneration : current.generation ≠ 0)
    (houtside : ∀ a, a < target current * 4096 ∨ target current * 4096 + 4096 ≤ a → g a = f a)
    (htarget : sectorState format sha256 g (target current) = .erased ∨
      sectorState format sha256 g (target current) = .incomplete ∨
      sectorState format sha256 g (target current) =
        sectorState format sha256 f (target current)) :
    mounted π format sha256 g = .ok current := by
  rcases mounted_cases hmounted with ⟨rfl, -⟩ | ⟨sector, hsector, hactive, hcurrent, hyields⟩
  · exact absurd rfl hgeneration
  · apply mounted_of_yields hsector
    · rw [active_unchanged hsector hactive houtside]
      exact hcurrent
    · rw [← target_of_active hsector hactive] at hyields ⊢
      unfold Yields at hyields ⊢
      rcases htarget with htarget | htarget | htarget
      · exact Or.inl htarget
      · exact Or.inr (Or.inl htarget)
      · rw [htarget]
        exact hyields

/-- A commit that stops before its marker is complete leaves the old generation mounted,
unless it was the first one and has programmed some bit. -/
theorem mounted_uncommitted (hmounted : mounted π format sha256 f = .ok current)
    (h : Trajectory (commitScript format sha256 current value) (eraseTarget current f) g)
    (hcommitted : ¬ Committed format current g)
    (hfirst : current.generation = 0 → g.Erased 0 4096) :
    mounted π format sha256 g = .ok current := by
  have houtside := fun a => outside_of_trajectory (a := a) h
  by_cases hgeneration : current.generation = 0
  · rcases mounted_cases hmounted with ⟨rfl, -, herased⟩ | ⟨sector, -, -, hvalid, -⟩
    · have hsecond : sectorState format sha256 g 1 = .erased := peer_of_empty herased houtside
      have hstate : sectorState format sha256 g 0 = .erased :=
        sectorState_erased (hfirst hgeneration)
      unfold mounted
      rw [hstate, hsecond]
      rfl
    · exact absurd hgeneration (valid_generation hvalid).2.2.1
  · apply mounted_unchanged hmounted hgeneration houtside
    by_cases herased : g.Erased (target current * 4096) 4096
    · exact Or.inl (sectorState_erased herased)
    · exact Or.inr (Or.inl
        (sectorState_uncommitted (marker_of_trajectory h).1 hcommitted herased))

/-- A first commit that stops after it has programmed some bit leaves media that does not
mount. -/
theorem mounted_torn_first (herased : f.Erased 0 8192)
    (h : Trajectory (commitScript format sha256 (empty format) value)
      (eraseTarget (empty format) f) g)
    (hcommitted : ¬ Committed format (empty format) g) (hfirst : ¬ g.Erased 0 4096) :
    mounted π format sha256 g = .error .corrupt := by
  have hsecond : sectorState format sha256 g 1 = .erased :=
    peer_of_empty (herased.mono (by omega) (by omega)) fun a => outside_of_trajectory (a := a) h
  have hstate : sectorState format sha256 g 0 = .incomplete :=
    sectorState_uncommitted (marker_of_trajectory h).1 hcommitted hfirst
  unfold mounted
  rw [hstate, hsecond]
  rfl

/-- An erase that stops leaves the old generation mounted when it has damaged the marker of
the target or changed nothing of the record. -/
theorem mounted_erasing (hmounted : mounted π format sha256 f = .ok current)
    (ht : f.Torn (eraseTarget current f) g)
    (hclean : ¬ Committed format current g ∨
      g.read (target current * 4096) 256 = f.read (target current * 4096) 256) :
    mounted π format sha256 g = .ok current := by
  have houtside : ∀ a, a < target current * 4096 ∨ target current * 4096 + 4096 ≤ a →
      g a = f a := fun a ha => ht.eq_of_eq (Flash.erase_of_not_mem ha)
  have hle : ∀ a, BitsLE (f a) (g a) := Flash.Torn.le_erase ht
  have hkeeps : ∀ {offset length}, f.Erased offset length → g.Erased offset length := by
    intro offset length h i hi
    have hi' := hle (offset + i)
    rw [h i hi] at hi'
    exact eq_erased_of_bitsLE hi'
  by_cases hgeneration : current.generation = 0
  · rcases mounted_cases hmounted with ⟨rfl, hfirst, hsecond⟩ | ⟨sector, -, -, hvalid, -⟩
    · have hstate : sectorState format sha256 g 0 = .erased :=
        sectorState_erased (hkeeps hfirst)
      have hstate' : sectorState format sha256 g 1 = .erased :=
        sectorState_erased (hkeeps hsecond)
      unfold mounted
      rw [hstate, hstate']
      rfl
    · exact absurd hgeneration (valid_generation hvalid).2.2.1
  · apply mounted_unchanged hmounted hgeneration houtside
    -- what the target held before the erase
    rcases mounted_cases hmounted with ⟨rfl, -⟩ | ⟨sector, hsector, hactive, -, hyields⟩
    · exact absurd rfl hgeneration
    rw [← target_of_active hsector hactive] at hyields
    by_cases herased : g.Erased (target current * 4096) 4096
    · exact Or.inl (sectorState_erased herased)
    have hold : f.Covers (target current * 4096 + 224) format.commitMarker := by
      rcases hyields with h | h | ⟨older, h, -⟩
      · exact absurd (hkeeps (erased_of_sectorState h)) herased
      · exact (uncommitted_of_incomplete h).1
      · intro i hi
        have hread := (valid_generation h).1
        rw [← format.length_commitMarker] at hread
        rw [Flash.byte_of_read_eq hread hi]
        exact BitsLE.refl _
    have hcovers : g.Covers (target current * 4096 + 224) format.commitMarker := hold.mono hle
    rcases hclean with hmarker | hrecord
    · exact Or.inr (Or.inl (sectorState_uncommitted hcovers hmarker herased))
    · by_cases hmarker : Committed format current g
      · have hsame : f.read (target current * 4096 + 224) 32 = format.commitMarker := by
          have hslice := congrArg (slice · 224 32) hrecord
          simp only [Flash.slice_read (show 224 + 32 ≤ 256 by decide)] at hslice
          rw [← hslice]
          exact hmarker
        right
        right
        rcases hyields with h | h | ⟨older, h, -⟩
        · exact absurd (hkeeps (erased_of_sectorState h)) herased
        · exact absurd hsame (uncommitted_of_incomplete h).2
        · rw [h]
          apply sectorState_valid hmarker
          rw [hrecord]
          exact parseRecord_of_valid h
      · exact Or.inr (Or.inl (sectorState_uncommitted hcovers hmarker herased))

end Settings
