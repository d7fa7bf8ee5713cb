import Mathlib.Data.Nat.Notation
import ReticulumFirmware.Mailbox.Writing

/-!
# Calls on the mailbox partition

The snapshots of the two sectors supersede each other, and a mount answers the newer one. Each
call is told by the order of the snapshots that it leaves and by what it answers.
-/

namespace Mailbox

open Nor
open Nor.Prog (Exec)

variable {ε : Type} {sha256 : Sha256} {binding : MailboxStoreBinding} {geometry : Geometry}
  {f g : Flash} {x y z current : MountedMailboxStore}

/-- A watermark is the other one or was superseded by it. -/
def Follows (x y : MountedMailboxStore) : Prop :=
  x = y ∨ x.generation.get < y.generation.get ∧ x.acknowledgedThrough < y.acknowledgedThrough

/-- To follow is transitive. -/
theorem Follows.trans (hxy : Follows x y) (hyz : Follows y z) : Follows x z := by
  rcases hxy with rfl | hxy
  · exact hyz
  · rcases hyz with rfl | hyz
    · exact Or.inr hxy
    · exact Or.inr ⟨hxy.1.trans hyz.1, hxy.2.trans hyz.2⟩

/-- Watermarks that follow each other are one. -/
theorem Follows.antisymm (hxy : Follows x y) (hyx : Follows y x) : x = y := by
  rcases hxy with rfl | hxy
  · rfl
  · rcases hyx with rfl | hyx
    · rfl
    · omega

/-- Both sectors are settled, and of two snapshots one follows the other. -/
structure Ordered (sha256 : Sha256) (binding : MailboxStoreBinding) (f : Flash) : Prop where
  settled : ∀ sector, Settled sha256 binding f sector
  follows : ∀ x y, Holds sha256 binding f x → Holds sha256 binding f y → Follows x y ∨ Follows y x

/-- The state of a settled sector. -/
inductive SettledState (sha256 : Sha256) (binding : MailboxStoreBinding) (f : Flash)
    (sector : MailboxStoreSector) : SectorState → Prop
  | vacant {state : SectorState} (hstate : state = .erased ∨ state = .torn)
      (hnone : ∀ x, Holds sha256 binding f x → x.activeSector ≠ sector) :
      SettledState sha256 binding f sector state
  | valid {y : MountedMailboxStore} (hholds : Holds sha256 binding f y)
      (hsector : y.activeSector = sector) :
      SettledState sha256 binding f sector (.valid y)

/-- A settled sector has a state. -/
theorem Settled.state {sector : MailboxStoreSector} (h : Settled sha256 binding f sector) :
    ∃ state, sectorState sha256 binding f sector = .ok state ∧
      SettledState sha256 binding f sector state := by
  rcases h with hreusable | ⟨y, hy, hsector⟩
  · have hnone : ∀ x, Holds sha256 binding f x → x.activeSector ≠ sector := by
      rintro x hx rfl
      exact hx.not_reusable hreusable
    rcases (reusable_iff sha256).mp hreusable with hstate | hstate
    · exact ⟨_, hstate, .vacant (Or.inl rfl) hnone⟩
    · exact ⟨_, hstate, .vacant (Or.inr rfl) hnone⟩
  · exact ⟨_, sectorState_eq_valid_iff.mpr ⟨hy, hsector⟩, .valid hy hsector⟩

/-- There are two sectors. -/
theorem MailboxStoreSector.eq_or_eq_other (sector sector' : MailboxStoreSector) :
    sector' = sector ∨ sector' = sector.other := by
  cases sector <;> cases sector' <;> simp [MailboxStoreSector.other]

/-- Of two snapshots in order, the newer one is selected. -/
theorem selectSnapshot_follows (hxy : Follows x y) (hne : x ≠ y) :
    selectSnapshot (.valid x) (.valid y) = .ok (.mounted y) ∧
      selectSnapshot (.valid y) (.valid x) = .ok (.mounted y) := by
  have hlt := hxy.resolve_left hne
  have hgeneration : x.generation ≠ y.generation := by
    intro heq
    rw [heq] at hlt
    omega
  rw [selectSnapshot, selectSnapshot, if_neg (fun h => hgeneration h.1), if_pos hlt.1,
    if_neg (fun h => hgeneration h.1.symm), if_neg (by omega)]
  exact ⟨rfl, rfl⟩

/-- A mount of ordered sectors answers the newest snapshot, or that there is none. -/
theorem Ordered.mountAnswer (h : Ordered sha256 binding f) :
    (mountAnswer sha256 binding f = .ok .unprovisioned ∧ ∀ x, ¬ Holds sha256 binding f x) ∨
      ∃ y, mountAnswer sha256 binding f = .ok (.mounted y) ∧ Holds sha256 binding f y ∧
        ∀ x, Holds sha256 binding f x → Follows x y := by
  obtain ⟨a, ha, hstateA⟩ := (h.settled .a).state
  obtain ⟨b, hb, hstateB⟩ := (h.settled .b).state
  have hanswer : Mailbox.mountAnswer sha256 binding f = selectSnapshot a b := by
    rw [Mailbox.mountAnswer, ha, hb]
    rfl
  have hcases : ∀ x : MountedMailboxStore, x.activeSector = .a ∨ x.activeSector = .b :=
    fun x => MailboxStoreSector.eq_or_eq_other .a x.activeSector
  rw [hanswer]
  rcases hstateA with ⟨hvacantA, hnoneA⟩ | ⟨hxa, hsectorA⟩
  · rcases hstateB with ⟨hvacantB, hnoneB⟩ | ⟨hxb, hsectorB⟩
    · refine Or.inl ⟨?_, fun x hx => (hcases x).elim (hnoneA x hx) (hnoneB x hx)⟩
      rcases hvacantA with rfl | rfl
      · rcases hvacantB with rfl | rfl <;> rfl
      · rcases hvacantB with rfl | rfl <;> rfl
    · refine Or.inr ⟨_, ?_, hxb, fun x hx => ?_⟩
      · rcases hvacantA with rfl | rfl <;> rfl
      · have hx' := (hcases x).resolve_left (hnoneA x hx)
        exact Or.inl (hx.unique hxb (hx'.trans hsectorB.symm))
  · rcases hstateB with ⟨hvacantB, hnoneB⟩ | ⟨hxb, hsectorB⟩
    · refine Or.inr ⟨_, ?_, hxa, fun x hx => ?_⟩
      · rcases hvacantB with rfl | rfl <;> rfl
      · have hx' := (hcases x).resolve_right (hnoneB x hx)
        exact Or.inl (hx.unique hxa (hx'.trans hsectorA.symm))
    · -- both sectors hold a snapshot
      next xa xb =>
      have hne : xa ≠ xb := by
        rintro rfl
        cases hsectorA.symm.trans hsectorB
      have heach : ∀ x, Holds sha256 binding f x → x = xa ∨ x = xb := fun x hx =>
        (hcases x).imp (fun hx' => hx.unique hxa (hx'.trans hsectorA.symm))
          fun hx' => hx.unique hxb (hx'.trans hsectorB.symm)
      right
      rcases h.follows xa xb hxa hxb with hfollows | hfollows
      · refine ⟨xb, (selectSnapshot_follows hfollows hne).1, hxb, fun x hx => ?_⟩
        rcases heach x hx with rfl | rfl
        · exact hfollows
        · exact Or.inl rfl
      · refine ⟨xa, (selectSnapshot_follows hfollows hne.symm).2, hxa, fun x hx => ?_⟩
        rcases heach x hx with rfl | rfl
        · exact Or.inl rfl
        · exact hfollows

/-- Unprovisioned is selected only where neither sector holds a snapshot. -/
theorem selectSnapshot_unprovisioned {a b : SectorState}
    (h : selectSnapshot a b = .ok .unprovisioned) :
    (a = .erased ∨ a = .torn) ∧ (b = .erased ∨ b = .torn) := by
  cases a with
  | erased | torn =>
    cases b with
    | erased | torn => simp
    | unknown | valid => simp [selectSnapshot] at h
  | unknown => cases b <;> simp [selectSnapshot] at h
  | valid x =>
    cases b with
    | erased | torn | unknown => simp [selectSnapshot] at h
    | valid y =>
      rw [selectSnapshot] at h
      split at h <;> simp at h

/-- A mount of ordered sectors answers the snapshot that follows all others. -/
theorem Ordered.mountAnswer_newest (h : Ordered sha256 binding f) (hy : Holds sha256 binding f y)
    (hnewest : ∀ x, Holds sha256 binding f x → Follows x y) :
    Mailbox.mountAnswer sha256 binding f = .ok (.mounted y) := by
  rcases h.mountAnswer with ⟨-, hnone⟩ | ⟨y', hmount, hy', hnewest'⟩
  · exact absurd hy (hnone y)
  · rw [hmount, (hnewest y' hy').antisymm (hnewest' y hy)]

/-- A partition without a snapshot has two sectors that can be reused. -/
theorem reusable_of_unprovisioned (h : mountAnswer sha256 binding f = .ok .unprovisioned) :
    ∀ sector, Reusable binding f sector := by
  unfold mountAnswer at h
  obtain ⟨a, ha, h⟩ := Except.bind_eq_ok.mp h
  obtain ⟨b, hb, h⟩ := Except.bind_eq_ok.mp h
  have hvacant := selectSnapshot_unprovisioned h
  have hreusable : ∀ {sector state}, sectorState sha256 binding f sector = .ok state →
      state = .erased ∨ state = .torn → Reusable binding f sector := by
    rintro sector state hstate (rfl | rfl)
    · exact (reusable_iff sha256).mpr (Or.inl hstate)
    · exact (reusable_iff sha256).mpr (Or.inr hstate)
  rintro (_ | _)
  · exact hreusable ha hvacant.1
  · exact hreusable hb hvacant.2

/-- Sectors that can be reused are ordered. -/
theorem ordered_of_reusable (h : ∀ sector, Reusable binding f sector) :
    Ordered sha256 binding f :=
  ⟨fun sector => Or.inl (h sector), fun x _ hx => absurd (h x.activeSector) hx.not_reusable⟩

/-- A snapshot is all that stands beside its successor. -/
theorem Holds.beside (hcurrent : Holds sha256 binding f current) (hfollows : Follows current y)
    (hsector : y.activeSector = current.activeSector.other) :
    ∀ x, Holds sha256 binding f x → x.activeSector = y.activeSector.other → Follows x y := by
  intro x hx hx'
  rw [hsector, MailboxStoreSector.other_other] at hx'
  rwa [hx.unique hcurrent hx']

/-- Beside a sector that was written over, nothing new is there. -/
theorem Holds.back {store : MountedMailboxStore}
    (hsame : SameSector f g store.activeSector.other)
    (hcase : Reusable binding g store.activeSector ∨ Holds sha256 binding g store)
    (hx : Holds sha256 binding g x) :
    x = store ∨ x.activeSector = store.activeSector.other ∧ Holds sha256 binding f x := by
  rcases MailboxStoreSector.eq_or_eq_other store.activeSector x.activeSector with hx' | hx'
  · rcases hcase with hreusable | hholds
    · exact absurd (hx' ▸ hreusable) hx.not_reusable
    · exact Or.inl (hx.unique hholds hx')
  · exact Or.inr ⟨hx', hx.congr (by rw [hx']; exact hsame.symm)⟩

/-- A write leaves no snapshots but its own and earlier ones. -/
theorem WriteOutcome.back {φ : Faults} {store : MountedMailboxStore}
    {r : Option (Except (MailboxStoreError ε) MountedMailboxStore)}
    (h : WriteOutcome φ sha256 store f g r)
    (hsettled : Settled sha256 store.binding f store.activeSector)
    (hx : Holds sha256 store.binding g x) : x = store ∨ Holds sha256 store.binding f x := by
  obtain ⟨hsame, rfl | hcase⟩ := replacing_sector hsettled h.replacing
  · exact Or.inr hx
  · exact (hx.back hsame hcase).imp id And.right

/-- A write keeps the sectors ordered when its snapshot follows that of the other sector. -/
theorem Ordered.write {φ : Faults} {r : Option (Except (MailboxStoreError ε) MountedMailboxStore)}
    (h : Ordered sha256 binding f) (hbinding : y.binding = binding)
    (hfollows : ∀ x, Holds sha256 binding f x → x.activeSector = y.activeSector.other → Follows x y)
    (hwrite : WriteOutcome φ sha256 y f g r) :
    Ordered sha256 binding g ∧ SameSector f g y.activeSector.other := by
  obtain ⟨owner, generation, acknowledged, sector⟩ := y
  obtain rfl : owner = binding := hbinding
  obtain ⟨hsame, hcase⟩ := replacing_sector (h.settled sector) hwrite.replacing
  refine ⟨?_, hsame⟩
  rcases hcase with rfl | hcase
  · exact h
  -- the written sector holds nothing but the new snapshot
  have hback : ∀ x, Holds sha256 owner g x →
      x = ⟨owner, generation, acknowledged, sector⟩ ∨
        x.activeSector = sector.other ∧ Holds sha256 owner f x :=
    fun x hx => hx.back hsame hcase
  refine ⟨fun sector' => ?_, fun x y hx hy => ?_⟩
  · rcases MailboxStoreSector.eq_or_eq_other sector sector' with rfl | rfl
    · exact hcase.imp id fun hholds => ⟨_, hholds, rfl⟩
    · rcases h.settled sector.other with hreusable | ⟨x, hx, hx'⟩
      · exact Or.inl (hreusable.congr hsame)
      · exact Or.inr ⟨x, hx.congr (by rw [hx']; exact hsame), hx'⟩
  · rcases hback x hx with rfl | ⟨hsectorX, hx⟩
    · rcases hback y hy with rfl | ⟨hsectorY, hy⟩
      · exact Or.inl (Or.inl rfl)
      · exact Or.inr (hfollows y hy hsectorY)
    · rcases hback y hy with rfl | ⟨hsectorY, hy⟩
      · exact Or.inl (hfollows x hx hsectorX)
      · exact h.follows x y hx hy

section Calls

variable {φ : Faults} {tr : List Mutation} {cursor : MailboxStoreCursor}

/-- A writable view of the binding passes the check. -/
theorem validateWriteAccess_of (hread : validReadAccess binding geometry = true)
    (hwrite : validWriteAccess geometry = true) :
    (validateWriteAccess binding geometry : MailboxAction ε Unit) = pure () := by
  simp [validateWriteAccess, validateReadAccess, Action.ensure, hread, hwrite]

/-- Any other view is refused for its binding. -/
theorem validateWriteAccess_refused
    (h : ¬ (validReadAccess binding geometry = true ∧ validWriteAccess geometry = true)) :
    (validateWriteAccess binding geometry : MailboxAction ε Unit) =
      throw (.fault .invalidBinding) := by
  unfold validateWriteAccess validateReadAccess Action.ensure
  split
  · next hread => rw [if_neg fun hwrite => h ⟨hread, hwrite⟩, pure_bind]
  · rfl

/-- The watermark that a mount answered, if any. -/
def mountedOf :
    Option (Except (MailboxStoreError ε) MailboxStoreMount) → Option MountedMailboxStore
  | some (.ok (.mounted store)) => some store
  | _ => none

/-- The watermark that a mutation answered, if any. -/
def answerOf :
    Option (Except (MailboxStoreError ε) MountedMailboxStore) → Option MountedMailboxStore
  | some (.ok store) => some store
  | _ => none

/-- What an owner keeps after an acknowledgement: the answer, or the watermark it had unless
power was lost. -/
def keptAfter (current : MountedMailboxStore) :
    Option (Except (MailboxStoreError ε) MountedMailboxStore) → Option MountedMailboxStore
  | some (.ok store) => some store
  | some (.error _) => some current
  | none => none

/-- An execution of a mount changes nothing and answers for the contents, or fails. -/
theorem exec_mount {r : Option (Except (MailboxStoreError ε) MailboxStoreMount)}
    (hx : Exec φ (mount sha256 binding geometry : MailboxAction ε _).run f tr r g) :
    g = f ∧ ∀ y, mountedOf r = some y → mountAnswer sha256 binding f = .ok (.mounted y) := by
  obtain ⟨hflash, -, hanswer⟩ := query_mount.exec_answer hx
  refine ⟨hflash, fun y hy => ?_⟩
  have hr : r = some (.ok (.mounted y)) := by
    unfold mountedOf at hy
    split at hy
    · cases hy
      rfl
    · cases hy
  have hmount := hanswer _ hr
  by_cases haccess : validReadAccess binding geometry = true
  · rw [Action.answer, eval_mount haccess] at hmount
    exact Except.mapError_eq_ok.mp hmount
  · rw [mount, validateReadAccess, Action.answer_ensure_bind, if_neg haccess] at hmount
    cases hmount

/-- What an execution of an acknowledgement does. -/
inductive AcknowledgeOutcome (φ : Faults) (sha256 : Sha256) (binding : MailboxStoreBinding)
    (current : MountedMailboxStore) (cursor : MailboxStoreCursor) (f : Flash) :
    Option (Except (MailboxStoreError ε) MountedMailboxStore) → Flash → Prop
  | kept {r : Option (Except (MailboxStoreError ε) MountedMailboxStore)}
      (h : ∀ result, r = some (.ok result) →
        result = current ∧ cursor.handle.get ≤ current.acknowledgedThrough) :
      AcknowledgeOutcome φ sha256 binding current cursor f r f
  | wrote {r : Option (Except (MailboxStoreError ε) MountedMailboxStore)} {g : Flash}
      (generation : NonZeroU64)
      (hgeneration : generation.get = current.generation.get + 1)
      (hcursor : current.acknowledgedThrough < cursor.handle.get)
      (hwrite : WriteOutcome φ sha256
        (written binding current.activeSector.other generation (some cursor)) f g r) :
      AcknowledgeOutcome φ sha256 binding current cursor f r g

/-- An acknowledgement has one of its outcomes, wherever it is cut. -/
theorem exec_acknowledge {r : Option (Except (MailboxStoreError ε) MountedMailboxStore)}
    (hx : Exec φ (acknowledgeThrough sha256 binding geometry current cursor :
      MailboxAction ε _).run f tr r g) (hclean : ∀ m ∈ tr, CleanErase m) :
    AcknowledgeOutcome φ sha256 binding current cursor f r g := by
  have hkept : ∀ {x : MailboxAction ε MountedMailboxStore} {tr r g}, Query .backend x.run →
      (∀ result, x.answer f = .ok result →
        result = current ∧ cursor.handle.get ≤ current.acknowledgedThrough) →
      Exec φ x.run f tr r g → AcknowledgeOutcome φ sha256 binding current cursor f r g := by
    intro x tr r g hquery hanswer hx
    obtain ⟨rfl, -, hr⟩ := hquery.exec_answer hx
    exact .kept fun result hresult => hanswer result (hr result hresult)
  have hthrow : ∀ {e : MailboxStoreError ε} {tr r g},
      Exec φ (throw e : MailboxAction ε MountedMailboxStore).run f tr r g →
      AcknowledgeOutcome φ sha256 binding current cursor f r g :=
    fun hx => hkept (.throwAction ..) (fun _ h => by cases h) hx
  have hpure : ∀ {tr r g}, cursor.handle.get ≤ current.acknowledgedThrough →
      Exec φ (pure current : MailboxAction ε _).run f tr r g →
      AcknowledgeOutcome φ sha256 binding current cursor f r g :=
    fun hle hx => hkept (.pureAction ..) (fun _ h => by cases h; exact ⟨rfl, hle⟩) hx
  by_cases haccess : validReadAccess binding geometry = true ∧ validWriteAccess geometry = true
  · rw [acknowledgeThrough, validateWriteAccess_of haccess.1 haccess.2, pure_bind] at hx
    split at hx
    · exact hthrow hx
    next hbinding =>
    split at hx
    · next hlower => exact hpure hlower.le hx
    next hlower =>
    split at hx
    · next heq =>
      split at hx
      · exact hpure heq.le hx
      · exact hthrow hx
    next hne =>
    unfold writeSuccessor at hx
    split at hx
    · exact hthrow hx
    · next generation hgeneration =>
      rw [← not_not.mp hbinding] at hx
      exact .wrote generation (NonZeroU64.get_of_new hgeneration) (by omega) (exec_write hx hclean)
  · rw [acknowledgeThrough, validateWriteAccess_refused haccess] at hx
    exact hthrow hx

/-- An execution of a provisioning changes nothing and answers nothing, or writes the first
snapshot of a partition without one. -/
theorem exec_provision {r : Option (Except (MailboxStoreError ε) MountedMailboxStore)}
    (hx : Exec φ (provision sha256 binding geometry : MailboxAction ε _).run f tr r g)
    (hclean : ∀ m ∈ tr, CleanErase m) :
    (g = f ∧ answerOf r = none) ∨ (mountAnswer sha256 binding f = .ok .unprovisioned ∧
      WriteOutcome φ sha256 (written binding .a firstGeneration none) f g r) := by
  have hnone : ∀ {r : Option (Except (MailboxStoreError ε) MountedMailboxStore)},
      (∀ store, r ≠ some (.ok store)) → answerOf r = none := by
    intro r hr
    unfold answerOf
    split
    · next store => exact absurd rfl (hr store)
    · rfl
  have hthrow : ∀ {e : MailboxStoreError ε} {tr r g},
      Exec φ (throw e : MailboxAction ε MountedMailboxStore).run f tr r g →
      g = f ∧ answerOf r = none := by
    intro e tr r g hx
    obtain ⟨rfl, -, hr⟩ := (Query.throwAction .backend e).exec_answer hx
    exact ⟨rfl, hnone fun store hstore => by cases hr store hstore⟩
  by_cases haccess : validReadAccess binding geometry = true ∧ validWriteAccess geometry = true
  · rw [provision, validateWriteAccess_of haccess.1 haccess.2, pure_bind] at hx
    rcases query_mount.exec_bind hx with ⟨result, hmount, hx⟩ | ⟨rfl, -, hr⟩
    · rw [Action.answer, eval_mount haccess.1] at hmount
      cases result with
      | mounted store => exact Or.inl (hthrow hx)
      | unprovisioned =>
        exact Or.inr ⟨Except.mapError_eq_ok.mp hmount, exec_write hx hclean⟩
    · exact Or.inl ⟨rfl, hnone hr⟩
  · rw [provision, validateWriteAccess_refused haccess] at hx
    exact Or.inl (hthrow hx)

end Calls

end Mailbox
