import Mathlib.Data.List.Pairwise
import ReticulumFirmware.Mailbox.Calls

/-!
# Runs of the mailbox watermark

A run is any sequence of mounts, provisionings, acknowledgements and restarts on one partition.
Every read, program and erase may fail and power may be lost anywhere; an interrupted erase is
only asked to be clean. Whatever was answered once is never taken back: the answers advance, and
every later mount answers at least the last of them.
-/

namespace Mailbox

open Nor
open Nor.Prog (Exec)

/-- A partition, the watermark that its owner keeps, and the watermarks answered so far. -/
structure MailboxSystem where
  flash : Flash
  store : Option MountedMailboxStore
  answered : List MountedMailboxStore

section Steps

variable (ε : Type) (sha256 : Sha256) (binding : MailboxStoreBinding) (geometry : Geometry)

/-- One operation of the owner, or a restart. -/
inductive MailboxStep : MailboxSystem → MailboxSystem → Prop
  | mount {s tr r g}
      (hx : Exec Faults.all (mount sha256 binding geometry : MailboxAction ε _).run
        s.flash tr r g) :
      MailboxStep s ⟨g, mountedOf r, s.answered ++ (mountedOf r).toList⟩
  | provision {s tr r g}
      (hx : Exec Faults.all (provision sha256 binding geometry : MailboxAction ε _).run
        s.flash tr r g) (hclean : ∀ m ∈ tr, CleanErase m) :
      MailboxStep s ⟨g, answerOf r, s.answered ++ (answerOf r).toList⟩
  | acknowledge {s current cursor tr r g} (hstore : s.store = some current)
      (hx : Exec Faults.all (acknowledgeThrough sha256 binding geometry current cursor :
        MailboxAction ε _).run s.flash tr r g) (hclean : ∀ m ∈ tr, CleanErase m) :
      MailboxStep s ⟨g, keptAfter current r, s.answered ++ (answerOf r).toList⟩
  | restart {s} : MailboxStep s { s with store := none }

/-- The states of a partition that held no snapshot. -/
inductive MailboxReachable : MailboxSystem → Prop
  | start {f} (h : mountAnswer sha256 binding f = .ok .unprovisioned) :
      MailboxReachable ⟨f, none, []⟩
  | step {s s'} (h : MailboxReachable s) (hstep : MailboxStep ε sha256 binding geometry s s') :
      MailboxReachable s'

end Steps

variable {ε : Type} {sha256 : Sha256} {binding : MailboxStoreBinding} {geometry : Geometry}
  {f g : Flash} {s s' : MailboxSystem} {x y current : MountedMailboxStore}

/-- What holds of every reachable state: the sectors are ordered, the kept watermark is on the
flash and every answer precedes it, and in any case every answer precedes a snapshot. -/
structure MailboxInvariant (sha256 : Sha256) (binding : MailboxStoreBinding) (s : MailboxSystem) :
    Prop where
  ordered : Ordered sha256 binding s.flash
  store : ∀ current, s.store = some current → Holds sha256 binding s.flash current ∧
    ∀ x ∈ s.answered, Follows x current
  answered : ∀ x ∈ s.answered, ∃ y, Holds sha256 binding s.flash y ∧ Follows x y
  history : s.answered.Pairwise Follows

/-- An answer that follows all earlier ones extends the history. -/
theorem pairwise_answer {answered : List MountedMailboxStore} {answer : Option MountedMailboxStore}
    (h : answered.Pairwise Follows) (hanswer : ∀ y, answer = some y → ∀ x ∈ answered, Follows x y) :
    (answered ++ answer.toList).Pairwise Follows := by
  cases answer with
  | none => simpa using h
  | some y =>
    rw [Option.toList_some, List.pairwise_append]
    refine ⟨h, List.pairwise_singleton _ _, fun x hx y' hy => ?_⟩
    rw [List.mem_singleton.mp hy]
    exact hanswer y rfl x hx

/-- The state after a call that answers a snapshot of the flash, or nothing. -/
theorem MailboxInvariant.answer (hordered : Ordered sha256 binding g)
    (hkept : ∀ x ∈ s.answered, ∃ y, Holds sha256 binding g y ∧ Follows x y)
    (h : MailboxInvariant sha256 binding s) {answer store : Option MountedMailboxStore}
    (hanswer : ∀ y, answer = some y → Holds sha256 binding g y ∧ ∀ x ∈ s.answered, Follows x y)
    (hstore : ∀ current, store = some current → Holds sha256 binding g current ∧
      (∀ x ∈ s.answered, Follows x current) ∧ ∀ y, answer = some y → y = current) :
    MailboxInvariant sha256 binding ⟨g, store, s.answered ++ answer.toList⟩ where
  ordered := hordered
  store := by
    rintro current hcurrent
    obtain ⟨hholds, hfollows, hsame⟩ := hstore current hcurrent
    refine ⟨hholds, fun x hx => ?_⟩
    rcases List.mem_append.mp hx with hx | hx
    · exact hfollows x hx
    · exact Or.inl (hsame x (Option.mem_toList.mp hx))
  answered := by
    intro x hx
    rcases List.mem_append.mp hx with hx | hx
    · exact hkept x hx
    · exact ⟨x, (hanswer x (Option.mem_toList.mp hx)).1, Or.inl rfl⟩
  history := pairwise_answer h.history fun y hy => (hanswer y hy).2

/-- A mount keeps the invariant. -/
theorem MailboxInvariant.mount (h : MailboxInvariant sha256 binding s) {tr : List Mutation}
    {r : Option (Except (MailboxStoreError ε) MailboxStoreMount)}
    (hx : Exec Faults.all (mount sha256 binding geometry : MailboxAction ε _).run s.flash tr r g) :
    MailboxInvariant sha256 binding ⟨g, mountedOf r, s.answered ++ (mountedOf r).toList⟩ := by
  obtain ⟨rfl, hanswer⟩ := exec_mount hx
  have hnewest : ∀ y, mountedOf r = some y →
      Holds sha256 binding s.flash y ∧ ∀ x ∈ s.answered, Follows x y := by
    intro y hy
    rcases h.ordered.mountAnswer with ⟨hmount, -⟩ | ⟨y', hmount, hholds, hnewest⟩
    · rw [hanswer y hy] at hmount
      cases hmount
    · rw [hanswer y hy] at hmount
      cases hmount
      refine ⟨hholds, fun x hx => ?_⟩
      obtain ⟨z, hz, hfollows⟩ := h.answered x hx
      exact hfollows.trans (hnewest z hz)
  refine h.answer h.ordered h.answered hnewest fun current hcurrent => ?_
  obtain ⟨hholds, hfollows⟩ := hnewest current hcurrent
  exact ⟨hholds, hfollows, fun y hy => Option.some.inj (hy.symm.trans hcurrent)⟩

/-- A watermark is answered exactly by a success. -/
theorem answerOf_eq_some {r : Option (Except (MailboxStoreError ε) MountedMailboxStore)} :
    answerOf r = some y ↔ r = some (.ok y) := by
  rcases r with _ | _ | _ <;> simp [answerOf]

/-- A provisioning keeps the invariant. -/
theorem MailboxInvariant.provision (h : MailboxInvariant sha256 binding s) {tr : List Mutation}
    {r : Option (Except (MailboxStoreError ε) MountedMailboxStore)}
    (hx : Exec Faults.all (provision sha256 binding geometry : MailboxAction ε _).run
      s.flash tr r g) (hclean : ∀ m ∈ tr, CleanErase m) :
    MailboxInvariant sha256 binding ⟨g, answerOf r, s.answered ++ (answerOf r).toList⟩ := by
  rcases exec_provision hx hclean with ⟨rfl, hr⟩ | ⟨hmount, hwrite⟩
  · rw [hr]
    exact h.answer h.ordered h.answered (fun y hy => by cases hy) fun current hcurrent => by
      cases hcurrent
  · have hreusable := reusable_of_unprovisioned hmount
    have hempty : ∀ x, x ∉ s.answered := by
      intro x hx
      obtain ⟨y, hy, -⟩ := h.answered x hx
      exact hy.not_reusable (hreusable _)
    obtain ⟨hordered, -⟩ := h.ordered.write rfl
      (fun x hx _ => absurd (hreusable x.activeSector) hx.not_reusable) hwrite
    refine h.answer hordered (fun x hx => absurd hx (hempty x)) (fun y hy => ?_) fun y hy => ?_
    · obtain ⟨rfl, hholds⟩ := hwrite.ok y (answerOf_eq_some.mp hy)
      exact ⟨hholds, fun x hx => absurd hx (hempty x)⟩
    · obtain ⟨rfl, hholds⟩ := hwrite.ok y (answerOf_eq_some.mp hy)
      exact ⟨hholds, fun x hx => absurd hx (hempty x), fun y' hy' =>
        Option.some.inj (hy'.symm.trans hy)⟩

/-- After a call the watermark is the answered one, or without an answer the current one. -/
theorem keptAfter_eq_some {r : Option (Except (MailboxStoreError ε) MountedMailboxStore)}
    (h : keptAfter current r = some y) : answerOf r = some y ∨ answerOf r = none ∧ y = current := by
  rcases r with _ | _ | _
  · cases h
  · exact Or.inr ⟨rfl, (Option.some.inj h).symm⟩
  · exact Or.inl h

/-- An acknowledgement keeps the invariant. -/
theorem MailboxInvariant.acknowledge (h : MailboxInvariant sha256 binding s) {tr : List Mutation}
    {cursor : MailboxStoreCursor} {r : Option (Except (MailboxStoreError ε) MountedMailboxStore)}
    (hstore : s.store = some current)
    (hx : Exec Faults.all (acknowledgeThrough sha256 binding geometry current cursor :
      MailboxAction ε _).run s.flash tr r g) (hclean : ∀ m ∈ tr, CleanErase m) :
    MailboxInvariant sha256 binding
      ⟨g, keptAfter current r, s.answered ++ (answerOf r).toList⟩ := by
  obtain ⟨hcurrent, hanswered⟩ := h.store current hstore
  -- what is kept is the answer, or still the watermark from before
  have hkept : Ordered sha256 binding g → Holds sha256 binding g current →
      (∀ y, answerOf r = some y → Holds sha256 binding g y ∧ Follows current y) →
      MailboxInvariant sha256 binding
        ⟨g, keptAfter current r, s.answered ++ (answerOf r).toList⟩ := by
    intro hordered hholds hanswer
    have hfollows : ∀ y, answerOf r = some y →
        Holds sha256 binding g y ∧ ∀ x ∈ s.answered, Follows x y := fun y hy =>
      ⟨(hanswer y hy).1, fun x hx => (hanswered x hx).trans (hanswer y hy).2⟩
    refine h.answer hordered (fun x hx => ⟨current, hholds, hanswered x hx⟩) hfollows ?_
    intro y hy
    rcases keptAfter_eq_some hy with hy | ⟨hnone, rfl⟩
    · exact ⟨(hfollows y hy).1, (hfollows y hy).2, fun y' hy' =>
        Option.some.inj (hy'.symm.trans hy)⟩
    · exact ⟨hholds, hanswered, fun y' hy' => by rw [hnone] at hy'; cases hy'⟩
  cases exec_acknowledge hx hclean with
  | kept hsame =>
    refine hkept h.ordered hcurrent fun y hy => ?_
    rw [(hsame y (answerOf_eq_some.mp hy)).1]
    exact ⟨hcurrent, Or.inl rfl⟩
  | wrote generation hgeneration hcursor hwrite =>
    have hsuccessor : Follows current
        (written binding current.activeSector.other generation (some cursor)) :=
      Or.inr ⟨by dsimp only; omega, hcursor⟩
    obtain ⟨hordered, hsame⟩ := h.ordered.write rfl (hcurrent.beside hsuccessor rfl) hwrite
    rw [MailboxStoreSector.other_other] at hsame
    refine hkept hordered (hcurrent.congr hsame) fun y hy => ?_
    obtain ⟨rfl, hholds⟩ := hwrite.ok y (answerOf_eq_some.mp hy)
    exact ⟨hholds, hsuccessor⟩

/-- Every reachable state satisfies the invariant. -/
theorem MailboxReachable.invariant (h : MailboxReachable ε sha256 binding geometry s) :
    MailboxInvariant sha256 binding s := by
  induction h with
  | start hmount =>
    exact ⟨ordered_of_reusable (reusable_of_unprovisioned hmount), by simp, by simp, .nil⟩
  | step _ hstep ih =>
    cases hstep with
    | mount hx => exact ih.mount hx
    | provision hx hclean => exact ih.provision hx hclean
    | acknowledge hstore hx hclean => exact ih.acknowledge hstore hx hclean
    | restart => exact ⟨ih.ordered, by simp, ih.answered, ih.history⟩

/-- The answers of a run advance, and a mount of any state it reaches answers a watermark that
follows all of them, or finds no snapshot when nothing was answered. -/
theorem watermarks_durable (haccess : validReadAccess binding geometry = true)
    (h : MailboxReachable ε sha256 binding geometry s) :
    s.answered.Pairwise Follows ∧
      ∃ result, (mount sha256 binding geometry : MailboxAction ε _).answer s.flash = .ok result ∧
        ∀ x ∈ s.answered, ∃ y, result = .mounted y ∧ Follows x y := by
  have hinv := h.invariant
  have hanswer : ∀ {result}, mountAnswer sha256 binding s.flash = .ok result →
      (mount sha256 binding geometry : MailboxAction ε _).answer s.flash = .ok result := by
    intro result hresult
    rw [Action.answer, eval_mount haccess, hresult]
    rfl
  refine ⟨hinv.history, ?_⟩
  rcases hinv.ordered.mountAnswer with ⟨hmount, hnone⟩ | ⟨y, hmount, -, hnewest⟩
  · refine ⟨_, hanswer hmount, fun x hx => ?_⟩
    obtain ⟨z, hz, -⟩ := hinv.answered x hx
    exact absurd hz (hnone z)
  · refine ⟨_, hanswer hmount, fun x hx => ⟨y, rfl, ?_⟩⟩
    obtain ⟨z, hz, hfollows⟩ := hinv.answered x hx
    exact hfollows.trans (hnewest z hz)

section Acknowledging

variable {cursor : MailboxStoreCursor} {generation : NonZeroU64} {φ : Faults}

/-- The snapshot that an acknowledgement commits. -/
abbrev successor (current : MountedMailboxStore) (generation : NonZeroU64)
    (cursor : MailboxStoreCursor) : MountedMailboxStore :=
  written current.binding current.activeSector.other generation (some cursor)

/-- An acknowledgement above the watermark writes the successor. -/
theorem acknowledgeThrough_advances (hread : validReadAccess current.binding geometry = true)
    (hwrite : validWriteAccess geometry = true)
    (hcursor : current.acknowledgedThrough < cursor.handle.get)
    (hgeneration : generation.get = current.generation.get + 1) :
    (acknowledgeThrough sha256 current.binding geometry current cursor : MailboxAction ε _) =
      ensureErased current.activeSector.other >>= fun _ => writeSnapshot sha256 current.binding
        current.activeSector.other generation (some cursor) := by
  have hnew : NonZeroU64.new (current.generation.get + 1) = some generation := by
    rw [← hgeneration, NonZeroU64.new_get]
  rw [acknowledgeThrough, validateWriteAccess_of hread hwrite, pure_bind, if_neg (not_not.mpr rfl),
    if_neg hcursor.not_gt, if_neg hcursor.ne', writeSuccessor, hnew]

/-- A write without faults answers its snapshot and makes clean erases only. -/
theorem exec_write_none (ε : Type) (sha256 : Sha256) (binding : MailboxStoreBinding)
    (sector : MailboxStoreSector) (generation : NonZeroU64)
    (acknowledged : Option MailboxStoreCursor) (f : Flash) :
    ∃ tr g, Exec Faults.none (ensureErased sector >>= fun _ =>
        writeSnapshot sha256 binding sector generation acknowledged : MailboxAction ε _).run f tr
        (some (.ok (written binding sector generation acknowledged))) g ∧
      ∀ m ∈ tr, CleanErase m := by
  obtain ⟨tr, hx⟩ := Prog.exec_run Faults.none (ensureErased sector >>= fun _ =>
    writeSnapshot sha256 binding sector generation acknowledged : MailboxAction ε _).run f
  obtain ⟨hsteps, hr⟩ := wp_write _ _ _ hx
  have hclean : ∀ m ∈ tr, CleanErase m := by
    intro m hm hkind hmarker
    rcases hsteps m hm with ⟨-, hstart, hstop, hbefore, -⟩ | ⟨hprogram, -⟩
    · have herased : m.after.Erased sector.offset 4096 := by
        rw [hx.erase_complete rfl rfl m hm hkind, hstart, hstop]
        exact Flash.erase_erased _ sector.offset 4096
      rw [hstart, (herased.mono (by omega) (by omega) : m.after.Erased _ 32).read_eq] at hmarker
      exact absurd hmarker erased_ne_commitMarker
    · rw [hkind] at hprogram
      cases hprogram
  generalize (Prog.run (ensureErased sector >>= fun _ =>
    writeSnapshot sha256 binding sector generation acknowledged : MailboxAction ε _).run f).1 = r
    at hx hr
  cases r with
  | ok store =>
    obtain ⟨rfl, -⟩ := hr
    exact ⟨tr, _, hx, hclean⟩
  | error e => simp [Faults.Reporting, Faults.none] at hr

/-- An acknowledgement above the watermark commits its successor without faults, and wherever it
is stopped or fails, a mount finds what it found before, the watermark or the successor; an
answer is what a mount finds. -/
theorem acknowledge_atomic (hread : validReadAccess binding geometry = true)
    (hwrite : validWriteAccess geometry = true)
    (h : MailboxReachable ε sha256 binding geometry s) (hstore : s.store = some current)
    (hcursor : current.acknowledgedThrough < cursor.handle.get)
    (hgeneration : generation.get = current.generation.get + 1) :
    ((acknowledgeThrough sha256 binding geometry current cursor : MailboxAction ε _).answer
        s.flash = .ok (successor current generation cursor)) ∧
      ∀ tr r g, Exec Faults.all (acknowledgeThrough sha256 binding geometry current cursor :
          MailboxAction ε _).run s.flash tr r g → (∀ m ∈ tr, CleanErase m) →
        (g = s.flash ∨ mountAnswer sha256 binding g = .ok (.mounted current) ∨
          mountAnswer sha256 binding g = .ok (.mounted (successor current generation cursor))) ∧
        ∀ store, r = some (.ok store) → store = successor current generation cursor ∧
          mountAnswer sha256 binding g = .ok (.mounted store) := by
  have hinv := h.invariant
  obtain ⟨hcurrent, -⟩ := hinv.store current hstore
  obtain rfl := hcurrent.binding
  rw [acknowledgeThrough_advances hread hwrite hcursor hgeneration]
  constructor
  · obtain ⟨tr, g, hx, -⟩ := exec_write_none ε sha256 current.binding
      current.activeSector.other generation (some cursor) s.flash
    exact (Option.some.inj hx.eq_run.1).symm
  · intro tr r g hx hclean
    have houtcome := exec_write hx hclean
    have hsuccessor : Follows current (successor current generation cursor) :=
      Or.inr ⟨by dsimp only; omega, hcursor⟩
    obtain ⟨hordered, hsame⟩ := hinv.ordered.write (y := successor current generation cursor) rfl
      (hcurrent.beside hsuccessor rfl) houtcome
    obtain ⟨-, hcase⟩ := replacing_sector (hinv.ordered.settled _) houtcome.replacing
    rw [MailboxStoreSector.other_other] at hsame
    have hkept := hcurrent.congr hsame
    -- the successor, once it is there, is the newest snapshot
    have hnewest : Holds sha256 current.binding g (successor current generation cursor) →
        mountAnswer sha256 current.binding g =
          .ok (.mounted (successor current generation cursor)) := by
      intro hholds
      refine hordered.mountAnswer_newest hholds fun x hx => ?_
      rcases MailboxStoreSector.eq_or_eq_other current.activeSector x.activeSector with hx' | hx'
      · rwa [hx.unique hkept hx']
      · exact Or.inl (hx.unique hholds hx')
    refine ⟨?_, fun store hstore => ?_⟩
    · rcases hcase with rfl | hreusable | hholds
      · exact Or.inl rfl
      · refine Or.inr (Or.inl (hordered.mountAnswer_newest hkept fun x hx => ?_))
        rcases MailboxStoreSector.eq_or_eq_other current.activeSector x.activeSector with hx' | hx'
        · exact Or.inl (hx.unique hkept hx')
        · exact absurd (hx' ▸ hreusable) hx.not_reusable
      · exact Or.inr (Or.inr (hnewest hholds))
    · obtain ⟨rfl, hholds⟩ := houtcome.ok store hstore
      exact ⟨rfl, hnewest hholds⟩

/-- A provisioning without faults answers the first watermark. -/
theorem exec_provision_none (ε : Type) (hread : validReadAccess binding geometry = true)
    (hwrite : validWriteAccess geometry = true)
    (hmount : mountAnswer sha256 binding f = .ok .unprovisioned) :
    ∃ tr g, Exec Faults.none (provision sha256 binding geometry : MailboxAction ε _).run f tr
        (some (.ok (written binding .a firstGeneration none))) g ∧ ∀ m ∈ tr, CleanErase m := by
  obtain ⟨tr, g, hx, hclean⟩ := exec_write_none ε sha256 binding .a firstGeneration none f
  have hmounted : Exec Faults.none (mount sha256 binding geometry : MailboxAction ε _).run f
      [] (some (.ok .unprovisioned)) f :=
    query_mount.exec_eval _ (by rw [eval_mount hread, hmount]; rfl)
  refine ⟨[] ++ tr, g, ?_, hclean⟩
  rw [provision, validateWriteAccess_of hread hwrite, pure_bind]
  exact hmounted.action_bind hx

/-- An acknowledgement above the watermark answers its successor without faults. -/
theorem exec_acknowledge_none (ε : Type) (hread : validReadAccess current.binding geometry = true)
    (hwrite : validWriteAccess geometry = true)
    (hcursor : current.acknowledgedThrough < cursor.handle.get)
    (hgeneration : generation.get = current.generation.get + 1) :
    ∃ tr g, Exec Faults.none (acknowledgeThrough sha256 current.binding geometry current cursor :
        MailboxAction ε _).run f tr (some (.ok (successor current generation cursor))) g ∧
      ∀ m ∈ tr, CleanErase m := by
  rw [acknowledgeThrough_advances hread hwrite hcursor hgeneration]
  exact exec_write_none ε sha256 current.binding current.activeSector.other generation
    (some cursor) f

/-- A write of the owner that answers extends the run. -/
theorem MailboxReachable.provisioned (h : MailboxReachable ε sha256 binding geometry s)
    (hread : validReadAccess binding geometry = true) (hwrite : validWriteAccess geometry = true)
    (hmount : mountAnswer sha256 binding s.flash = .ok .unprovisioned) :
    ∃ s', MailboxReachable ε sha256 binding geometry s' ∧
      s'.store = some (written binding .a firstGeneration none) ∧
      s'.answered = s.answered ++ [written binding .a firstGeneration none] := by
  obtain ⟨tr, g, hx, hclean⟩ := exec_provision_none ε hread hwrite hmount
  exact ⟨_, .step h (.provision hx.all hclean), rfl, rfl⟩

/-- In every reachable state an acknowledgement is followed by its watermark. -/
theorem MailboxReachable.acknowledged (h : MailboxReachable ε sha256 binding geometry s)
    (hread : validReadAccess binding geometry = true) (hwrite : validWriteAccess geometry = true)
    (hstore : s.store = some current) (hcursor : current.acknowledgedThrough < cursor.handle.get)
    (hgeneration : generation.get = current.generation.get + 1) :
    ∃ s', MailboxReachable ε sha256 binding geometry s' ∧
      s'.store = some (successor current generation cursor) ∧
      s'.answered = s.answered ++ [successor current generation cursor] := by
  obtain rfl := (h.invariant.store current hstore).1.binding
  obtain ⟨tr, g, hx, hclean⟩ := exec_acknowledge_none ε hread hwrite hcursor hgeneration
  exact ⟨_, .step h (.acknowledge hstore hx.all hclean), rfl, rfl⟩

end Acknowledging

section Sample

/-- A partition of the product's flash. -/
def sampleGeometry : Geometry := ⟨8192, 4, 4, 4096⟩

/-- A partition of the product's flash, as a binding. -/
def sampleBinding : MailboxStoreBinding := ⟨Vector.replicate 16 0x21, 4096, 8192, 2⟩

/-- The cursor of the first message. -/
def sampleCursor : MailboxStoreCursor :=
  ⟨firstGeneration, Vector.replicate 32 0x11, Vector.replicate 32 0x22⟩

/-- The handle after the first one. -/
def secondGeneration : NonZeroU64 := ⟨2, by decide, by decide⟩

/-- An erased partition is unprovisioned. -/
theorem mountAnswer_erased : mountAnswer sha256 binding Flash.erased = .ok .unprovisioned := by
  have hreusable : ∀ sector, Reusable binding Flash.erased sector := fun sector =>
    reusable_of_erased (fun _ _ => rfl) fun _ _ => rfl
  rcases (ordered_of_reusable hreusable : Ordered sha256 binding _).mountAnswer with
    ⟨hmount, -⟩ | ⟨y, -, hy, -⟩
  · exact hmount
  · exact absurd (hreusable _) hy.not_reusable

/-- A digest for concrete runs. -/
def sampleDigest : Sha256 := fun bytes => copyArray 32 (bytes.drop 53)

/-- The watermark of a new partition. -/
def sampleFirst : MountedMailboxStore := written sampleBinding .a firstGeneration none

/-- A partition is provisioned. -/
theorem provisioned_sample :
    ∃ s, MailboxReachable Unit sampleDigest sampleBinding sampleGeometry s ∧
      s.store = some sampleFirst ∧ s.answered = [sampleFirst] :=
  (MailboxReachable.start mountAnswer_erased).provisioned (by decide) (by decide) mountAnswer_erased

/-- A partition is provisioned and a message is acknowledged. -/
theorem watermarks_durable_sample :
    ∃ s, MailboxReachable Unit sampleDigest sampleBinding sampleGeometry s ∧
      s.answered = [sampleFirst, successor sampleFirst secondGeneration sampleCursor] ∧
      s.answered.Pairwise Follows ∧
      ∃ result, (mount sampleDigest sampleBinding sampleGeometry : MailboxAction Unit _).answer
          s.flash = .ok result ∧ ∀ x ∈ s.answered, ∃ y, result = .mounted y ∧ Follows x y := by
  obtain ⟨s, hs, hstore, hanswered⟩ := provisioned_sample
  obtain ⟨s', hs', -, hanswered'⟩ : ∃ s',
      MailboxReachable Unit sampleDigest sampleBinding sampleGeometry s' ∧
      s'.store = some (successor sampleFirst secondGeneration sampleCursor) ∧
      s'.answered = s.answered ++ [successor sampleFirst secondGeneration sampleCursor] :=
    hs.acknowledged (by decide) (by decide) hstore (by decide) rfl
  rw [hanswered] at hanswered'
  exact ⟨s', hs', hanswered', watermarks_durable (by decide) hs'⟩

/-- The first message of a new partition is acknowledged. -/
theorem acknowledge_atomic_sample :
    ∃ s, MailboxReachable Unit sampleDigest sampleBinding sampleGeometry s ∧
      s.store = some sampleFirst ∧
      (acknowledgeThrough sampleDigest sampleBinding sampleGeometry sampleFirst sampleCursor :
        MailboxAction Unit _).answer s.flash =
          .ok (successor sampleFirst secondGeneration sampleCursor) := by
  obtain ⟨s, hs, hstore, -⟩ := provisioned_sample
  exact ⟨s, hs, hstore, (acknowledge_atomic (by decide) (by decide) hs hstore (by decide) rfl).1⟩

end Sample

end Mailbox
