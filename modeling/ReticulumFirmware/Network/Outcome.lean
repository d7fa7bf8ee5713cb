import ReticulumFirmware.Network.Commit

/-!
# What a commit, a provisioning and a cleanup may leave

Every execution of a store operation, whatever the backend does, either completes or stops
inside the erase or on the way to the complete record. The mounted store is then still the
old one, or the intended successor, or the erase has damaged a committed record.
-/

namespace Network

open Nor

variable {ε : Type} {sha256 : Sha256} {access : BoundNetworkConfigStore} {φ : Faults}
  {G : Mutation → Prop} {store store' : MountedNetworkConfigStore}
  {configuration : NetworkConfig} {f g : Flash}

/-- A binding check answers what was checked. -/
theorem eval_requireBinding (check : Except NetworkConfigStoreBindingError Unit) (f : Flash) :
    (requireBinding check : NetworkConfigAction ε Unit).eval f = (check.mapError .binding, f) := by
  unfold requireBinding
  split <;> rfl

/-- A mount without backend errors answers from the view's checks and the contents. -/
def mountAnswer (sha256 : Sha256) (access : BoundNetworkConfigStore) (ε : Type) (f : Flash) :
    Except (NetworkConfigStoreError ε) MountedNetworkConfigStore :=
  match validateReadBinding access with
  | .ok () => (mounted sha256 access.binding f).mapError .fault
  | .error error => .error (.binding error)

/-- A mount on a working backend answers and changes nothing. -/
theorem eval_mountAnswer (f : Flash) :
    (mount sha256 access : NetworkConfigAction ε _).eval f =
      (mountAnswer sha256 access ε f, f) := by
  unfold mountAnswer
  split
  · next h => exact eval_mount h f
  · next error h => exact eval_mount_binding h f

/-- A mount succeeds exactly where the binding is accepted and the sectors hold a store. -/
theorem mountAnswer_ok :
    mountAnswer sha256 access ε f = .ok store ↔
      validateReadBinding access = .ok () ∧ mounted sha256 access.binding f = .ok store := by
  unfold mountAnswer
  split
  · next h =>
    rw [and_iff_right h]
    cases mounted sha256 access.binding f with
    | ok store' => simp [Except.mapError]
    | error fault => simp [Except.mapError]
  · next error h => simp [h]

/-- The sector a successor is written to. -/
def MountedNetworkConfigStore.target (store : MountedNetworkConfigStore) :
    NetworkConfigStoreSector := store.revision.sector.other

/-- The contents when the inactive sector has been erased. -/
def eraseSector (sector : NetworkConfigStoreSector) (f : Flash) : Flash :=
  f.erase sector.offset (sector.offset + 4096)

/-- An erased sector is erased. -/
theorem erased_eraseSector (sector : NetworkConfigStoreSector) (f : Flash) :
    (eraseSector sector f).Erased sector.offset 4096 := Flash.erase_erased f _ _

/-- The record of a successor. -/
def successorRecord (sha256 : Sha256) (store : MountedNetworkConfigStore)
    (generation : NonZeroU64) (configuration : NetworkConfig) : List Byte :=
  encodeRecord sha256 store.revision.binding store.target generation
    store.revision.generation.get store.revision.digest configuration

/-- What a commit that does not report success may leave. -/
inductive Residue (φ : Faults) (sha256 : Sha256) (store : MountedNetworkConfigStore)
    (configuration : NetworkConfig) (f g : Flash) : Prop
  /-- Nothing has been changed. -/
  | unchanged (h : g = f)
  /-- The erase has stopped. -/
  | erasing (hfault : φ.cutErase = true ∨ φ.eraseError = true)
      (h : f.Torn (eraseSector store.target f) g)
  /-- The erase is complete and the record is on its way. -/
  | writing (generation : NonZeroU64)
      (hgeneration : generation.get = store.revision.generation.get + 1)
      (h : Trajectory (recordScript store.target
        (successorRecord sha256 store generation configuration)) (eraseSector store.target f) g)

/-- What a successful commit has done. -/
structure Committed (sha256 : Sha256) (binding : NetworkConfigStoreBinding)
    (store : MountedNetworkConfigStore) (configuration : NetworkConfig) (f g : Flash)
    (store' : MountedNetworkConfigStore) : Prop where
  mounted : mounted sha256 binding g = .ok store'
  sector : store'.revision.sector = store.target
  generation : store'.revision.generation.get = store.revision.generation.get + 1
  same : store'.configuration.Same configuration
  complete : g = (eraseSector store.target f).program store.target.offset
    (successorRecord sha256 store store'.revision.generation configuration)

/-- Writing a record over an erased sector completes it or stops on its trajectory. -/
theorem wp_writeSnapshot_bind {β : Type} (hG : ∀ m, G m)
    {binding : NetworkConfigStoreBinding} {sector : NetworkConfigStoreSector}
    {generation : NonZeroU64} {predecessorGeneration : ℕ} {predecessorDigest : SnapshotDigest}
    {next : Unit → NetworkConfigAction ε β}
    {Q : Except (NetworkConfigStoreError ε) β → Flash → Prop} {C : Flash → Prop}
    {record : List Byte} (hrecord : record = encodeRecord sha256 binding sector generation
      predecessorGeneration predecessorDigest configuration)
    (herased : f.Erased sector.offset 4096)
    (hC : φ.cut = true → ∀ g, Trajectory (recordScript sector record) f g → C g)
    (hok : wp φ G (next ()).run Q C (f.program sector.offset record))
    (herror : φ.readError = true ∨ φ.writeError = true → ∀ e g,
      Trajectory (recordScript sector record) f g → Q (.error (.backend e)) g) :
    wp φ G (writeSnapshot sha256 binding sector generation predecessorGeneration
      predecessorDigest configuration >>= next).run Q C f := by
  have his : IsRecord record := hrecord ▸ isRecord_encodeRecord ..
  have hbody : f.Erased (sector.offset + 0) (slice record 0 1056).length := by
    rw [his.length_body]
    exact herased.mono (by omega) (by omega)
  have hready : (f.program sector.offset (slice record 0 1056)).Erased (sector.offset + 1056)
      (slice record 1056 32).length := by
    rw [his.marker]
    intro i hi
    have hlength : commitMarker.length = 32 := rfl
    rw [hlength] at hi
    rw [Flash.program_of_not_mem (by rw [his.length_body]; omega)]
    have := herased (1056 + i) (by omega)
    rwa [← Nat.add_assoc] at this
  unfold writeSnapshot
  rw [← hrecord]
  simp only [bind_assoc, show commitOffset = 1056 from rfl, show commitSize = 32 from rfl]
  refine wp_writeVerified_bind hG hbody (fun hcut g ht => hC hcut g (.torn ht)) ?_
    fun he e g ht => herror he e g (.torn ht)
  refine wp_writeVerified_bind hG hready (fun hcut g ht => hC hcut g (.step (.torn ht))) ?_
    fun he e g ht => herror he e g (.step (.torn ht))
  have hall := his.applyAll sector f
  change (f.program sector.offset (slice record 0 1056)).program (sector.offset + 1056)
    (slice record 1056 32) = _ at hall
  rw [Nat.add_zero, hall]
  exact hok

/-- Verifying a successor reads only, and succeeds only on the intended mount. -/
theorem wp_verifySuccessor {sector : NetworkConfigStoreSector} {generation : NonZeroU64}
    {Q : Except (NetworkConfigStoreError ε) MountedNetworkConfigStore → Flash → Prop}
    {C : Flash → Prop} (hC : φ.cut = true → C f)
    (hok : ∀ store', mountAnswer sha256 access ε f = .ok store' →
      store'.revision.sector = sector → store'.revision.generation = generation →
      store'.configuration.Same configuration → Q (.ok store') f)
    (herror : ∀ e, Q (.error e) f) :
    wp φ G (verifySuccessor sha256 access sector generation configuration).run Q C f := by
  unfold verifySuccessor
  apply query_mount.wp_bind hC (eval_mountAnswer f)
  · intro store' hstore'
    refine wp_ensure_bind hC (fun h => ?_) fun _ => herror _
    exact wp_action_pure hC (hok store' hstore' h.1 h.2.1 (configurationEq_iff.mp h.2.2))
  · exact fun e _ => herror e
  · exact fun _ e => herror _

/-- Every execution of a commit from the mounted revision succeeds as intended or leaves a
residue of it. -/
theorem wp_commitSuccessor (hG : ∀ m, G m) :
    wp φ G (commitSuccessor sha256 access store.revision configuration :
        NetworkConfigAction ε _).run
      (fun r g => match r with
        | .ok store' => Committed sha256 access.binding store configuration f g store'
        | .error _ => Residue φ sha256 store configuration f g)
      (Residue φ sha256 store configuration f) f := by
  have hstart : Residue φ sha256 store configuration f f := .unchanged rfl
  unfold commitSuccessor
  refine (query_requireBinding _).wp_bind (fun _ => hstart) (eval_requireBinding ..)
    (fun _ _ => ?_) (fun _ _ => hstart) fun _ _ => hstart
  refine (query_requireBinding _).wp_bind (fun _ => hstart) (eval_requireBinding ..)
    (fun _ _ => ?_) (fun _ _ => hstart) fun _ _ => hstart
  refine query_mount.wp_bind (fun _ => hstart) (eval_mountAnswer f) (fun observed hobserved => ?_)
    (fun _ _ => hstart) fun _ _ => hstart
  refine wp_ensure_bind (fun _ => hstart) (fun _ => ?_) fun _ => hstart
  cases hnext : NonZeroU64.new (store.revision.generation.get + 1) with
  | none => exact wp_action_throw (fun _ => hstart) hstart
  | some generation =>
    have hgeneration := NonZeroU64.get_of_new hnext
    have hwriting : ∀ g, Trajectory (recordScript store.target
        (successorRecord sha256 store generation configuration)) (eraseSector store.target f) g →
        Residue φ sha256 store configuration f g := fun g h => .writing generation hgeneration h
    have herased := hwriting _ (.start _ _)
    have hcomplete := (isRecord_encodeRecord sha256 store.revision.binding store.target generation
      store.revision.generation.get store.revision.digest configuration).applyAll store.target
        (eraseSector store.target f) ▸ Trajectory.finish _ _
    refine wp_eraseVerified_bind hG (fun _ => hstart) (fun hfault g h => .erasing hfault h)
      (fun _ => herased) ?_ (fun _ _ => herased) fun hfault _ g h => .erasing (Or.inr hfault) h
    refine wp_writeSnapshot_bind hG rfl (erased_eraseSector _ f) (fun _ => hwriting) ?_
      fun _ _ => hwriting
    refine wp_verifySuccessor (fun _ => hwriting _ hcomplete) ?_ fun _ => hwriting _ hcomplete
    rintro store' hstore' hsector rfl hsame
    exact ⟨(mountAnswer_ok.mp hstore').2, hsector, hgeneration, hsame, rfl⟩

/-- A verified erase without backend errors erases its sector. -/
theorem eval_eraseVerified (sector : NetworkConfigStoreSector) (f : Flash) :
    (eraseVerified sector : NetworkConfigAction ε Unit).eval f =
      (.ok (), eraseSector sector f) := by
  have hscan : (regionIsErased sector.offset 4096 : NetworkConfigAction ε Bool).eval
      (eraseSector sector f) = _ := eval_regionIsErased ..
  rw [Flash.read_all_erased.mpr (erased_eraseSector sector f)] at hscan
  unfold eraseVerified
  rw [Action.eval_bind_ok (Action.eval_erase ..)]
  change Action.eval (regionIsErased sector.offset 4096 >>= _) (eraseSector sector f) = _
  rw [Action.eval_bind_ok hscan]
  rfl

/-- Writing a record to an erased sector without backend errors programs it. -/
theorem eval_writeSnapshot {binding : NetworkConfigStoreBinding}
    {sector : NetworkConfigStoreSector} {generation : NonZeroU64} {predecessorGeneration : ℕ}
    {predecessorDigest : SnapshotDigest} {record : List Byte}
    (hrecord : record = encodeRecord sha256 binding sector generation predecessorGeneration
      predecessorDigest configuration)
    (herased : f.Erased sector.offset 4096) :
    (writeSnapshot sha256 binding sector generation predecessorGeneration predecessorDigest
      configuration : NetworkConfigAction ε Unit).eval f =
      (.ok (), f.program sector.offset record) := by
  have hwp : wp Faults.none (fun _ => True)
      (writeSnapshot sha256 binding sector generation predecessorGeneration predecessorDigest
        configuration >>= fun _ => pure () : NetworkConfigAction ε Unit).run
      (fun r g => r = .ok () ∧ g = f.program sector.offset record) (fun _ => True) f :=
    wp_writeSnapshot_bind (fun _ => trivial) hrecord herased (fun h => by cases h)
      (wp_action_pure (fun h => by cases h) ⟨rfl, rfl⟩)
      fun h => by rcases h with h | h <;> cases h
  rw [bind_pure] at hwp
  obtain ⟨hr, hg⟩ := hwp.run
  exact Prod.ext hr hg

section Residues

variable {binding : NetworkConfigStoreBinding}

/-- Erased contents report themselves as such. -/
theorem status_of_blank (herased : f.Erased 0 8192) (sector : NetworkConfigStoreSector) :
    statusOf sha256 binding f sector = .erased := by
  apply statusOf_erased
  cases sector with
  | a => exact herased.mono (le_refl _) (by decide)
  | b => exact herased.mono (by decide) (by decide)

/-- A record that is complete in one sector of erased contents is mounted. -/
theorem mounted_record (herased : f.Erased 0 8192) (sector : NetworkConfigStoreSector)
    {generation : NonZeroU64} {predecessorGeneration : ℕ} {predecessorDigest : SnapshotDigest}
    (hlt : predecessorGeneration < 2 ^ 64)
    (hpredecessor : ¬ badPredecessor generation.get predecessorGeneration predecessorDigest)
    (configuration : NetworkConfig) :
    mounted sha256 binding (f.program sector.offset (encodeRecord sha256 binding sector generation
        predecessorGeneration predecessorDigest configuration)) =
      .ok (mountedSnapshot (recordSnapshot sha256 binding sector generation predecessorGeneration
        predecessorDigest configuration) sector .erased) := by
  have hrecord := isRecord_encodeRecord sha256 binding sector generation predecessorGeneration
    predecessorDigest configuration
  have hblank : statusOf sha256 binding f sector = .erased := status_of_blank herased sector
  have hstatus : statusOf sha256 binding (f.program sector.offset (encodeRecord sha256 binding
      sector generation predecessorGeneration predecessorDigest configuration)) sector = _ :=
    hrecord.status_complete (erased_of_statusOf hblank)
  rw [decodeCommitted_encodeRecord hlt, if_neg hpredecessor] at hstatus
  have houtside := hrecord.outside
    (hrecord.applyAll sector f ▸ Trajectory.finish (recordScript sector _) f)
  have hpeer : statusOf sha256 binding (f.program sector.offset (encodeRecord sha256 binding
      sector generation predecessorGeneration predecessorDigest configuration)) sector.other =
      statusOf sha256 binding f sector.other := houtside.statusOf_other
  rw [status_of_blank herased] at hpeer
  rw [mounted_of_valid hstatus (Or.inl hpeer), hpeer]

/-- A rejected sector keeps the store from mounting. -/
theorem mounted_of_invalid {sector : NetworkConfigStoreSector} {kind : InvalidSectorKind}
    (h : statusOf sha256 binding g sector = .invalid sector kind) :
    mounted sha256 binding g ≠ .ok store := by
  unfold mounted
  cases sector with
  | a =>
    rw [h]
    rintro ⟨⟩
  | b =>
    rw [h]
    cases statusOf sha256 binding g .a <;> rintro ⟨⟩

/-- A rejected sector beside a valid one is what a mount reports. -/
theorem mounted_beside_invalid {sector : NetworkConfigStoreSector} {snapshot : ValidSnapshot}
    {kind : InvalidSectorKind} (hvalid : statusOf sha256 binding g sector.other = .valid snapshot)
    (h : statusOf sha256 binding g sector = .invalid sector kind) :
    mounted sha256 binding g = .error (mapInvalid sector kind) := by
  unfold mounted
  cases sector with
  | a =>
    rw [h]
    rfl
  | b =>
    rw [h, show statusOf sha256 binding g .a = _ from hvalid]
    rfl

/-- The digest of a committed snapshot is the digest of what an interrupted erase has made of
its protected prefix. -/
structure Forged (sha256 : Sha256) (sector : NetworkConfigStoreSector) (f g : Flash) : Prop where
  torn : f.Torn (eraseSector sector f) g
  committed : f.read (sector.offset + 1056) 32 = commitMarker
  changed : g.read sector.offset 1024 ≠ f.read sector.offset 1024
  matching : g.read (sector.offset + 1024) 32 =
    (snapshotDigest sha256 (g.read sector.offset 1024)).toList

/-- A status that gives way still gives way, or is rejected, after an erase has stopped. -/
theorem givesWay_of_torn {sector : NetworkConfigStoreSector} {snapshot : ValidSnapshot}
    (ht : f.Torn (eraseSector sector.other f) g) (hforged : ¬ Forged sha256 sector.other f g)
    (h : GivesWay snapshot sector (statusOf sha256 binding f sector.other)) :
    GivesWay snapshot sector (statusOf sha256 binding g sector.other) ∨
      ∃ kind, statusOf sha256 binding g sector.other = .invalid sector.other kind := by
  have hle : ∀ a, BitsLE (f a) (g a) := Flash.Torn.le_erase ht
  have hkeeps : ∀ {offset length}, f.Erased offset length → g.Erased offset length := by
    intro offset length h i hi
    have hi' := hle (offset + i)
    rw [h i hi] at hi'
    exact eq_erased_of_bitsLE hi'
  -- an area that covers the marker holds it after the erase only if it did before
  have hmarker : f.Covers (sector.other.offset + 1056) commitMarker →
      g.read (sector.other.offset + 1056) 32 = commitMarker →
      f.read (sector.other.offset + 1056) 32 = commitMarker := by
    intro hcovers hread
    have hread' : g.read (sector.other.offset + 1056) commitMarker.length = commitMarker := hread
    refine hcovers.read_eq fun i hi => ?_
    rw [← Flash.byte_of_read_eq hread' hi]
    exact hle _
  rcases h with h | h | ⟨older, h, hfollows⟩
  · exact Or.inl (Or.inl (statusOf_erased (hkeeps (erased_of_statusOf h))))
  · rcases statusOf_cases sha256 binding f sector.other with hs | ⟨-, -, hs⟩ | hs | hs
    · rw [hs.2] at h
      cases h
    · rcases decodeCommitted_cases sha256 binding sector.other (f.read sector.other.offset 1088)
        with ⟨kind, hd⟩ | ⟨older, hd⟩
      · rw [hs, hd] at h
        cases h
      · rw [hs, hd] at h
        cases h
    · obtain ⟨htail, hne, hcovers, -⟩ := hs
      left
      rcases statusOf_uncommitted (hkeeps htail) (fun hread => hne (hmarker hcovers hread))
        (hcovers.mono hle) with hg | hg
      · exact Or.inl hg
      · exact Or.inr (Or.inl hg)
    · rw [hs.2] at h
      cases h
  · obtain ⟨htail, hcommitted, hdecoded⟩ := valid_snapshot h
    have hcovers : f.Covers (sector.other.offset + 1056) commitMarker := by
      intro i hi
      have hread : f.read (sector.other.offset + 1056) commitMarker.length = commitMarker :=
        hcommitted
      rw [Flash.byte_of_read_eq hread hi]
      exact BitsLE.refl _
    by_cases hread : g.read (sector.other.offset + 1056) 32 = commitMarker
    · rw [statusOf_committed (hkeeps htail) hread]
      rcases decodeCommitted_cases sha256 binding sector.other (g.read sector.other.offset 1088)
        with ⟨kind, hd⟩ | ⟨snapshot', hd⟩
      · exact Or.inr ⟨kind, hd⟩
      · -- the digest still matches, so nothing of the record has changed
        have hparts : ∀ f : Flash, (f.read sector.other.offset 1088).take 1024 =
            f.read sector.other.offset 1024 ∧ slice (f.read sector.other.offset 1088) 1024 32 =
              f.read (sector.other.offset + 1024) 32 := by
          intro f
          refine ⟨?_, Flash.slice_read (by decide)⟩
          rw [show (1088 : ℕ) = 1024 + 64 from rfl, Flash.read_add]
          exact List.take_left' (Flash.length_read ..)
        have hdigest := (decodeCommitted_valid hd).1
        have hdigest' := (decodeCommitted_valid hdecoded).1
        rw [(hparts g).1, (hparts g).2] at hdigest
        rw [(hparts f).1, (hparts f).2] at hdigest'
        have hstart : g.read sector.other.offset 1024 = f.read sector.other.offset 1024 := by
          by_contra hchanged
          exact hforged ⟨ht, hcommitted, hchanged, hdigest⟩
        have hrecord : g.read sector.other.offset 1088 = f.read sector.other.offset 1088 := by
          have hsplit : ∀ f : Flash, f.read sector.other.offset 1088 =
              f.read sector.other.offset 1024 ++ f.read (sector.other.offset + 1024) 32 ++
                f.read (sector.other.offset + 1056) 32 := by
            intro f
            rw [show (1088 : ℕ) = 1024 + 32 + 32 from rfl, Flash.read_add, Flash.read_add]
          rw [hsplit g, hsplit f, hstart, hdigest, hdigest', hstart, hread, hcommitted]
        rw [hrecord, hdecoded]
        exact Or.inl (Or.inr (Or.inr ⟨older, rfl, hfollows⟩))
    · left
      rcases statusOf_uncommitted (hkeeps htail) hread (hcovers.mono hle) with hg | hg
      · exact Or.inl hg
      · exact Or.inr (Or.inl hg)

/-- The bit patterns of a mounted store's predecessor fields fit its successor, unless its
digest is the one that stands for no predecessor. -/
theorem badPredecessor_successor {generation : NonZeroU64}
    (h : generation.get = store.revision.generation.get + 1) :
    badPredecessor generation.get store.revision.generation.get store.revision.digest ↔
      store.revision.digest = zeroDigest := by
  have hpos := store.revision.generation.pos
  unfold badPredecessor
  constructor
  · rintro (⟨hone, -⟩ | ⟨-, hne | hzero⟩)
    · omega
    · omega
    · exact hzero
  · exact fun hzero => Or.inr ⟨by omega, Or.inr hzero⟩

/-- The snapshot that a completed commit has written. -/
def successorSnapshot (sha256 : Sha256) (store : MountedNetworkConfigStore)
    (generation : NonZeroU64) (configuration : NetworkConfig) : ValidSnapshot :=
  recordSnapshot sha256 store.revision.binding store.target generation
    store.revision.generation.get store.revision.digest configuration

/-- The status of the target of a completed commit. -/
theorem status_successor {generation : NonZeroU64}
    (hgeneration : generation.get = store.revision.generation.get + 1)
    (hbinding : store.revision.binding = binding) (f : Flash) :
    statusOf sha256 binding ((eraseSector store.target f).program store.target.offset
        (successorRecord sha256 store generation configuration)) store.target =
      if store.revision.digest = zeroDigest then .invalid store.target .committedCorrupt
      else .valid (successorSnapshot sha256 store generation configuration) := by
  have hrecord : IsRecord (successorRecord sha256 store generation configuration) :=
    isRecord_encodeRecord ..
  rw [hrecord.status_complete (erased_eraseSector _ f)]
  unfold successorRecord
  rw [hbinding, decodeCommitted_encodeRecord store.revision.generation.lt]
  simp only [badPredecessor_successor hgeneration]
  rw [successorSnapshot, hbinding]

/-- The successor of a mounted store follows its snapshot. -/
theorem follows_successorSnapshot {generation : NonZeroU64} {snapshot : ValidSnapshot}
    (hrevision : store.revision = snapshot.revision)
    (hgeneration : generation.get = store.revision.generation.get + 1) :
    Follows (successorSnapshot sha256 store generation configuration) snapshot where
  generation := by rw [← hrevision]; exact hgeneration
  predecessorGeneration := by rw [← hrevision]; rfl
  predecessorDigest := by rw [← hrevision]; rfl

/-- The sector and snapshot of a mounted store. -/
theorem mounted_revision (hmounted : mounted sha256 binding f = .ok store) :
    ∃ snapshot, statusOf sha256 binding f store.revision.sector = .valid snapshot ∧
      GivesWay snapshot store.revision.sector (statusOf sha256 binding f store.target) ∧
      store.revision = snapshot.revision ∧ store.configuration = snapshot.configuration ∧
      store.revision.binding = binding := by
  obtain ⟨sector, snapshot, hvalid, hpeer, hstore⟩ := mounted_ok hmounted
  obtain ⟨hbinding, hsector, -⟩ := valid_revision hvalid
  have hrevision : store.revision = snapshot.revision := by rw [hstore, mountedSnapshot]
  have hconfiguration : store.configuration = snapshot.configuration := by
    rw [hstore, mountedSnapshot]
  have hplace : store.revision.sector = sector := by rw [hrevision, hsector]
  refine ⟨snapshot, ?_, ?_, hrevision, hconfiguration, ?_⟩
  · rw [hplace]
    exact hvalid
  · rw [MountedNetworkConfigStore.target, hplace]
    exact hpeer
  · rw [hrevision, hbinding]

/-- The store mounted on what a commit has left without reporting success: the old one or the
intended successor, unless the erase has forged a digest. -/
theorem Residue.mounted_cases (h : Residue φ sha256 store configuration f g)
    (hmounted : mounted sha256 binding f = .ok store)
    (hforged : ¬ Forged sha256 store.target f g) (hg : mounted sha256 binding g = .ok store') :
    (store'.revision = store.revision ∧ store'.configuration = store.configuration) ∨
      (store'.revision.generation.get = store.revision.generation.get + 1 ∧
        store'.configuration.Same configuration) := by
  obtain ⟨snapshot, hvalid, hpeer, hrevision, hconfiguration, hbinding⟩ := mounted_revision hmounted
  have hother : store.target.other = store.revision.sector := by
    simp [MountedNetworkConfigStore.target]
  -- a peer that gives way leaves the old snapshot mounted
  have hold : statusOf sha256 binding g store.revision.sector = .valid snapshot →
      GivesWay snapshot store.revision.sector (statusOf sha256 binding g store.target) →
      store'.revision = store.revision ∧ store'.configuration = store.configuration := by
    intro hvalid' hpeer'
    have heq := hg.symm.trans (mounted_of_valid hvalid' hpeer')
    cases heq
    exact ⟨hrevision.symm, hconfiguration.symm⟩
  have hkept : SameOutside store.target f g →
      statusOf sha256 binding g store.revision.sector = .valid snapshot := by
    intro houtside
    have hsame : statusOf sha256 binding g store.target.other =
        statusOf sha256 binding f store.target.other := houtside.statusOf_other
    rw [hother] at hsame
    rw [hsame, hvalid]
  cases h with
  | unchanged h =>
    subst h
    have heq := hg.symm.trans hmounted
    cases heq
    exact Or.inl ⟨rfl, rfl⟩
  | erasing _ ht =>
    left
    have hvalid' := hkept (outside_of_torn_erase ht)
    rcases givesWay_of_torn ht hforged hpeer with hgives | ⟨kind, hinvalid⟩
    · exact hold hvalid' hgives
    · exact absurd hg (mounted_of_invalid hinvalid)
  | writing generation hgeneration ht =>
    have hrecord : IsRecord (successorRecord sha256 store generation configuration) :=
      isRecord_encodeRecord ..
    have hvalid' := hkept fun a ha =>
      (hrecord.outside ht a ha).trans (Flash.erase_of_not_mem ha)
    have hstatus : g = (eraseSector store.target f).program store.target.offset
          (successorRecord sha256 store generation configuration) ∨
        statusOf sha256 binding g store.target = .erased ∨
        statusOf sha256 binding g store.target = .uncommitted store.target :=
      hrecord.status (erased_eraseSector _ f) ht
    rcases hstatus with hcomplete | herased | huncommitted
    · right
      have hstatus : statusOf sha256 binding g store.target = if store.revision.digest = zeroDigest
          then .invalid store.target .committedCorrupt
          else .valid (successorSnapshot sha256 store generation configuration) := by
        rw [hcomplete]
        exact status_successor hgeneration hbinding f
      split at hstatus
      · exact absurd hg (mounted_of_invalid hstatus)
      · have hnewer : GivesWay (successorSnapshot sha256 store generation configuration)
            store.target (statusOf sha256 binding g store.target.other) := by
          rw [hother, hvalid']
          exact Or.inr (Or.inr ⟨snapshot, rfl, follows_successorSnapshot hrevision hgeneration⟩)
        have heq := hg.symm.trans (mounted_of_valid hstatus hnewer)
        cases heq
        exact ⟨hgeneration, configuration.compact_same⟩
    · exact Or.inl (hold hvalid' (Or.inl herased))
    · exact Or.inl (hold hvalid' (Or.inr (Or.inl huncommitted)))

end Residues

section Provisioning

variable {binding : NetworkConfigStoreBinding}

/-- The first generation. -/
def firstGeneration : NonZeroU64 where
  get := 1
  pos := Nat.one_pos
  lt := one_lt_two_pow_64

/-- The record of a first configuration. -/
def provisionRecord (sha256 : Sha256) (binding : NetworkConfigStoreBinding)
    (configuration : NetworkConfig) : List Byte :=
  encodeRecord sha256 binding .a firstGeneration 0 zeroDigest configuration

/-- What a provisioning that does not report success may leave. -/
inductive ProvisionResidue (sha256 : Sha256) (binding : NetworkConfigStoreBinding)
    (configuration : NetworkConfig) (f g : Flash) : Prop
  /-- Nothing has been changed. -/
  | unchanged (h : g = f)
  /-- The contents were erased and the record is on its way. -/
  | writing (herased : f.Erased 0 8192)
      (h : Trajectory (recordScript .a (provisionRecord sha256 binding configuration)) f g)

/-- What a successful provisioning has done. -/
structure Provisioned (sha256 : Sha256) (binding : NetworkConfigStoreBinding)
    (configuration : NetworkConfig) (g : Flash) (store' : MountedNetworkConfigStore) : Prop where
  mounted : mounted sha256 binding g = .ok store'
  generation : store'.revision.generation.get = 1
  same : store'.configuration.Same configuration

/-- Every execution of a provisioning succeeds as intended or leaves a residue of it. -/
theorem wp_provisionErased (hG : ∀ m, G m) :
    wp φ G (provisionErased sha256 access configuration : NetworkConfigAction ε _).run
      (fun r g => match r with
        | .ok store' => Provisioned sha256 access.binding configuration g store'
        | .error _ => ProvisionResidue sha256 access.binding configuration f g)
      (ProvisionResidue sha256 access.binding configuration f) f := by
  have hstart : ProvisionResidue sha256 access.binding configuration f f := .unchanged rfl
  unfold provisionErased
  refine (query_requireBinding _).wp_bind (fun _ => hstart) (eval_requireBinding ..)
    (fun _ _ => ?_) (fun _ _ => hstart) fun _ _ => hstart
  apply wp_attempt_bind
  refine query_mount.wp (fun _ => hstart) ?_ fun _ e => wp_action_throw (fun _ => hstart) hstart
  have hmount : ((mount sha256 access).run.run f).1 = mountAnswer sha256 access ε f :=
    congrArg Prod.fst (eval_mountAnswer f)
  rw [hmount]
  split
  · next hanswer =>
    have herased : f.Erased 0 8192 := by
      unfold mountAnswer at hanswer
      split at hanswer
      · cases hmounted : Network.mounted sha256 access.binding f with
        | ok store =>
          rw [hmounted] at hanswer
          cases hanswer
        | error fault =>
          rw [hmounted] at hanswer
          cases hanswer
          exact mounted_unformattedErased hmounted
      · cases hanswer
    have hwriting : ∀ g, Trajectory (recordScript .a
        (provisionRecord sha256 access.binding configuration)) f g →
        ProvisionResidue sha256 access.binding configuration f g := fun _ => .writing herased
    have hcomplete := (isRecord_encodeRecord sha256 access.binding .a firstGeneration 0 zeroDigest
      configuration).applyAll .a f ▸ Trajectory.finish _ _
    refine wp_writeSnapshot_bind hG rfl (herased.mono (le_refl _) (by decide)) (fun _ => hwriting)
      ?_ fun _ _ => hwriting
    refine wp_verifySuccessor (fun _ => hwriting _ hcomplete) ?_ fun _ => hwriting _ hcomplete
    intro store' hstore' _ hgeneration hsame
    exact ⟨(mountAnswer_ok.mp hstore').2, congrArg NonZeroU64.get hgeneration, hsame⟩
  · exact wp_action_throw (fun _ => hstart) hstart
  · exact wp_action_throw (fun _ => hstart) hstart

/-- The store mounted on what a provisioning has left without reporting success is the intended
first configuration. -/
theorem ProvisionResidue.mounted_first (h : ProvisionResidue sha256 binding configuration f g)
    (hf : mounted sha256 binding f = .error .unformattedErased)
    (hg : mounted sha256 binding g = .ok store') :
    store'.revision.generation.get = 1 ∧ store'.configuration.Same configuration := by
  cases h with
  | unchanged h =>
    rw [h, hf] at hg
    cases hg
  | writing herased ht =>
    have hrecord : IsRecord (provisionRecord sha256 binding configuration) :=
      isRecord_encodeRecord ..
    have hstatus : g = f.program NetworkConfigStoreSector.a.offset
          (provisionRecord sha256 binding configuration) ∨
        statusOf sha256 binding g .a = .erased ∨
        statusOf sha256 binding g .a = .uncommitted .a :=
      hrecord.status (herased.mono (le_refl _) (by decide)) ht
    have hpeer : statusOf sha256 binding g .b = .erased := by
      have hother : statusOf sha256 binding g NetworkConfigStoreSector.a.other =
          statusOf sha256 binding f NetworkConfigStoreSector.a.other :=
        (hrecord.outside ht).statusOf_other
      exact hother.trans (status_of_blank herased _)
    rcases hstatus with hcomplete | hstatus | hstatus
    · have hrecorded : mounted sha256 binding (f.program NetworkConfigStoreSector.a.offset
          (provisionRecord sha256 binding configuration)) = _ :=
        mounted_record herased .a (by decide) (by decide) configuration
      have heq := hg.symm.trans (hcomplete ▸ hrecorded)
      cases heq
      exact ⟨rfl, configuration.compact_same⟩
    · unfold mounted at hg
      rw [hstatus, hpeer] at hg
      cases hg
    · unfold mounted at hg
      rw [hstatus, hpeer] at hg
      cases hg

/-- A provisioning of erased contents on a backend that does not fail. -/
theorem eval_provisionErased (hwrite : validateWriteBinding access = .ok ())
    (herased : f.Erased 0 8192) (configuration : NetworkConfig) :
    (provisionErased sha256 access configuration : NetworkConfigAction ε _).eval f =
      (.ok (mountedSnapshot (recordSnapshot sha256 access.binding .a firstGeneration 0 zeroDigest
          configuration) .a .erased),
        f.program 0 (provisionRecord sha256 access.binding configuration)) := by
  have hread := validateReadBinding_of_write hwrite
  have hblank : mounted sha256 access.binding f = .error .unformattedErased := by
    unfold mounted
    rw [status_of_blank herased, status_of_blank herased]
    rfl
  have hmount : (mount sha256 access : NetworkConfigAction ε _).eval f = _ := eval_mount hread f
  rw [hblank] at hmount
  have hremount : (mount sha256 access : NetworkConfigAction ε _).eval
      (f.program 0 (provisionRecord sha256 access.binding configuration)) = _ :=
    eval_mount hread _
  have hrecord : mounted sha256 access.binding
      (f.program 0 (provisionRecord sha256 access.binding configuration)) = _ :=
    mounted_record herased .a (by decide) (by decide) configuration
  rw [hrecord] at hremount
  have hsector : f.Erased NetworkConfigStoreSector.a.offset 4096 :=
    herased.mono (le_refl _) (by decide)
  unfold provisionErased
  rw [hwrite]
  refine (Action.eval_bind_ok (Action.eval_attempt ..)).trans ?_
  rw [hmount]
  refine (Action.eval_bind_ok (eval_writeSnapshot rfl hsector)).trans ?_
  unfold verifySuccessor
  refine (Action.eval_bind_ok hremount).trans ?_
  rw [Action.eval_ensure_bind, if_pos]
  · rfl
  · exact ⟨rfl, rfl, configurationEq_iff.mpr configuration.compact_same⟩

end Provisioning

end Network
