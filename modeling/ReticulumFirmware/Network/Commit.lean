import ReticulumFirmware.Network.Selection

/-!
# Writing a snapshot

A snapshot is written to an erased sector by two programs, the commit marker last. Wherever
the writing stops, the sector is erased or uncommitted until both programs are complete, and
then it holds exactly the encoded record.
-/

namespace Network

open Nor

variable {ε β : Type} {sha256 : Sha256} {binding : NetworkConfigStoreBinding}
  {access : BoundNetworkConfigStore} {sector : NetworkConfigStoreSector} {f g : Flash}

/-- Two contents agree outside a sector. -/
def SameOutside (sector : NetworkConfigStoreSector) (f g : Flash) : Prop :=
  ∀ a, a < sector.offset ∨ sector.offset + 4096 ≤ a → g a = f a

/-- A change of one sector leaves the status of the other. -/
theorem SameOutside.statusOf_other (h : SameOutside sector f g) :
    statusOf sha256 binding g sector.other = statusOf sha256 binding f sector.other := by
  apply statusOf_congr
  intro a hstart hstop
  symm
  apply h
  cases sector with
  | a =>
    right
    change 4096 ≤ a at hstart
    change 0 + 4096 ≤ a
    omega
  | b =>
    left
    change a < 0 + 4096 at hstop
    change a < 4096
    omega

/-- The two programs of a record. -/
def recordScript (sector : NetworkConfigStoreSector) (record : List Byte) : List Patch :=
  [⟨sector.offset, slice record 0 1056⟩, ⟨sector.offset + 1056, slice record 1056 32⟩]

/-- A complete record: its length and its last field. -/
structure IsRecord (record : List Byte) : Prop where
  length : record.length = 1088
  marker : slice record 1056 32 = commitMarker

/-- An encoded record has the layout of one. -/
theorem isRecord_encodeRecord (sha256 : Sha256) (binding : NetworkConfigStoreBinding)
    (sector : NetworkConfigStoreSector) (generation : NonZeroU64) (predecessorGeneration : ℕ)
    (predecessorDigest : SnapshotDigest) (configuration : NetworkConfig) :
    IsRecord (encodeRecord sha256 binding sector generation predecessorGeneration
      predecessorDigest configuration) :=
  have h := record_parts sha256 binding sector generation predecessorGeneration
    predecessorDigest configuration
  ⟨h.1, h.2.2.2⟩

namespace IsRecord

variable {record : List Byte}

/-- The body of a record has 1056 bytes. -/
theorem length_body (h : IsRecord record) : (slice record 0 1056).length = 1056 :=
  length_slice (by rw [h.length]; decide)

/-- Writing a record changes its own sector only. -/
theorem outside (hrecord : IsRecord record) (h : Trajectory (recordScript sector record) f g) :
    SameOutside sector f g := by
  intro a ha
  apply h.eq_of_not_covers
  intro p hp
  unfold Patch.Covers
  rcases List.mem_cons.mp hp with rfl | hp
  · simp only [hrecord.length_body]
    omega
  · rw [List.mem_singleton.mp hp, hrecord.marker]
    simp only [commitMarker, List.length_cons, List.length_nil]
    omega

/-- The two programs together program the record. -/
theorem applyAll (hrecord : IsRecord record) (sector : NetworkConfigStoreSector) (f : Flash) :
    f.applyAll (recordScript sector record) = f.program sector.offset record := by
  have hjoin := Flash.program_program f sector.offset (slice record 0 1056) (slice record 1056 32)
  have hsplit := slice_add record 0 1056 32
  rw [Nat.zero_add, slice_all hrecord.length] at hsplit
  rw [hrecord.length_body, ← hsplit] at hjoin
  exact hjoin

/-- Wherever the writing stops, the tail is erased and the marker area covers the marker; it
holds the marker only when both programs are complete. -/
theorem stops (hrecord : IsRecord record) (herased : f.Erased sector.offset 4096)
    (h : Trajectory (recordScript sector record) f g) :
    g.Erased (sector.offset + 1088) 3008 ∧ g.Covers (sector.offset + 1056) commitMarker ∧
      (g.read (sector.offset + 1056) 32 = commitMarker → g = f.program sector.offset record) := by
  have hsplit : Trajectory ([⟨sector.offset, slice record 0 1056⟩] ++
      [⟨sector.offset + 1056, commitMarker⟩]) f g := by
    have h' := h
    rw [recordScript, hrecord.marker] at h'
    exact h'
  have hlast := hsplit.commitLast ?_ (herased.mono (by omega)
    (show sector.offset + 1056 + 32 ≤ _ by omega)) (by decide)
  · refine ⟨?_, hlast.1, fun hmarker => ?_⟩
    · intro i hi
      have hsame : g (sector.offset + 1088 + i) = f (sector.offset + 1088 + i) := by
        apply h.eq_of_not_covers
        intro p hp
        unfold Patch.Covers
        rcases List.mem_cons.mp hp with rfl | hp
        · simp only [hrecord.length_body]
          omega
        · rw [List.mem_singleton.mp hp, hrecord.marker]
          simp only [commitMarker, List.length_cons, List.length_nil]
          omega
      rw [hsame]
      have := herased (1088 + i) (by omega)
      rwa [← Nat.add_assoc] at this
    · rw [hlast.2.mp hmarker, ← hrecord.applyAll sector f, recordScript, hrecord.marker]
      rfl
  · intro p hp
    rw [List.mem_singleton.mp hp]
    simp [hrecord.length_body]

/-- The status of a sector while a record is written: erased or uncommitted until the record is
complete. -/
theorem status (hrecord : IsRecord record) (herased : f.Erased sector.offset 4096)
    (h : Trajectory (recordScript sector record) f g) :
    g = f.program sector.offset record ∨ statusOf sha256 binding g sector = .erased ∨
      statusOf sha256 binding g sector = .uncommitted sector := by
  obtain ⟨htail, hcovers, hcomplete⟩ := hrecord.stops herased h
  by_cases hmarker : g.read (sector.offset + 1056) 32 = commitMarker
  · exact Or.inl (hcomplete hmarker)
  · exact Or.inr (statusOf_uncommitted htail hmarker hcovers)

/-- The status of a sector that was erased and holds a complete record. -/
theorem status_complete (hrecord : IsRecord record) (herased : f.Erased sector.offset 4096) :
    statusOf sha256 binding (f.program sector.offset record) sector =
      decodeCommitted sha256 binding sector record := by
  have hfinish := hrecord.applyAll sector f ▸ Trajectory.finish (recordScript sector record) f
  obtain ⟨htail, -, -⟩ := hrecord.stops herased hfinish
  have hrange : f.Erased sector.offset record.length := by
    rw [hrecord.length]
    exact herased.mono (by omega) (by omega)
  have hread := Flash.read_program_erased hrange
  rw [hrecord.length] at hread
  have hmarker : (f.program sector.offset record).read (sector.offset + 1056) 32 =
    commitMarker := by
    have hslice : slice ((f.program sector.offset record).read sector.offset 1088) 1056 32 =
        (f.program sector.offset record).read (sector.offset + 1056) 32 :=
      Flash.slice_read (by decide)
    rw [← hslice, hread, hrecord.marker]
  rw [statusOf_committed htail hmarker, hread]

end IsRecord

/-- An erase that stops changes its own sector only and keeps every one bit. -/
theorem outside_of_torn_erase (h : f.Torn (f.erase sector.offset (sector.offset + 4096)) g) :
    SameOutside sector f g := fun _ ha => h.eq_of_eq (Flash.erase_of_not_mem ha)

/-- The rule for a verified program over an erased range. -/
theorem wp_writeVerified_bind {φ : Faults} {G : Mutation → Prop} {relativeOffset : ℕ}
    {bytes : List Byte} {next : Unit → NetworkConfigAction ε β}
    {Q : Except (NetworkConfigStoreError ε) β → Flash → Prop} {C : Flash → Prop}
    (hG : ∀ m, G m) (herased : f.Erased (sector.offset + relativeOffset) bytes.length)
    (hC : φ.cut = true → ∀ g, f.Torn (f.program (sector.offset + relativeOffset) bytes) g → C g)
    (hok : wp φ G (next ()).run Q C (f.program (sector.offset + relativeOffset) bytes))
    (herror : φ.readError = true ∨ φ.writeError = true → ∀ e g,
      f.Torn (f.program (sector.offset + relativeOffset) bytes) g → Q (.error (.backend e)) g) :
    wp φ G (writeVerified sector relativeOffset bytes >>= next).run Q C f := by
  have hfinish := Flash.Torn.finish f (f.program (sector.offset + relativeOffset) bytes)
  unfold writeVerified
  rw [bind_assoc]
  refine wp_write_bind (fun _ _ => hG _) hC ?_ fun he e g ht => herror (Or.inr he) e g ht
  apply (Action.query_verifyChunks ..).wp_bind (fun hcut => hC hcut _ hfinish)
    (Action.eval_verifyChunks _ _ _ _ _ _ (Action.sum_chunkLengths ..))
  · exact fun _ _ => hok
  · intro e he
    rw [if_pos (Flash.read_program_erased herased)] at he
    cases he
  · exact fun he e => herror (Or.inl he) e _ hfinish

/-- The rule for a verified erase of a sector. -/
theorem wp_eraseVerified_bind {φ : Faults} {G : Mutation → Prop}
    {next : Unit → NetworkConfigAction ε β}
    {Q : Except (NetworkConfigStoreError ε) β → Flash → Prop} {C : Flash → Prop}
    (hG : ∀ m, G m) (hbefore : φ.cut = true → C f)
    (hinside : φ.cutErase = true ∨ φ.eraseError = true → ∀ g,
      f.Torn (f.erase sector.offset (sector.offset + 4096)) g → C g)
    (hafter : φ.cut = true → C (f.erase sector.offset (sector.offset + 4096)))
    (hok : wp φ G (next ()).run Q C (f.erase sector.offset (sector.offset + 4096)))
    (herror : φ.readError = true → ∀ e,
      Q (.error (.backend e)) (f.erase sector.offset (sector.offset + 4096)))
    (htorn : φ.eraseError = true → ∀ e g,
      f.Torn (f.erase sector.offset (sector.offset + 4096)) g → Q (.error (.backend e)) g) :
    wp φ G (eraseVerified sector >>= next).run Q C f := by
  have hready := Flash.erase_erased f sector.offset 4096
  unfold eraseVerified
  rw [bind_assoc]
  refine wp_erase_bind_apart (fun _ _ => hG _) hbefore hinside hafter ?_ htorn
  rw [bind_assoc]
  have heval : (regionIsErased sector.offset 4096 : NetworkConfigAction ε Bool).eval
      (f.erase sector.offset (sector.offset + 4096)) = _ := eval_regionIsErased ..
  rw [Flash.read_all_erased.mpr hready] at heval
  refine (query_regionIsErased ..).wp_bind hafter heval ?_ ?_ herror
  · rintro erased ⟨⟩
    refine wp_ensure_bind hafter (fun _ => hok) fun hne => ?_
    exact absurd rfl hne
  · rintro e ⟨⟩

end Network
