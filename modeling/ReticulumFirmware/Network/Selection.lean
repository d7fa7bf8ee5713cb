import ReticulumFirmware.Network.Sector

/-!
# What a mount selects

A mount succeeds exactly when one sector holds a valid snapshot and its peer gives way to it:
the peer is erased, holds an interrupted write, or holds the direct predecessor.
-/

namespace Network

open Nor

variable {sha256 : Sha256} {binding : NetworkConfigStoreBinding}
  {sector : NetworkConfigStoreSector} {f : Flash} {snapshot : ValidSnapshot}
  {store : MountedNetworkConfigStore}

/-- A snapshot is the direct successor of another. -/
structure Follows (newer older : ValidSnapshot) : Prop where
  generation : newer.revision.generation.get = older.revision.generation.get + 1
  predecessorGeneration : newer.predecessorGeneration = older.revision.generation.get
  predecessorDigest : newer.predecessorDigest = older.revision.digest

/-- A peer status that gives way to the snapshot of a sector. -/
def GivesWay (snapshot : ValidSnapshot) (sector : NetworkConfigStoreSector)
    (peer : SectorStatus) : Prop :=
  peer = .erased ∨ peer = .uncommitted sector.other ∨
    ∃ older, peer = .valid older ∧ Follows snapshot older

/-- The cleanup a peer status asks for. -/
def peerCleanup (sector : NetworkConfigStoreSector) : SectorStatus → NetworkConfigStoreCleanup
  | .erased => .clean
  | _ => .eraseInactive sector.other

/-- The mounted store of a snapshot beside a peer that gives way. -/
def mountedSnapshot (snapshot : ValidSnapshot) (sector : NetworkConfigStoreSector)
    (peer : SectorStatus) : MountedNetworkConfigStore :=
  ⟨snapshot.revision, snapshot.configuration, peerCleanup sector peer⟩

/-- A direct successor is linked. -/
theorem linkTwoValid_of_follows {newer older : ValidSnapshot} (h : Follows newer older) :
    linkTwoValid newer older =
      .ok ⟨newer.revision, newer.configuration, .eraseInactive older.revision.sector⟩ := by
  have hgeneration := h.generation
  have hrange := newer.revision.generation.lt
  have hsuccessor : successorOrZero older.revision.generation.get =
      newer.revision.generation.get := by
    unfold successorOrZero
    rw [if_pos (by omega)]
    exact hgeneration.symm
  unfold linkTwoValid
  rw [if_neg (by simp [hsuccessor, h.predecessorGeneration, h.predecessorDigest])]

/-- Only a direct successor is linked. -/
theorem follows_of_linkTwoValid {newer older : ValidSnapshot}
    (h : linkTwoValid newer older = .ok store) :
    Follows newer older ∧
      store = ⟨newer.revision, newer.configuration, .eraseInactive older.revision.sector⟩ := by
  unfold linkTwoValid at h
  split at h
  · cases h
  · next hlink =>
    cases h
    simp only [not_or, not_not] at hlink
    obtain ⟨hgeneration, hprevious, hdigest⟩ := hlink
    refine ⟨⟨?_, hprevious, hdigest⟩, rfl⟩
    have hpos := newer.revision.generation.pos
    unfold successorOrZero at hgeneration
    split at hgeneration
    · exact hgeneration
    · omega

/-- Of two snapshots that follow each other, the newer one is selected in either order. -/
theorem selectTwoValid_of_follows {newer older : ValidSnapshot} (h : Follows newer older) :
    selectTwoValid newer older = linkTwoValid newer older ∧
      selectTwoValid older newer = linkTwoValid newer older := by
  have hgeneration := h.generation
  unfold selectTwoValid
  exact ⟨if_pos (by omega), if_neg (by omega)⟩

/-- Two snapshots are selected from only when they follow each other. -/
theorem follows_of_selectTwoValid {a b : ValidSnapshot} (h : selectTwoValid a b = .ok store) :
    (Follows a b ∧ store = ⟨a.revision, a.configuration, .eraseInactive b.revision.sector⟩) ∨
      (Follows b a ∧ store = ⟨b.revision, b.configuration, .eraseInactive a.revision.sector⟩) := by
  unfold selectTwoValid at h
  split at h
  · exact Or.inl (follows_of_linkTwoValid h)
  · exact Or.inr (follows_of_linkTwoValid h)

/-- A valid snapshot whose peer gives way is mounted. -/
theorem mounted_of_valid (hvalid : statusOf sha256 binding f sector = .valid snapshot)
    (hpeer : GivesWay snapshot sector (statusOf sha256 binding f sector.other)) :
    mounted sha256 binding f =
      .ok (mountedSnapshot snapshot sector (statusOf sha256 binding f sector.other)) := by
  have hsector := (valid_revision hvalid).2.1
  rcases hpeer with hpeer | hpeer | ⟨older, hpeer, hfollows⟩
  · rw [hpeer]
    cases sector with
    | a => rw [mounted, hvalid, show statusOf sha256 binding f .b = _ from hpeer]; rfl
    | b => rw [mounted, hvalid, show statusOf sha256 binding f .a = _ from hpeer]; rfl
  · have hone : selectOneValid snapshot (some sector.other) =
        .ok (mountedSnapshot snapshot sector (.uncommitted sector.other)) := by
      unfold selectOneValid
      exact if_neg (by rw [hsector]; exact sector.other_ne)
    rw [hpeer]
    cases sector with
    | a => rw [mounted, hvalid, show statusOf sha256 binding f .b = _ from hpeer]; exact hone
    | b => rw [mounted, hvalid, show statusOf sha256 binding f .a = _ from hpeer]; exact hone
  · have holder := (valid_revision hpeer).2.1
    obtain ⟨hnewer, holder'⟩ := selectTwoValid_of_follows hfollows
    rw [linkTwoValid_of_follows hfollows, holder] at hnewer holder'
    rw [hpeer]
    cases sector with
    | a => rw [mounted, hvalid, show statusOf sha256 binding f .b = _ from hpeer]; exact hnewer
    | b => rw [mounted, hvalid, show statusOf sha256 binding f .a = _ from hpeer]; exact holder'

/-- What a successful selection found. -/
theorem select_ok {a b : SectorStatus} (h : select a b = .ok store)
    (ha : ∀ snapshot, a = .valid snapshot → snapshot.revision.sector = .a)
    (hb : ∀ snapshot, b = .valid snapshot → snapshot.revision.sector = .b)
    (ha' : ∀ sector, a = .uncommitted sector → sector = .a)
    (hb' : ∀ sector, b = .uncommitted sector → sector = .b) :
    (∃ snapshot, a = .valid snapshot ∧ GivesWay snapshot .a b ∧
        store = mountedSnapshot snapshot .a b) ∨
      ∃ snapshot, b = .valid snapshot ∧ GivesWay snapshot .b a ∧
        store = mountedSnapshot snapshot .b a := by
  cases a with
  | erased =>
    cases b with
    | valid snapshot =>
      cases h
      exact Or.inr ⟨snapshot, rfl, Or.inl rfl, rfl⟩
    | erased | uncommitted | invalid => cases h
  | uncommitted sector =>
    cases ha' sector rfl
    cases b with
    | valid snapshot =>
      right
      refine ⟨snapshot, rfl, Or.inr (Or.inl rfl), ?_⟩
      change selectOneValid snapshot (some .a) = _ at h
      unfold selectOneValid at h
      dsimp only at h
      rw [if_neg (by rw [hb snapshot rfl]; decide)] at h
      cases h
      rfl
    | erased | uncommitted | invalid => cases h
  | valid snapshot =>
    cases b with
    | erased =>
      cases h
      exact Or.inl ⟨snapshot, rfl, Or.inl rfl, rfl⟩
    | uncommitted sector =>
      cases hb' sector rfl
      left
      refine ⟨snapshot, rfl, Or.inr (Or.inl rfl), ?_⟩
      change selectOneValid snapshot (some .b) = _ at h
      unfold selectOneValid at h
      dsimp only at h
      rw [if_neg (by rw [ha snapshot rfl]; decide)] at h
      cases h
      rfl
    | valid snapshot' =>
      rcases follows_of_selectTwoValid h with ⟨hfollows, rfl⟩ | ⟨hfollows, rfl⟩
      · left
        refine ⟨snapshot, rfl, Or.inr (Or.inr ⟨snapshot', rfl, hfollows⟩), ?_⟩
        rw [hb snapshot' rfl]
        rfl
      · right
        refine ⟨snapshot', rfl, Or.inr (Or.inr ⟨snapshot, rfl, hfollows⟩), ?_⟩
        rw [ha snapshot rfl]
        rfl
    | invalid => cases h
  | invalid => cases h

/-- Only its own sector is reported as uncommitted. -/
theorem uncommitted_sector {sector' : NetworkConfigStoreSector}
    (h : statusOf sha256 binding f sector = .uncommitted sector') : sector' = sector := by
  rcases statusOf_cases sha256 binding f sector with hs | ⟨-, -, hs⟩ | hs | hs
  · rw [hs.2] at h
    cases h
  · rcases decodeCommitted_cases sha256 binding sector (f.read sector.offset 1088) with
      ⟨kind, hd⟩ | ⟨snapshot, hd⟩
    · rw [hs, hd] at h
      cases h
    · rw [hs, hd] at h
      cases h
  · rw [hs.2.2.2] at h
    cases h
    rfl
  · rw [hs.2] at h
    cases h

/-- What a successful mount found: a valid snapshot whose peer gives way. -/
theorem mounted_ok (h : mounted sha256 binding f = .ok store) :
    ∃ sector snapshot, statusOf sha256 binding f sector = .valid snapshot ∧
      GivesWay snapshot sector (statusOf sha256 binding f sector.other) ∧
      store = mountedSnapshot snapshot sector (statusOf sha256 binding f sector.other) := by
  rcases select_ok h (fun _ hs => (valid_revision hs).2.1) (fun _ hs => (valid_revision hs).2.1)
    (fun _ hs => uncommitted_sector hs) (fun _ hs => uncommitted_sector hs) with
    ⟨snapshot, hs⟩ | ⟨snapshot, hs⟩
  · exact ⟨.a, snapshot, hs⟩
  · exact ⟨.b, snapshot, hs⟩

/-- Exactly erased media is what reports itself as unformatted and erased. -/
theorem mounted_unformattedErased (h : mounted sha256 binding f = .error .unformattedErased) :
    f.Erased 0 8192 := by
  have herased : statusOf sha256 binding f .a = .erased ∧
    statusOf sha256 binding f .b = .erased := by
    unfold mounted at h
    cases ha : statusOf sha256 binding f .a with
    | erased =>
      cases hb : statusOf sha256 binding f .b with
      | erased => exact ⟨rfl, rfl⟩
      | uncommitted | valid =>
        rw [ha, hb] at h
        cases h
      | invalid sector kind =>
        rw [ha, hb] at h
        cases kind <;> cases h
    | uncommitted sector =>
      cases hb : statusOf sha256 binding f .b with
      | erased | uncommitted =>
        rw [ha, hb] at h
        cases h
      | valid snapshot =>
        rw [ha, hb] at h
        change selectOneValid snapshot (some sector) = _ at h
        unfold selectOneValid at h
        dsimp only at h
        split at h <;> cases h
      | invalid sector kind =>
        rw [ha, hb] at h
        cases kind <;> cases h
    | valid snapshot =>
      cases hb : statusOf sha256 binding f .b with
      | erased =>
        rw [ha, hb] at h
        cases h
      | uncommitted sector =>
        rw [ha, hb] at h
        change selectOneValid snapshot (some sector) = _ at h
        unfold selectOneValid at h
        dsimp only at h
        split at h <;> cases h
      | valid snapshot' =>
        rw [ha, hb] at h
        change selectTwoValid snapshot snapshot' = _ at h
        unfold selectTwoValid linkTwoValid at h
        split at h <;> split at h <;> cases h
      | invalid sector kind =>
        rw [ha, hb] at h
        cases kind <;> cases h
    | invalid sector kind =>
      rw [ha] at h
      change Except.error (mapInvalid sector kind) = _ at h
      cases kind <;> cases h
  have ha : f.Erased 0 4096 := erased_of_statusOf herased.1
  have hb : f.Erased 4096 4096 := erased_of_statusOf herased.2
  intro i hi
  by_cases hi' : i < 4096
  · exact ha i hi'
  · have := hb (i - 4096) (by omega)
    rwa [show 4096 + (i - 4096) = 0 + i by omega] at this

end Network
