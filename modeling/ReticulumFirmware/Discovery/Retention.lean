import ReticulumFirmware.Collections.Recency
import ReticulumFirmware.Discovery.Peers

/-!
# What the table of peers retains

The table keeps the newest observation of the most recently observed destinations.
-/

namespace Discovery

variable {appDataCapacity : ℕ}

namespace DiscoveredPeers

variable (self : DiscoveredPeers appDataCapacity) {later : DiscoveredPeers appDataCapacity}
  {destination : DestinationHash}

/-- What an accepted observation changes, by its record. -/
inductive Change (self : DiscoveredPeers appDataCapacity) (peer : DiscoveredPeer appDataCapacity)
    (later : DiscoveredPeers appDataCapacity) : Prop
  | updated {old : DiscoveredPeer appDataCapacity} {rest : List (DiscoveredPeer appDataCapacity)}
      (hold : old.destination = peer.destination) (hbefore : self.records.Perm (old :: rest))
      (hafter : later.records.Perm (peer :: rest)) (hlen : later.len = self.len)
  | inserted (habsent : ∀ other ∈ self.records, other.destination ≠ peer.destination)
      (hroom : self.records.length < self.peers.length)
      (hafter : later.records.Perm (peer :: self.records)) (hlen : later.len = self.len + 1)
  | evicted {oldest : DiscoveredPeer appDataCapacity}
      {rest : List (DiscoveredPeer appDataCapacity)}
      (habsent : ∀ other ∈ self.records, other.destination ≠ peer.destination)
      (hfull : self.records.length = self.peers.length)
      (hbefore : self.records.Perm (oldest :: rest))
      (holdest : ∀ other ∈ rest, oldest.generation ≤ other.generation)
      (hafter : later.records.Perm (peer :: rest)) (hlen : later.len = self.len)

/-- The table accepted an observation. -/
structure Accepts (table : DiscoveredPeers appDataCapacity)
    (observation : AuthenticatedAnnounceObservation)
    (later : DiscoveredPeers appDataCapacity) : Prop where
  fits : observation.appData.length ≤ appDataCapacity
  change : table.Change (.fromObservation observation fits (table.latestGeneration + 1)) later
  slots : later.peers.length = table.peers.length
  generation : later.latestGeneration = table.latestGeneration + 1
  observed : later.lastObservedAt = some observation.metadata.observedAt

/-- The records without those of one slot. -/
def others (index : ℕ) : List (DiscoveredPeer appDataCapacity) :=
  (self.peers.eraseIdx index).filterMap fun slot => slot

variable {self}

/-- The records are those of a slot and the others. -/
theorem records_perm {index : ℕ} {slot : Option (DiscoveredPeer appDataCapacity)}
    (h : self.peers[index]? = some slot) :
    self.records.Perm (slot.toList ++ self.others index) := by
  obtain ⟨hindex, rfl⟩ := List.getElem?_eq_some_iff.mp h
  have hperm := (List.getElem_cons_eraseIdx_perm hindex).symm.filterMap fun slot => slot
  refine hperm.trans ?_
  rw [List.filterMap_cons]
  cases self.peers[index] with
  | none => exact .refl _
  | some peer => exact .refl _

/-- A filled slot replaces its record. -/
theorem records_set {index : ℕ} (hindex : index < self.peers.length)
    (peer : DiscoveredPeer appDataCapacity)
    (hlater : later.peers = self.peers.set index (some peer)) :
    later.records.Perm (peer :: self.others index) := by
  have hget : later.peers[index]? = some (some peer) := by
    rw [hlater, List.getElem?_set_self hindex]
  have hothers : later.others index = self.others index := by
    rw [others, others, hlater, List.eraseIdx_set_eq]
  have hperm := records_perm hget
  rwa [hothers] at hperm

/-- The records are the peers in the slots. -/
theorem mem_records {peer : DiscoveredPeer appDataCapacity} :
    peer ∈ self.records ↔ some peer ∈ self.peers := by
  simp [records]

/-- A destination without a slot is in no record. -/
theorem absent_of_indexOf (h : self.indexOf destination = none) :
    ∀ other ∈ self.records, other.destination ≠ destination := by
  intro other hother
  rw [indexOf, List.findIdx?_eq_none_iff] at h
  simpa using h (some other) (mem_records.mp hother)

/-- The index of a destination is that of its peer. -/
theorem slot_of_indexOf {index : ℕ} (h : self.indexOf destination = some index) :
    ∃ peer, self.peers[index]? = some (some peer) ∧ peer.destination = destination := by
  obtain ⟨hindex, hfound, -⟩ := List.findIdx?_eq_some_iff_getElem.mp h
  obtain ⟨peer, hpeer, hdestination⟩ : ∃ peer, self.peers[index] = some peer ∧
      peer.destination = destination := by
    simpa [Option.any_eq_true] using hfound
  exact ⟨peer, List.getElem?_eq_some_iff.mpr ⟨hindex, hpeer⟩, hdestination⟩

/-- The first empty slot is empty. -/
theorem slot_of_firstEmptySlot {index : ℕ} (h : self.firstEmptySlot = some index) :
    self.peers[index]? = some none := by
  obtain ⟨hindex, hempty, -⟩ := List.findIdx?_eq_some_iff_getElem.mp h
  exact List.getElem?_eq_some_iff.mpr ⟨hindex, Option.isNone_iff_eq_none.mp hempty⟩

/-- Without an empty slot every slot has a record. -/
theorem length_records_of_full (h : self.firstEmptySlot = none) :
    self.records.length = self.peers.length := by
  rw [firstEmptySlot, List.findIdx?_eq_none_iff] at h
  rw [records, List.length_filterMap_eq_countP, List.countP_eq_length]
  intro slot hslot
  rw [← Option.isNone_eq_false_iff]
  exact h slot hslot

/-- The oldest slot has the record with the smallest generation. -/
theorem slot_of_oldestSlot {index : ℕ} {oldest : DiscoveredPeer appDataCapacity}
    (h : self.oldestSlot = some (index, oldest)) :
    self.peers[index]? = some (some oldest) ∧
      ∀ other ∈ self.records, oldest.generation ≤ other.generation := by
  have hmem := List.argmin_mem h
  rw [List.mem_filterMap] at hmem
  obtain ⟨⟨slot, position⟩, hslot, hmap⟩ := hmem
  obtain ⟨peer, rfl, hpair⟩ := Option.map_eq_some_iff.mp hmap
  cases hpair
  constructor
  · rw [List.mk_mem_zipIdx_iff_getElem?] at hslot
    exact hslot
  · intro other hother
    obtain ⟨place, hplace, hget⟩ := List.mem_iff_getElem.mp (mem_records.mp hother)
    have hlisted : (place, other) ∈ self.peers.zipIdx.filterMap
        fun entry => entry.1.map fun peer => (entry.2, peer) := by
      rw [List.mem_filterMap]
      refine ⟨(some other, place), ?_, rfl⟩
      rw [List.mk_mem_zipIdx_iff_getElem?]
      exact List.getElem?_eq_some_iff.mpr ⟨hplace, hget⟩
    exact List.le_of_mem_argmin (f := fun entry => entry.2.generation) hlisted h

/-- Where an observation goes. -/
theorem place_cases (self : DiscoveredPeers appDataCapacity) (destination : DestinationHash) :
    (∃ index old, self.place destination = (index, .updated) ∧
      self.peers[index]? = some (some old) ∧ old.destination = destination) ∨
    (∃ index, self.place destination = (index, .inserted) ∧ self.peers[index]? = some none ∧
      ∀ other ∈ self.records, other.destination ≠ destination) ∨
    ∃ index oldest, self.place destination = (index, .evicted oldest.destination) ∧
      self.peers[index]? = some (some oldest) ∧
      self.records.length = self.peers.length ∧
      (∀ other ∈ self.records, other.destination ≠ destination) ∧
      ∀ other ∈ self.records, oldest.generation ≤ other.generation := by
  unfold place
  split
  · next index hindex =>
    obtain ⟨old, hold, hdestination⟩ := slot_of_indexOf hindex
    exact Or.inl ⟨index, old, rfl, hold, hdestination⟩
  · next hindex =>
    split
    · next index hempty =>
      exact Or.inr (Or.inl ⟨index, rfl, slot_of_firstEmptySlot hempty, absent_of_indexOf hindex⟩)
    · next hfull =>
      obtain ⟨⟨index, oldest⟩, hslot⟩ := Option.isSome_iff_exists.mp (self.oldestSlot_isSome hfull)
      obtain ⟨hget, holdest⟩ := slot_of_oldestSlot hslot
      simp only [hslot, Option.get_some]
      exact Or.inr (Or.inr ⟨index, oldest, rfl, hget, length_records_of_full hfull,
        absent_of_indexOf hindex, holdest⟩)

/-- An observation is refused without effect, or accepted. -/
theorem observe_cases (self : DiscoveredPeers appDataCapacity)
    (observation : AuthenticatedAnnounceObservation) :
    (∃ error, self.observe observation = (.error error, self)) ∨
      (∃ outcome, (self.observe observation).1 = .ok outcome) ∧
        self.Accepts observation (self.observe observation).2 := by
  unfold observe
  split
  · next hfits =>
    split
    · exact Or.inl ⟨_, rfl⟩
    · dsimp only
      by_cases hleft : self.latestGeneration + 1 < 2 ^ 64
      · rw [if_pos hleft]
        refine Or.inr ⟨⟨_, rfl⟩, ?_⟩
        refine ⟨hfits, ?_, by simp, rfl, rfl⟩
        rcases self.place_cases observation.destination with
          ⟨index, old, hplace, hget, hold⟩ | ⟨index, hplace, hget, habsent⟩ |
            ⟨index, oldest, hplace, hget, hfull, habsent, holdest⟩
        · have hindex := (List.getElem?_eq_some_iff.mp hget).1
          rw [hplace]
          exact .updated hold (records_perm hget) (records_set hindex _ rfl) (by simp)
        · have hindex := (List.getElem?_eq_some_iff.mp hget).1
          rw [hplace]
          have hsame := records_perm hget
          refine .inserted habsent ?_ ((records_set hindex _ rfl).trans (hsame.symm.cons _))
            (by simp)
          have hlength := hsame.length_eq
          have hbound := List.length_filterMap_le (fun slot => slot) (self.peers.eraseIdx index)
          rw [List.length_eraseIdx_of_lt hindex] at hbound
          change self.records.length = (self.others index).length at hlength
          change (self.others index).length ≤ _ at hbound
          omega
        · have hindex := (List.getElem?_eq_some_iff.mp hget).1
          have hbefore := records_perm hget
          rw [hplace]
          refine .evicted habsent hfull hbefore ?_ (records_set hindex _ rfl) (by simp)
          intro other hother
          exact holdest other (hbefore.mem_iff.mpr (List.mem_cons_of_mem _ hother))
      · rw [if_neg hleft]
        exact Or.inl ⟨_, rfl⟩
  · exact Or.inl ⟨_, rfl⟩

/-- An observation is accepted exactly when its data fits, its clock did not go back and a
generation is left. -/
theorem observe_ok_iff (self : DiscoveredPeers appDataCapacity)
    (observation : AuthenticatedAnnounceObservation) :
    (∃ outcome, (self.observe observation).1 = .ok outcome) ↔
      observation.appData.length ≤ appDataCapacity ∧
        (∀ previous ∈ self.lastObservedAt, previous ≤ observation.metadata.observedAt) ∧
        self.latestGeneration + 1 < 2 ^ 64 := by
  unfold observe
  split
  · next hfits =>
    split
    · next previous hregressed =>
      obtain ⟨hprevious, hlt⟩ := Option.filter_eq_some_iff.mp hregressed
      refine ⟨nofun, fun h => ?_⟩
      exact absurd (h.2.1 previous hprevious) (Nat.not_le.mpr (of_decide_eq_true hlt))
    · next hordered =>
      have hclock : ∀ previous ∈ self.lastObservedAt,
          previous ≤ observation.metadata.observedAt := by
        intro previous hprevious
        have hnot := Option.filter_eq_none_iff.mp hordered previous hprevious
        exact Nat.not_lt.mp fun hlt => hnot (decide_eq_true hlt)
      dsimp only
      split
      · next hleft => exact ⟨fun _ => ⟨hfits, hclock, hleft⟩, fun _ => ⟨_, rfl⟩⟩
      · next hnone => exact ⟨nofun, fun h => absurd h.2.2 hnone⟩
  · next hlarge => exact ⟨nofun, fun h => absurd h.1 hlarge⟩

end DiscoveredPeers

/-- An accepted observation with its generation. -/
abbrev Evidence := AuthenticatedAnnounceObservation × ℕ

/-- The observation and generation that a record retains. -/
def DiscoveredPeer.evidence (peer : DiscoveredPeer appDataCapacity) : Evidence :=
  (⟨peer.destination, peer.identityHash, peer.appData,
    ⟨peer.hops, peer.interface, peer.signal, peer.observedAt⟩⟩, peer.generation)

/-- The destination of an accepted observation. -/
def Evidence.destination (evidence : Evidence) : DestinationHash := evidence.1.destination

/-- The accepted observations with their generations, newest first. -/
def numbered (accepted : List AuthenticatedAnnounceObservation) : List Evidence :=
  (accepted.zipIdx 1).reverse

/-- The last observation gets the next generation. -/
theorem numbered_snoc (accepted : List AuthenticatedAnnounceObservation)
    (observation : AuthenticatedAnnounceObservation) :
    numbered (accepted ++ [observation]) =
      (observation, accepted.length + 1) :: numbered accepted := by
  simp [numbered, List.zipIdx_append, Nat.add_comm]

/-- Generations count the accepted observations. -/
theorem numbered_le {accepted : List AuthenticatedAnnounceObservation} {evidence : Evidence}
    (h : evidence ∈ numbered accepted) : evidence.2 ≤ accepted.length := by
  rw [numbered, List.mem_reverse] at h
  have hlt := List.snd_lt_add_of_mem_zipIdx h
  exact Nat.le_of_lt_succ (by rwa [Nat.add_comm] at hlt)

/-- Later observations have larger generations. -/
theorem pairwise_numbered (accepted : List AuthenticatedAnnounceObservation) :
    (numbered accepted).Pairwise (·.2 > ·.2) := by
  induction accepted using List.reverseRecOn with
  | nil => exact .nil
  | append_singleton accepted observation ih =>
    rw [numbered_snoc]
    refine List.pairwise_cons.mpr ⟨?_, ih⟩
    intro evidence hevidence
    exact Nat.lt_succ_of_le (numbered_le hevidence)

/-- The newest observation of each destination, newest first. -/
def newest (accepted : List AuthenticatedAnnounceObservation) : List Evidence :=
  (numbered accepted).latest Evidence.destination

/-- The last observation is the newest and replaces the one of its destination. -/
theorem newest_snoc (accepted : List AuthenticatedAnnounceObservation)
    (observation : AuthenticatedAnnounceObservation) :
    newest (accepted ++ [observation]) = (observation, accepted.length + 1) ::
      (newest accepted).filter (Evidence.destination · ≠ observation.destination) := by
  rw [newest, numbered_snoc]
  rfl

/-- The newest observations are in falling order of their generations. -/
theorem pairwise_newest (accepted : List AuthenticatedAnnounceObservation) :
    (newest accepted).Pairwise (·.2 > ·.2) :=
  (pairwise_numbered accepted).sublist (List.latest_sublist _ _)

namespace DiscoveredPeers

/-- The observations of a run that are accepted, and the table after it. -/
def run (self : DiscoveredPeers appDataCapacity) :
    List AuthenticatedAnnounceObservation →
      List AuthenticatedAnnounceObservation × DiscoveredPeers appDataCapacity
  | [] => ([], self)
  | observation :: observations =>
    let (result, later) := self.observe observation
    let (accepted, last) := later.run observations
    (if result.isOk then observation :: accepted else accepted, last)

/-- The table retains the newest observations of as many destinations as it has slots. -/
structure Retains (table : DiscoveredPeers appDataCapacity) (slots : ℕ)
    (accepted : List AuthenticatedAnnounceObservation) : Prop where
  capacity : table.capacity = slots
  records : (table.records.map DiscoveredPeer.evidence).Perm ((newest accepted).take slots)
  len : table.len = table.records.length
  generation : table.latestGeneration = accepted.length
  observed : table.lastObservedAt = accepted.getLast?.map (·.metadata.observedAt)

variable {self later : DiscoveredPeers appDataCapacity} {slots : ℕ}
  {accepted : List AuthenticatedAnnounceObservation}
  {observation : AuthenticatedAnnounceObservation}

/-- The record of an observation retains the observation. -/
theorem evidence_fromObservation (h : observation.appData.length ≤ appDataCapacity)
    (generation : ℕ) :
    (DiscoveredPeer.fromObservation observation h generation).evidence =
      (observation, generation) := rfl

/-- A table that retains observations has a slot. -/
theorem Retains.slots_pos (h : self.Retains slots accepted) : 0 < slots := by
  rw [← h.capacity]
  exact List.length_pos_of_ne_nil self.nonempty

/-- A destination in no record is in none of the newest observations that are retained. -/
theorem Retains.absent (h : self.Retains slots accepted) {destination : DestinationHash}
    (habsent : ∀ other ∈ self.records, other.destination ≠ destination) :
    ∀ evidence ∈ (newest accepted).take slots, evidence.destination ≠ destination := by
  intro evidence hevidence
  obtain ⟨peer, hpeer, rfl⟩ := List.mem_map.mp (h.records.mem_iff.mpr hevidence)
  exact habsent peer hpeer

/-- An observation of a retained destination replaces its record. -/
theorem Retains.updated {n : ℕ} (h : self.Retains (n + 1) accepted)
    {old : DiscoveredPeer appDataCapacity} {rest : List (DiscoveredPeer appDataCapacity)}
    (hold : old.destination = observation.destination)
    (hbefore : self.records.Perm (old :: rest)) :
    (rest.map DiscoveredPeer.evidence).Perm
      (((newest accepted).filter (Evidence.destination · ≠ observation.destination)).take n) := by
  have hkeys := List.pairwise_latest Evidence.destination (numbered accepted)
  have hretained := h.records.symm.trans (hbefore.map DiscoveredPeer.evidence)
  have hmem : old.evidence ∈ (newest accepted).take (n + 1) :=
    hretained.mem_iff.mpr (by simp)
  have hkept := List.perm_cons_filter (hkeys.sublist (List.take_sublist _ _)) hmem
  have hrest := (hretained.symm.trans hkept).cons_inv
  have htake := List.take_filter_of_present hkeys hmem
  change old.evidence.destination = observation.destination at hold
  rw [hold] at hrest htake
  rw [newest, htake]
  exact hrest

/-- An observation of a new destination takes a free slot. -/
theorem Retains.inserted {n : ℕ} (h : self.Retains (n + 1) accepted)
    (habsent : ∀ other ∈ self.records, other.destination ≠ observation.destination)
    (hroom : self.records.length < n + 1) :
    (self.records.map DiscoveredPeer.evidence).Perm
      (((newest accepted).filter (Evidence.destination · ≠ observation.destination)).take n) := by
  have hlength := h.records.length_eq
  rw [List.length_map, List.length_take] at hlength
  have hwhole : (newest accepted).take (n + 1) = (newest accepted).take n := by
    rw [List.take_of_length_le (by omega), List.take_of_length_le (by omega)]
  have hkept := h.absent habsent
  have hrecords := h.records
  rw [hwhole] at hkept hrecords
  rw [List.take_filter_of_absent hkept]
  exact hrecords

/-- An observation of a new destination takes the slot of the oldest one. -/
theorem Retains.evicted {n : ℕ} (h : self.Retains (n + 1) accepted)
    {oldest : DiscoveredPeer appDataCapacity} {rest : List (DiscoveredPeer appDataCapacity)}
    (habsent : ∀ other ∈ self.records, other.destination ≠ observation.destination)
    (hfull : self.records.length = n + 1) (hbefore : self.records.Perm (oldest :: rest))
    (holdest : ∀ other ∈ rest, oldest.generation ≤ other.generation) :
    (rest.map DiscoveredPeer.evidence).Perm
      (((newest accepted).filter (Evidence.destination · ≠ observation.destination)).take n) := by
  have hlength := h.records.length_eq
  rw [List.length_map, List.length_take, hfull] at hlength
  have hn : n < (newest accepted).length := by omega
  have hsplit : (newest accepted).take (n + 1) = (newest accepted).take n ++
    [(newest accepted)[n]] :=
    List.take_succ_eq_append_getElem hn
  have hretained := h.records.symm.trans (hbefore.map DiscoveredPeer.evidence)
  have hnewer : ∀ evidence ∈ (newest accepted).take n, (newest accepted)[n].2 < evidence.2 := by
    have hsorted := (pairwise_newest accepted).sublist (List.take_sublist (n + 1) _)
    rw [hsplit, List.pairwise_append] at hsorted
    exact fun evidence hevidence => hsorted.2.2 evidence hevidence _ (by simp)
  -- the last of the retained observations is the oldest, so it is the record that goes
  have hlast : oldest.evidence = (newest accepted)[n] := by
    have hold : oldest.evidence ∈ (newest accepted).take (n + 1) := hretained.mem_iff.mpr (by simp)
    rw [hsplit, List.mem_append, List.mem_singleton] at hold
    rcases hold with hfirst | hlast
    · have hmem : (newest accepted)[n] ∈ (oldest :: rest).map DiscoveredPeer.evidence :=
        hretained.mem_iff.mp (by
          rw [hsplit]
          exact List.mem_append_right _ (List.mem_singleton.mpr rfl))
      rw [List.map_cons, List.mem_cons] at hmem
      rcases hmem with hsame | hmem
      · exact hsame.symm
      · obtain ⟨other, hother, hevidence⟩ := List.mem_map.mp hmem
        have hle := holdest other hother
        have hlt := hnewer _ hfirst
        rw [← hevidence] at hlt
        exact absurd hle (Nat.not_le.mpr hlt)
    · exact hlast
  have hkept : ∀ evidence ∈ (newest accepted).take n,
      evidence.destination ≠ observation.destination := by
    intro evidence hevidence
    refine h.absent habsent evidence ?_
    rw [hsplit]
    exact List.mem_append_left _ hevidence
  rw [hsplit, List.map_cons, hlast] at hretained
  rw [List.take_filter_of_absent hkept]
  exact (hretained.symm.trans (List.perm_append_singleton _ _)).cons_inv

/-- An accepted observation becomes the newest one. -/
theorem Retains.accept (h : self.Retains slots accepted) (hstep : self.Accepts observation later) :
    later.Retains slots (accepted ++ [observation]) := by
  obtain ⟨n, rfl⟩ := Nat.exists_eq_add_one.mpr h.slots_pos
  have hslots : self.peers.length = n + 1 := h.capacity
  have hcapacity : later.capacity = n + 1 := hstep.slots.trans hslots
  have hgeneration : later.latestGeneration = (accepted ++ [observation]).length := by
    rw [hstep.generation, h.generation, List.length_append, List.length_singleton]
  have hobserved : later.lastObservedAt =
      (accepted ++ [observation]).getLast?.map (·.metadata.observedAt) := by
    rw [hstep.observed, List.getLast?_concat, Option.map_some]
  have hretained : ∀ {rest : List (DiscoveredPeer appDataCapacity)},
      later.records.Perm
        (.fromObservation observation hstep.fits (self.latestGeneration + 1) :: rest) →
      (rest.map DiscoveredPeer.evidence).Perm
        (((newest accepted).filter (Evidence.destination · ≠ observation.destination)).take n) →
      (later.records.map DiscoveredPeer.evidence).Perm
        ((newest (accepted ++ [observation])).take (n + 1)) := by
    intro rest hafter hrest
    refine (hafter.map _).trans ?_
    rw [newest_snoc, List.take_succ_cons, List.map_cons, evidence_fromObservation, h.generation]
    exact hrest.cons _
  cases hstep.change with
  | updated hold hbefore hafter hlen =>
    refine ⟨hcapacity, hretained hafter (h.updated hold hbefore), ?_, hgeneration,
      hobserved⟩
    rw [hlen, h.len, hbefore.length_eq, hafter.length_eq]
    rfl
  | inserted habsent hroom hafter hlen =>
    refine ⟨hcapacity, hretained hafter (h.inserted habsent (by omega)), ?_,
      hgeneration, hobserved⟩
    rw [hlen, h.len, hafter.length_eq]
    rfl
  | evicted habsent hfull hbefore holdest hafter hlen =>
    refine ⟨hcapacity, hretained hafter (h.evicted habsent (by omega) hbefore holdest), ?_,
      hgeneration, hobserved⟩
    rw [hlen, h.len, hbefore.length_eq, hafter.length_eq]
    rfl

/-- Observations in any number keep what the table retains. -/
theorem Retains.run (h : self.Retains slots accepted)
    (observations : List AuthenticatedAnnounceObservation) :
    (self.run observations).2.Retains slots (accepted ++ (self.run observations).1) := by
  induction observations generalizing self accepted with
  | nil => simpa [DiscoveredPeers.run] using h
  | cons observation observations ih =>
    unfold DiscoveredPeers.run
    rcases self.observe_cases observation with ⟨error, hrefused⟩ | ⟨⟨outcome, hok⟩, haccepts⟩
    · simp only [hrefused]
      exact ih h
    · have hlater := ih (h.accept haccepts)
      rw [List.append_assoc] at hlater
      simp only [hok]
      exact hlater

/-- A record has the data and generation of the last accepted observation of its destination. -/
theorem Retains.last (h : self.Retains slots accepted) {peer : DiscoveredPeer appDataCapacity}
    (hpeer : peer ∈ self.records) :
    ∃ earlier observation later, accepted = earlier ++ observation :: later ∧
      peer.evidence = (observation, earlier.length + 1) ∧
      ∀ other ∈ later, other.destination ≠ peer.destination := by
  have hretained := List.mem_of_mem_take (h.records.mem_iff.mp (List.mem_map_of_mem hpeer))
  obtain ⟨newer, older, hnumbered, hnewer⟩ := List.mem_latest.mp hretained
  have hzip : accepted.zipIdx 1 = older.reverse ++ peer.evidence :: newer.reverse := by
    rw [← List.reverse_reverse (accepted.zipIdx 1)]
    change (numbered accepted).reverse = _
    rw [hnumbered]
    simp
  obtain ⟨earlier, rest, rfl, hearlier, hrest⟩ := List.zipIdx_eq_append_iff.mp hzip
  obtain ⟨observation, later, rfl, hobservation, hlater⟩ := List.zipIdx_eq_cons_iff.mp hrest.symm
  refine ⟨earlier, observation, later, rfl, by rw [hobservation, Nat.add_comm], ?_⟩
  intro other hother
  rw [← List.zipIdx_map_fst (1 + earlier.length + 1) later, ← hlater] at hother
  obtain ⟨evidence, hmem, rfl⟩ := List.mem_map.mp hother
  exact hnewer evidence (List.mem_reverse.mp hmem)

/-- What a table retains of the observations that it accepted. -/
structure RetentionLaw (slots : ℕ) (accepted : List AuthenticatedAnnounceObservation)
    (table : DiscoveredPeers appDataCapacity) : Prop where
  retained : (table.records.map DiscoveredPeer.evidence).Perm ((newest accepted).take slots)
  last : ∀ peer ∈ table.records, ∃ earlier observation later,
    accepted = earlier ++ observation :: later ∧
    peer.evidence = (observation, earlier.length + 1) ∧
    ∀ other ∈ later, other.destination ≠ peer.destination
  destinations : (table.records.map (·.destination)).Nodup
  generations : (table.records.map (·.generation)).Nodup
  len : table.len = table.records.length
  latest : ∀ generation, table.latest = some generation →
    ∃ peer ∈ table.records, peer.generation = generation
  accepts : ∀ observation, (∃ outcome, (table.observe observation).1 = .ok outcome) ↔
    observation.appData.length ≤ appDataCapacity ∧
      (∀ last ∈ accepted.getLast?,
        last.metadata.observedAt ≤ observation.metadata.observedAt) ∧
      accepted.length + 1 < 2 ^ 64
  refused : ∀ observation error, (table.observe observation).1 = .error error →
    (table.observe observation).2 = table

/-- The destinations of the records are distinct. -/
theorem Retains.destinations (h : self.Retains slots accepted) :
    (self.records.map (·.destination)).Nodup := by
  have hkeys : ((newest accepted).take slots).Pairwise
      (Evidence.destination · ≠ Evidence.destination ·) :=
    (List.pairwise_latest _ _).sublist (List.take_sublist _ _)
  have hrecords := h.records.symm.pairwise hkeys fun hne => hne.symm
  rw [List.pairwise_map] at hrecords
  exact List.pairwise_map.mpr hrecords

/-- The generations of the records are distinct. -/
theorem Retains.generations (h : self.Retains slots accepted) :
    (self.records.map (·.generation)).Nodup := by
  have hsorted : ((newest accepted).take slots).Pairwise (·.2 ≠ ·.2) :=
    ((pairwise_newest accepted).sublist (List.take_sublist _ _)).imp fun hgt => Nat.ne_of_gt hgt
  have hrecords := h.records.symm.pairwise hsorted fun hne => hne.symm
  rw [List.pairwise_map] at hrecords
  exact List.pairwise_map.mpr hrecords

/-- No record is newer than the table. -/
theorem Retains.generation_le (h : self.Retains slots accepted)
    {peer : DiscoveredPeer appDataCapacity} (hpeer : peer ∈ self.records) :
    peer.generation ≤ self.latestGeneration := by
  have hretained := h.records.mem_iff.mp (List.mem_map_of_mem hpeer)
  rw [h.generation]
  exact numbered_le ((List.latest_sublist _ _).subset (List.mem_of_mem_take hretained))

/-- The record of the latest generation is retained. -/
theorem Retains.latest (h : self.Retains slots accepted) (hpos : 0 < self.latestGeneration) :
    ∃ peer ∈ self.records, peer.generation = self.latestGeneration := by
  obtain ⟨n, rfl⟩ := Nat.exists_eq_add_one.mpr h.slots_pos
  rw [h.generation] at hpos ⊢
  obtain ⟨earlier, last, rfl⟩ :=
    (List.eq_nil_or_concat' accepted).resolve_left (List.ne_nil_of_length_pos hpos)
  have hnewest : (last, (earlier ++ [last]).length) ∈
      (newest (earlier ++ [last])).take (n + 1) := by
    rw [newest_snoc, List.take_succ_cons]
    simp
  obtain ⟨peer, hpeer, hevidence⟩ := List.mem_map.mp (h.records.mem_iff.mpr hnewest)
  exact ⟨peer, hpeer, congrArg Prod.snd hevidence⟩

/-- A new table retains nothing. -/
theorem retains_tryNew {table : DiscoveredPeers appDataCapacity}
    (h : tryNew appDataCapacity slots = some table) : table.Retains slots [] := by
  unfold tryNew at h
  split_ifs at h
  cases h
  refine ⟨by simp [capacity], ?_, ?_, rfl, rfl⟩
  · simp [records, newest, numbered, List.latest]
  · simp [records]

/-- In every run the table retains exactly the newest observations of the destinations that were
observed last, as many as it has slots. -/
theorem retains_newest {table : DiscoveredPeers appDataCapacity}
    (h : tryNew appDataCapacity slots = some table)
    (observations : List AuthenticatedAnnounceObservation) :
    (table.run observations).2.RetentionLaw slots (table.run observations).1 := by
  have hrun := (retains_tryNew h).run observations
  rw [List.nil_append] at hrun
  exact
    { retained := hrun.records
      last := fun peer => hrun.last
      destinations := hrun.destinations
      generations := hrun.generations
      len := hrun.len
      latest := by
        intro generation hgeneration
        unfold latest at hgeneration
        split_ifs at hgeneration with hzero
        cases hgeneration
        exact hrun.latest (Nat.pos_of_ne_zero hzero)
      accepts := by
        intro observation
        rw [observe_ok_iff, hrun.observed, hrun.generation]
        simp only [Option.mem_map, forall_exists_index, and_imp, forall_apply_eq_imp_iff₂]
      refused := by
        intro observation error herror
        rcases (table.run observations).2.observe_cases observation with
          ⟨_, hrefused⟩ | ⟨⟨_, hok⟩, -⟩
        · rw [hrefused]
        · rw [hok] at herror
          cases herror }

end DiscoveredPeers

/-- An announce without signal or application data. -/
def announce (destination : Nor.Byte) (observedAt : ℕ) :
    AuthenticatedAnnounceObservation :=
  ⟨Vector.replicate 16 destination, Vector.replicate 16 destination, [],
    ⟨1, Vector.replicate 8 7, ⟨none, none⟩, observedAt⟩⟩

/-- A table with two slots. -/
def twoSlots : DiscoveredPeers 4 := ⟨[none, none], List.cons_ne_nil _ _, 0, 0, none⟩

/-- The law for three destinations in two slots, with one observation refused. -/
theorem twoSlots_retains_newest :
    let run := twoSlots.run [announce 1 5, announce 2 6, announce 1 7, announce 3 6, announce 3 8]
    run.2.RetentionLaw 2 run.1 :=
  DiscoveredPeers.retains_newest rfl _

end Discovery
