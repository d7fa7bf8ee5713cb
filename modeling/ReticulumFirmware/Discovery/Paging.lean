import Mathlib.Data.List.Nodup
import ReticulumFirmware.Discovery.Retention

/-!
# Reading the table of peers page by page

A walk reads one record after the last one it was given, while the table goes on observing.
-/

namespace Discovery

variable {appDataCapacity : ℕ}

/-- A read of the next page, or an observation in between. -/
inductive WalkStep where
  | page
  | observe (observation : AuthenticatedAnnounceObservation)

/-- A table that is being read: the cursor, and the pages read so far. -/
structure Walk (appDataCapacity : ℕ) where
  table : DiscoveredPeers appDataCapacity
  cursor : ℕ
  pages : List (DiscoveryPage appDataCapacity)

namespace Walk

variable (walk : Walk appDataCapacity)

/-- The records that the pages returned. -/
def returned : List (DiscoveredPeer appDataCapacity) := walk.pages.filterMap (·.peer)

/-- One step of a walk. -/
def step : WalkStep → Walk appDataCapacity
  | .page =>
    match walk.table.pageAfter walk.cursor with
    | .ok page => { walk with cursor := page.nextCursor, pages := walk.pages ++ [page] }
    | .error _ => walk
  | .observe observation => { walk with table := (walk.table.observe observation).2 }

end Walk

namespace DiscoveredPeers

variable {self later : DiscoveredPeers appDataCapacity} {slots : ℕ}
  {accepted : List AuthenticatedAnnounceObservation} {cursor : ℕ}

/-- A record after an observation is its record or an old one. -/
theorem Change.mem {peer other : DiscoveredPeer appDataCapacity} (h : self.Change peer later)
    (hother : other ∈ later.records) : other = peer ∨ other ∈ self.records := by
  cases h with
  | updated hold hbefore hafter hlen =>
    rcases List.mem_cons.mp (hafter.mem_iff.mp hother) with hsame | hrest
    · exact Or.inl hsame
    · exact Or.inr (hbefore.mem_iff.mpr (List.mem_cons_of_mem _ hrest))
  | inserted habsent hroom hafter hlen => exact List.mem_cons.mp (hafter.mem_iff.mp hother)
  | evicted habsent hfull hbefore holdest hafter hlen =>
    rcases List.mem_cons.mp (hafter.mem_iff.mp hother) with hsame | hrest
    · exact Or.inl hsame
    · exact Or.inr (hbefore.mem_iff.mpr (List.mem_cons_of_mem _ hrest))

/-- What a page says about the records after its cursor. -/
structure Pages (table : DiscoveredPeers appDataCapacity) (cursor : ℕ)
    (page : DiscoveryPage appDataCapacity) : Prop where
  peer : ∀ peer, page.peer = some peer → peer ∈ table.records ∧ cursor < peer.generation ∧
    page.nextCursor = peer.generation ∧
    ∀ other ∈ table.records, cursor < other.generation → peer.generation ≤ other.generation
  empty : page.peer = none → page.nextCursor = cursor ∧
    ∀ other ∈ table.records, other.generation ≤ cursor
  historyGap : page.historyGap = page.peer.any (·.generation - cursor > 1)

/-- A cursor that history has reached is answered. -/
theorem pageAfter_ok (self : DiscoveredPeers appDataCapacity)
    (h : cursor ≤ self.latestGeneration) :
    ∃ page, self.pageAfter cursor = .ok page ∧ self.Pages cursor page := by
  unfold pageAfter
  rw [if_neg (Nat.not_lt.mpr h)]
  refine ⟨_, rfl, ?_, ?_, rfl⟩
  · intro peer hpeer
    dsimp only at hpeer
    have hmem := List.mem_filter.mp (List.argmin_mem hpeer)
    refine ⟨hmem.1, of_decide_eq_true hmem.2, by simp [hpeer], ?_⟩
    intro other hother hafter
    exact List.le_of_mem_argmin (List.mem_filter.mpr ⟨hother, decide_eq_true hafter⟩) hpeer
  · intro hempty
    dsimp only at hempty
    refine ⟨by simp [hempty], ?_⟩
    intro other hother
    rw [List.argmin_eq_none, List.filter_eq_nil_iff] at hempty
    exact Nat.not_lt.mp (by simpa using hempty other hother)

end DiscoveredPeers

/-- A walk has returned what it passed. -/
structure Walk.Sound (walk : Walk appDataCapacity) (slots : ℕ) (start : ℕ) :
    Prop where
  retains : ∃ accepted, walk.table.Retains slots accepted
  reached : walk.cursor ≤ walk.table.latestGeneration
  increasing : (walk.returned.map (·.generation)).Pairwise (· < ·)
  passed : ∀ peer ∈ walk.returned, peer.generation ≤ walk.cursor
  complete : ∀ peer ∈ walk.table.records, start < peer.generation →
    peer.generation ≤ walk.cursor → peer ∈ walk.returned

namespace Walk

variable {walk : Walk appDataCapacity} {slots : ℕ} {start : ℕ}

/-- A walk that begins at a cursor that history has reached. -/
theorem sound_start {table : DiscoveredPeers appDataCapacity}
    {accepted : List AuthenticatedAnnounceObservation} (h : table.Retains slots accepted)
    (hreached : start ≤ table.latestGeneration) : Sound ⟨table, start, []⟩ slots start :=
  { retains := ⟨accepted, h⟩
    reached := hreached
    increasing := .nil
    passed := nofun
    complete := fun _ _ hafter hbefore => absurd hbefore (Nat.not_le.mpr hafter) }

/-- Two records of one generation are one. -/
theorem eq_of_generation {table : DiscoveredPeers appDataCapacity}
    {accepted : List AuthenticatedAnnounceObservation} (h : table.Retains slots accepted)
    {peer other : DiscoveredPeer appDataCapacity} (hpeer : peer ∈ table.records)
    (hother : other ∈ table.records) (hsame : peer.generation = other.generation) :
    peer = other :=
  List.inj_on_of_nodup_map h.generations hpeer hother hsame

/-- A page keeps the walk sound. -/
theorem Sound.page (h : walk.Sound slots start) : (walk.step .page).Sound slots start := by
  obtain ⟨page, hpage, hpages⟩ := walk.table.pageAfter_ok h.reached
  obtain ⟨accepted, hretains⟩ := h.retains
  have hstep : walk.step .page = ⟨walk.table, page.nextCursor, walk.pages ++ [page]⟩ := by
    simp only [step, hpage]
  rw [hstep]
  cases hpeer : page.peer with
  | none =>
    obtain ⟨hcursor, -⟩ := hpages.empty hpeer
    have hreturned : returned ⟨walk.table, page.nextCursor, walk.pages ++ [page]⟩ =
        walk.returned := by
      simp [returned, hpeer]
    refine ⟨h.retains, ?_, ?_, ?_, ?_⟩
    · dsimp only
      rw [hcursor]
      exact h.reached
    · rw [hreturned]
      exact h.increasing
    · rw [hreturned, hcursor]
      exact h.passed
    · rw [hreturned, hcursor]
      exact h.complete
  | some peer =>
    obtain ⟨hmem, hafter, hcursor, hfirst⟩ := hpages.peer peer hpeer
    have hreturned : returned ⟨walk.table, page.nextCursor, walk.pages ++ [page]⟩ =
        walk.returned ++ [peer] := by
      simp [returned, hpeer]
    refine ⟨h.retains, ?_, ?_, ?_, ?_⟩
    · dsimp only
      rw [hcursor]
      exact hretains.generation_le hmem
    · rw [hreturned, List.map_append, List.pairwise_append]
      refine ⟨h.increasing, List.pairwise_singleton _ _, ?_⟩
      intro generation hgeneration later hlater
      obtain ⟨old, hold, rfl⟩ := List.mem_map.mp hgeneration
      rw [List.mem_singleton.mp hlater]
      exact (h.passed old hold).trans_lt hafter
    · rw [hreturned, hcursor]
      intro old hold
      rcases List.mem_append.mp hold with hold | hnew
      · exact (h.passed old hold).trans hafter.le
      · rw [List.mem_singleton.mp hnew]
    · rw [hreturned, hcursor]
      intro other hother hstart hle
      rcases Nat.lt_or_ge walk.cursor other.generation with hlater | hpassed
      · have hsame := Nat.le_antisymm hle (hfirst other hother hlater)
        rw [eq_of_generation hretains hother hmem hsame]
        simp
      · exact List.mem_append_left _ (h.complete other hother hstart hpassed)

/-- An observation keeps the walk sound. -/
theorem Sound.observe (h : walk.Sound slots start)
    (observation : AuthenticatedAnnounceObservation) :
    (walk.step (.observe observation)).Sound slots start := by
  change Walk.Sound ⟨(walk.table.observe observation).2, walk.cursor, walk.pages⟩ slots start
  rcases walk.table.observe_cases observation with ⟨error, hrefused⟩ | ⟨-, haccepts⟩
  · rw [hrefused]
    exact h
  · obtain ⟨accepted, hretains⟩ := h.retains
    refine ⟨⟨_, hretains.accept haccepts⟩, ?_, h.increasing, h.passed, ?_⟩
    · change walk.cursor ≤ (walk.table.observe observation).2.latestGeneration
      rw [haccepts.generation]
      exact h.reached.trans (Nat.le_succ _)
    · intro peer hpeer hstart hpassed
      change peer.generation ≤ walk.cursor at hpassed
      rcases haccepts.change.mem hpeer with rfl | hold
      · have hnew : walk.table.latestGeneration + 1 ≤ walk.cursor := hpassed
        exact absurd (hnew.trans h.reached) (Nat.not_succ_le_self _)
      · exact h.complete peer hold hstart hpassed

/-- Pages and observations in any order keep the walk sound. -/
theorem Sound.run (h : walk.Sound slots start) (steps : List WalkStep) :
    (steps.foldl step walk).Sound slots start := by
  induction steps generalizing walk with
  | nil => exact h
  | cons next steps ih =>
    cases next with
    | page => exact ih h.page
    | observe observation => exact ih (h.observe observation)

/-- What a walk has returned, and what its next page says. -/
structure PagingLaw (start : ℕ) (walk : Walk appDataCapacity)
    (page : DiscoveryPage appDataCapacity) : Prop where
  increasing : (walk.returned.map (·.generation)).Pairwise (· < ·)
  complete : page.peer = none → ∀ peer ∈ walk.table.records, start < peer.generation →
    peer ∈ walk.returned
  historyGap : page.historyGap = false ↔ ∀ peer, page.peer = some peer →
    ∀ generation, walk.cursor < generation → generation ≤ peer.generation →
      generation = peer.generation
  empty : page.peer = none ↔ walk.cursor = walk.table.latestGeneration

/-- In every walk over a table that goes on observing, each page is answered, its records come in
increasing order, and a page without a record has left no record out. -/
theorem pages_miss_nothing {table : DiscoveredPeers appDataCapacity}
    (htable : DiscoveredPeers.tryNew appDataCapacity slots = some table)
    (observations : List AuthenticatedAnnounceObservation)
    (hstart : start ≤ (table.run observations).2.latestGeneration) (steps : List WalkStep) :
    let walk := steps.foldl step ⟨(table.run observations).2, start, []⟩
    ∃ page, walk.table.pageAfter walk.cursor = .ok page ∧ PagingLaw start walk page := by
  have hretains := (DiscoveredPeers.retains_tryNew htable).run observations
  have hsound := (sound_start hretains hstart).run steps
  intro walk
  change walk.Sound slots start at hsound
  obtain ⟨page, hpage, hpages⟩ := walk.table.pageAfter_ok hsound.reached
  obtain ⟨accepted, hretains⟩ := hsound.retains
  refine ⟨page, hpage, hsound.increasing, ?_, ?_, ?_⟩
  · intro hempty peer hpeer hafter
    exact hsound.complete peer hpeer hafter ((hpages.empty hempty).2 peer hpeer)
  · rw [hpages.historyGap]
    cases hpeer : page.peer with
    | none => simp
    | some peer =>
      have hafter := (hpages.peer peer hpeer).2.1
      have hgap : (some peer).any (fun other => decide (other.generation - walk.cursor > 1)) =
        false ↔
          peer.generation = walk.cursor + 1 := by
        simp only [Option.any_some, decide_eq_false_iff_not]
        omega
      rw [hgap]
      constructor
      · rintro hnext _ ⟨⟩ generation hlt hle
        omega
      · intro hown
        exact (hown peer rfl (walk.cursor + 1) (Nat.lt_succ_self _) hafter).symm
  · constructor
    · intro hempty
      rcases Nat.eq_zero_or_pos walk.table.latestGeneration with hzero | hpos
      · rw [hzero]
        have hreached := hsound.reached
        omega
      · obtain ⟨peer, hpeer, hlatest⟩ := hretains.latest hpos
        have hle := (hpages.empty hempty).2 peer hpeer
        have hreached := hsound.reached
        omega
    · intro hcursor
      cases hpeer : page.peer with
      | none => rfl
      | some peer =>
        obtain ⟨hmem, hafter, -⟩ := hpages.peer peer hpeer
        have hle := hretains.generation_le hmem
        omega

end Walk

/-- The law for a walk during which a record moves to a new generation. -/
theorem twoSlots_pages_miss_nothing :
    let walk := [WalkStep.page, .observe (announce 1 7), .page, .page].foldl Walk.step
      ⟨(twoSlots.run [announce 1 5, announce 2 6]).2, 0, []⟩
    ∃ page, walk.table.pageAfter walk.cursor = .ok page ∧ Walk.PagingLaw 0 walk page :=
  have hslots : DiscoveredPeers.tryNew _ 2 = some twoSlots := rfl
  Walk.pages_miss_nothing hslots _ (Nat.zero_le _) _

end Discovery
