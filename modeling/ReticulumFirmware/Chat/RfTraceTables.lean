import Mathlib.Data.List.Chain
import ReticulumFirmware.Chat.Changes

/-!
# Trace tables after an import

What a successful import leaves in the tables: every event that was there, with the
correlation of its token, and one new event for each observation of the page that was not.
-/

namespace Chat

open MemoryChatStore

/-- The tables of events and of replay keys agree. -/
structure TablesSound (store : MemoryChatStore) : Prop where
  filed : ∀ id event, store.rfTraceEvents.get? id = some event →
    event.id = id ∧ id.get.toNat < store.nextRfTraceId.toNat
  keyed : ∀ boot sequence id, store.rfTraceKeys.get? (toLex (boot, sequence)) = some id ↔
    ∃ event, store.rfTraceEvents.get? id = some event ∧ event.bootId = boot ∧
      event.observation.eventSequence = sequence

/-- An event with the correlation of its token. -/
def enrich (tokens : TokenCorrelations) (event : RfTraceEvent) : RfTraceEvent :=
  match tokenOf tokens event.observation with
  | some correlation => { event with correlation := some correlation }
  | none => event

/-- The event of a new observation. -/
def newEvent (batch : RfTraceImportBatch) (tokens : TokenCorrelations) (id : RfTraceEventId)
    (observation : RfTraceObservation) : RfTraceEvent :=
  ⟨id, batch.bootId, batch.profile, batch.importedAtUnixMs, observation,
    tokenOf tokens observation⟩

/-- Enrichment keeps the identifier of an event. -/
@[simp] theorem enrich_id (tokens : TokenCorrelations) (event : RfTraceEvent) :
    (enrich tokens event).id = event.id := by
  unfold enrich
  split <;> rfl

/-- Enrichment keeps the boot of an event. -/
@[simp] theorem enrich_bootId (tokens : TokenCorrelations) (event : RfTraceEvent) :
    (enrich tokens event).bootId = event.bootId := by
  unfold enrich
  split <;> rfl

/-- Enrichment keeps the profile of an event. -/
@[simp] theorem enrich_profile (tokens : TokenCorrelations) (event : RfTraceEvent) :
    (enrich tokens event).profile = event.profile := by
  unfold enrich
  split <;> rfl

/-- Enrichment keeps the import time of an event. -/
@[simp] theorem enrich_importedAtUnixMs (tokens : TokenCorrelations) (event : RfTraceEvent) :
    (enrich tokens event).importedAtUnixMs = event.importedAtUnixMs := by
  unfold enrich
  split <;> rfl

/-- Enrichment keeps the observation of an event. -/
@[simp] theorem enrich_observation (tokens : TokenCorrelations) (event : RfTraceEvent) :
    (enrich tokens event).observation = event.observation := by
  unfold enrich
  split <;> rfl

/-- An event whose token has a correlation gets it. -/
theorem enrich_of_some {tokens : TokenCorrelations} {event : RfTraceEvent}
    {correlation : RfTraceMessageCorrelation}
    (h : tokenOf tokens event.observation = some correlation) :
    enrich tokens event = { event with correlation := some correlation } := by
  unfold enrich
  rw [h]

/-- An event whose token has no correlation is left. -/
theorem enrich_of_none {tokens : TokenCorrelations} {event : RfTraceEvent}
    (h : tokenOf tokens event.observation = none) : enrich tokens event = event := by
  unfold enrich
  rw [h]

/-- To enrich twice is to enrich once. -/
@[simp] theorem enrich_enrich (tokens : TokenCorrelations) (event : RfTraceEvent) :
    enrich tokens (enrich tokens event) = enrich tokens event := by
  cases h : tokenOf tokens event.observation with
  | none => rw [enrich_of_none h, enrich_of_none h]
  | some correlation =>
    have hagain : tokenOf tokens (enrich tokens event).observation = some correlation := by
      rwa [enrich_observation]
    rw [enrich_of_some hagain, enrich_of_some h]

/-- A new event has the correlation of its token already. -/
@[simp] theorem enrich_newEvent (batch : RfTraceImportBatch) (tokens : TokenCorrelations)
    (id : RfTraceEventId) (observation : RfTraceObservation) :
    enrich tokens (newEvent batch tokens id observation) =
      newEvent batch tokens id observation := by
  have hobservation : (newEvent batch tokens id observation).observation = observation := rfl
  cases h : tokenOf tokens observation with
  | none => rw [enrich_of_none (hobservation ▸ h)]
  | some correlation =>
    rw [enrich_of_some (hobservation ▸ h)]
    simp [newEvent, h]

/-- Binding a new event and its key keeps the tables sound. -/
theorem TablesSound.insertNew {store : MemoryChatStore} (h : TablesSound store)
    {event : RfTraceEvent} {next : UInt64} (hid : event.id.get = store.nextRfTraceId)
    (hnext : next.toNat = store.nextRfTraceId.toNat + 1)
    (hfresh : store.rfTraceKeys.get? (traceKey event.bootId event.observation) = none) :
    TablesSound { store with
      rfTraceEvents := store.rfTraceEvents.insert event.id event
      rfTraceKeys := store.rfTraceKeys.insert (traceKey event.bootId event.observation) event.id
      nextRfTraceId := next } := by
  have hunused : store.rfTraceEvents.get? event.id = none := by
    apply Option.eq_none_iff_forall_ne_some.mpr
    intro old hold
    have hcounted := (h.filed event.id old hold).2
    rw [hid] at hcounted
    omega
  constructor
  · intro id event' hevent
    dsimp only at hevent ⊢
    rw [BTreeMap.get?_insert] at hevent
    split_ifs at hevent with heq
    · cases hevent
      refine ⟨heq.symm, ?_⟩
      rw [heq, hid]
      omega
    · obtain ⟨hfiled, hcounted⟩ := h.filed id event' hevent
      exact ⟨hfiled, by omega⟩
  · intro boot sequence id
    dsimp only
    rw [BTreeMap.get?_insert]
    split_ifs with hkey
    · have hpair : boot = event.bootId ∧ sequence = event.observation.eventSequence :=
        Prod.mk.inj (toLex_inj.mp hkey)
      constructor
      · rintro ⟨⟩
        exact ⟨event, by simp, hpair.1.symm, hpair.2.symm⟩
      · rintro ⟨event', hevent', hboot, hsequence⟩
        rw [BTreeMap.get?_insert] at hevent'
        split_ifs at hevent' with heq
        · rw [heq]
        · have hold := (h.keyed boot sequence id).mpr ⟨event', hevent', hboot, hsequence⟩
          rw [hkey, hfresh] at hold
          cases hold
    · rw [h.keyed]
      constructor
      · rintro ⟨event', hevent', hboot, hsequence⟩
        refine ⟨event', ?_, hboot, hsequence⟩
        rw [BTreeMap.get?_insert, if_neg]
        · exact hevent'
        · intro heq
          rw [heq, hunused] at hevent'
          cases hevent'
      · rintro ⟨event', hevent', hboot, hsequence⟩
        rw [BTreeMap.get?_insert] at hevent'
        split_ifs at hevent' with heq
        · cases hevent'
          exact absurd (by rw [traceKey, hboot, hsequence]) hkey
        · exact ⟨event', hevent', hboot, hsequence⟩

/-- Correlating a retained event keeps the tables sound. -/
theorem TablesSound.insertOld {store : MemoryChatStore} (h : TablesSound store)
    {id : RfTraceEventId} {event event' : RfTraceEvent}
    (hevent : store.rfTraceEvents.get? id = some event) (hid : event'.id = event.id)
    (hboot : event'.bootId = event.bootId) (hobservation : event'.observation = event.observation) :
    TablesSound { store with rfTraceEvents := store.rfTraceEvents.insert id event' } := by
  constructor
  · intro id' found hfound
    dsimp only at hfound ⊢
    rw [BTreeMap.get?_insert] at hfound
    split_ifs at hfound with heq
    · cases hfound
      rw [heq, hid]
      exact h.filed id event hevent
    · exact h.filed id' found hfound
  · intro boot sequence id'
    dsimp only
    rw [h.keyed, BTreeMap.get?_insert]
    split_ifs with heq
    · subst heq
      rw [hevent]
      simp only [Option.some.injEq, exists_eq_left', hboot, hobservation]
    · rfl

/-- The tables while the page is being stored. -/
structure Storing (store : MemoryChatStore) (batch : RfTraceImportBatch)
    (tokens : TokenCorrelations) (done : List RfTraceObservation) (later : MemoryChatStore) :
    Prop where
  sound : TablesSound later
  boots : later.rfTraceBoots = store.rfTraceBoots
  /-- Events that were there may have been correlated. -/
  old : ∀ id event, store.rfTraceEvents.get? id = some event →
    later.rfTraceEvents.get? id = some event ∨
      later.rfTraceEvents.get? id = some (enrich tokens event)
  /-- All others are of the page. -/
  back : ∀ id event, later.rfTraceEvents.get? id = some event →
    (∃ event', store.rfTraceEvents.get? id = some event' ∧
      (event = event' ∨ event = enrich tokens event')) ∨
    (store.rfTraceEvents.get? id = none ∧
      ∃ observation ∈ done, event = newEvent batch tokens id observation)
  complete : ∀ observation ∈ done, ∃ id event, later.rfTraceEvents.get? id = some event ∧
    event.bootId = batch.bootId ∧ event.observation = observation

/-- A page has at most one observation of a sequence. -/
theorem RfTraceImportBatch.pairwise (batch : RfTraceImportBatch) :
    batch.observations.Pairwise fun a b => a.eventSequence < b.eventSequence := by
  have hmap : (batch.observations.map (·.eventSequence)).IsChain (· < ·) :=
    (List.isChain_map _).mpr batch.ordered
  exact List.pairwise_map.mp (List.isChain_iff_pairwise.mp hmap)

/-- A checked observation agrees with its retained event. -/
theorem observation_of_preflight {store : MemoryChatStore} {boot : RfTraceBootId}
    {observation : RfTraceObservation} {id : RfTraceEventId} {event : RfTraceEvent}
    (h : store.preflight boot observation = .ok ())
    (hkey : store.rfTraceKeys.get? (traceKey boot observation) = some id)
    (hevent : store.rfTraceEvents.get? id = some event) : event.observation = observation := by
  unfold preflight at h
  rw [hkey] at h
  simp only [hevent] at h
  split_ifs at h with hsame
  exact not_not.mp hsame

/-- The retained event under the key of an observation of the page has that observation. -/
theorem Storing.observation_eq {store later : MemoryChatStore} {batch : RfTraceImportBatch}
    {tokens : TokenCorrelations} {done rest : List RfTraceObservation}
    {observation : RfTraceObservation} (h : Storing store batch tokens done later)
    (hsound : TablesSound store)
    (hpreflight : store.preflight batch.bootId observation = .ok ())
    (hpage : batch.observations = done ++ observation :: rest) {id : RfTraceEventId}
    {event : RfTraceEvent} (hevent : later.rfTraceEvents.get? id = some event)
    (hboot : event.bootId = batch.bootId)
    (hsequence : event.observation.eventSequence = observation.eventSequence) :
    event.observation = observation := by
  rcases h.back id event hevent with ⟨event', hevent', hcase⟩ | ⟨-, other, hother, rfl⟩
  · have hsame : event.observation = event'.observation ∧ event.bootId = event'.bootId := by
      rcases hcase with rfl | rfl <;> simp
    rw [hsame.1] at hsequence ⊢
    rw [hsame.2] at hboot
    have hkey : store.rfTraceKeys.get? (traceKey batch.bootId observation) = some id :=
      (hsound.keyed _ _ id).mpr ⟨event', hevent', hboot, hsequence⟩
    exact observation_of_preflight hpreflight hkey hevent'
  · -- an earlier observation of the page has a smaller sequence
    have hordered := batch.pairwise
    rw [hpage, List.pairwise_append] at hordered
    have hlt := hordered.2.2 other hother observation List.mem_cons_self
    exact absurd hsequence hlt.ne

/-- Correlating the retained event of an observation. -/
theorem Storing.correlate {store later : MemoryChatStore} {batch : RfTraceImportBatch}
    {tokens : TokenCorrelations} {done : List RfTraceObservation}
    {observation : RfTraceObservation} (h : Storing store batch tokens done later)
    {id : RfTraceEventId} {event event' : RfTraceEvent}
    (hevent : later.rfTraceEvents.get? id = some event) (hboot : event.bootId = batch.bootId)
    (hobservation : event.observation = observation)
    (hcase : event' = event ∨ event' = enrich tokens event) :
    Storing store batch tokens (done ++ [observation])
      { later with rfTraceEvents := later.rfTraceEvents.insert id event' } := by
  have hfields : event'.id = event.id ∧ event'.bootId = event.bootId ∧
      event'.observation = event.observation := by
    rcases hcase with rfl | rfl <;> simp
  refine ⟨h.sound.insertOld hevent hfields.1 hfields.2.1 hfields.2.2, h.boots, ?_, ?_, ?_⟩
  · intro id' old hold
    dsimp only
    rw [BTreeMap.get?_insert]
    split_ifs with heq
    · subst heq
      have hwas := h.old id' old hold
      rw [hevent] at hwas
      rcases hwas with hwas | hwas <;> cases hwas <;> rcases hcase with rfl | rfl <;> simp
    · exact h.old id' old hold
  · intro id' found hfound
    dsimp only at hfound
    rw [BTreeMap.get?_insert] at hfound
    split_ifs at hfound with heq
    · cases hfound
      subst heq
      rcases h.back id' event hevent with ⟨old, hold, hwas⟩ | ⟨hnone, other, hother, rfl⟩
      · left
        refine ⟨old, hold, ?_⟩
        rcases hwas with rfl | rfl <;> rcases hcase with rfl | rfl <;> simp
      · right
        refine ⟨hnone, other, List.mem_append_left _ hother, ?_⟩
        rcases hcase with rfl | rfl <;> simp
    · rcases h.back id' found hfound with hold | ⟨hnone, other, hother, hnew⟩
      · exact Or.inl hold
      · exact Or.inr ⟨hnone, other, List.mem_append_left _ hother, hnew⟩
  · intro other hother
    rcases List.mem_append.mp hother with hother | hother
    · obtain ⟨id', found, hfound, hboot', hobservation'⟩ := h.complete other hother
      by_cases heq : id' = id
      · subst heq
        rw [hevent] at hfound
        cases hfound
        exact ⟨id', event', by simp, hfields.2.1.trans hboot', hfields.2.2.trans hobservation'⟩
      · refine ⟨id', found, ?_, hboot', hobservation'⟩
        dsimp only
        rw [BTreeMap.get?_insert, if_neg heq]
        exact hfound
    · rw [List.mem_singleton] at hother
      exact ⟨id, event', by simp, hfields.2.1.trans hboot,
        (hfields.2.2.trans hobservation).trans hother.symm⟩

/-- The tables are the same as before. -/
theorem insert_self {later : MemoryChatStore} {id : RfTraceEventId} {event : RfTraceEvent}
    (hevent : later.rfTraceEvents.get? id = some event) :
    { later with rfTraceEvents := later.rfTraceEvents.insert id event } = later := by
  have hsame : later.rfTraceEvents.insert id event = later.rfTraceEvents := by
    ext id' : 1
    rw [BTreeMap.get?_insert]
    split_ifs with heq
    · rw [heq, hevent]
    · rfl
  rw [hsame]

/-- Storing one more observation of the page. -/
theorem Storing.step {store : MemoryChatStore} {batch : RfTraceImportBatch}
    {tokens : TokenCorrelations} {done rest : List RfTraceObservation}
    {observation : RfTraceObservation} {state state' : ImportState}
    (h : Storing store batch tokens done state.store) (hsound : TablesSound store)
    (hpreflight : store.preflight batch.bootId observation = .ok ())
    (hpage : batch.observations = done ++ observation :: rest)
    (himport : importObservation batch tokens state observation = .ok state') :
    Storing store batch tokens (done ++ [observation]) state'.store := by
  unfold importObservation at himport
  dsimp only at himport
  split at himport
  · next id hkey =>
    obtain ⟨event, hevent, hboot, hsequence⟩ := (h.sound.keyed _ _ id).mp hkey
    have hobservation := h.observation_eq hsound hpreflight hpage hevent hboot hsequence
    have hkeep : Storing store batch tokens (done ++ [observation]) state.store := by
      have hsame := h.correlate hevent hboot hobservation (Or.inl rfl)
      rwa [insert_self hevent] at hsame
    simp only [hevent] at himport
    split at himport
    · next correlation _ htoken =>
      cases himport
      apply h.correlate hevent hboot hobservation
      right
      rw [enrich_of_some (by rw [hobservation]; exact htoken)]
    · split_ifs at himport
      cases himport
      exact hkeep
    · cases himport
      exact hkeep
  · next hkey =>
    unfold reserveRfTraceId at himport
    split at himport
    · cases himport
    · next id next hreserve =>
      have hreserved : id.get = state.store.nextRfTraceId ∧
          next.toNat = state.store.nextRfTraceId.toNat + 1 := by
        split at hreserve
        · next hnext hnew =>
          cases hreserve
          exact ⟨get_of_new hnew, toNat_checkedAddOne hnext⟩
        · cases hreserve
      cases himport
      have hunused : state.store.rfTraceEvents.get? id = none := by
        apply Option.eq_none_iff_forall_ne_some.mpr
        intro old hold
        have hcounted := (h.sound.filed id old hold).2
        rw [hreserved.1] at hcounted
        omega
      have hfresh : store.rfTraceEvents.get? id = none := by
        apply Option.eq_none_iff_forall_ne_some.mpr
        intro old hold
        rcases h.old id old hold with hwas | hwas <;> rw [hunused] at hwas <;> cases hwas
      have htables := @TablesSound.insertNew _ h.sound (newEvent batch tokens id observation) _
        hreserved.1 hreserved.2 hkey
      refine ⟨htables, h.boots, ?_, ?_, ?_⟩
      · intro id' old hold
        dsimp only
        rw [BTreeMap.get?_insert, if_neg]
        · exact h.old id' old hold
        · rintro rfl
          rw [hfresh] at hold
          cases hold
      · intro id' found hfound
        dsimp only at hfound
        rw [BTreeMap.get?_insert] at hfound
        split_ifs at hfound with heq
        · cases hfound
          rw [heq]
          exact Or.inr ⟨hfresh, observation, by simp, rfl⟩
        · rcases h.back id' found hfound with hold | ⟨hnone, other, hother, hnew⟩
          · exact Or.inl hold
          · exact Or.inr ⟨hnone, other, List.mem_append_left _ hother, hnew⟩
      · intro other hother
        rcases List.mem_append.mp hother with hother | hother
        · obtain ⟨id', found, hfound, hboot, hobservation⟩ := h.complete other hother
          refine ⟨id', found, ?_, hboot, hobservation⟩
          dsimp only
          rw [BTreeMap.get?_insert, if_neg]
          · exact hfound
          · rintro rfl
            rw [hunused] at hfound
            cases hfound
        · rw [List.mem_singleton] at hother
          exact ⟨id, newEvent batch tokens id observation, by simp [newEvent], rfl, hother.symm⟩

/-- The tables while retained events are being correlated. -/
structure Enriching (stored : MemoryChatStore) (tokens : TokenCorrelations)
    (done : List (RfTraceEventId × RfTraceEvent)) (later : MemoryChatStore) : Prop where
  frame : { later with rfTraceEvents := stored.rfTraceEvents } = stored
  events : ∀ id, later.rfTraceEvents.get? id =
    if id ∈ done.map Prod.fst then (stored.rfTraceEvents.get? id).map (enrich tokens)
    else stored.rfTraceEvents.get? id

/-- Correlating one event either leaves the store or enriches the event. -/
theorem enrichEvent_ok {tokens : TokenCorrelations} {state state' : ImportState}
    {entry : RfTraceEventId × RfTraceEvent} (h : enrichEvent tokens state entry = .ok state') :
    (enrich tokens entry.2 = entry.2 ∧ state' = state) ∨
      state'.store = { state.store with
        rfTraceEvents := state.store.rfTraceEvents.insert entry.1 (enrich tokens entry.2) } := by
  unfold enrichEvent at h
  split at h
  · next htoken =>
    cases h
    exact Or.inl ⟨enrich_of_none (by rw [tokenOf, htoken]; rfl), rfl⟩
  · next token htoken =>
    split at h
    · next hunknown =>
      cases h
      exact Or.inl ⟨enrich_of_none (by rw [tokenOf, htoken]; exact hunknown), rfl⟩
    · next correlation hknown =>
      have hcorrelation : tokenOf tokens entry.2.observation = some correlation := by
        rw [tokenOf, htoken]
        exact hknown
      split at h
      · cases h
        exact Or.inr (by rw [enrich_of_some hcorrelation])
      · next existing hexisting =>
        split_ifs at h with hsame
        cases h
        rw [not_not] at hsame
        refine Or.inl ⟨?_, rfl⟩
        rw [enrich_of_some hcorrelation, ← hsame, ← hexisting]

/-- The keys of a map are distinct. -/
theorem entries_split {κ ν : Type} [LinearOrder κ] (m : BTreeMap κ ν)
    {done rest : List (κ × ν)} {entry : κ × ν} (h : m.entries = done ++ entry :: rest) :
    entry.1 ∉ done.map Prod.fst ∧ m.get? entry.1 = some entry.2 := by
  constructor
  · intro hmem
    obtain ⟨other, hother, heq⟩ := List.mem_map.mp hmem
    have hsorted := m.sorted
    rw [h, List.pairwise_append] at hsorted
    have hlt := hsorted.2.2 other hother entry List.mem_cons_self
    exact absurd heq hlt.ne
  · rw [BTreeMap.get?_eq_some, h]
    simp

/-- One step of the enrichment extends what is enriched by its entry. -/
theorem Enriching.step {stored : MemoryChatStore} {tokens : TokenCorrelations}
    {done rest : List (RfTraceEventId × RfTraceEvent)} {entry : RfTraceEventId × RfTraceEvent}
    {state state' : ImportState} (h : Enriching stored tokens done state.store)
    (hentries : stored.rfTraceEvents.entries = done ++ entry :: rest)
    (hstep : enrichEvent tokens state entry = .ok state') :
    Enriching stored tokens (done ++ [entry]) state'.store := by
  obtain ⟨hnew, hentry⟩ := entries_split stored.rfTraceEvents hentries
  rcases enrichEvent_ok hstep with ⟨hsame, rfl⟩ | hstore
  · refine ⟨h.frame, fun id => ?_⟩
    rw [h.events, List.map_append, List.map_singleton]
    by_cases heq : id = entry.1
    · rw [heq, if_neg hnew, if_pos (by simp), hentry, Option.map_some, hsame]
    · simp only [List.mem_append, List.mem_singleton, heq, or_false]
  · rw [hstore]
    refine ⟨h.frame, fun id => ?_⟩
    dsimp only
    rw [BTreeMap.get?_insert, List.map_append, List.map_singleton]
    by_cases heq : id = entry.1
    · rw [if_pos heq, if_pos (by simp [heq]), heq, hentry, Option.map_some]
    · simp only [List.mem_append, List.mem_singleton, heq, or_false]
      exact h.events id

/-- The tables after an import with these tokens. -/
structure Imported (store : MemoryChatStore) (batch : RfTraceImportBatch)
    (tokens : TokenCorrelations) (later : MemoryChatStore) : Prop where
  sound : TablesSound later
  /-- Events that were there have the correlation of their token. -/
  old : ∀ id event, store.rfTraceEvents.get? id = some event →
    later.rfTraceEvents.get? id = some (enrich tokens event)
  /-- All others are of the page. -/
  back : ∀ id event, later.rfTraceEvents.get? id = some event →
    (∃ event', store.rfTraceEvents.get? id = some event' ∧ event = enrich tokens event') ∨
    (store.rfTraceEvents.get? id = none ∧
      ∃ observation ∈ batch.observations, event = newEvent batch tokens id observation)
  complete : ∀ observation ∈ batch.observations, ∃ id event,
    later.rfTraceEvents.get? id = some event ∧ event.bootId = batch.bootId ∧
    event.observation = observation
  /-- Only the boot of the page is noted. -/
  boots : ∃ boot, boot.profile = batch.profile ∧
    (∀ old, store.rfTraceBoots.get? batch.bootId = some old → old.profile = batch.profile) ∧
    boot.historyIncomplete = (((store.rfTraceBoots.get? batch.bootId).any (·.historyIncomplete)) ||
      (batch.historyIncomplete || later.hasSequenceGap batch.bootId)) ∧
    later.rfTraceBoots = store.rfTraceBoots.insert batch.bootId boot

/-- A successful import leaves these tables. -/
theorem imported_tables {store : MemoryChatStore} {batch : RfTraceImportBatch}
    {staged : ImportState} (hsound : TablesSound store)
    (h : store.importRfTraceBatchInner batch = .ok staged) :
    ∃ tokens, store.tokenCorrelations batch = .ok tokens ∧
      Imported store batch tokens staged.store := by
  obtain ⟨hprofile, hpreflight, tokens, htokens, stored, hstored, enriched, henriched, rfl⟩ :=
    importRfTraceBatchInner_ok h
  refine ⟨tokens, htokens, ?_⟩
  have hstoring : Storing store batch tokens batch.observations stored.store := by
    refine List.foldlM_ok_steps (P := fun done state => Storing store batch tokens done state.store)
      ⟨hsound, rfl, fun _ _ => Or.inl, fun _ event hevent => Or.inl ⟨event, hevent, Or.inl rfl⟩,
        by simp⟩ ?_ hstored
    intro done observation rest state state' hpage hdone hstep
    refine hdone.step hsound (hpreflight observation ?_) hpage hstep
    rw [hpage]
    simp
  have henriching : Enriching stored.store tokens stored.store.rfTraceEvents.entries
      enriched.store := by
    refine List.foldlM_ok_steps (P := fun done state => Enriching stored.store tokens done
      state.store) ⟨rfl, by simp⟩ ?_ henriched
    intro done entry rest state state' hentries hdone hstep
    exact hdone.step hentries hstep
  -- every entry has been visited
  have hevents : ∀ id, enriched.store.rfTraceEvents.get? id =
      (stored.store.rfTraceEvents.get? id).map (enrich tokens) := by
    intro id
    rw [henriching.events]
    split_ifs with hvisited
    · rfl
    · cases hget : stored.store.rfTraceEvents.get? id with
      | none => rfl
      | some event =>
        rw [BTreeMap.get?_eq_some] at hget
        exact absurd (List.mem_map_of_mem hget) hvisited
  have hkeys : enriched.store.rfTraceKeys = stored.store.rfTraceKeys :=
    (congrArg rfTraceKeys henriching.frame :)
  have hnext : enriched.store.nextRfTraceId = stored.store.nextRfTraceId :=
    (congrArg nextRfTraceId henriching.frame :)
  have hboots : enriched.store.rfTraceBoots = stored.store.rfTraceBoots :=
    (congrArg rfTraceBoots henriching.frame :)
  refine ⟨⟨?_, ?_⟩, ?_, ?_, ?_, ?_⟩
  · intro id event hevent
    change enriched.store.rfTraceEvents.get? id = some event at hevent
    rw [hevents] at hevent
    obtain ⟨event', hevent', rfl⟩ := Option.map_eq_some_iff.mp hevent
    change _ ∧ _ < enriched.store.nextRfTraceId.toNat
    rw [hnext, enrich_id]
    exact hstoring.sound.filed id event' hevent'
  · intro boot sequence id
    change enriched.store.rfTraceKeys.get? _ = some id ↔
      ∃ event, enriched.store.rfTraceEvents.get? id = some event ∧ _
    rw [hkeys, hstoring.sound.keyed, hevents]
    constructor
    · rintro ⟨event, hevent, hboot, hsequence⟩
      exact ⟨enrich tokens event, by rw [hevent, Option.map_some], by simpa using hboot,
        by simpa using hsequence⟩
    · rintro ⟨event, hevent, hboot, hsequence⟩
      obtain ⟨event', hevent', rfl⟩ := Option.map_eq_some_iff.mp hevent
      exact ⟨event', hevent', by simpa using hboot, by simpa using hsequence⟩
  · intro id event hevent
    change enriched.store.rfTraceEvents.get? id = _
    rw [hevents]
    rcases hstoring.old id event hevent with hwas | hwas <;> rw [hwas, Option.map_some]
    rw [enrich_enrich]
  · intro id event hevent
    change enriched.store.rfTraceEvents.get? id = some event at hevent
    rw [hevents] at hevent
    obtain ⟨event', hevent', rfl⟩ := Option.map_eq_some_iff.mp hevent
    rcases hstoring.back id event' hevent' with ⟨old, hold, hcase⟩ | ⟨hnone, observation, hmem, rfl⟩
    · refine Or.inl ⟨old, hold, ?_⟩
      rcases hcase with rfl | rfl <;> simp
    · exact Or.inr ⟨hnone, observation, hmem, by simp⟩
  · intro observation hmem
    obtain ⟨id, event, hevent, hboot, hobservation⟩ := hstoring.complete observation hmem
    refine ⟨id, enrich tokens event, ?_, by simpa using hboot, by simpa using hobservation⟩
    change enriched.store.rfTraceEvents.get? id = _
    rw [hevents, hevent, Option.map_some]
  · have hold : ∀ old, store.rfTraceBoots.get? batch.bootId = some old →
        old.profile = batch.profile := by
      intro old hold
      rw [hold] at hprofile
      simpa using hprofile
    have hsame : enriched.store.rfTraceBoots = store.rfTraceBoots := hboots.trans hstoring.boots
    refine ⟨{ ((store.rfTraceBoots.get? batch.bootId).getD ⟨batch.profile, false⟩) with
      historyIncomplete := ((store.rfTraceBoots.get? batch.bootId).getD
        ⟨batch.profile, false⟩).historyIncomplete || (batch.historyIncomplete ||
          enriched.store.hasSequenceGap batch.bootId) }, ?_, hold, ?_, ?_⟩
    · cases hget : store.rfTraceBoots.get? batch.bootId with
      | none => rfl
      | some old => exact hold old hget
    · cases hget : store.rfTraceBoots.get? batch.bootId with
      | none => rfl
      | some old => rfl
    · change enriched.store.rfTraceBoots.insert batch.bootId _ = _
      rw [hsame]

end Chat
