import ReticulumFirmware.Codec.CborBytes
import ReticulumFirmware.DeviceApi.LxmfPeers
import ReticulumFirmware.Discovery.Paging

/-!
# The projection of the peers for clients

The table of `prns_peer_discovery.rs`: announces of delivery destinations enter it, and a client
reads it page by page. Each page passes the checks of the decoder that reads it back.
-/

namespace Discovery

open Nor (Byte NonZeroU64)
open DeviceApi (maxLxmfPeerAppDataBytes maxMessageBytes apiVersionMajor LxmfPeerDiscoveryIncarnation
  LxmfPeerDiscoveryCursor LxmfDiscoveredPeer LxmfPeerDiscoveryPage DeviceResponse deviceResponses
  encodeResponse decodeResponse RequestId)

/-- An announce that the network stack has validated. -/
structure AnnounceObservation where
  destination : DestinationHash
  announcedIdentity : IdentityHash
  hops : Byte
  sourceInterface : ObservedInterfaceId
  arrivedAt : ℕ
  appData : List Byte

/-- The table of peers under the incarnation of one boot. -/
structure PeerProjection where
  incarnation : LxmfPeerDiscoveryIncarnation
  peers : DiscoveredPeers maxLxmfPeerAppDataBytes

namespace PeerProjection

/-- What the table is told of an announce. -/
def observation (announce : AnnounceObservation) : AuthenticatedAnnounceObservation :=
  { destination := announce.destination
    identityHash := announce.announcedIdentity
    appData := announce.appData
    metadata :=
      { hops := announce.hops
        interface := announce.sourceInterface
        signal := ⟨none, none⟩
        observedAt := announce.arrivedAt } }

variable (self : PeerProjection)

/-- Retain an announce whose destination is the delivery destination of its identity. -/
def observe (deriveDestinationHash : IdentityHash → DestinationHash)
    (announce : AnnounceObservation) : Except ObserveError Bool × PeerProjection :=
  if deriveDestinationHash announce.announcedIdentity ≠ announce.destination then (.ok false, self)
  else
    let (result, peers) := self.peers.observe (observation announce)
    (result.map fun _ => true, { self with peers })

/-- A record for clients, unless its generation is zero or its application data is too long. -/
def discovered (nowMillis : BitVec 64) (peer : DiscoveredPeer maxLxmfPeerAppDataBytes) :
    Option LxmfDiscoveredPeer := do
  let generation ← NonZeroU64.new peer.generation
  (LxmfDiscoveredPeer.new peer.destination peer.identityHash peer.appData peer.hops peer.interface
    (peer.signal.rssiDbm.map (BitVec.ofInt 16)) (peer.signal.snrDb.map (BitVec.ofInt 16))
    (BitVec.ofNat 64 (nowMillis.toNat - peer.observedAt)) generation).toOption

/-- The generation after which a request asks, and whether its history is lost. -/
def requestedCursor (requested : Option LxmfPeerDiscoveryCursor) : ℕ × Bool :=
  match requested with
  | some requested =>
    if requested.incarnation = self.incarnation then (requested.afterGeneration.toNat, false)
    else (0, true)
  | none => (0, false)

/-- The page of the table for a request: a cursor ahead of history starts again. -/
def historyPage (requested : Option LxmfPeerDiscoveryCursor) :
    Option (DiscoveryPage maxLxmfPeerAppDataBytes × Bool) :=
  let (cursor, resetHistory) := self.requestedCursor requested
  match self.peers.pageAfter cursor with
  | .ok page => some (page, resetHistory)
  | .error _ => ((self.peers.pageAfter 0).toOption).map (·, true)

/-- One page for a client. No page is a broken expectation. -/
def page (requested : Option LxmfPeerDiscoveryCursor) (nowMillis : BitVec 64) :
    Option LxmfPeerDiscoveryPage := do
  let (page, resetHistory) ← self.historyPage requested
  let peer ← page.peer.mapM (discovered nowMillis)
  let latest ← page.observedThrough.mapM NonZeroU64.new
  let oldest ← page.oldestRetained.mapM NonZeroU64.new
  pure
    { nextCursor := ⟨self.incarnation, BitVec.ofNat 64 page.nextCursor⟩
      latestGeneration := latest
      oldestRetainedGeneration := oldest
      historyGap := resetHistory || page.historyGap
      peer }

end PeerProjection

namespace DiscoveredPeers

variable {appDataCapacity : ℕ} {self : DiscoveredPeers appDataCapacity} {slots : ℕ}
  {accepted : List AuthenticatedAnnounceObservation}

/-- Generations are positive. -/
theorem Retains.generation_pos (h : self.Retains slots accepted)
    {peer : DiscoveredPeer appDataCapacity} (hpeer : peer ∈ self.records) :
      0 < peer.generation := by
  obtain ⟨earlier, observation, later, -, hevidence, -⟩ := h.last hpeer
  have hgeneration : peer.generation = earlier.length + 1 := congrArg Prod.snd hevidence
  omega

/-- The window of history that a page tells. -/
theorem pageAfter_window {cursor : ℕ} {page : DiscoveryPage appDataCapacity}
    (h : self.pageAfter cursor = .ok page) :
    page.observedThrough = self.latest ∧
      page.oldestRetained = (self.records.map (·.generation)).min? := by
  unfold pageAfter at h
  split_ifs at h
  cases h
  exact ⟨rfl, rfl⟩

/-- A table without history has no records. -/
theorem Retains.records_nil (h : self.Retains slots accepted) (hnone : self.latestGeneration = 0) :
    self.records = [] := by
  refine List.eq_nil_iff_forall_not_mem.mpr fun peer hpeer => ?_
  have hpos := h.generation_pos hpeer
  have hle := h.generation_le hpeer
  omega

/-- A table with history has an oldest record. -/
theorem Retains.oldest (h : self.Retains slots accepted) (hpos : 0 < self.latestGeneration) :
    ∃ oldest, (self.records.map (·.generation)).min? = some oldest ∧ 0 < oldest ∧
      oldest ≤ self.latestGeneration ∧ ∀ peer ∈ self.records, oldest ≤ peer.generation := by
  obtain ⟨latest, hlatest, -⟩ := h.latest hpos
  have hsome : (self.records.map (·.generation)).min? ≠ none := by
    rw [Ne, List.min?_eq_none_iff, List.map_eq_nil_iff]
    exact List.ne_nil_of_mem hlatest
  obtain ⟨oldest, holdest⟩ := Option.ne_none_iff_exists'.mp hsome
  obtain ⟨hmem, hmin⟩ := List.min?_eq_some_iff.mp holdest
  obtain ⟨peer, hpeer, rfl⟩ := List.mem_map.mp hmem
  exact ⟨_, holdest, h.generation_pos hpeer, h.generation_le hpeer,
    fun other hother => hmin _ (List.mem_map_of_mem hother)⟩

/-- The last generation stays a number of 64 bits. -/
theorem observe_latest_lt (self : DiscoveredPeers appDataCapacity)
    (h : self.latestGeneration < 2 ^ 64) (observation : AuthenticatedAnnounceObservation) :
    (self.observe observation).2.latestGeneration < 2 ^ 64 := by
  unfold observe
  split
  · split
    · exact h
    · dsimp only
      by_cases hleft : self.latestGeneration + 1 < 2 ^ 64
      · rw [if_pos hleft]
        exact hleft
      · rw [if_neg hleft]
        exact h
  · exact h

end DiscoveredPeers

namespace PeerProjection

variable {self : PeerProjection} {slots : ℕ}

/-- The table behind a projection is one that observations have filled. -/
structure Sound (projection : PeerProjection) (slots : ℕ) : Prop where
  retains : ∃ accepted, projection.peers.Retains slots accepted
  latest : projection.peers.latestGeneration < 2 ^ 64

/-- An announce keeps the projection sound, with its incarnation. -/
theorem Sound.observe (h : self.Sound slots)
    (deriveDestinationHash : IdentityHash → DestinationHash) (announce : AnnounceObservation) :
    (self.observe deriveDestinationHash announce).2.Sound slots ∧
      (self.observe deriveDestinationHash announce).2.incarnation = self.incarnation ∧
      self.peers.latestGeneration ≤
        (self.observe deriveDestinationHash announce).2.peers.latestGeneration := by
  unfold PeerProjection.observe
  split_ifs
  · exact ⟨h, rfl, le_refl _⟩
  · dsimp only
    rcases self.peers.observe_cases (observation announce) with ⟨error, hrefused⟩ | ⟨-, haccepts⟩
    · rw [hrefused]
      exact ⟨h, rfl, le_refl _⟩
    · obtain ⟨accepted, hretains⟩ := h.retains
      refine ⟨⟨⟨_, hretains.accept haccepts⟩, self.peers.observe_latest_lt h.latest _⟩, rfl, ?_⟩
      rw [haccepts.generation]
      exact Nat.le_succ _

/-- What a page shows of the history after a generation. -/
structure Shows (projection : PeerProjection) (after : ℕ)
    (page : LxmfPeerDiscoveryPage) : Prop where
  consistent : page.consistent = true
  incarnation : page.nextCursor.incarnation = projection.incarnation
  reached : page.nextCursor.afterGeneration.toNat ≤ projection.peers.latestGeneration
  peer : ∀ peer, page.peer = some peer →
    after < peer.generation.get ∧ page.nextCursor.afterGeneration.toNat = peer.generation.get
  empty : page.peer = none → page.nextCursor.afterGeneration.toNat = after

/-- The page of the table that a request is answered from. -/
theorem historyPage_pages (self : PeerProjection) (requested : Option LxmfPeerDiscoveryCursor) :
    ∃ after page resetHistory, self.historyPage requested = some (page, resetHistory) ∧
      after ≤ self.peers.latestGeneration ∧ self.peers.pageAfter after = .ok page ∧
      self.peers.Pages after page ∧
      ∀ cursor, requested = some cursor → cursor.incarnation = self.incarnation →
        cursor.afterGeneration.toNat ≤ self.peers.latestGeneration →
        after = cursor.afterGeneration.toNat := by
  obtain ⟨start, hstart, hstartPages⟩ := self.peers.pageAfter_ok (Nat.zero_le _)
  unfold historyPage
  generalize hcursor : self.requestedCursor requested = asked
  obtain ⟨after, resetHistory⟩ := asked
  -- a cursor of this incarnation that history has reached is the one that is read from
  have hasked : ∀ cursor, requested = some cursor → cursor.incarnation = self.incarnation →
      after = cursor.afterGeneration.toNat := by
    rintro cursor rfl hsame
    rw [requestedCursor, if_pos hsame, Prod.mk.injEq] at hcursor
    exact hcursor.1.symm
  dsimp only
  by_cases hreached : after ≤ self.peers.latestGeneration
  · obtain ⟨page, hpage, hpages⟩ := self.peers.pageAfter_ok hreached
    rw [hpage]
    exact ⟨after, page, resetHistory, rfl, hreached, hpage, hpages,
      fun cursor hsome hsame _ => hasked cursor hsome hsame⟩
  · have hahead : self.peers.pageAfter after = .error (.aheadOfHistory after self.peers.latest) :=
      if_pos (Nat.not_le.mp hreached)
    rw [hahead, hstart]
    refine ⟨0, start, true, rfl, Nat.zero_le _, hstart, hstartPages, ?_⟩
    intro cursor hsome hsame hle
    rw [← hasked cursor hsome hsame] at hle
    exact absurd hle hreached

/-- Every record has a form for clients. -/
theorem discovered_isSome (nowMillis : BitVec 64)
    {peer : DiscoveredPeer maxLxmfPeerAppDataBytes} (hpos : 0 < peer.generation)
    (hlt : peer.generation < 2 ^ 64) :
    ∃ found, discovered nowMillis peer = some found ∧ found.generation.get = peer.generation := by
  have hgeneration : NonZeroU64.new peer.generation = some ⟨peer.generation, hpos, hlt⟩ :=
    dif_pos ⟨hpos, hlt⟩
  unfold discovered LxmfDiscoveredPeer.new
  rw [hgeneration]
  simp only [Option.bind_eq_bind, Option.bind_some]
  rw [dif_pos peer.bounded]
  exact ⟨_, rfl, rfl⟩

/-- The page that is made of a page of the table. -/
def shownPage (self : PeerProjection) (history : DiscoveryPage maxLxmfPeerAppDataBytes)
    (resetHistory : Bool) (latest oldest : Option NonZeroU64) (peer : Option LxmfDiscoveredPeer) :
    LxmfPeerDiscoveryPage :=
  { nextCursor := ⟨self.incarnation, BitVec.ofNat 64 history.nextCursor⟩
    latestGeneration := latest
    oldestRetainedGeneration := oldest
    historyGap := resetHistory || history.historyGap
    peer }

/-- A page is made of what the history, the counters and the peer say. -/
theorem page_eq {requested : Option LxmfPeerDiscoveryCursor} (nowMillis : BitVec 64)
    {history : DiscoveryPage maxLxmfPeerAppDataBytes} {resetHistory : Bool}
    {latest oldest : Option NonZeroU64} {peer : Option LxmfDiscoveredPeer}
    (hhistory : self.historyPage requested = some (history, resetHistory))
    (hpeer : history.peer.mapM (discovered nowMillis) = some peer)
    (hlatest : history.observedThrough.mapM NonZeroU64.new = some latest)
    (holdest : history.oldestRetained.mapM NonZeroU64.new = some oldest) :
    self.page requested nowMillis =
      some (self.shownPage history resetHistory latest oldest peer) := by
  unfold page
  rw [hhistory]
  simp only [Option.bind_eq_bind, Option.bind_some]
  rw [hpeer, hlatest, holdest]
  rfl

/-- The generations of a page of the table with history. -/
theorem Sound.window (h : self.Sound slots) {after : ℕ}
    {history : DiscoveryPage maxLxmfPeerAppDataBytes}
    (hafter : self.peers.pageAfter after = .ok history) (hpos : 0 < self.peers.latestGeneration) :
    ∃ latest oldest : NonZeroU64, history.observedThrough.mapM NonZeroU64.new = some (some latest) ∧
      history.oldestRetained.mapM NonZeroU64.new = some (some oldest) ∧
      latest.get = self.peers.latestGeneration ∧ oldest.get ≤ self.peers.latestGeneration ∧
      ∀ peer ∈ self.peers.records, oldest.get ≤ peer.generation := by
  obtain ⟨accepted, hretains⟩ := h.retains
  obtain ⟨hlatest, holdest⟩ := DiscoveredPeers.pageAfter_window hafter
  obtain ⟨oldest, hmin, holdestPos, holdestLe, hfirst⟩ := hretains.oldest hpos
  have hnewLatest : NonZeroU64.new self.peers.latestGeneration = some ⟨_, hpos, h.latest⟩ :=
    dif_pos ⟨hpos, h.latest⟩
  have hnewOldest : NonZeroU64.new oldest =
      some ⟨oldest, holdestPos, holdestLe.trans_lt h.latest⟩ :=
    dif_pos ⟨holdestPos, holdestLe.trans_lt h.latest⟩
  refine ⟨⟨_, hpos, h.latest⟩, ⟨oldest, holdestPos, holdestLe.trans_lt h.latest⟩, ?_, ?_, rfl,
    holdestLe, hfirst⟩
  · rw [hlatest, DiscoveredPeers.latest, if_neg hpos.ne', Option.mapM_some, hnewLatest]
    rfl
  · rw [holdest, hmin, Option.mapM_some, hnewOldest]
    rfl

/-- Every request is answered with a page that passes the checks of the decoder. -/
theorem Sound.page (h : self.Sound slots) (requested : Option LxmfPeerDiscoveryCursor)
    (nowMillis : BitVec 64) :
    ∃ after page, self.page requested nowMillis = some page ∧ self.Shows after page ∧
      ∀ cursor, requested = some cursor → cursor.incarnation = self.incarnation →
        cursor.afterGeneration.toNat ≤ self.peers.latestGeneration →
        after = cursor.afterGeneration.toNat := by
  obtain ⟨after, history, resetHistory, hhistory, hreached, hafter, hpages, hasked⟩ :=
    self.historyPage_pages requested
  obtain ⟨accepted, hretains⟩ := h.retains
  have hbound := h.latest
  have htoNat : ∀ number, number ≤ self.peers.latestGeneration →
      (BitVec.ofNat 64 number).toNat = number := fun number hle =>
    (BitVec.toNat_ofNat _ _).trans (Nat.mod_eq_of_lt (hle.trans_lt hbound))
  rcases Nat.eq_zero_or_pos self.peers.latestGeneration with hzero | hpos
  · obtain ⟨hlatest, holdest⟩ := DiscoveredPeers.pageAfter_window hafter
    have hnil := hretains.records_nil hzero
    have hnone : history.peer = none := by
      refine Option.eq_none_iff_forall_ne_some.mpr fun peer hpeer => ?_
      have hmem := (hpages.peer peer hpeer).1
      rw [hnil] at hmem
      cases hmem
    have hcursor : history.nextCursor = 0 := by
      rw [(hpages.empty hnone).1]
      omega
    have hpage := page_eq nowMillis hhistory (by rw [hnone]; rfl)
      (by rw [hlatest, DiscoveredPeers.latest, if_pos hzero]; rfl)
      (by rw [holdest, hnil]; rfl)
    have hnext : (BitVec.ofNat 64 history.nextCursor).toNat = 0 := by rw [hcursor]; rfl
    refine ⟨after, _, hpage, ⟨?_, rfl, ?_, nofun, fun _ => ?_⟩, hasked⟩
    · exact decide_eq_true ⟨hnext, rfl⟩
    · exact hnext.trans_le (Nat.zero_le _)
    · exact hnext.trans (by omega)
  · obtain ⟨latest, oldest, hlatest, holdest, hlatestGet, holdestLe, hfirst⟩ :=
      h.window hafter hpos
    have hwindow : oldest.get ≤ latest.get := hlatestGet.symm ▸ holdestLe
    cases hpeer : history.peer with
    | none =>
      have hpage := page_eq nowMillis hhistory (by rw [hpeer]; rfl) hlatest holdest
      have hnext : (BitVec.ofNat 64 history.nextCursor).toNat = after := by
        rw [(hpages.empty hpeer).1]
        exact htoNat after hreached
      refine ⟨after, _, hpage, ⟨?_, rfl, hnext.trans_le hreached, nofun, fun _ => hnext⟩, hasked⟩
      exact decide_eq_true ⟨hwindow, by rw [hlatestGet]; exact hnext.trans_le hreached, rfl⟩
    | some peer =>
      obtain ⟨hmem, hlater, hcursor, -⟩ := hpages.peer peer hpeer
      have hle := hretains.generation_le hmem
      obtain ⟨found, hfound, hgeneration⟩ := discovered_isSome nowMillis
        (hretains.generation_pos hmem) (hle.trans_lt hbound)
      have hpage := page_eq nowMillis hhistory
        (by rw [hpeer, Option.mapM_some, hfound]; rfl) hlatest holdest
      have hnext : (BitVec.ofNat 64 history.nextCursor).toNat = found.generation.get := by
        rw [hcursor, hgeneration]
        exact htoNat _ hle
      refine ⟨after, _, hpage, ⟨?_, rfl, ?_, ?_, nofun⟩, hasked⟩
      · refine decide_eq_true ⟨hwindow, ?_, decide_eq_true ⟨hnext.symm, ?_, ?_⟩⟩
        · rw [hlatestGet]
          exact hnext.trans_le (hgeneration ▸ hle)
        · rw [hgeneration]
          exact hfirst peer hmem
        · rw [hgeneration, hlatestGet]
          exact hle
      · exact hnext.trans_le (hgeneration ▸ hle)
      · rintro _ ⟨⟩
        exact ⟨by rwa [hgeneration], hnext⟩

end PeerProjection

/-- An announce, or a request that follows the last page. -/
inductive SessionStep where
  | observe (announce : AnnounceObservation)
  | request (nowMillis : BitVec 64)

/-- A client that reads the projection: the cursor of its next request, and the pages so far. -/
structure PeerSession where
  projection : PeerProjection
  requested : Option LxmfPeerDiscoveryCursor
  pages : List LxmfPeerDiscoveryPage

namespace PeerSession

variable (deriveDestinationHash : IdentityHash → DestinationHash)

/-- One step of a session. -/
def step (session : PeerSession) : SessionStep → PeerSession
  | .observe announce =>
    { session with projection := (session.projection.observe deriveDestinationHash announce).2 }
  | .request nowMillis =>
    match session.projection.page session.requested nowMillis with
    | some page =>
      { session with requested := some page.nextCursor, pages := session.pages ++ [page] }
    | none => session

/-- The generations of the peers that the pages returned. -/
def generations (session : PeerSession) : List ℕ :=
  session.pages.filterMap fun page => page.peer.map (·.generation.get)

/-- A client has moved past every peer that it was given. -/
structure Sound (session : PeerSession) (slots : ℕ) : Prop where
  projection : session.projection.Sound slots
  increasing : session.generations.Pairwise (· < ·)
  passed : ∀ generation ∈ session.generations, ∃ cursor, session.requested = some cursor ∧
    cursor.incarnation = session.projection.incarnation ∧
    cursor.afterGeneration.toNat ≤ session.projection.peers.latestGeneration ∧
    generation ≤ cursor.afterGeneration.toNat

variable {deriveDestinationHash} {session : PeerSession} {slots : ℕ}

/-- An announce keeps the session sound. -/
theorem Sound.observe (h : session.Sound slots) (announce : AnnounceObservation) :
    (session.step deriveDestinationHash (.observe announce)).Sound slots := by
  obtain ⟨hprojection, hincarnation, hlatest⟩ :=
    h.projection.observe deriveDestinationHash announce
  refine ⟨hprojection, h.increasing, fun generation hgeneration => ?_⟩
  obtain ⟨cursor, hrequested, hsame, hreached, hpassed⟩ := h.passed generation hgeneration
  exact ⟨cursor, hrequested, hsame.trans hincarnation.symm, hreached.trans hlatest, hpassed⟩

/-- A request keeps the session sound. -/
theorem Sound.request (h : session.Sound slots) (nowMillis : BitVec 64) :
    (session.step deriveDestinationHash (.request nowMillis)).Sound slots := by
  obtain ⟨after, page, hpage, hshows, hasked⟩ := h.projection.page session.requested nowMillis
  have hstep : session.step deriveDestinationHash (.request nowMillis) =
      ⟨session.projection, some page.nextCursor, session.pages ++ [page]⟩ := by
    simp only [step, hpage]
  -- what was returned before lies at or before the cursor that is read from
  have hbefore : ∀ generation ∈ session.generations, generation ≤ after := by
    intro generation hgeneration
    obtain ⟨cursor, hrequested, hsame, hreached, hpassed⟩ := h.passed generation hgeneration
    rwa [hasked cursor hrequested hsame hreached]
  have hgenerations : generations ⟨session.projection, some page.nextCursor,
      session.pages ++ [page]⟩ =
        session.generations ++ (page.peer.map (·.generation.get)).toList := by
    rw [generations, List.filterMap_append, generations]
    cases hpeer : page.peer <;> simp [hpeer]
  rw [hstep]
  refine ⟨h.projection, ?_, fun generation hgeneration => ?_⟩
  · rw [hgenerations, List.pairwise_append]
    refine ⟨h.increasing, by cases page.peer <;> simp, fun old hold new hnew => ?_⟩
    obtain ⟨peer, hpeer, rfl⟩ := Option.map_eq_some_iff.mp (Option.mem_toList.mp hnew)
    exact (hbefore old hold).trans_lt (hshows.peer peer hpeer).1
  · refine ⟨page.nextCursor, rfl, hshows.incarnation, hshows.reached, ?_⟩
    rw [hgenerations, List.mem_append] at hgeneration
    cases hpeer : page.peer with
    | none =>
      rw [hshows.empty hpeer]
      rw [hpeer] at hgeneration
      exact hbefore generation (hgeneration.resolve_right (by simp))
    | some peer =>
      obtain ⟨hlater, hcursor⟩ := hshows.peer peer hpeer
      rw [hcursor]
      rw [hpeer] at hgeneration
      rcases hgeneration with hold | hnew
      · exact (hbefore generation hold).trans hlater.le
      · exact (List.mem_singleton.mp hnew).le

/-- Announces and requests in any order keep the session sound. -/
theorem Sound.run (h : session.Sound slots)
    (deriveDestinationHash : IdentityHash → DestinationHash) (steps : List SessionStep) :
    (steps.foldl (step deriveDestinationHash) session).Sound slots := by
  induction steps generalizing session with
  | nil => exact h
  | cons next steps ih =>
    cases next with
    | observe announce => exact ih (h.observe announce)
    | request nowMillis => exact ih (h.request nowMillis)

/-- A session over a new table is sound. -/
theorem sound_start {table : DiscoveredPeers maxLxmfPeerAppDataBytes}
    (htable : DiscoveredPeers.tryNew maxLxmfPeerAppDataBytes slots = some table)
    (incarnation : LxmfPeerDiscoveryIncarnation) (requested : Option LxmfPeerDiscoveryCursor) :
    Sound ⟨⟨incarnation, table⟩, requested, []⟩ slots := by
  refine ⟨⟨⟨[], DiscoveredPeers.retains_tryNew htable⟩, ?_⟩, .nil, nofun⟩
  rw [(DiscoveredPeers.retains_tryNew htable).generation]
  decide

end PeerSession

section Clients

variable {reader : Cbor.Reader} {writer : Cbor.Writer}
  {next : List Byte → Option (Cbor.Token × List Byte)} {slots : ℕ}

/-- In every run of announces and requests, whatever cursor the client began with: each request is
answered with a page that shows the history after its cursor, is written into a message and read
back, and a client that follows the cursors never gets a generation twice. -/
theorem pages_reach_client (h : reader.Lawful next) (h' : writer.Lawful next)
    {table : DiscoveredPeers maxLxmfPeerAppDataBytes}
    (htable : DiscoveredPeers.tryNew maxLxmfPeerAppDataBytes slots = some table)
    (deriveDestinationHash : IdentityHash → DestinationHash)
    (incarnation : LxmfPeerDiscoveryIncarnation) (first : Option LxmfPeerDiscoveryCursor)
    (steps : List SessionStep) {Other : Type} (others : DeviceApi.Responses Other)
    (minor : BitVec 16) (requestId : RequestId) :
    let session := steps.foldl (PeerSession.step deriveDestinationHash)
      ⟨⟨incarnation, table⟩, first, []⟩
    (∀ requested nowMillis, ∃ after page output,
      session.projection.page requested nowMillis = some page ∧
      session.projection.Shows after page ∧
      (∀ cursor, requested = some cursor →
        cursor.incarnation = session.projection.incarnation →
        cursor.afterGeneration.toNat ≤ session.projection.peers.latestGeneration →
        after = cursor.afterGeneration.toNat) ∧
      encodeResponse writer (deviceResponses reader writer others)
        ⟨⟨apiVersionMajor, minor⟩, requestId, .lxmfPeerNext page⟩ maxMessageBytes = .ok output ∧
      decodeResponse reader (deviceResponses reader writer others) output =
        .ok ⟨⟨apiVersionMajor, minor⟩, requestId, .lxmfPeerNext page⟩) ∧
    session.generations.Pairwise (· < ·) := by
  have hsound := (PeerSession.sound_start htable incarnation first).run deriveDestinationHash steps
  refine ⟨fun requested nowMillis => ?_, hsound.increasing⟩
  obtain ⟨after, page, hpage, hshows, hcursor⟩ := hsound.projection.page requested nowMillis
  obtain ⟨output, hencode, hdecode⟩ :=
    DeviceApi.decode_encode_lxmfPeerNext h h' others minor requestId hshows.consistent
  exact ⟨after, page, output, hpage, hshows, hcursor, hencode, hdecode⟩

/-- No other responses. -/
def noResponses : DeviceApi.Responses Empty where
  kind := nofun
  capabilitiesVersion := nofun
  encodeBody := nofun
  decodeBody kind _ := .error (.unsupportedResponseKind kind)

/-- A table with two slots. -/
def twoPeerSlots : DiscoveredPeers maxLxmfPeerAppDataBytes :=
  ⟨[none, none], List.cons_ne_nil _ _, 0, 0, none⟩

/-- An announce, then a request with the cursor of another incarnation. -/
theorem pages_reach_client_bytes :
    let session := [SessionStep.observe ⟨Vector.replicate 16 7, Vector.replicate 16 7, 2,
        Vector.replicate 8 3, 1000, [65, 108]⟩, .request 1250].foldl (PeerSession.step id)
      ⟨⟨Vector.replicate 8 1, twoPeerSlots⟩, some ⟨Vector.replicate 8 9, 5⟩, []⟩
    (∀ requested nowMillis, ∃ after page output,
      session.projection.page requested nowMillis = some page ∧
      session.projection.Shows after page ∧
      (∀ cursor, requested = some cursor →
        cursor.incarnation = session.projection.incarnation →
        cursor.afterGeneration.toNat ≤ session.projection.peers.latestGeneration →
        after = cursor.afterGeneration.toNat) ∧
      encodeResponse Cbor.byteWriter (deviceResponses Cbor.byteReader Cbor.byteWriter noResponses)
        ⟨⟨apiVersionMajor, 0⟩, 3, .lxmfPeerNext page⟩ maxMessageBytes = .ok output ∧
      decodeResponse Cbor.byteReader
        (deviceResponses Cbor.byteReader Cbor.byteWriter noResponses) output =
        .ok ⟨⟨apiVersionMajor, 0⟩, 3, .lxmfPeerNext page⟩) ∧
    session.generations.Pairwise (· < ·) :=
  have hslots : DiscoveredPeers.tryNew _ 2 = some twoPeerSlots := rfl
  pages_reach_client Cbor.byteReader_lawful Cbor.byteWriter_lawful hslots id _ _ _ noResponses 0 3

end Clients

end Discovery
