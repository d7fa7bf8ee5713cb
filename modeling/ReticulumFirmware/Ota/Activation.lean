import ReticulumFirmware.Ota.Log

/-!
# Activation safety

Whatever operations are run and whatever the backend answers, an activation in the log is
preceded by a complete, verified and validated transfer into the activated slot.
-/

namespace Ota

open Nor

variable {ε : Type}

/-- The successful writes of a log. -/
def writes (log : List (OtaEvent ε)) : List (OtaSlot × ℕ × List Byte) :=
  log.filterMap fun
    | .writeVerified slot offset data (.ok _) => some (slot, offset, data)
    | _ => none

/-- Whether an event closes the application gate or consumes an arming. -/
def OtaEvent.consumesArming : OtaEvent ε → Bool
  | .disarm | .ingestResource .. => true
  | _ => false

/-- Writes that follow each other from an offset on. -/
def Contiguous : ℕ → List (OtaSlot × ℕ × List Byte) → Prop
  | _, [] => True
  | offset, (_, start, data) :: rest => start = offset ∧ Contiguous (offset + data.length) rest

/-- An arming for the chunk `index` is open: nothing closed or consumed it since. -/
def Armed (link : LinkId) (id : OtaSessionId) (index : ℕ) (since : List (OtaEvent ε)) : Prop :=
  ∃ start quiet, since = start ++ .armNext link id index true :: quiet ∧
    ∀ e ∈ quiet, e.consumesArming = false

/-- A write after `before` is the one of a resource that arrived on the session's link with
the session's identity, while an arming for exactly its index was open. -/
def Admitted (link : LinkId) (id : OtaSessionId) (before : List (OtaEvent ε)) (offset : ℕ)
    (data : List Byte) : Prop :=
  ∃ since metadata, before = since ++ [.ingestResource link metadata data] ∧
    Armed link id (writes before).length since ∧
    OtaChunkMetadata.decode metadata = .ok ⟨id, (writes before).length, offset⟩

/-- What a log shows of a session since its slot was prepared. -/
structure Transfer (link : LinkId) (id : OtaSessionId) (slot : OtaSlot) (image : List Byte)
    (since : List (OtaEvent ε)) : Prop where
  /-- No other slot was prepared. -/
  noPrepare : ∀ e ∈ since, e.isPrepare = false
  /-- Every write went to the slot. -/
  slots : ∀ w ∈ writes since, w.1 = slot
  /-- The writes follow each other from the start. -/
  contiguous : Contiguous 0 (writes since)
  /-- The written bytes. -/
  image_eq : ((writes since).map fun w => w.2.2).flatten = image
  /-- A nonempty image starts with the magic byte. -/
  magic : image ≠ [] → image.head? = some espImageMagic
  /-- Every write was admitted. -/
  admitted : ∀ before slot offset data after,
    since = before ++ .writeVerified slot offset data (.ok ()) :: after →
      Admitted link id before offset data

/-- The log before an activation of `slot` shows a complete and verified transfer, ended by
the validation of the staged image. -/
def Justified (sha256 : Sha256) (log : List (OtaEvent ε)) (slot : OtaSlot) : Prop :=
  ∃ earlier link nowMillis manifest since image,
    log = earlier ++ .begin link nowMillis manifest ::
      .prepareInactive manifest.imageBytes (.ok slot) :: since ∧
    Transfer link (deriveSessionId sha256 link nowMillis manifest) slot image since ∧
    image.length = manifest.imageBytes ∧
    sha256 image = manifest.imageSha256 ∧
    image.head? = some espImageMagic ∧
    since.getLast? = some (.validateStagedImage slot manifest.imageBytes (.ok ()))

/-- The writes of a log are those of its parts. -/
@[simp] theorem writes_append (log tail : List (OtaEvent ε)) :
    writes (log ++ tail) = writes log ++ writes tail := List.filterMap_append

/-- An element of a composed list stands in one of the two parts. -/
theorem append_eq_split {α : Type} {log tail before after : List α} {x : α}
    (h : log ++ tail = before ++ x :: after) :
    (∃ rest, log = before ++ x :: rest) ∨ ∃ rest, before = log ++ rest ∧
      tail = rest ++ x :: after := by
  rcases List.append_eq_append_iff.mp h with ⟨rest, hbefore, htail⟩ | ⟨rest, hlog, hafter⟩
  · exact Or.inr ⟨rest, hbefore, htail⟩
  · cases rest with
    | nil => exact Or.inr ⟨[], by simpa using hlog.symm, by simpa using hafter.symm⟩
    | cons y rest =>
      obtain ⟨rfl, -⟩ := List.cons.inj hafter
      exact Or.inl ⟨rest, hlog⟩

/-- One more contiguous write. -/
theorem Contiguous.append {offset : ℕ} {ws : List (OtaSlot × ℕ × List Byte)}
    (h : Contiguous offset ws) (slot : OtaSlot) (data : List Byte) :
    Contiguous offset
      (ws ++ [(slot, offset + ((ws.map fun w => w.2.2).flatten).length, data)]) := by
  induction ws generalizing offset with
  | nil => exact ⟨rfl, trivial⟩
  | cons w ws ih =>
    refine ⟨h.1, ?_⟩
    have := ih h.2
    simpa [Nat.add_assoc] using this

/-- Events that are no preparation and no successful write do not touch a transfer. -/
theorem Transfer.quiet {link : LinkId} {id : OtaSessionId} {slot : OtaSlot} {image : List Byte}
    {since : List (OtaEvent ε)} (h : Transfer link id slot image since) {e : OtaEvent ε}
    (hprepare : e.isPrepare = false) (hwrite : writes [e] = []) :
    Transfer link id slot image (since ++ [e]) := by
  have hwrites : writes (since ++ [e]) = writes since := by
    rw [writes_append, hwrite, List.append_nil]
  refine ⟨?_, hwrites ▸ h.slots, hwrites ▸ h.contiguous, hwrites ▸ h.image_eq, h.magic, ?_⟩
  · intro e' he'
    rcases List.mem_append.mp he' with he' | he'
    · exact h.noPrepare e' he'
    · rwa [List.mem_singleton.mp he']
  · intro before slot' offset data after hsplit
    rcases append_eq_split hsplit with ⟨rest, hsince⟩ | ⟨rest, -, htail⟩
    · exact h.admitted before slot' offset data rest hsince
    · rw [htail] at hwrite
      simp [writes] at hwrite

/-- An admitted write extends a transfer. -/
theorem Transfer.write {link : LinkId} {id : OtaSessionId} {slot : OtaSlot} {image : List Byte}
    {before : List (OtaEvent ε)} (h : Transfer link id slot image before) {data : List Byte}
    (hadmitted : Admitted link id before image.length data)
    (hmagic : image = [] → data.head? = some espImageMagic) :
    Transfer link id slot (image ++ data)
      (before ++ [.writeVerified slot image.length data (.ok ())]) := by
  have hwrites : writes (before ++ [.writeVerified slot image.length data (.ok ())]) =
      writes before ++ [(slot, image.length, data)] := writes_append ..
  refine ⟨?_, ?_, ?_, ?_, ?_, ?_⟩
  · intro e he
    rcases List.mem_append.mp he with he | he
    · exact h.noPrepare e he
    · rw [List.mem_singleton.mp he]
      rfl
  · rw [hwrites]
    intro w hw
    rcases List.mem_append.mp hw with hw | hw
    · exact h.slots w hw
    · rw [List.mem_singleton.mp hw]
  · rw [hwrites]
    have hnext := h.contiguous.append slot data
    rwa [h.image_eq, Nat.zero_add] at hnext
  · rw [hwrites, List.map_append, List.flatten_append, h.image_eq]
    simp
  · intro _
    cases himage : image with
    | nil => simpa using hmagic himage
    | cons b image => simpa [himage] using h.magic (by simp [himage])
  · intro before' slot' offset data' after hsplit
    rcases append_eq_split hsplit with ⟨rest, hbefore⟩ | ⟨rest, hbefore, htail⟩
    · exact h.admitted before' slot' offset data' rest hbefore
    · cases rest with
      | nil =>
        rw [List.append_nil] at hbefore
        cases htail
        exact hbefore ▸ hadmitted
      | cons e rest => simp at htail

/-- What the log shows of the session in progress. -/
structure SessionLog (session : ActiveSession) (since : List (OtaEvent ε)) : Prop where
  transfer : Transfer session.link session.id session.slot session.digest since
  verified : session.verifiedBytes = session.digest.length
  bounded : session.digest.length ≤ session.manifest.imageBytes
  slotBound : session.manifest.imageBytes ≤ maxOtaImageBytes
  next : session.nextChunk = (writes since).length
  chunks : (writes since).length ≤ session.digest.length
  armed : session.resourceArmed = true →
    Armed session.link session.id session.nextChunk since

/-- The session in progress was started by the last preparation of the log. -/
def SessionInv (sha256 : Sha256) (session : ActiveSession) (log : List (OtaEvent ε)) : Prop :=
  ∃ earlier nowMillis since,
    log = earlier ++ .begin session.link nowMillis session.manifest ::
      .prepareInactive session.manifest.imageBytes (.ok session.slot) :: since ∧
    session.id = deriveSessionId sha256 session.link nowMillis session.manifest ∧
    SessionLog session since

/-- What holds of every run. -/
structure RunInv (sha256 : Sha256) (run : Run ε) : Prop where
  session : ∀ session, run.1.active = some session → SessionInv sha256 session run.2
  activations : ∀ before slot result after, run.2 = before ++ .activate slot result :: after →
    Justified sha256 before slot

/-- An arming stays open over events that do not consume it. -/
theorem Armed.append {link : LinkId} {id : OtaSessionId} {index : ℕ} {since : List (OtaEvent ε)}
    (h : Armed link id index since) {e : OtaEvent ε} (he : e.consumesArming = false) :
    Armed link id index (since ++ [e]) := by
  obtain ⟨start, quiet, rfl, hquiet⟩ := h
  refine ⟨start, quiet ++ [e], by simp, fun e' he' => ?_⟩
  rcases List.mem_append.mp he' with he' | he'
  · exact hquiet e' he'
  · rwa [List.mem_singleton.mp he']

/-- A session is not touched by events of other parties. -/
theorem SessionInv.quiet {sha256 : Sha256} {session : ActiveSession} {log : List (OtaEvent ε)}
    (h : SessionInv sha256 session log) {e : OtaEvent ε} (hprepare : e.isPrepare = false)
    (hwrite : writes [e] = []) (harmed : session.resourceArmed = true → e.consumesArming = false) :
    SessionInv sha256 session (log ++ [e]) := by
  obtain ⟨earlier, nowMillis, since, rfl, hid, hlog⟩ := h
  have hwrites : writes (since ++ [e]) = writes since := by
    rw [writes_append, hwrite, List.append_nil]
  refine ⟨earlier, nowMillis, since ++ [e], by simp, hid, ?_⟩
  exact ⟨hlog.transfer.quiet hprepare hwrite, hlog.verified, hlog.bounded, hlog.slotBound,
    hwrites ▸ hlog.next, hwrites ▸ hlog.chunks,
    fun harm => (hlog.armed harm).append (harmed harm)⟩

/-- Opening or closing the gate of a session. -/
theorem SessionInv.gate {sha256 : Sha256} {session : ActiveSession} {log : List (OtaEvent ε)}
    (h : SessionInv sha256 session log) {e : OtaEvent ε} {armed : Bool}
    (hprepare : e.isPrepare = false) (hwrite : writes [e] = [])
    (harmed : armed = true → e = .armNext session.link session.id session.nextChunk true) :
    SessionInv sha256 { session with resourceArmed := armed } (log ++ [e]) := by
  obtain ⟨earlier, nowMillis, since, rfl, hid, hlog⟩ := h
  have hwrites : writes (since ++ [e]) = writes since := by
    rw [writes_append, hwrite, List.append_nil]
  refine ⟨earlier, nowMillis, since ++ [e], by simp, hid, ?_⟩
  exact ⟨hlog.transfer.quiet hprepare hwrite, hlog.verified, hlog.bounded, hlog.slotBound,
    hwrites ▸ hlog.next, hwrites ▸ hlog.chunks, fun harm =>
      ⟨since, [], by rw [harmed harm], by simp⟩⟩

/-- A received resource extends the session. -/
theorem SessionLog.receive {session : ActiveSession} {since : List (OtaEvent ε)}
    (h : SessionLog session since) {link : LinkId} {metadata data : List Byte}
    (hadmits : session.Admits link metadata data) :
    SessionLog (session.advance data) (since ++ [.ingestResource link metadata data,
      .writeVerified session.slot session.verifiedBytes data (.ok ())]) := by
  have hlink := hadmits.link
  have hlength := hadmits.length
  have hpositive : 0 < data.length := List.length_pos_iff.mpr hadmits.nonempty
  have hverified := h.verified
  have hbounded := h.bounded
  have hslot : session.manifest.imageBytes ≤ 0x500000 := h.slotBound
  have hchunks := h.chunks
  have hnext := h.next
  have hsplit : since ++ [.ingestResource link metadata data,
      .writeVerified session.slot session.verifiedBytes data (.ok ())] =
      since ++ [.ingestResource link metadata data] ++
        [.writeVerified session.slot session.digest.length data (.ok ())] := by
    rw [hverified, List.append_assoc]
    rfl
  have hwrites : (writes (since ++ [OtaEvent.ingestResource link metadata data,
      .writeVerified session.slot session.verifiedBytes data (.ok () : Except ε Unit)])).length =
      (writes since).length + 1 := by
    rw [writes_append, List.length_append]
    rfl
  have htransfer : Transfer session.link session.id session.slot (session.digest ++ data)
      (since ++ [.ingestResource link metadata data,
        .writeVerified session.slot session.verifiedBytes data (.ok ())]) := by
    rw [hsplit]
    refine (h.transfer.quiet rfl rfl).write ?_ fun hempty =>
      hadmits.magic (by simp [hverified, hempty])
    have hlen : (writes (since ++ [OtaEvent.ingestResource link metadata data])).length =
        session.nextChunk := by
      rw [writes_append, List.length_append, hnext]
      rfl
    refine ⟨since, metadata, by rw [hlink], ?_, ?_⟩
    · rw [hlen]
      exact h.armed hadmits.armed
    · rw [hlen, ← hverified]
      exact hadmits.decoded
  refine ⟨htransfer, ?_, ?_, h.slotBound, ?_, ?_, ?_⟩
  · show (session.verifiedBytes + data.length % 2 ^ 32) % 2 ^ 32 = (session.digest ++ data).length
    rw [List.length_append]
    omega
  · show (session.digest ++ data).length ≤ session.manifest.imageBytes
    rw [List.length_append]
    omega
  · show (session.nextChunk + 1) % 2 ^ 32 = _
    omega
  · show _ ≤ (session.digest ++ data).length
    rw [List.length_append]
    omega
  · intro harmed
    exact absurd harmed (by simp [ActiveSession.advance, ActiveSession.absorb])

/-- A completing resource justifies the activation that follows it. -/
theorem SessionInv.justified {sha256 : Sha256} {session : ActiveSession} {log : List (OtaEvent ε)}
    (h : SessionInv sha256 session log) {link : LinkId} {metadata data : List Byte}
    (hadmits : session.Admits link metadata data)
    (hcomplete : (session.advance data).verifiedBytes = session.manifest.imageBytes)
    (hdigest : sha256 (session.digest ++ data) = session.manifest.imageSha256) :
    Justified sha256 (log ++ [.ingestResource link metadata data,
      .writeVerified session.slot session.verifiedBytes data (.ok ()),
      .validateStagedImage session.slot session.manifest.imageBytes (.ok ())]) session.slot := by
  obtain ⟨earlier, nowMillis, since, rfl, hid, hlog⟩ := h
  have hreceived := hlog.receive hadmits
  have hnonempty : session.digest ++ data ≠ [] := by simp [hadmits.nonempty]
  refine ⟨earlier, session.link, nowMillis, session.manifest,
    since ++ [.ingestResource link metadata data,
      .writeVerified session.slot session.verifiedBytes data (.ok ())] ++
      [.validateStagedImage session.slot session.manifest.imageBytes (.ok ())],
    session.digest ++ data, by simp, ?_, hreceived.verified.symm.trans hcomplete, hdigest,
    hreceived.transfer.magic hnonempty, by simp⟩
  rw [← hid]
  exact hreceived.transfer.quiet rfl rfl

/-- Activations of a log without further activations stay justified. -/
theorem RunInv.quiet {sha256 : Sha256} {run : Run ε} (h : RunInv sha256 run)
    {tail : List (OtaEvent ε)} (htail : ∀ e ∈ tail, e.isActivate = false) :
    ∀ before slot result after, run.2 ++ tail = before ++ .activate slot result :: after →
      Justified sha256 before slot := by
  intro before slot result after hsplit
  rcases append_eq_split hsplit with ⟨rest, hlog⟩ | ⟨rest, -, hrest⟩
  · exact h.activations before slot result rest hlog
  · exact absurd (htail (.activate slot result) (by simp [hrest])) (by simp [OtaEvent.isActivate])

/-- A session right after its slot was prepared. -/
theorem sessionInv_begin {sha256 : Sha256} {link : LinkId} {nowMillis : UInt64}
    {manifest : OtaManifest} {slot : OtaSlot} {log : List (OtaEvent ε)}
    (hsize : manifest.imageBytes ≤ maxOtaImageBytes) :
    SessionInv sha256
      ⟨link, deriveSessionId sha256 link nowMillis manifest, manifest, slot, 0, 0, false, []⟩
      (log ++ [.begin link nowMillis manifest] ++
        [.prepareInactive manifest.imageBytes (.ok slot)]) := by
  refine ⟨log, nowMillis, [], by simp, rfl,
    ⟨⟨?_, ?_, trivial, rfl, ?_, ?_⟩, rfl, ?_, hsize, rfl, ?_, ?_⟩⟩
  all_goals simp [writes]

/-- A start keeps the invariant. -/
theorem RunInv.begin {sha256 : Sha256} {outcomes : Outcomes ε} {run : Run ε}
    (h : RunInv sha256 run) (link : LinkId) (nowMillis : UInt64) (manifest : OtaManifest) :
    RunInv sha256 (step sha256 outcomes run (.begin link nowMillis manifest)) := by
  rw [Ota.step]
  rcases run.1.begin_cases sha256 outcomes.backend link nowMillis manifest with
    ⟨c', error, hactive, heq⟩ | ⟨hnone, hsize⟩
  · rw [heq]
    refine ⟨fun session hsession => ?_, h.quiet (by simp [OtaEvent.isActivate])⟩
    exact (h.session session (hactive ▸ hsession)).quiet rfl rfl fun _ => rfl
  · rw [OtaCoordinator.begin, if_neg (by simp [hnone]), if_neg (by omega)]
    simp only [Outcomes.backend, logged_bind]
    cases outcomes.prepareInactive _ manifest.imageBytes with
    | error error =>
      refine ⟨fun session hsession => ?_, ?_⟩
      · have hactive : run.1.active = some session := hsession
        simp [hnone] at hactive
      · rw [List.append_assoc]
        exact h.quiet (by simp [OtaEvent.isActivate])
    | ok slot =>
      refine ⟨fun session hsession => ?_, ?_⟩
      · have hactive : some _ = some session :=
          (OtaCoordinator.active_refreshReceivingStatus _).symm.trans hsession
        rw [← Option.some.inj hactive]
        exact sessionInv_begin hsize
      · rw [List.append_assoc]
        exact h.quiet (by simp [OtaEvent.isActivate])

/-- Arming keeps the invariant. -/
theorem RunInv.armNext {sha256 : Sha256} {outcomes : Outcomes ε} {run : Run ε}
    (h : RunInv sha256 run) (link : LinkId) (id : OtaSessionId) (index : ℕ) :
    RunInv sha256 (step sha256 outcomes run (.armNext link id index)) := by
  refine ⟨fun session hsession => ?_, h.quiet (by simp [OtaEvent.isActivate])⟩
  simp only [Ota.step, OtaCoordinator.armNext] at hsession ⊢
  cases hactive : run.1.active with
  | none => simp [hactive] at hsession
  | some active =>
    simp only [hactive] at hsession ⊢
    split at hsession
    · next hmismatch =>
      rw [if_pos hmismatch]
      exact (h.session session hsession).quiet rfl rfl fun _ => rfl
    · next hmatch =>
      rw [if_neg hmatch]
      simp only [OtaCoordinator.active_refreshReceivingStatus, Option.some.injEq] at hsession
      simp only [not_or, not_not, ne_eq] at hmatch
      obtain ⟨rfl, rfl, rfl⟩ := hmatch
      rw [← hsession]
      exact (h.session active hactive).gate rfl rfl fun _ => rfl

/-- Disarming keeps the invariant. -/
theorem RunInv.disarm {sha256 : Sha256} {outcomes : Outcomes ε} {run : Run ε}
    (h : RunInv sha256 run) : RunInv sha256 (step sha256 outcomes run .disarm) := by
  refine ⟨fun session hsession => ?_, h.quiet (by simp [OtaEvent.isActivate])⟩
  have hsession : run.1.disarm.active = some session := hsession
  rw [OtaCoordinator.disarm] at hsession
  cases hactive : run.1.active with
  | none => simp [hactive] at hsession
  | some active =>
    simp only [hactive, OtaCoordinator.active_refreshReceivingStatus, Option.some.injEq] at hsession
    rw [← hsession]
    exact (h.session active hactive).gate rfl rfl (by simp)

/-- The end of a link keeps the invariant. -/
theorem RunInv.linkClosed {sha256 : Sha256} {outcomes : Outcomes ε} {run : Run ε}
    (h : RunInv sha256 run) (link : LinkId) :
    RunInv sha256 (step sha256 outcomes run (.linkClosed link)) := by
  refine ⟨fun session hsession => ?_, h.quiet (by simp [OtaEvent.isActivate])⟩
  have hsession : (run.1.linkClosed link).active = some session := hsession
  have hkept : run.1.active = some session := by
    rw [OtaCoordinator.linkClosed] at hsession
    cases hactive : run.1.active with
    | none => simp [hactive] at hsession
    | some active =>
      simp only [hactive] at hsession
      split at hsession
      · simp at hsession
      · rw [← hactive, hsession]
  exact (h.session session hkept).quiet rfl rfl fun _ => rfl

/-- Handing over a resource keeps the invariant. -/
theorem RunInv.ingestResource {sha256 : Sha256} {outcomes : Outcomes ε} {run : Run ε}
    (h : RunInv sha256 run) (link : LinkId) (metadata data : List Byte) :
    RunInv sha256 (step sha256 outcomes run (.ingestResource link metadata data)) := by
  obtain ⟨tail, hlog, hingested⟩ := ingested sha256 outcomes run.1 link metadata data
    (run.2 ++ [.ingestResource link metadata data])
  rw [Ota.step]
  simp only [hlog]
  generalize (run.1.ingestResource sha256 outcomes.backend link metadata data
    (run.2 ++ [.ingestResource link metadata data])).1.1 = c' at hingested ⊢
  generalize hbefore : run.1.active = active at hingested
  generalize hafter : c'.active = active' at hingested
  cases hingested with
  | rejected htail =>
    refine ⟨fun session hsession => by simp [hafter] at hsession, ?_⟩
    rw [List.append_assoc]
    refine h.quiet (List.forall_mem_cons.mpr ⟨rfl, fun e he => (htail e he).2⟩)
  | @received session hadmits =>
    refine ⟨fun session' hsession' => ?_, ?_⟩
    · obtain rfl : session.advance data = session' :=
        Option.some.inj (hafter.symm.trans hsession')
      obtain ⟨earlier, nowMillis, since, hlog, hid, hsessionLog⟩ := h.session session hbefore
      exact ⟨earlier, nowMillis, _, by simp [hlog], hid, hsessionLog.receive hadmits⟩
    · rw [List.append_assoc]
      exact h.quiet (by simp [OtaEvent.isActivate])
  | @completed session hadmits hcomplete hdigest result =>
    refine ⟨fun session' hsession' => by simp [hafter] at hsession', ?_⟩
    intro before slot result' after hsplit
    have hjustified := (h.session session hbefore).justified hadmits hcomplete hdigest
    have hsplit : run.2 ++ [.ingestResource link metadata data,
        .writeVerified session.slot session.verifiedBytes data (.ok ()),
        .validateStagedImage session.slot session.manifest.imageBytes (.ok ())] ++
        [.activate session.slot result] = before ++ .activate slot result' :: after := by
      simpa using hsplit
    rcases append_eq_split hsplit with ⟨rest, hlog⟩ | ⟨rest, rfl, htail⟩
    · exact h.quiet (by simp [OtaEvent.isActivate]) before slot result' rest hlog
    · cases rest with
      | nil =>
        cases htail
        rwa [List.append_nil]
      | cons e rest => simp at htail

/-- One operation keeps the invariant. -/
theorem RunInv.step {sha256 : Sha256} {outcomes : Outcomes ε} {run : Run ε}
    (h : RunInv sha256 run) (op : OtaOp) : RunInv sha256 (step sha256 outcomes run op) := by
  cases op with
  | begin link nowMillis manifest => exact h.begin link nowMillis manifest
  | armNext link session index => exact h.armNext link session index
  | disarm => exact h.disarm
  | ingestResource link metadata data => exact h.ingestResource link metadata data
  | linkClosed link => exact h.linkClosed link

/-- The invariant holds of every run. -/
theorem runInv_runOps (sha256 : Sha256) (outcomes : Outcomes ε) (ops : List OtaOp) :
    RunInv sha256 (runOps sha256 outcomes ops) := by
  have hrun : ∀ run : Run ε, RunInv sha256 run →
      RunInv sha256 (ops.foldl (step sha256 outcomes) run) := by
    induction ops with
    | nil => exact fun _ h => h
    | cons op ops ih => exact fun run h => ih _ (h.step op)
  refine hrun _ ⟨fun session hsession => ?_, fun before slot result after hlog => ?_⟩
  · cases hsession
  · simp at hlog

/-- In every run of the coordinator, with every backend, each activation is preceded by a
complete transfer into the activated slot: contiguous writes of exactly the manifest's image,
admitted one by one, then a successful validation. -/
theorem activation_justified (sha256 : Sha256) (outcomes : Outcomes ε) (ops : List OtaOp)
    (before after : List (OtaEvent ε)) (slot : OtaSlot) (result : Except ε Unit)
    (h : (runOps sha256 outcomes ops).2 = before ++ .activate slot result :: after) :
    Justified sha256 before slot :=
  (runInv_runOps sha256 outcomes ops).activations before slot result after h

/-- A backend that accepts everything and prepares the second slot. -/
def acceptAll : Outcomes Unit :=
  ⟨fun _ _ => .ok .ota1, fun _ _ _ _ => .ok (), fun _ _ _ => .ok (), fun _ _ => .ok ()⟩

/-- A digest for concrete runs: the first bytes of the input. -/
def firstBytes : Sha256 := copyArray 32

/-- The smallest image. -/
def smallImage : List Byte := espImageMagic :: List.replicate 63 0x5a

/-- The manifest of the smallest image. -/
def smallManifest : OtaManifest :=
  ⟨64, firstBytes smallImage, ⟨ascii "1.0", by decide, by decide, by decide⟩, by decide, by decide,
    by decide⟩

/-- A transfer of the smallest image in one resource. -/
def smallTransfer (link : LinkId) : List OtaOp :=
  let id := deriveSessionId firstBytes link 7 smallManifest
  [.begin link 7 smallManifest, .armNext link id 0,
    .ingestResource link (OtaChunkMetadata.encode ⟨id, 0, 0⟩) smallImage]

/-- The transfer of the smallest image ends with a justified activation. -/
theorem activation_justified_smallTransfer :
    ∃ before, (runOps firstBytes acceptAll (smallTransfer (Vector.replicate 16 1))).2 =
      before ++ [.activate .ota1 (.ok ())] ∧ Justified firstBytes before .ota1 := by
  have hlog : (runOps firstBytes acceptAll (smallTransfer (Vector.replicate 16 1))).2 =
      (runOps firstBytes acceptAll (smallTransfer (Vector.replicate 16 1))).2.dropLast ++
        [.activate .ota1 (.ok ())] := rfl
  exact ⟨_, hlog, activation_justified _ _ _ _ [] _ _ hlog⟩

end Ota
