import Mathlib.Data.Finset.Card
import Mathlib.Order.Interval.Finset.Nat
import ReticulumFirmware.Mailbox.Runs
import ReticulumFirmware.ProductStore.Inbox

/-!
# The watermark of the inbox

What a client has collected is kept beside the messages, in a store of its own. The functions of
`product_store.rs` that mount, read and advance it compare its cursor with the committed messages.
In every run the cursor names one of them.
-/

namespace ProductStore

open Nor DeviceApi
open LxmfStore (MountedLxmfStore IndexEntry BoundLxmfStore Orderly Position PendingMutation
  MountAction LxmfStoreMountError)
open Mailbox (MountedMailboxStore MailboxStoreBinding MailboxStoreCursor MailboxStoreError
  MailboxStoreMount MailboxAction)
open Lxmf (DurableMessageReceipt InboundMessageCandidate)

section Model

/-- The latest committed handle. -/
def latestHandle (store : MountedLxmfStore) : Option Lxmf.MessageHandle :=
  store.entries.getLast?.map fun entry => entry.receipt.handle

/-- The receipt of a handle. -/
def receipt (store : MountedLxmfStore) (handle : Lxmf.MessageHandle) :
    Option DurableMessageReceipt :=
  (store.entryForHandle handle).map IndexEntry.receipt

/-- The cursor that names the message of a receipt. -/
def mailboxCursorFromLxmfReceipt (receipt : DurableMessageReceipt) : MailboxStoreCursor :=
  ⟨receipt.handle, receipt.messageId, receipt.fingerprint.exactWireDigest⟩

/-- Whether a cursor names a committed message with its identity. -/
def mailboxCursorMatchesLxmf (store : MountedLxmfStore) : Option MailboxStoreCursor → Bool
  | none => true
  | some cursor =>
    match NonZeroU64.new cursor.handle.get with
    | none => false
    | some handle => ((receipt store handle).map mailboxCursorFromLxmfReceipt).any (· = cursor)

/-- The watermark as a handle, or none of them before any message. -/
def acknowledgedHandle (mailbox : MountedMailboxStore) : Option (Option LxmfMessageHandle) :=
  if mailbox.acknowledgedThrough = 0 then some none
  else (NonZeroU64.new mailbox.acknowledgedThrough).map some

/-- The status that both stores give, if it is consistent. -/
def projectLxmfMailboxStatus (store : MountedLxmfStore) (mailbox : MountedMailboxStore) :
    Option LxmfMailboxStatus := do
  let latest := (latestHandle store).bind fun handle => NonZeroU64.new handle.get
  let acknowledged ← acknowledgedHandle mailbox
  (LxmfMailboxStatus.new latest acknowledged).toOption

/-- The failure that the product reports. -/
def mapMailboxStoreError {ε : Type} : MailboxStoreError ε → ProductLxmfError
  | .backend _ => .backend
  | .fault _ => .faulted

variable {ε : Type} (sha256 : Sha256) (binding : MailboxStoreBinding) (geometry : Geometry)

/-- Mount the watermark beside its messages, or provision it. A provisioning that failed may have
been completed. -/
def mountOrProvisionLxmfMailbox (lxmf : MountedLxmfStore) :
    Prog ε (Except (MailboxStoreError ε) MountedMailboxStore) :=
  (Mailbox.mount sha256 binding geometry : MailboxAction ε _).run >>= fun
    | .error error => .pure (.error error)
    | .ok (.mounted mounted) =>
      if mailboxCursorMatchesLxmf lxmf mounted.acknowledged then .pure (.ok mounted)
      else .pure (.error (.fault .cursorIdentityConflict))
    | .ok .unprovisioned =>
      (Mailbox.provision sha256 binding geometry : MailboxAction ε _).run >>= fun
        | .ok mounted => .pure (.ok mounted)
        | .error error =>
          (Mailbox.mount sha256 binding geometry : MailboxAction ε _).run >>= fun
            | .ok (.mounted mounted) =>
              if mounted.acknowledged.isNone then .pure (.ok mounted) else .pure (.error error)
            | _ => .pure (.error error)

/-- The status of an inbox, or a fault. -/
def statusOf (store : MountedLxmfStore) (mailbox : MountedMailboxStore) :
    Except ProductLxmfError LxmfMailboxStatus :=
  match projectLxmfMailboxStatus store mailbox with
  | some status => .ok status
  | none => .error .faulted

/-- The status of an inbox with both stores. -/
def lxmfMailboxStatus (inbox : Inbox) : Except ProductLxmfError LxmfMailboxStatus :=
  match inbox.lxmf, inbox.lxmfMailbox with
  | some store, some mailbox => statusOf store mailbox
  | _, _ => .error .unavailable

/-- Advance the watermark to a receipt. After a failure the watermark is mounted again. -/
def acknowledgeReceipt (store : MountedLxmfStore) (current : MountedMailboxStore)
    (receipt : DurableMessageReceipt) :
    Prog ε (Except ProductLxmfError LxmfMailboxStatus × Inbox) :=
  let acknowledged := mailboxCursorFromLxmfReceipt receipt
  (Mailbox.acknowledgeThrough sha256 binding geometry current acknowledged :
      MailboxAction ε _).run >>= fun
    | .ok mounted => .pure (statusOf store mounted, ⟨some store, some mounted⟩)
    | .error error =>
      (Mailbox.mount sha256 binding geometry : MailboxAction ε _).run >>= fun
        | .ok (.mounted mounted) =>
          if mounted.acknowledged = some acknowledged then
            .pure (statusOf store mounted, ⟨some store, some mounted⟩)
          else .pure (.error (mapMailboxStoreError error), ⟨some store, some mounted⟩)
        | _ => .pure (.error (mapMailboxStoreError error), ⟨some store, none⟩)

/-- Acknowledge all committed messages through a handle. -/
def acknowledgeLxmfMailboxThrough (inbox : Inbox) (through : LxmfMessageHandle) :
    Prog ε (Except ProductLxmfError LxmfMailboxStatus × Inbox) :=
  match inbox.lxmf with
  | none => .pure (.error .unavailable, inbox)
  | some store =>
    match NonZeroU64.new through.get with
    | none => .pure (.error .invalidRequest, inbox)
    | some handle =>
      match receipt store handle with
      | none => .pure (.error .invalidRequest, inbox)
      | some receipt =>
        match inbox.lxmfMailbox with
        | none => .pure (.error .unavailable, inbox)
        | some current => acknowledgeReceipt sha256 binding geometry store current receipt

end Model

section Snapshots

open Mailbox

variable {ε : Type} {φ : Faults} {sha256 : Sha256} {binding : MailboxStoreBinding}
  {geometry : Geometry} {f g : Flash} {entries entries' : List IndexEntry} {collected : List ℕ}
  {current mailbox : MountedMailboxStore} {cursor : MailboxStoreCursor} {tr : List Mutation}

/-- A cursor names an entry. -/
def Names (entries : List IndexEntry) (cursor : MailboxStoreCursor) : Prop :=
  ∃ entry ∈ entries, mailboxCursorFromLxmfReceipt entry.receipt = cursor

/-- A snapshot that is not behind what was collected. -/
structure Covers (sha256 : Sha256) (binding : MailboxStoreBinding) (collected : List ℕ) (f : Flash)
    (mailbox : MountedMailboxStore) : Prop where
  holds : Mailbox.Holds sha256 binding f mailbox
  covers : ∀ handle ∈ collected, handle ≤ mailbox.acknowledgedThrough

/-- The cursors of all snapshots name entries, every generation but the first has moved the
watermark, and one of the snapshots is not behind what was collected. -/
structure Watermarked (sha256 : Sha256) (binding : MailboxStoreBinding) (entries : List IndexEntry)
    (collected : List ℕ) (f : Flash) : Prop where
  ordered : Ordered sha256 binding f
  generation_le : ∀ mailbox, Mailbox.Holds sha256 binding f mailbox →
    mailbox.generation.get ≤ mailbox.acknowledgedThrough + 1
  names : ∀ mailbox cursor, Mailbox.Holds sha256 binding f mailbox →
    mailbox.acknowledged = some cursor → Names entries cursor
  kept : collected = [] ∨ ∃ mailbox, Covers sha256 binding collected f mailbox

/-- The watermark stays sound as entries are appended. -/
theorem Watermarked.mono (h : Watermarked sha256 binding entries collected f)
    (hgrows : entries <+: entries') : Watermarked sha256 binding entries' collected f where
  ordered := h.ordered
  generation_le := h.generation_le
  names mailbox cursor hholds hcursor := by
    obtain ⟨entry, hentry, hnames⟩ := h.names mailbox cursor hholds hcursor
    exact ⟨entry, hgrows.subset hentry, hnames⟩
  kept := h.kept

/-- A region without a watermark belongs to any messages of which none was collected. -/
theorem watermarked_of_unprovisioned (h : mountAnswer sha256 binding f = .ok .unprovisioned) :
    Watermarked sha256 binding entries [] f := by
  have hreusable := reusable_of_unprovisioned h
  have hvacant : ∀ x, ¬Mailbox.Holds sha256 binding f x := fun x hx =>
    hx.not_reusable (hreusable _)
  exact ⟨ordered_of_reusable hreusable, fun x hx => absurd hx (hvacant x),
    fun x _ hx => absurd hx (hvacant x), .inl rfl⟩

/-- The newest snapshot is not behind what was collected. -/
theorem Watermarked.newest (h : Watermarked sha256 binding entries collected f)
    (hholds : Mailbox.Holds sha256 binding f mailbox)
    (hnewest : ∀ x, Mailbox.Holds sha256 binding f x → Follows x mailbox) :
    Covers sha256 binding collected f mailbox := by
  refine ⟨hholds, fun handle hhandle => ?_⟩
  obtain hnone | ⟨other, hother⟩ := h.kept
  · rw [hnone] at hhandle
    cases hhandle
  · have hle := hother.covers handle hhandle
    obtain rfl | hlt := hnewest other hother.holds
    · exact hle
    · exact hle.trans hlt.2.le

/-- A mount answers the newest snapshot. -/
theorem Watermarked.mount (h : Watermarked sha256 binding entries collected f)
    {r : Option (Except (MailboxStoreError ε) MailboxStoreMount)}
    (hx : Prog.Exec φ (Mailbox.mount sha256 binding geometry : MailboxAction ε _).run f tr r g) :
    g = f ∧ ∀ mounted, r = some (.ok (.mounted mounted)) →
      Covers sha256 binding collected f mounted := by
  obtain ⟨rfl, hanswer⟩ := exec_mount hx
  refine ⟨rfl, fun mounted hmounted => ?_⟩
  have hmount := hanswer mounted (by rw [hmounted]; rfl)
  obtain ⟨hnone, -⟩ | ⟨newest, hsome, hholds, hnewest⟩ := h.ordered.mountAnswer
  · cases hmount.symm.trans hnone
  · cases hmount.symm.trans hsome
    exact h.newest hholds hnewest

/-- A written snapshot is one more. -/
theorem Watermarked.written (h : Watermarked sha256 binding entries collected f)
    {store : MountedMailboxStore}
    {r : Option (Except (MailboxStoreError ε) MountedMailboxStore)}
    (hwrite : WriteOutcome φ sha256 store f g r) (hbinding : store.binding = binding)
    (hordered : Ordered sha256 binding g)
    (hgeneration : store.generation.get ≤ store.acknowledgedThrough + 1)
    (hnames : ∀ cursor, store.acknowledged = some cursor → Names entries cursor)
    (hkept : collected = [] ∨ ∃ mailbox, Covers sha256 binding collected g mailbox)
    (hcovers : ∀ handle ∈ collected, handle ≤ store.acknowledgedThrough) :
    Watermarked sha256 binding entries collected g ∧
      ∀ mounted, r = some (.ok mounted) → mounted = store ∧
        Covers sha256 binding collected g mounted := by
  subst hbinding
  have hback : ∀ x, Mailbox.Holds sha256 store.binding g x →
      x = store ∨ Mailbox.Holds sha256 store.binding f x :=
    fun x hx => hwrite.back (h.ordered.settled _) hx
  refine ⟨⟨hordered, fun x hx => ?_, fun x cursor hx hcursor => ?_, hkept⟩,
    fun mounted hmounted => ?_⟩
  · obtain rfl | hbefore := hback x hx
    · exact hgeneration
    · exact h.generation_le x hbefore
  · obtain rfl | hbefore := hback x hx
    · exact hnames cursor hcursor
    · exact h.names x cursor hbefore hcursor
  · obtain ⟨rfl, hholds⟩ := hwrite.ok mounted hmounted
    exact ⟨rfl, hholds, hcovers⟩

/-- An acknowledgement of an entry keeps the snapshots in order, and its answer has reached it. -/
theorem Watermarked.acknowledge (h : Watermarked sha256 binding entries collected f)
    (hcurrent : Covers sha256 binding collected f current) (hcursor : Names entries cursor)
    {r : Option (Except (MailboxStoreError ε) MountedMailboxStore)}
    (hx : Prog.Exec φ (Mailbox.acknowledgeThrough sha256 binding geometry current cursor :
      MailboxAction ε _).run f tr r g) (hclean : ∀ m ∈ tr, CleanErase m) :
    Watermarked sha256 binding entries collected g ∧
      ∀ mounted, r = some (.ok mounted) → Covers sha256 binding collected g mounted ∧
        cursor.handle.get ≤ mounted.acknowledgedThrough := by
  cases exec_acknowledge hx hclean with
  | kept hsame =>
    refine ⟨h, fun mounted hmounted => ?_⟩
    obtain ⟨rfl, hle⟩ := hsame mounted hmounted
    exact ⟨hcurrent, hle⟩
  | wrote generation hgeneration hbehind hwrite =>
    have hadvances : Follows current
        (Mailbox.written binding current.activeSector.other generation (some cursor)) :=
      Or.inr ⟨by dsimp only; omega, hbehind⟩
    have hle := h.generation_le current hcurrent.holds
    obtain ⟨hordered, hsame⟩ := h.ordered.write rfl (hcurrent.holds.beside hadvances rfl) hwrite
    rw [MailboxStoreSector.other_other] at hsame
    have hmoved : generation.get ≤ cursor.handle.get + 1 := by omega
    have hcovers : ∀ handle ∈ collected, handle ≤ cursor.handle.get := fun handle hhandle =>
      (hcurrent.covers handle hhandle).trans hbehind.le
    obtain ⟨hkept, hanswer⟩ := h.written hwrite rfl hordered hmoved
      (fun other hother => by cases hother; exact hcursor)
      (Or.inr ⟨current, hcurrent.holds.congr hsame, hcurrent.covers⟩) hcovers
    refine ⟨hkept, fun mounted hmounted => ?_⟩
    obtain ⟨rfl, hcovers⟩ := hanswer mounted hmounted
    exact ⟨hcovers, le_rfl⟩

/-- A provisioning adds a snapshot without a cursor. -/
theorem Watermarked.provision (h : Watermarked sha256 binding entries collected f)
    {r : Option (Except (MailboxStoreError ε) MountedMailboxStore)}
    (hx : Prog.Exec φ (Mailbox.provision sha256 binding geometry : MailboxAction ε _).run f tr r g)
    (hclean : ∀ m ∈ tr, CleanErase m) :
    Watermarked sha256 binding entries collected g ∧
      ∀ mounted, r = some (.ok mounted) → Covers sha256 binding collected g mounted := by
  obtain ⟨rfl, hnone⟩ | ⟨hmount, hwrite⟩ := exec_provision hx hclean
  · refine ⟨h, fun mounted hmounted => ?_⟩
    rw [answerOf_eq_some.mpr hmounted] at hnone
    cases hnone
  · have hvacant : ∀ x, ¬Mailbox.Holds sha256 binding f x := fun x hx =>
      hx.not_reusable (reusable_of_unprovisioned hmount _)
    have hempty : collected = [] :=
      h.kept.resolve_right fun ⟨x, hx⟩ => hvacant x hx.holds
    have hordered := (h.ordered.write rfl (fun x hx _ => absurd hx (hvacant x)) hwrite).1
    obtain ⟨hkept, hanswer⟩ := h.written hwrite rfl hordered (Nat.le_add_left _ _)
      (fun cursor hcursor => by cases hcursor) (Or.inl hempty)
      (fun handle hhandle => by rw [hempty] at hhandle; cases hhandle)
    exact ⟨hkept, fun mounted hmounted => (hanswer mounted hmounted).2⟩

end Snapshots

section Programs

open Mailbox

variable {ε : Type} {φ : Faults} {sha256 : Sha256} {binding : MailboxStoreBinding}
  {geometry : Geometry} {f g : Flash} {store : MountedLxmfStore} {current : MountedMailboxStore}
  {inbox : Inbox} {collected : List ℕ} {receipt : DurableMessageReceipt} {tr : List Mutation}

/-- A mounted or provisioned watermark is not behind what was collected. -/
theorem Watermarked.mountOrProvision (h : Watermarked sha256 binding store.entries collected f)
    {r : Option (Except (MailboxStoreError ε) MountedMailboxStore)}
    (hx : Prog.Exec φ (mountOrProvisionLxmfMailbox sha256 binding geometry store) f tr r g)
    (hclean : ∀ m ∈ tr, CleanErase m) :
    Watermarked sha256 binding store.entries collected g ∧
      ∀ mounted, r = some (.ok mounted) → Covers sha256 binding collected g mounted := by
  obtain ⟨rfl, hcut⟩ | ⟨answer, f₁, tr₁, tr₂, rfl, hmount, hrest⟩ := hx.bind_cases
  · obtain ⟨rfl, -⟩ := h.mount hcut
    exact ⟨h, fun _ hnone => by cases hnone⟩
  obtain ⟨rfl, hcovers⟩ := h.mount hmount
  match answer, hcovers, hrest with
  | .error error, _, hrest =>
    cases hrest <;> exact ⟨h, fun _ hsome => by cases hsome⟩
  | .ok (.mounted mounted), hcovers, hrest =>
    dsimp only at hrest
    split at hrest
    · cases hrest with
      | done => exact ⟨h, fun other hother => by cases hother; exact hcovers _ rfl⟩
      | cut => exact ⟨h, fun _ hsome => by cases hsome⟩
    · cases hrest <;> exact ⟨h, fun _ hsome => by cases hsome⟩
  | .ok .unprovisioned, _, hrest =>
    have hclean' : ∀ m ∈ tr₂, CleanErase m := fun m hm => hclean m (List.mem_append_right _ hm)
    obtain ⟨rfl, hcut⟩ | ⟨answer, f₂, tr₃, tr₄, rfl, hprovision, hlast⟩ := hrest.bind_cases
    · exact ⟨(h.provision hcut hclean').1, fun _ hnone => by cases hnone⟩
    obtain ⟨hkept, hcovers⟩ := h.provision hprovision fun m hm =>
      hclean' m (List.mem_append_left _ hm)
    match answer, hcovers, hlast with
    | .ok mounted, hcovers, hlast =>
      cases hlast with
      | done => exact ⟨hkept, fun other hother => by cases hother; exact hcovers _ rfl⟩
      | cut => exact ⟨hkept, fun _ hsome => by cases hsome⟩
    | .error error, _, hlast =>
      obtain ⟨rfl, hcut⟩ | ⟨answer, f₃, tr₅, tr₆, rfl, hagain, hend⟩ := hlast.bind_cases
      · obtain ⟨rfl, -⟩ := hkept.mount hcut
        exact ⟨hkept, fun _ hnone => by cases hnone⟩
      obtain ⟨rfl, hcovers⟩ := hkept.mount hagain
      match answer, hcovers, hend with
      | .error _, _, hend => cases hend <;> exact ⟨hkept, fun _ hsome => by cases hsome⟩
      | .ok .unprovisioned, _, hend => cases hend <;> exact ⟨hkept, fun _ hsome => by cases hsome⟩
      | .ok (.mounted mounted), hcovers, hend =>
        dsimp only at hend
        split at hend
        · cases hend with
          | done => exact ⟨hkept, fun other hother => by cases hother; exact hcovers _ rfl⟩
          | cut => exact ⟨hkept, fun _ hsome => by cases hsome⟩
        · cases hend <;> exact ⟨hkept, fun _ hsome => by cases hsome⟩

/-- What the product keeps after an acknowledgement. -/
structure Kept (sha256 : Sha256) (binding : MailboxStoreBinding) (store : MountedLxmfStore)
    (collected : List ℕ) (g : Flash) (through : ℕ)
    (answer : Except ProductLxmfError LxmfMailboxStatus) (inbox : Inbox) : Prop where
  lxmf : inbox.lxmf = some store
  mailbox : ∀ mailbox, inbox.lxmfMailbox = some mailbox → Covers sha256 binding collected g mailbox
  reached : ∀ status, answer = .ok status → ∃ mailbox, inbox.lxmfMailbox = some mailbox ∧
    through ≤ mailbox.acknowledgedThrough

/-- An acknowledgement of an entry, however it ends. -/
theorem Watermarked.acknowledgeReceipt (h : Watermarked sha256 binding store.entries collected f)
    (hcurrent : Covers sha256 binding collected f current)
    (hnames : Names store.entries (mailboxCursorFromLxmfReceipt receipt))
    {r : Option (Except ProductLxmfError LxmfMailboxStatus × Inbox)}
    (hx : Prog.Exec φ (acknowledgeReceipt (ε := ε) sha256 binding geometry store current receipt) f
      tr r g) (hclean : ∀ m ∈ tr, CleanErase m) :
    Watermarked sha256 binding store.entries collected g ∧
      ∀ answer inbox, r = some (answer, inbox) →
      Kept sha256 binding store collected g receipt.handle.get answer inbox := by
  have hlost : ∀ {g : Flash} {error : ProductLxmfError},
      Kept sha256 binding store collected g receipt.handle.get (.error error) ⟨some store, none⟩ :=
    ⟨rfl, fun _ hsome => (by cases hsome), fun _ hok => (by cases hok)⟩
  obtain ⟨rfl, hcut⟩ | ⟨answer, f₁, tr₁, tr₂, rfl, hfirst, hrest⟩ := hx.bind_cases
  · exact ⟨(h.acknowledge hcurrent hnames hcut hclean).1, fun _ _ hnone => by cases hnone⟩
  obtain ⟨hkept, hanswer⟩ := h.acknowledge hcurrent hnames hfirst fun m hm =>
    hclean m (List.mem_append_left _ hm)
  match answer, hanswer, hrest with
  | .ok mounted, hanswer, hrest =>
    obtain ⟨hcovers, hreached⟩ := hanswer mounted rfl
    cases hrest with
    | done =>
      refine ⟨hkept, fun _ _ hsome => ?_⟩
      cases hsome
      exact ⟨rfl, fun _ hother => (by cases hother; exact hcovers), fun _ _ => ⟨_, rfl, hreached⟩⟩
    | cut => exact ⟨hkept, fun _ _ hnone => by cases hnone⟩
  | .error error, _, hrest =>
    obtain ⟨rfl, hcut⟩ | ⟨answer, f₂, tr₃, tr₄, rfl, hagain, hend⟩ := hrest.bind_cases
    · obtain ⟨rfl, -⟩ := hkept.mount hcut
      exact ⟨hkept, fun _ _ hnone => by cases hnone⟩
    obtain ⟨rfl, hcovers⟩ := hkept.mount hagain
    match answer, hcovers, hend with
    | .error _, _, hend =>
      cases hend with
      | done => exact ⟨hkept, fun _ _ hsome => by cases hsome; exact hlost⟩
      | cut => exact ⟨hkept, fun _ _ hnone => by cases hnone⟩
    | .ok .unprovisioned, _, hend =>
      cases hend with
      | done => exact ⟨hkept, fun _ _ hsome => by cases hsome; exact hlost⟩
      | cut => exact ⟨hkept, fun _ _ hnone => by cases hnone⟩
    | .ok (.mounted mounted), hcovers, hend =>
      have hmounted : ∀ other, some mounted = some other →
        Covers sha256 binding collected _ other :=
        fun other hother => by cases hother; exact hcovers _ rfl
      dsimp only at hend
      split at hend
      · next hsame =>
        cases hend with
        | done =>
          refine ⟨hkept, fun _ _ hsome => ?_⟩
          cases hsome
          have hreached : receipt.handle.get ≤ mounted.acknowledgedThrough := by
            rw [MountedMailboxStore.acknowledgedThrough, hsame]
            exact le_rfl
          exact ⟨rfl, hmounted, fun _ _ => ⟨_, rfl, hreached⟩⟩
        | cut => exact ⟨hkept, fun _ _ hnone => by cases hnone⟩
      · cases hend with
        | done =>
          refine ⟨hkept, fun _ _ hsome => ?_⟩
          cases hsome
          exact ⟨rfl, hmounted, fun _ hok => (by cases hok)⟩
        | cut => exact ⟨hkept, fun _ _ hnone => by cases hnone⟩

end Programs

section Runs

open Mailbox

/-- The regions of the messages and of their watermark, what is mounted of them, and the handles
whose acknowledgement was answered. -/
structure InboxSystem where
  messages : Flash
  watermark : Flash
  inbox : Inbox
  collected : List ℕ

namespace InboxSystem

variable {ε : Type}

/-- The system after a boot mounted its messages, or lost power. -/
def afterBoot (system : InboxSystem) (store : MountedLxmfStore) (g : Flash) :
    Option (Except (MailboxStoreError ε) MountedMailboxStore) → InboxSystem
  | none => ⟨system.messages, g, ⟨none, none⟩, system.collected⟩
  | some (.ok mailbox) => ⟨system.messages, g, ⟨some store, some mailbox⟩, system.collected⟩
  | some (.error _) => ⟨system.messages, g, ⟨some store, none⟩, system.collected⟩

/-- The system after a commit, or after a power loss in it. -/
def afterCommit (system : InboxSystem) (g : Flash) :
    Option (Except (LxmfStore.LxmfCommitError ε) LxmfStore.LxmfCommitOutcome × MountedLxmfStore) →
      InboxSystem
  | none => ⟨g, system.watermark, ⟨none, none⟩, system.collected⟩
  | some (_, store) => ⟨g, system.watermark, ⟨some store, system.inbox.lxmfMailbox⟩,
      system.collected⟩

/-- The system after an acknowledgement, or after a power loss in it. -/
def afterAcknowledge (system : InboxSystem) (through : LxmfMessageHandle) (g : Flash) :
    Option (Except ProductLxmfError LxmfMailboxStatus × Inbox) → InboxSystem
  | none => ⟨system.messages, g, ⟨none, none⟩, system.collected⟩
  | some (.ok _, inbox) => ⟨system.messages, g, inbox, through.get :: system.collected⟩
  | some (.error _, inbox) => ⟨system.messages, g, inbox, system.collected⟩

variable (ε) (φ : Faults) (sha256 : Sha256) (access : BoundLxmfStore)
  (binding : MailboxStoreBinding) (geometry : Geometry)

/-- One step: a boot into an index of any capacity, a commit, an acknowledgement, or a restart.
Erases of the watermark are clean. -/
inductive Step : InboxSystem → InboxSystem → Prop
  | boot {system : InboxSystem} {capacity : ℕ} {store : MountedLxmfStore} {tr tr' : List Mutation}
      {r : Option _} {f g : Flash}
      (hmessages : Prog.Exec φ (LxmfStore.mount sha256 access capacity : MountAction ε _).run
        system.messages tr (some (.ok store)) f)
      (hwatermark : Prog.Exec φ (mountOrProvisionLxmfMailbox (ε := ε) sha256 binding geometry store)
        system.watermark tr' r g) (hclean : ∀ m ∈ tr', CleanErase m) :
      Step system (system.afterBoot store g r)
  | commit {system : InboxSystem} {store : MountedLxmfStore} {candidate : InboundMessageCandidate}
      {tr : List Mutation} {r : Option _} {g : Flash} (hstore : system.inbox.lxmf = some store)
      (hrun : Prog.Exec φ (LxmfStore.commit (ε := ε) sha256 access store candidate) system.messages
        tr r g) :
      Step system (system.afterCommit g r)
  | acknowledge {system : InboxSystem} {through : LxmfMessageHandle} {tr : List Mutation}
      {r : Option _} {g : Flash}
      (hrun : Prog.Exec φ (acknowledgeLxmfMailboxThrough (ε := ε) sha256 binding geometry
        system.inbox through) system.watermark tr r g) (hclean : ∀ m ∈ tr, CleanErase m) :
      Step system (system.afterAcknowledge through g r)
  | restart (system : InboxSystem) :
      Step system ⟨system.messages, system.watermark, ⟨none, none⟩, system.collected⟩

/-- The runs from an erased region of messages and a region without a watermark. -/
inductive Reachable : InboxSystem → Prop
  | fresh {messages watermark : Flash} (hmessages : LxmfStore.BlankFrom access messages 0)
      (hwatermark : mountAnswer sha256 binding watermark = .ok .unprovisioned) :
      Reachable ⟨messages, watermark, ⟨none, none⟩, []⟩
  | step {system next : InboxSystem} (h : Reachable system) (hstep : Step ε φ sha256 access binding
      geometry system next) : Reachable next

end InboxSystem

variable {ε : Type} {φ : Faults} {sha256 : Sha256} {access : BoundLxmfStore}
  {binding : MailboxStoreBinding} {geometry : Geometry} {f g : Flash} {store : MountedLxmfStore}
  {mailbox : MountedMailboxStore} {system next : InboxSystem} {position : Position}
  {pending : Option PendingMutation} {entry : IndexEntry} {tr : List Mutation}

/-- The watermark belongs to the messages, and so does what is mounted. -/
structure Agrees (ε : Type) (sha256 : Sha256) (access : BoundLxmfStore)
    (binding : MailboxStoreBinding) (system : InboxSystem) (position : Position)
    (pending : Option PendingMutation) : Prop where
  orderly : Orderly ε sha256 access system.messages system.inbox.lxmf position pending
  watermarked : Watermarked sha256 binding position.entries system.collected system.watermark
  mailbox : ∀ mailbox, system.inbox.lxmfMailbox = some mailbox →
    Covers sha256 binding system.collected system.watermark mailbox

/-- A receipt that is found belongs to an entry. -/
theorem receipt_eq_some {handle : Lxmf.MessageHandle} {receipt : DurableMessageReceipt}
    (h : ProductStore.receipt store handle = some receipt) :
    ∃ entry ∈ store.entries, entry.receipt = receipt ∧ receipt.handle = handle := by
  obtain ⟨entry, hfound, rfl⟩ := Option.map_eq_some_iff.mp h
  rw [MountedLxmfStore.entryForHandle] at hfound
  have htest := List.find?_some hfound
  exact ⟨entry, List.mem_of_find?_eq_some hfound, rfl, of_decide_eq_true htest⟩

/-- A further handle that a mounted watermark has reached. -/
theorem Covers.cons {collected : List ℕ} {handle : ℕ}
    (h : Covers sha256 binding collected f mailbox) (hle : handle ≤ mailbox.acknowledgedThrough) :
    Covers sha256 binding (handle :: collected) f mailbox :=
  ⟨h.holds, List.forall_mem_cons.mpr ⟨hle, h.covers⟩⟩

/-- What follows an acknowledgement agrees with the messages. -/
theorem Agrees.afterAcknowledge (h : Agrees ε sha256 access binding system position pending)
    {through : LxmfMessageHandle} {r : Option (Except ProductLxmfError LxmfMailboxStatus × Inbox)}
    (hrun : Prog.Exec φ (acknowledgeLxmfMailboxThrough (ε := ε) sha256 binding geometry
      system.inbox through) system.watermark tr r g) (hclean : ∀ m ∈ tr, CleanErase m) :
    Agrees ε sha256 access binding (system.afterAcknowledge through g r) position pending := by
  have hrefused : ∀ {error : ProductLxmfError}, Prog.Exec φ
      (.pure (.error error, system.inbox) : Prog ε _) system.watermark tr r g →
      Agrees ε sha256 access binding (system.afterAcknowledge through g r) position pending := by
    intro error hpure
    cases hpure with
    | done => exact h
    | cut => exact ⟨h.orderly.unmounted, h.watermarked, fun _ hsome => by cases hsome⟩
  rw [acknowledgeLxmfMailboxThrough] at hrun
  cases hlxmf : system.inbox.lxmf with
  | none =>
    rw [hlxmf] at hrun
    exact hrefused hrun
  | some store =>
    rw [hlxmf] at hrun
    dsimp only at hrun
    rw [NonZeroU64.new_get] at hrun
    dsimp only at hrun
    cases hreceipt : receipt store through with
    | none =>
      rw [hreceipt] at hrun
      exact hrefused hrun
    | some receipt =>
      rw [hreceipt] at hrun
      cases hmailbox : system.inbox.lxmfMailbox with
      | none =>
        rw [hmailbox] at hrun
        exact hrefused hrun
      | some current =>
        rw [hmailbox] at hrun
        obtain ⟨entry, hentry, hsame, hhandle⟩ := receipt_eq_some hreceipt
        have horderly := h.orderly
        rw [hlxmf] at horderly
        have hentries : store.entries = position.entries := by
          rw [(horderly.mounts store rfl).store_eq]
        have hwatermarked := h.watermarked
        rw [← hentries] at hwatermarked
        have hanswer : Watermarked sha256 binding store.entries system.collected g ∧ _ :=
          hwatermarked.acknowledgeReceipt (h.mailbox current hmailbox)
            ⟨entry, hentry, congrArg mailboxCursorFromLxmfReceipt hsame⟩ hrun hclean
        rw [hentries, hhandle] at hanswer
        obtain ⟨hkept, hinbox⟩ := hanswer
        match r, hinbox with
        | none, _ => exact ⟨horderly.unmounted, hkept, fun _ hsome => by cases hsome⟩
        | some (.error error, inbox), hinbox =>
          have hinbox := hinbox _ _ rfl
          refine ⟨?_, hkept, hinbox.mailbox⟩
          rw [InboxSystem.afterAcknowledge, hinbox.lxmf]
          exact horderly
        | some (.ok status, inbox), hinbox =>
          have hinbox := hinbox _ _ rfl
          obtain ⟨mailbox, hsome, hreached⟩ := hinbox.reached status rfl
          have hcovers : Covers sha256 binding (through.get :: system.collected) g mailbox :=
            (hinbox.mailbox mailbox hsome).cons hreached
          refine ⟨?_, ⟨hkept.ordered, hkept.generation_le, hkept.names, .inr ⟨mailbox, hcovers⟩⟩,
            fun other hother => ?_⟩
          · rw [InboxSystem.afterAcknowledge, hinbox.lxmf]
            exact horderly
          · obtain rfl := Option.some.inj (hsome.symm.trans hother)
            exact hcovers

/-- A step keeps the watermark with the messages. -/
theorem InboxSystem.Step.agrees
    (hstep : InboxSystem.Step ε φ sha256 access binding geometry system next)
    (h : ∃ position pending, Agrees ε sha256 access binding system position pending) :
    ∃ position pending, Agrees ε sha256 access binding next position pending := by
  obtain ⟨position, pending, h⟩ := h
  cases hstep with
  | @boot capacity store tr tr' r f g hmessages hwatermark hclean =>
    obtain ⟨rfl, -, hanswer⟩ := (LxmfStore.query_mount capacity).exec_answer hmessages
    obtain ⟨position', horderly, hgrows⟩ := h.orderly.mount (hanswer store rfl)
    have hentries : store.entries = position'.entries := by
      rw [(horderly.mounts store rfl).store_eq]
    have hwatermarked := h.watermarked.mono hgrows
    rw [← hentries] at hwatermarked
    have hkept : Watermarked sha256 binding store.entries system.collected g ∧ _ :=
      hwatermarked.mountOrProvision hwatermark hclean
    rw [hentries] at hkept
    refine ⟨position', none, ?_⟩
    match r, hkept with
    | none, hkept => exact ⟨horderly.unmounted, hkept.1, fun _ hsome => by cases hsome⟩
    | some (.error error), hkept => exact ⟨horderly, hkept.1, fun _ hsome => by cases hsome⟩
    | some (.ok mailbox), hkept =>
      exact ⟨horderly, hkept.1, fun _ hsome => by cases hsome; exact hkept.2 _ rfl⟩
  | @commit store candidate tr r g hstore hrun =>
    have horderly := h.orderly
    rw [hstore] at horderly
    obtain ⟨position', after, horderly', hgrows⟩ := horderly.commit hrun
    refine ⟨position', after, ?_⟩
    match r, horderly' with
    | none, horderly' =>
      exact ⟨horderly', h.watermarked.mono hgrows, fun _ hsome => by cases hsome⟩
    | some (_, store'), horderly' => exact ⟨horderly', h.watermarked.mono hgrows, h.mailbox⟩
  | acknowledge hrun hclean => exact ⟨position, pending, h.afterAcknowledge hrun hclean⟩
  | restart =>
    exact ⟨position, pending, h.orderly.unmounted, h.watermarked, fun _ hsome => by cases hsome⟩

/-- The watermark of every reachable system belongs to its messages. -/
theorem InboxSystem.Reachable.agrees
    (h : InboxSystem.Reachable ε φ sha256 access binding geometry system) :
    ∃ position pending, Agrees ε sha256 access binding system position pending := by
  induction h with
  | @fresh messages watermark hmessages hwatermark =>
    exact ⟨.start, none, ⟨LxmfStore.found_start, .blank hmessages, fun _ hsome => by cases hsome⟩,
      watermarked_of_unprovisioned hwatermark, fun _ hsome => by cases hsome⟩
  | step _ hstep ih => exact hstep.agrees ih

end Runs

section Statuses

open Mailbox

variable {ε : Type} {φ : Faults} {sha256 : Sha256} {access : BoundLxmfStore}
  {binding : MailboxStoreBinding} {geometry : Geometry} {f : Flash} {store : MountedLxmfStore}
  {mailbox : MountedMailboxStore} {system : InboxSystem} {position : Position}
  {pending : Option PendingMutation} {entry : IndexEntry} {collected : List ℕ}

/-- The last committed handle is the greatest. -/
theorem le_latestHandle (hascending : store.entries.Pairwise fun earlier later =>
      earlier.receipt.handle.get < later.receipt.handle.get) (hentry : entry ∈ store.entries) :
    entry.receipt.handle.get ≤ handleValue (latestHandle store) := by
  obtain hnone | ⟨front, last, hsplit⟩ := List.eq_nil_or_concat' store.entries
  · rw [hnone] at hentry
    cases hentry
  · rw [latestHandle, hsplit, List.getLast?_concat]
    rw [hsplit] at hentry hascending
    obtain hfront | hlast := List.mem_append.mp hentry
    · exact ((List.pairwise_append.mp hascending).2.2 entry hfront last List.mem_cons_self).le
    · rw [List.mem_singleton.mp hlast]
      exact le_rfl

/-- The last committed handle fits 32 bits. -/
theorem latestHandle_lt (hfound : LxmfStore.Found ε sha256 access f position)
    (hmounts : LxmfStore.Mounts access position pending store) :
    handleValue (latestHandle store) < 2 ^ 32 := by
  have hentries : store.entries = position.entries := by rw [hmounts.store_eq]
  rw [latestHandle, hentries]
  cases hlast : position.entries.getLast? with
  | none => decide
  | some entry =>
    have hle := hfound.indexed.handle_le entry (List.mem_of_getLast? hlast)
    have hinside := hfound.handle_le.trans hfound.inside
    have hlength := (LxmfStore.validShape_of_read hmounts.readable).length_lt
    have hextents := Nat.div_le_self access.binding.length LxmfStore.extentSize
    change entry.receipt.handle.get < 2 ^ 32
    omega

/-- The watermark of the mailbox is the value of its handle. -/
theorem acknowledgedThrough_eq (mailbox : MountedMailboxStore) :
    mailbox.acknowledgedThrough =
      handleValue (mailbox.acknowledged.map MailboxStoreCursor.handle) := by
  rw [MountedMailboxStore.acknowledgedThrough]
  cases mailbox.acknowledged <;> rfl

/-- The acknowledged handle is read from the mailbox. -/
theorem acknowledgedHandle_eq (mailbox : MountedMailboxStore) :
    acknowledgedHandle mailbox = some (mailbox.acknowledged.map MailboxStoreCursor.handle) := by
  rw [acknowledgedHandle, MountedMailboxStore.acknowledgedThrough]
  cases mailbox.acknowledged with
  | none => rfl
  | some cursor =>
    dsimp only
    rw [if_neg (Nat.ne_of_gt cursor.handle.pos), NonZeroU64.new_get]
    rfl

/-- The messages behind a watermark. -/
def uncollected (store : MountedLxmfStore) (mailbox : MountedMailboxStore) : List IndexEntry :=
  store.entries.filter fun entry => mailbox.acknowledgedThrough < entry.receipt.handle.get

/-- There are no more messages behind a watermark than handles. -/
theorem length_uncollected_le (hascending : store.entries.Pairwise fun earlier later =>
      earlier.receipt.handle.get < later.receipt.handle.get) :
    (uncollected store mailbox).length ≤
      handleValue (latestHandle store) - mailbox.acknowledgedThrough := by
  have hnodup : ((uncollected store mailbox).map fun entry => entry.receipt.handle.get).Nodup :=
    List.pairwise_map.mpr ((hascending.sublist List.filter_sublist).imp Nat.ne_of_lt)
  rw [← List.length_map fun entry : IndexEntry => entry.receipt.handle.get,
    ← List.toFinset_card_of_nodup hnodup, ← Nat.card_Ioc]
  refine Finset.card_le_card fun handle hhandle => ?_
  obtain ⟨entry, hentry, rfl⟩ := List.mem_map.mp (List.mem_toFinset.mp hhandle)
  obtain ⟨hstored, hbehind⟩ := List.mem_filter.mp hentry
  exact Finset.mem_Ioc.mpr ⟨of_decide_eq_true hbehind, le_latestHandle hascending hstored⟩

/-- What a status says of a mounted inbox. -/
structure Reports (store : MountedLxmfStore) (mailbox : MountedMailboxStore)
    (status : LxmfMailboxStatus) : Prop where
  latest : status.latest = latestHandle store
  acknowledgedThrough : status.acknowledgedThrough =
    mailbox.acknowledged.map MailboxStoreCursor.handle
  uncollected : (uncollected store mailbox).length ≤ status.uncollectedCount

/-- A watermark that names a message has a status. -/
theorem exists_status (hfound : LxmfStore.Found ε sha256 access f position)
    (hmounts : LxmfStore.Mounts access position pending store)
    (hnames : ∀ cursor, mailbox.acknowledged = some cursor → Names store.entries cursor) :
    ∃ status, statusOf store mailbox = .ok status ∧ Reports store mailbox status := by
  have hentries : store.entries = position.entries := by rw [hmounts.store_eq]
  have hascending := hfound.ascending
  rw [← hentries] at hascending
  have hlatest : ((latestHandle store).bind fun handle => NonZeroU64.new handle.get) =
      latestHandle store := by
    cases latestHandle store with
    | none => rfl
    | some handle => exact NonZeroU64.new_get handle
  have hbehind : ¬handleValue (latestHandle store) <
      handleValue (mailbox.acknowledged.map MailboxStoreCursor.handle) := by
    cases hcursor : mailbox.acknowledged with
    | none => exact Nat.not_lt_zero _
    | some cursor =>
      obtain ⟨entry, hentry, rfl⟩ := hnames cursor hcursor
      exact not_lt.mpr (le_latestHandle hascending hentry)
  have hcount : handleValue (latestHandle store) -
      handleValue (mailbox.acknowledged.map MailboxStoreCursor.handle) < 2 ^ 32 :=
    (Nat.sub_le _ _).trans_lt (latestHandle_lt hfound hmounts)
  refine ⟨⟨latestHandle store, mailbox.acknowledged.map MailboxStoreCursor.handle, _, hcount,
    Nat.add_sub_cancel' (not_lt.mp hbehind)⟩, ?_, rfl, rfl, ?_⟩
  · rw [statusOf, projectLxmfMailboxStatus, hlatest, acknowledgedHandle_eq, Option.bind_eq_bind,
      Option.bind_some, LxmfMailboxStatus.new, dif_neg hbehind, dif_neg (not_not.mpr hcount)]
    rfl
  · have hle := @length_uncollected_le store mailbox hascending
    rwa [acknowledgedThrough_eq] at hle

end Statuses

section Watermarks

open Mailbox

variable {ε : Type} {φ : Faults} {sha256 : Sha256} {access : BoundLxmfStore}
  {binding : MailboxStoreBinding} {geometry : Geometry} {f : Flash} {store : MountedLxmfStore}
  {mailbox : MountedMailboxStore} {system : InboxSystem} {position : Position}
  {pending : Option PendingMutation} {entry : IndexEntry} {collected : List ℕ}

/-- A named cursor matches. -/
theorem cursorMatches (hhandles : (store.entries.map fun entry => entry.receipt.handle).Nodup)
    (hnames : ∀ cursor, mailbox.acknowledged = some cursor → Names store.entries cursor) :
    mailboxCursorMatchesLxmf store mailbox.acknowledged = true := by
  cases hcursor : mailbox.acknowledged with
  | none => rfl
  | some cursor =>
    obtain ⟨entry, hentry, rfl⟩ := hnames cursor hcursor
    rw [mailboxCursorMatchesLxmf, mailboxCursorFromLxmfReceipt, NonZeroU64.new_get]
    dsimp only
    rw [receipt, entryForHandle_eq hhandles hentry]
    exact decide_eq_true rfl

/-- A boot without faults mounts the watermark. -/
theorem Watermarked.exec_mountOrProvision (ε : Type)
    (h : Watermarked sha256 binding store.entries collected f)
    (hhandles : (store.entries.map fun entry => entry.receipt.handle).Nodup)
    (hread : validReadAccess binding geometry = true) (hwrite : validWriteAccess geometry = true) :
    ∃ mounted tr g, Prog.Exec Faults.none (mountOrProvisionLxmfMailbox (ε := ε) sha256 binding
      geometry store) f tr (some (.ok mounted)) g ∧ ∀ m ∈ tr, CleanErase m := by
  have hmount : ∀ {answer : MailboxStoreMount}, mountAnswer sha256 binding f = .ok answer →
      Prog.Exec Faults.none (Mailbox.mount sha256 binding geometry : MailboxAction ε _).run f []
        (some (.ok answer)) f := fun hanswer =>
    query_mount.exec_eval _ (by rw [eval_mount hread, hanswer]; rfl)
  obtain ⟨hnone, -⟩ | ⟨newest, hsome, hholds, -⟩ := h.ordered.mountAnswer
  · obtain ⟨tr, g, hprovision, hclean⟩ := exec_provision_none ε hread hwrite hnone
    refine ⟨_, [] ++ (tr ++ []), g, (hmount hnone).bind (hprovision.bind (.done _ _)), ?_⟩
    rwa [List.nil_append, List.append_nil]
  · have hmatches := cursorMatches hhandles fun cursor hcursor =>
      h.names newest cursor hholds hcursor
    refine ⟨newest, [] ++ [], f, (hmount hsome).bind ?_, fun m hm => by cases hm⟩
    dsimp only
    rw [if_pos hmatches]
    exact .done _ _

/-- An acknowledgement of an entry without faults moves the watermark to it, unless the watermark
is there already. -/
theorem Watermarked.exec_acknowledge (ε : Type)
    (h : Watermarked sha256 binding store.entries collected f)
    (hcurrent : Mailbox.Holds sha256 binding f mailbox)
    (hhandles : (store.entries.map fun entry => entry.receipt.handle).Nodup)
    (hentry : entry ∈ store.entries) (hlt : entry.receipt.handle.get < 2 ^ 32)
    (hread : validReadAccess binding geometry = true) (hwrite : validWriteAccess geometry = true) :
    ∃ mounted tr g, Prog.Exec Faults.none (acknowledgeThrough sha256 binding geometry mailbox
        (mailboxCursorFromLxmfReceipt entry.receipt) : MailboxAction ε _).run f tr
        (some (.ok mounted)) g ∧ (∀ m ∈ tr, CleanErase m) ∧
      mounted.acknowledged = if mailbox.acknowledgedThrough < entry.receipt.handle.get then
        some (mailboxCursorFromLxmfReceipt entry.receipt) else mailbox.acknowledged := by
  obtain rfl := hcurrent.binding
  obtain hbehind | hreached := Nat.lt_or_ge mailbox.acknowledgedThrough entry.receipt.handle.get
  · have hle := h.generation_le mailbox hcurrent
    have hgeneration : 0 < mailbox.generation.get + 1 ∧ mailbox.generation.get + 1 < 2 ^ 64 := by
      omega
    obtain ⟨tr, g, hx, hclean⟩ := @exec_acknowledge_none sha256 geometry f mailbox
      (mailboxCursorFromLxmfReceipt entry.receipt) ⟨_, hgeneration.1, hgeneration.2⟩ ε hread hwrite
      hbehind rfl
    exact ⟨_, tr, g, hx, hclean, (if_pos hbehind).symm⟩
  · refine ⟨mailbox, [], f, ?_, fun m hm => (by cases hm), (if_neg (not_lt.mpr hreached)).symm⟩
    rw [acknowledgeThrough, validateWriteAccess_of hread hwrite, pure_bind,
      if_neg (not_not.mpr rfl)]
    obtain hlt | heq := hreached.lt_or_eq
    · rw [if_pos (show (mailboxCursorFromLxmfReceipt entry.receipt).handle.get < _ from hlt)]
      exact .done _ _
    · -- the watermark names a message with this handle, which is the only one
      have hsame : mailbox.acknowledged = some (mailboxCursorFromLxmfReceipt entry.receipt) := by
        cases hcursor : mailbox.acknowledged with
        | none =>
          rw [MountedMailboxStore.acknowledgedThrough, hcursor] at heq
          exact absurd heq (Nat.ne_of_gt entry.receipt.handle.pos)
        | some cursor =>
          obtain ⟨other, hother, rfl⟩ := h.names mailbox cursor hcurrent hcursor
          rw [MountedMailboxStore.acknowledgedThrough, hcursor] at heq
          have hhandle : other.receipt.handle = entry.receipt.handle := by
            have hnew := NonZeroU64.new_get entry.receipt.handle
            rw [heq] at hnew
            exact Option.some.inj ((NonZeroU64.new_get other.receipt.handle).symm.trans hnew)
          rw [List.inj_on_of_nodup_map hhandles hother hentry hhandle]
      rw [if_neg (show ¬(mailboxCursorFromLxmfReceipt entry.receipt).handle.get < _ from
        heq.ge.not_gt), if_pos
          (show (mailboxCursorFromLxmfReceipt entry.receipt).handle.get = _ from
        heq), if_pos hsame]
      exact .done _ _

/-- What the entries of an orderly mounted store are. -/
theorem Agrees.mounted (h : Agrees ε sha256 access binding system position pending)
    (hstore : system.inbox.lxmf = some store) :
    LxmfStore.Mounts access position pending store ∧
      Watermarked sha256 binding store.entries system.collected system.watermark ∧
      store.entries.Pairwise fun earlier later =>
        earlier.receipt.handle.get < later.receipt.handle.get := by
  have hmounts := h.orderly.mounts store hstore
  have hentries : store.entries = position.entries := by rw [hmounts.store_eq]
  rw [hentries]
  exact ⟨hmounts, h.watermarked, h.orderly.found.ascending⟩

/-- Entries in ascending order are told apart by their handles. -/
theorem nodup_of_ascending (h : store.entries.Pairwise fun earlier later =>
      earlier.receipt.handle.get < later.receipt.handle.get) :
    (store.entries.map fun entry => entry.receipt.handle).Nodup :=
  List.pairwise_map.mpr (h.imp fun hlt hsame => by rw [hsame] at hlt; exact lt_irrefl _ hlt)

/-- In every run of boots, commits, acknowledgements and restarts from two empty regions, whatever
the backends report and wherever power was lost: while both stores are mounted, the inbox has a
status. It names the last committed handle, and as acknowledged the handle of the mounted watermark,
which has the identity of a committed message and is not behind any handle whose acknowledgement was
answered, and it counts at least the messages behind the watermark. Without faults, a boot that
mounts the messages mounts the watermark as well, and it is not behind what was answered either. -/
theorem watermark_follows_messages
    (h : InboxSystem.Reachable ε φ sha256 access binding geometry system)
    (hread : validReadAccess binding geometry = true) (hwrite : validWriteAccess geometry = true) :
    (∀ store mailbox, system.inbox = ⟨some store, some mailbox⟩ →
      (∃ status, lxmfMailboxStatus system.inbox = .ok status ∧ Reports store mailbox status) ∧
      (∀ cursor, mailbox.acknowledged = some cursor → Names store.entries cursor) ∧
      ∀ handle ∈ system.collected, handle ≤ mailbox.acknowledgedThrough) ∧
    ∀ capacity store, (LxmfStore.mount sha256 access capacity : MountAction ε _).answer
        system.messages = .ok store →
      ∃ mailbox, ((mountOrProvisionLxmfMailbox (ε := ε) sha256 binding geometry store).run
          system.watermark).1 = .ok mailbox ∧
        ∀ handle ∈ system.collected, handle ≤ mailbox.acknowledgedThrough := by
  obtain ⟨position, pending, hagrees⟩ := h.agrees
  constructor
  · rintro store mailbox hinbox
    have hlxmf : system.inbox.lxmf = some store := by rw [hinbox]
    obtain ⟨hmounts, hwatermarked, -⟩ := hagrees.mounted hlxmf
    have hcovers := hagrees.mailbox mailbox (by rw [hinbox])
    have hnames := fun cursor => hwatermarked.names mailbox cursor hcovers.holds
    obtain ⟨status, hstatus, hreports⟩ := exists_status hagrees.orderly.found hmounts hnames
    exact ⟨⟨status, by rw [hinbox]; exact hstatus, hreports⟩, hnames, hcovers.covers⟩
  · intro capacity store hmount
    obtain ⟨position', horderly, hgrows⟩ := hagrees.orderly.mount hmount
    have hmounted : Agrees ε sha256 access binding
        ⟨system.messages, system.watermark, ⟨some store, none⟩, system.collected⟩ position' none :=
      ⟨horderly, hagrees.watermarked.mono hgrows, fun _ hsome => by cases hsome⟩
    obtain ⟨-, hwatermarked, hascending⟩ := hmounted.mounted rfl
    obtain ⟨mailbox, tr, g, hx, hclean⟩ := hwatermarked.exec_mountOrProvision ε
      (nodup_of_ascending hascending) hread hwrite
    exact ⟨mailbox, (Option.some.inj hx.eq_run.1).symm,
      ((hwatermarked.mountOrProvision hx hclean).2 mailbox rfl).covers⟩

/-- A product booted from two erased regions receives a message. -/
theorem exists_inbox_sample : ∃ system mailbox,
    InboxSystem.Reachable Unit Faults.none Nor.sha256 LxmfStore.twoExtents sampleBinding
      sampleGeometry system ∧
    system.inbox = ⟨some ((LxmfStore.emptyStore LxmfStore.twoExtents).complete
      (LxmfStore.samplePending Nor.sha256)
        (LxmfStore.pendingEntry (LxmfStore.samplePending Nor.sha256))), some mailbox⟩ := by
  have hfresh : InboxSystem.Reachable Unit Faults.none Nor.sha256 LxmfStore.twoExtents sampleBinding
      sampleGeometry ⟨Flash.erased, Flash.erased, ⟨none, none⟩, []⟩ :=
    .fresh (fun _ _ _ _ _ => rfl) mountAnswer_erased
  obtain ⟨tr₀, hmessages⟩ := Prog.exec_run Faults.none (LxmfStore.mount Nor.sha256
    LxmfStore.twoExtents 4 : MountAction Unit MountedLxmfStore).run Flash.erased
  have hanswer : ((LxmfStore.mount Nor.sha256 LxmfStore.twoExtents 4 :
      MountAction Unit MountedLxmfStore).run.run Flash.erased).1 =
        .ok (LxmfStore.emptyStore LxmfStore.twoExtents) := LxmfStore.mount_twoExtents Nor.sha256
  rw [hanswer] at hmessages
  have hwatermarked : Watermarked Nor.sha256 sampleBinding
      (LxmfStore.emptyStore LxmfStore.twoExtents).entries [] Flash.erased :=
    watermarked_of_unprovisioned mountAnswer_erased
  obtain ⟨mailbox, tr, g, hx, hclean⟩ := @Watermarked.exec_mountOrProvision Nor.sha256 sampleBinding
    sampleGeometry Flash.erased _ [] Unit hwatermarked List.nodup_nil (by decide) (by decide)
  have hlive : LxmfStore.Live Unit Faults.none Nor.sha256 LxmfStore.twoExtents Flash.erased
      (LxmfStore.emptyStore LxmfStore.twoExtents) :=
        .mounted (LxmfStore.mount_twoExtents Nor.sha256)
  obtain ⟨outcome, g', hcommit, -⟩ := hlive.commits (LxmfStore.admission_sample Nor.sha256)
  obtain ⟨tr', hrun⟩ := Prog.exec_run Faults.none (LxmfStore.commit (ε := Unit) Nor.sha256
    LxmfStore.twoExtents (LxmfStore.emptyStore LxmfStore.twoExtents) LxmfStore.sampleCandidate)
    Flash.erased
  rw [hcommit] at hrun
  exact ⟨_, mailbox, .step (.step hfresh (.boot hmessages hx hclean)) (.commit rfl hrun), rfl⟩

/-- The inbox with one message has a status. -/
theorem watermark_follows_messages_sample : ∃ inbox store mailbox status,
    inbox = ⟨some store, some mailbox⟩ ∧ store.entries.length = 1 ∧
      lxmfMailboxStatus inbox = .ok status ∧ Reports store mailbox status := by
  obtain ⟨system, mailbox, hreachable, hinbox⟩ := exists_inbox_sample
  obtain ⟨hmounted, -⟩ := watermark_follows_messages hreachable (by decide) (by decide)
  obtain ⟨⟨status, hstatus, hreports⟩, -⟩ := hmounted _ mailbox hinbox
  exact ⟨system.inbox, _, mailbox, status, hinbox, rfl, hstatus, hreports⟩

/-- In every run of the inbox, any committed message can be acknowledged while both stores are
mounted: without faults the answer is a status whose watermark is the greater of the message and of
the watermark before, and both stores stay mounted. A handle that was not committed is refused
without a change, whatever happens. -/
theorem committed_acknowledged
    (h : InboxSystem.Reachable ε φ sha256 access binding geometry system)
    (hread : validReadAccess binding geometry = true) (hwrite : validWriteAccess geometry = true)
    (hinbox : system.inbox = ⟨some store, some mailbox⟩) (through : LxmfMessageHandle) :
    (∀ entry ∈ store.entries, entry.receipt.handle = through → ∃ status mounted,
      ((acknowledgeLxmfMailboxThrough (ε := ε) sha256 binding geometry system.inbox through).run
        system.watermark).1 = (.ok status, ⟨some store, some mounted⟩) ∧
      Reports store mounted status ∧
      mounted.acknowledgedThrough = max mailbox.acknowledgedThrough through.get) ∧
    ((∀ entry ∈ store.entries, entry.receipt.handle ≠ through) → ∀ φ' tr r g,
      Prog.Exec φ' (acknowledgeLxmfMailboxThrough (ε := ε) sha256 binding geometry system.inbox
        through) system.watermark tr r g →
      g = system.watermark ∧ ∀ answer, r = some answer →
        answer = (.error .invalidRequest, system.inbox)) := by
  obtain ⟨position, pending, hagrees⟩ := h.agrees
  have hlxmf : system.inbox.lxmf = some store := by rw [hinbox]
  obtain ⟨hmounts, hwatermarked, hascending⟩ := hagrees.mounted hlxmf
  have hhandles := nodup_of_ascending hascending
  constructor
  · rintro entry hentry rfl
    have hcovers := hagrees.mailbox mailbox (by rw [hinbox])
    have hlt := (le_latestHandle hascending hentry).trans_lt
      (latestHandle_lt hagrees.orderly.found hmounts)
    obtain ⟨mounted, tr, g, hx, hclean, hacknowledged⟩ := hwatermarked.exec_acknowledge ε
      hcovers.holds hhandles hentry hlt hread hwrite
    have hnames : ∀ cursor, mounted.acknowledged = some cursor → Names store.entries cursor := by
      intro cursor hcursor
      rw [hacknowledged] at hcursor
      split at hcursor
      · exact ⟨entry, hentry, Option.some.inj hcursor⟩
      · exact hwatermarked.names mailbox cursor hcovers.holds hcursor
    obtain ⟨status, hstatus, hreports⟩ := exists_status hagrees.orderly.found hmounts hnames
    refine ⟨status, mounted, ?_, hreports, ?_⟩
    · rw [acknowledgeLxmfMailboxThrough, hinbox]
      dsimp only
      rw [NonZeroU64.new_get]
      dsimp only
      rw [receipt, entryForHandle_eq hhandles hentry]
      dsimp only [Option.map_some]
      rw [acknowledgeReceipt, Prog.run_bind, ← (Option.some.inj hx.eq_run.1), ← hstatus]
      rfl
    · rw [acknowledgedThrough_eq, hacknowledged]
      split
      · next hbehind => exact (Nat.max_eq_right hbehind.le).symm
      · next hreached =>
        rw [← acknowledgedThrough_eq]
        exact (Nat.max_eq_left (not_lt.mp hreached)).symm
  · intro hmissing φ' tr r g hx
    have hnone : receipt store through = none := by
      refine Option.eq_none_iff_forall_ne_some.mpr fun found hfound => ?_
      obtain ⟨entry, hentry, rfl, hhandle⟩ := receipt_eq_some hfound
      exact hmissing entry hentry hhandle
    rw [acknowledgeLxmfMailboxThrough, hinbox] at hx
    dsimp only at hx
    rw [NonZeroU64.new_get] at hx
    dsimp only at hx
    rw [hnone] at hx
    rw [hinbox]
    cases hx with
    | done => exact ⟨rfl, fun answer hanswer => (Option.some.inj hanswer).symm⟩
    | cut => exact ⟨rfl, fun answer hanswer => by cases hanswer⟩

/-- The message of the inbox with one message is acknowledged. -/
theorem committed_acknowledged_sample : ∃ (f : Flash) (inbox : Inbox) (store : MountedLxmfStore)
    (entry : IndexEntry) (status : LxmfMailboxStatus) (mounted : MountedMailboxStore),
    inbox.lxmf = some store ∧ store.entries = [entry] ∧
      ((acknowledgeLxmfMailboxThrough (ε := Unit) Nor.sha256 sampleBinding sampleGeometry inbox
        entry.receipt.handle).run f).1 = (.ok status, ⟨some store, some mounted⟩) := by
  obtain ⟨system, mailbox, hreachable, hinbox⟩ := exists_inbox_sample
  obtain ⟨hcommitted, -⟩ := committed_acknowledged hreachable (by decide) (by decide) hinbox
    (LxmfStore.pendingEntry (LxmfStore.samplePending Nor.sha256)).receipt.handle
  obtain ⟨status, mounted, hanswer, -⟩ := hcommitted _ List.mem_cons_self rfl
  exact ⟨system.watermark, system.inbox, _, _, status, mounted, by rw [hinbox], rfl, hanswer⟩

end Watermarks

end ProductStore
