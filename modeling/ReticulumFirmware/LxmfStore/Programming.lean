import ReticulumFirmware.LxmfStore.RoundTrip
import ReticulumFirmware.LxmfStore.WireArea
import ReticulumFirmware.Nor.Stages

/-!
# What a commit programs, stage by stage

Before the headers of a span are all there, the bodies of its extents are erased; from then on the
headers stay, and the commit marker is complete only with the whole wire. That holds wherever a
commit stops and whatever the backend reports, and a later attempt for the same message keeps it.
-/

namespace LxmfStore

open Nor Lxmf

variable {ε : Type} {φ : Faults} {sha256 : Sha256} {access : BoundLxmfStore} {f f₀ g : Flash}
  {pending : PendingMutation} {candidate : InboundMessageCandidate}
  {submitted : InboundMessageCandidate → Prop}

section Marker

/-- The commit marker of an extent is complete. -/
def Marked (f : Flash) (extent : ℕ) : Prop :=
  f.read (extentOffset extent + (extentSize - commitSize)) commitSize = commitMarker

/-- The snapshot of an extent is committed exactly where the marker is there. -/
theorem commitMarker_eq_committed {extent : ℕ} :
    (snapshotAt f extent).commitMarker = .committed ↔ Marked f extent := by
  have hfooter : (snapshotAt f extent).footer.drop footerCommitOffset =
      f.read (extentOffset extent + (extentSize - commitSize)) commitSize := by
    have hdrop := Flash.drop_read f (extentOffset extent + 3840) 224 32
    rw [Nat.add_assoc] at hdrop
    rw [snapshotAt_footer]
    exact hdrop
  rw [ExtentSnapshot.commitMarker, hfooter, classifyCommitMarker, Marked]
  constructor
  · intro h
    split_ifs at h with hmarked
    exact hmarked
  · intro h
    rw [if_pos h]

/-- An erased marker is not complete. -/
theorem not_marked_of_erased {extent : ℕ}
    (h : f.Erased (extentOffset extent + (extentSize - commitSize)) commitSize) :
    ¬ Marked f extent := by
  rw [Marked, h.read_eq]
  decide

/-- A marker is there in every flash that agrees on the extent. -/
theorem Marked.congr {extent : ℕ} (h : Marked g extent)
    (hagree : f.Agree g (extentOffset extent) (extentOffset (extent + 1))) : Marked f extent := by
  have hend : extentOffset (extent + 1) = extentOffset extent + 4096 := Nat.succ_mul _ _
  rw [Marked, hagree.read_eq (Nat.le_add_right _ _) (by
    rw [hend]
    change extentOffset extent + 4064 + 32 ≤ _
    omega)]
  exact h

end Marker

section Span

/-- The bodies of the extents of a span are erased. -/
def BodyBlank (f : Flash) (pending : PendingMutation) : Prop :=
  ∀ index < pending.extentCount,
    f.Erased (extentOffset (pending.firstExtent + index) + extentHeaderSize)
      (extentSize - extentHeaderSize)

/-- The header of one extent of a pending mutation. -/
def pendingHeader (sha256 : Sha256) (access : BoundLxmfStore) (pending : PendingMutation)
    (index : ℕ) : List Byte :=
  encodeHeader sha256 access.binding physicalFormatVersion pending.handle index
    pending.extentCount pending.metadata pending.replay.exactWireDigest

/-- The first headers of a span are there. -/
def HeadersTo (sha256 : Sha256) (access : BoundLxmfStore) (f : Flash) (pending : PendingMutation)
    (count : ℕ) : Prop :=
  ∀ index < count, f.read (extentOffset (pending.firstExtent + index)) extentHeaderSize =
    pendingHeader sha256 access pending index

/-- The headers of a span are all there. -/
abbrev Headed (sha256 : Sha256) (access : BoundLxmfStore) (f : Flash)
    (pending : PendingMutation) : Prop :=
  HeadersTo sha256 access f pending pending.extentCount

/-- The commit marker of a span is complete. -/
def SpanMarked (f : Flash) (pending : PendingMutation) : Prop :=
  Marked f (pending.firstExtent + pending.extentCount - 1)

/-- The marker is compared. -/
instance : Decidable (SpanMarked f pending) :=
  inferInstanceAs (Decidable (f.read _ commitSize = commitMarker))

/-- Nothing outside a span has changed. -/
def Outside (f₀ f : Flash) (pending : PendingMutation) : Prop :=
  ∀ a, a < extentOffset pending.firstExtent ∨
    extentOffset (pending.firstExtent + pending.extentCount) ≤ a → f a = f₀ a

/-- The mutation is for this candidate, as far as the store can tell. -/
def IsFor (sha256 : Sha256) (pending : PendingMutation) (candidate : InboundMessageCandidate) :
    Prop :=
  pending.replay = candidateReplay sha256 candidate ∧ pending.metadata = candidate.metadata

/-- A candidate of a mutation has its header. -/
theorem IsFor.header (h : IsFor sha256 pending candidate) (index : ℕ) :
    candidateHeader sha256 access candidate pending.handle pending.extentCount index =
      pendingHeader sha256 access pending index := by
  rw [candidateHeader, pendingHeader, h.1, h.2, candidateReplay]

/-- What a span holds wherever its programming stopped. -/
inductive Spanned (sha256 : Sha256) (access : BoundLxmfStore)
    (submitted : InboundMessageCandidate → Prop) (f : Flash) (pending : PendingMutation) : Prop
  | blank (hblank : BodyBlank f pending)
  | headed (hheaded : Headed sha256 access f pending)
      (hwire : SpanMarked f pending → ∃ candidate, submitted candidate ∧
        IsFor sha256 pending candidate ∧
        WireAt f pending.firstExtent pending.extentCount candidate.bytes)

/-- What a span holds before its marker is programmed. -/
inductive Unmarked (sha256 : Sha256) (access : BoundLxmfStore) (f : Flash)
    (pending : PendingMutation) : Prop
  | blank (hblank : BodyBlank f pending)
  | headed (hheaded : Headed sha256 access f pending) (hmarked : ¬ SpanMarked f pending)

/-- A span without a marker is spanned. -/
theorem Unmarked.spanned (h : Unmarked sha256 access f pending) :
    Spanned sha256 access submitted f pending := by
  cases h with
  | blank hblank => exact .blank hblank
  | headed hheaded hmarked => exact .headed hheaded fun h => absurd h hmarked

/-- An extent with an erased body is not marked. -/
theorem BodyBlank.not_marked (h : BodyBlank f pending) {index : ℕ}
    (hindex : index < pending.extentCount) : ¬ Marked f (pending.firstExtent + index) := by
  refine not_marked_of_erased ((h index hindex).mono ?_ ?_)
  · change extentOffset (pending.firstExtent + index) + 512 ≤
      extentOffset (pending.firstExtent + index) + 4064
    omega
  · change extentOffset (pending.firstExtent + index) + 4064 + 32 ≤
      extentOffset (pending.firstExtent + index) + 512 + 3584
    omega

/-- A span with a blank body is not committed. -/
theorem BodyBlank.not_spanMarked (h : BodyBlank f pending) (hcount : 0 < pending.extentCount) :
    ¬ SpanMarked f pending := by
  rw [SpanMarked, Nat.add_sub_assoc hcount]
  exact h.not_marked (by omega)

end Span

section Headers

/-- A patch inside a span changes nothing outside it. -/
theorem Outside.torn {p : Patch} (h : Outside f₀ f pending) (ht : f.TornPatch p g)
    (hstart : extentOffset pending.firstExtent ≤ p.offset)
    (hstop : p.offset + p.bytes.length ≤
      extentOffset (pending.firstExtent + pending.extentCount)) : Outside f₀ g pending := by
  intro a ha
  have hsame : g a = f a := ht.program_of_not_mem (by omega)
  rw [hsame]
  exact h a ha

/-- The contents while the headers of a span are programmed. -/
structure HeaderStage (sha256 : Sha256) (access : BoundLxmfStore) (f₀ : Flash)
    (pending : PendingMutation) (count : ℕ) (g : Flash) : Prop where
  outside : Outside f₀ g pending
  span : BodyBlank g pending ∧ HeadersTo sha256 access g pending count ∨
    Headed sha256 access g pending ∧ ¬ SpanMarked g pending

/-- While headers are programmed nothing is marked. -/
theorem HeaderStage.unmarked {count : ℕ} (h : HeaderStage sha256 access f₀ pending count g) :
    Unmarked sha256 access g pending := by
  obtain ⟨hblank, -⟩ | ⟨hheaded, hmarked⟩ := h.span
  · exact .blank hblank
  · exact .headed hheaded hmarked

/-- A pending header has 512 bytes. -/
@[simp] theorem length_pendingHeader (index : ℕ) :
    (pendingHeader sha256 access pending index).length = 512 := length_encodeHeader

/-- A program of header bytes keeps the stage: the bodies and the headers before it are apart, and
on headers that are all there it changes nothing. -/
theorem HeaderStage.torn {p : Patch} {count within : ℕ}
    (h : HeaderStage sha256 access f₀ pending count f) (ht : f.TornPatch p g)
    (hcount : count < pending.extentCount)
    (hoffset : p.offset = extentOffset (pending.firstExtent + count) + within)
    (hend : within + p.bytes.length ≤ 512)
    (hbelow : ∀ i < p.bytes.length, BitsLE
      ((pendingHeader sha256 access pending count).getD (within + i) 0) (p.bytes.getD i 0)) :
    HeaderStage sha256 access f₀ pending count g := by
  rw [extentOffset_eq] at hoffset
  refine ⟨h.outside.torn ht ?_ ?_, ?_⟩
  · rw [extentOffset_eq]
    omega
  · rw [extentOffset_eq]
    omega
  obtain ⟨hblank, hheaders⟩ | ⟨hheaded, hmarked⟩ := h.span
  · refine .inl ⟨fun index hindex => ht.erased (hblank index hindex) ?_, fun index hindex => ?_⟩
    · rw [extentOffset_eq]
      change _ + 512 + 3584 ≤ _ ∨ _ ≤ _ + 512
      obtain hlt | rfl | hgt := Nat.lt_trichotomy index count
      · omega
      · omega
      · omega
    · rw [ht.read_eq, hheaders index hindex]
      rw [extentOffset_eq]
      change _ + 512 ≤ _ ∨ _
      omega
  · have hsame : g = f := by
      refine ht.eq_self fun i hi => ?_
      have hread : f.read (extentOffset (pending.firstExtent + count))
          (pendingHeader sha256 access pending count).length =
            pendingHeader sha256 access pending count := by
        rw [length_pendingHeader]
        exact hheaded count hcount
      rw [hoffset, Nat.add_assoc, ← extentOffset_eq,
        Flash.byte_of_read_eq hread (by rw [length_pendingHeader]; omega)]
      exact hbelow i hi
    rw [hsame]
    exact .inr ⟨hheaded, hmarked⟩

end Headers

section HeaderStages

variable {index : ℕ}

/-- Wherever the programming of a span stops. -/
def Stopped (sha256 : Sha256) (access : BoundLxmfStore)
    (submitted : InboundMessageCandidate → Prop) (f₀ : Flash) (pending : PendingMutation)
    (g : Flash) : Prop :=
  Outside f₀ g pending ∧ Spanned sha256 access submitted g pending

/-- Programming may stop among the headers. -/
theorem HeaderStage.stopped {count : ℕ} (h : HeaderStage sha256 access f₀ pending count g) :
    Stopped sha256 access submitted f₀ pending g :=
  ⟨h.outside, h.unmarked.spanned⟩

/-- The page that claims an extent. -/
def claimPage : List Byte :=
  claimMarker ++ List.replicate (ioChunkSize - claimMarker.length) erasedByte

/-- The page of a claim has 256 bytes. -/
theorem length_claimPage : claimPage.length = 256 := by
  rw [claimPage, List.length_append, List.length_replicate]
  rfl

/-- The claim covers the header. -/
theorem pendingHeader_claim {i : ℕ} (hi : i < 256) :
    BitsLE ((pendingHeader sha256 access pending index).getD (0 + i) 0) (claimPage.getD i 0) := by
  have hclaim : slice (pendingHeader sha256 access pending index) 0 32 = claimMarker :=
    slice_encodeHeader 0 0 32 rfl rfl rfl
  rw [List.getD_eq_getElem?_getD, List.getD_eq_getElem?_getD, claimPage]
  by_cases hmarker : i < 32
  · rw [List.getElem?_append_left (show i < claimMarker.length from hmarker), ← hclaim,
      getElem?_slice hmarker]
    exact .refl _
  · rw [List.getElem?_append_right (show claimMarker.length ≤ i from not_lt.mp hmarker),
      List.getElem?_replicate, if_pos (by change i - 32 < 256 - 32; omega)]
    exact bitsLE_erased _

/-- Each half of a pending header has 256 bytes. -/
theorem length_slice_pendingHeader {page : ℕ} (hpage : page < 2) :
    (slice (pendingHeader sha256 access pending index) (page * ioChunkSize) ioChunkSize).length =
      256 := by
  rw [show ioChunkSize = 256 from rfl]
  exact length_slice (by rw [length_pendingHeader]; omega)

/-- The header of an extent after its two pages. -/
theorem read_of_pages {offset : ℕ} {header : List Byte} (hlength : header.length = 512)
    (hpages : ∀ page < 2, f.read (offset + page * ioChunkSize) 256 =
      slice header (page * ioChunkSize) ioChunkSize) : f.read offset 512 = header := by
  have hfirst := hpages 0 (by decide)
  have hsecond := hpages 1 (by decide)
  rw [Nat.zero_mul, Nat.add_zero] at hfirst
  rw [show 512 = 256 + 256 from rfl, Flash.read_add, hfirst,
    show offset + 256 = offset + 1 * ioChunkSize from rfl, hsecond]
  exact (slice_add header 0 256 256).symm.trans (slice_all hlength)

/-- The programs of one header lead to the next stage. -/
theorem establishes_programHeader (hindex : index < pending.extentCount) :
    CheckedPatch.Establishes φ (Stopped sha256 access submitted f₀ pending)
      (HeaderStage sha256 access f₀ pending index)
        (HeaderStage sha256 access f₀ pending (index + 1))
      (programHeader pending.firstExtent index (pendingHeader sha256 access pending index) :
        List (CheckedPatch ε (LxmfCommitError ε))) := by
  have hclaimed : ∀ f g, HeaderStage sha256 access f₀ pending index f →
      f.TornPatch ⟨extentOffset (pending.firstExtent + index), claimPage⟩ g →
      HeaderStage sha256 access f₀ pending index g := fun f g hf ht =>
    hf.torn ht hindex (Nat.add_zero _).symm (by rw [length_claimPage]; decide)
      fun i hi => pendingHeader_claim (by rwa [length_claimPage] at hi)
  refine .cons (fun f g hf ht => (hclaimed f g hf ht).stopped)
    (fun f g hf ht _ => hclaimed f g hf ht) ?_
  refine (CheckedPatch.Establishes.exact (fun f hf => hf.stopped) ?_ ?_ ?_).mono (fun f hf => hf) ?_
  · intro c hc f g hf ht
    obtain ⟨page, hpage, rfl⟩ := List.mem_map.mp hc
    have hpage : page < 2 := List.mem_range.mp hpage
    have hlength := @length_slice_pendingHeader sha256 access pending index page hpage
    refine hf.torn ht hindex rfl ?_ fun i hi => ?_
    · change page * 256 + (slice _ (page * ioChunkSize) ioChunkSize).length ≤ 512
      rw [hlength]
      omega
    · change i < (slice _ (page * ioChunkSize) ioChunkSize).length at hi
      rw [hlength] at hi
      change BitsLE _ ((slice _ (page * ioChunkSize) ioChunkSize).getD i 0)
      rw [List.getD_eq_getElem?_getD, List.getD_eq_getElem?_getD, getElem?_slice hi]
      exact .refl _
  · intro c hc bytes haccepts
    obtain ⟨page, -, rfl⟩ := List.mem_map.mp hc
    exact eq_of_beq haccepts
  · refine List.pairwise_map.mpr (List.pairwise_lt_range.imp_of_mem ?_)
    intro page page' hpage hpage' hlt
    have hpage : page < 2 := List.mem_range.mp hpage
    refine .inl ?_
    change _ + page * 256 + (slice _ (page * ioChunkSize) ioChunkSize).length ≤ _ + page' * 256
    rw [length_slice_pendingHeader hpage]
    omega
  · rintro g ⟨hstage, hpages⟩
    refine ⟨hstage.outside, hstage.span.imp_left fun ⟨hblank, hheaders⟩ => ⟨hblank, ?_⟩⟩
    intro earlier hearlier
    by_cases hlast : earlier = index
    · rw [hlast]
      refine read_of_pages (length_pendingHeader _) fun page hpage => ?_
      have hread := hpages _ (List.mem_map.mpr ⟨page, List.mem_range.mpr hpage, rfl⟩)
      change g.read _ (slice _ (page * ioChunkSize) ioChunkSize).length = _ at hread
      rw [length_slice_pendingHeader hpage] at hread
      exact hread
    · exact hheaders earlier (by omega)

end HeaderStages

section Wire

/-- The contents while the wire of a span is programmed. -/
structure WireStage (sha256 : Sha256) (access : BoundLxmfStore) (f₀ : Flash)
    (pending : PendingMutation) (g : Flash) : Prop where
  outside : Outside f₀ g pending
  headed : Headed sha256 access g pending
  unmarked : ¬ SpanMarked g pending

/-- Programming may stop in the wire. -/
theorem WireStage.stopped (h : WireStage sha256 access f₀ pending g) :
    Stopped sha256 access submitted f₀ pending g :=
  ⟨h.outside, .headed h.headed fun hmarked => absurd hmarked h.unmarked⟩

/-- All headers are programmed. -/
theorem HeaderStage.wireStage (hcount : 0 < pending.extentCount)
    (h : HeaderStage sha256 access f₀ pending pending.extentCount g) :
    WireStage sha256 access f₀ pending g := by
  obtain ⟨hblank, hheaded⟩ | ⟨hheaded, hmarked⟩ := h.span
  · exact ⟨h.outside, hheaded, hblank.not_spanMarked hcount⟩
  · exact ⟨h.outside, hheaded, hmarked⟩

/-- A program behind the header of an extent keeps all headers. -/
theorem HeadersTo.torn {p : Patch} {count : ℕ} (h : HeadersTo sha256 access f pending count)
    (index : ℕ) (ht : f.TornPatch p g)
    (hstart : extentOffset (pending.firstExtent + index) + 512 ≤ p.offset)
    (hstop : p.offset + p.bytes.length ≤ extentOffset (pending.firstExtent + index + 1)) :
    HeadersTo sha256 access g pending count := by
  intro earlier hearlier
  rw [ht.read_eq, h earlier hearlier]
  rw [extentOffset_eq] at hstart hstop ⊢
  change _ + 512 ≤ _ ∨ _
  omega

/-- A program of a wire page keeps the stage. -/
theorem WireStage.torn {p : Patch} {page : ℕ} (h : WireStage sha256 access f₀ pending f)
    (ht : f.TornPatch p g) (hoffset : p.offset =
      wireAddress pending.firstExtent (page * ioChunkSize)) (hlength : p.bytes.length = 256)
    (hpage : page * 256 + 256 ≤ wireCapacity pending.extentCount) :
    WireStage sha256 access f₀ pending g := by
  obtain ⟨index, within, hindex, hwithin, hfinal, haddress⟩ :=
    wireAddress_bounds pending.firstExtent hpage
  rw [haddress] at hoffset
  clear hpage haddress
  refine ⟨h.outside.torn ht ?_ ?_, h.headed.torn index ht ?_ ?_, ?_⟩
  · rw [extentOffset_eq]
    omega
  · rw [extentOffset_eq]
    omega
  · rw [extentOffset_eq]
    omega
  · rw [extentOffset_eq]
    omega
  · rw [SpanMarked, Marked, ht.read_eq]
    · exact h.unmarked
    · rw [extentOffset_eq]
      change _ ∨ p.offset + p.bytes.length ≤ _ + 4064
      omega

/-- The programs of the wire leave the wire in its span. -/
theorem establishes_programCandidateWire (hcount : 0 < pending.extentCount)
    (hfits : candidate.bytes.length ≤ wireCapacity pending.extentCount) :
    CheckedPatch.Establishes φ (Stopped sha256 access submitted f₀ pending)
      (WireStage sha256 access f₀ pending)
      (fun g => WireStage sha256 access f₀ pending g ∧
        WireAt g pending.firstExtent pending.extentCount candidate.bytes)
      (programCandidateWire pending.firstExtent pending.extentCount candidate :
        List (CheckedPatch ε (LxmfCommitError ε))) := by
  rw [programCandidateWire_eq hcount hfits]
  have hlength : ∀ page, (wirePatch pending.firstExtent candidate.bytes page :
      CheckedPatch ε (LxmfCommitError ε)).patch.bytes.length = 256 := fun page =>
    length_wirePage_slice _ _
  refine (CheckedPatch.Establishes.exact (fun f hf => hf.stopped) ?_ ?_ ?_).mono (fun f hf => hf) ?_
  · intro c hc f g hf ht
    obtain ⟨page, hpage, rfl⟩ := List.mem_map.mp hc
    have hpage := lt_wirePageCount.mp (List.mem_range.mp hpage)
    refine hf.torn ht rfl (hlength page) ?_
    rw [wireCapacity_eq] at hfits ⊢
    omega
  · intro c hc bytes haccepts
    obtain ⟨page, -, rfl⟩ := List.mem_map.mp hc
    exact eq_of_beq haccepts
  · refine List.pairwise_map.mpr (List.pairwise_lt_range.imp ?_)
    intro page page' hlt
    refine .inl ?_
    rw [hlength]
    exact wireAddress_page_le hlt
  · rintro g ⟨hstage, hpages⟩
    refine ⟨hstage, wireAt_of_pages hcount hfits fun page hpage => ?_⟩
    have hread := hpages _ (List.mem_map.mpr ⟨page, List.mem_range.mpr hpage, rfl⟩)
    rw [hlength] at hread
    exact hread

end Wire

section Footers

/-- The fields of a footer have 224 bytes before the marker. -/
theorem length_footerFields (formatVersion : ℕ) (handle : MessageHandle) (extentCount wireLen : ℕ)
    (exactWireDigest : ExactWireDigest) (recordDigest : Vector Byte 32) :
    (footerFields formatVersion handle extentCount wireLen exactWireDigest
      recordDigest).flatten.length
      = 224 := by
  simp [footerFields, footerMagic, ascii]

/-- A program in the footer keeps the wire. -/
theorem WireAt.torn_footer {p : Patch} {first count : ℕ} {wire : List Byte} (hcount : 0 < count)
    (hfits : wire.length ≤ wireCapacity count) (h : WireAt f first count wire)
    (ht : f.TornPatch p g) (hoffset : (first + count - 1) * 4096 + 3840 ≤ p.offset) :
    WireAt g first count wire := by
  rw [wireAt_iff hcount hfits] at h ⊢
  intro position hposition
  rw [h position hposition]
  have hbefore : wireAddress first position < p.offset := by
    rw [wireCapacity_eq] at hfits
    rw [wireAddress_eq]
    omega
  have hsame : g (wireAddress first position) = f (wireAddress first position) :=
    ht.program_of_not_mem (.inl hbefore)
  rw [hsame]

/-- A program in the footer keeps the headers. -/
theorem HeadersTo.torn_footer {p : Patch} (hcount : 0 < pending.extentCount)
    (h : Headed sha256 access f pending) (ht : f.TornPatch p g)
    (hoffset : p.offset =
      extentOffset (pending.firstExtent + pending.extentCount - 1) + extentSize - recordFooterSize)
    (hlength : p.bytes.length = 256) : Headed sha256 access g pending := by
  change p.offset = extentOffset (pending.firstExtent + pending.extentCount - 1) + 4096 - 256
    at hoffset
  rw [extentOffset_eq] at hoffset
  refine h.torn (pending.extentCount - 1) ht ?_ ?_
  · rw [extentOffset_eq]
    omega
  · rw [extentOffset_eq]
    omega

/-- A torn footer changes nothing outside its span. -/
theorem Outside.torn_footer {p : Patch} (hcount : 0 < pending.extentCount)
    (h : Outside f₀ f pending) (ht : f.TornPatch p g)
    (hoffset : p.offset =
      extentOffset (pending.firstExtent + pending.extentCount - 1) + extentSize - recordFooterSize)
    (hlength : p.bytes.length = 256) : Outside f₀ g pending := by
  change p.offset = extentOffset (pending.firstExtent + pending.extentCount - 1) + 4096 - 256
    at hoffset
  rw [extentOffset_eq] at hoffset
  refine h.torn ht ?_ ?_
  · rw [extentOffset_eq]
    omega
  · rw [extentOffset_eq]
    omega

/-- The contents when a span has everything but its footer and its marker. -/
structure FooterStage (sha256 : Sha256) (access : BoundLxmfStore) (f₀ : Flash)
    (pending : PendingMutation) (wire : List Byte) (g : Flash) : Prop where
  wireStage : WireStage sha256 access f₀ pending g
  wireAt : WireAt g pending.firstExtent pending.extentCount wire

/-- A program that leaves the marker erased keeps the stage. -/
theorem FooterStage.torn {p : Patch} {wire fields : List Byte} (hcount : 0 < pending.extentCount)
    (hfits : wire.length ≤ wireCapacity pending.extentCount)
    (h : FooterStage sha256 access f₀ pending wire f) (ht : f.TornPatch p g)
    (hoffset : p.offset =
      extentOffset (pending.firstExtent + pending.extentCount - 1) + extentSize - recordFooterSize)
    (hfields : fields.length = 224)
    (hbytes : p.bytes = fields ++ List.replicate commitSize erasedByte) :
    FooterStage sha256 access f₀ pending wire g := by
  have hlength : p.bytes.length = 256 := by
    rw [hbytes, List.length_append, hfields, List.length_replicate]
    rfl
  refine ⟨⟨h.wireStage.outside.torn_footer hcount ht hoffset hlength,
    h.wireStage.headed.torn_footer hcount ht hoffset hlength, ?_⟩,
    h.wireAt.torn_footer hcount hfits ht ?_⟩
  · intro hmarked
    refine h.wireStage.unmarked ?_
    rw [SpanMarked, Marked] at hmarked ⊢
    rw [← hmarked]
    refine Flash.read_eq_read_iff.mpr fun i hi => (ht.eq_of_eq ?_).symm
    -- the marker area is programmed with erased bytes
    have hi : i < 32 := hi
    have haddress : extentOffset (pending.firstExtent + pending.extentCount - 1) +
        (extentSize - commitSize) + i = p.offset + (224 + i) := by
      rw [hoffset]
      change _ + 4064 + i = _ + 4096 - 256 + (224 + i)
      omega
    have hbyte : p.bytes.getD (224 + i) 0 = erasedByte := by
      rw [hbytes, List.getD_eq_getElem?_getD, List.getElem?_append_right (by omega), hfields,
        Nat.add_sub_cancel_left, List.getElem?_replicate, if_pos hi]
      rfl
    rw [haddress, Flash.apply, Flash.program_of_mem (by omega), hbyte]
    exact BitVec.and_allOnes
  · rw [hoffset, extentOffset_eq]
    change _ ≤ _ + 4096 - 256
    omega

end Footers

section Record

/-- The contents after a whole record was programmed. -/
structure Programmed (sha256 : Sha256) (access : BoundLxmfStore) (f₀ : Flash)
    (pending : PendingMutation) (wire : List Byte) (g : Flash) : Prop where
  outside : Outside f₀ g pending
  headed : Headed sha256 access g pending
  wireAt : WireAt g pending.firstExtent pending.extentCount wire

/-- The programs of the footer and of the marker complete a record. -/
theorem establishes_programFooter (hcount : 0 < pending.extentCount)
    (hfits : candidate.bytes.length ≤ wireCapacity pending.extentCount)
    (hfor : IsFor sha256 pending candidate) (hsubmitted : submitted candidate) :
    CheckedPatch.Establishes φ (Stopped sha256 access submitted f₀ pending)
      (FooterStage sha256 access f₀ pending candidate.bytes)
      (Programmed sha256 access f₀ pending candidate.bytes)
      [(programFooterBase
          (extentOffset (pending.firstExtent + pending.extentCount - 1) + extentSize -
            recordFooterSize)
          (candidateFooter sha256 access candidate pending.handle pending.extentCount false)
          pending.firstExtent : CheckedPatch ε (LxmfCommitError ε)),
        programExact
          (extentOffset (pending.firstExtent + pending.extentCount - 1) + extentSize -
            recordFooterSize) commitOverlay
          (candidateFooter sha256 access candidate pending.handle pending.extentCount true)
          .commit pending.firstExtent] := by
  have hbase : ∀ f g, FooterStage sha256 access f₀ pending candidate.bytes f →
      f.TornPatch ⟨extentOffset (pending.firstExtent + pending.extentCount - 1) + extentSize -
        recordFooterSize,
        candidateFooter sha256 access candidate pending.handle pending.extentCount false⟩ g →
      FooterStage sha256 access f₀ pending candidate.bytes g := fun f g hf ht =>
    hf.torn hcount hfits ht rfl (length_footerFields _ _ _ _ _ _) rfl
  have hmarker : ∀ f g, FooterStage sha256 access f₀ pending candidate.bytes f →
      f.TornPatch ⟨extentOffset (pending.firstExtent + pending.extentCount - 1) + extentSize -
        recordFooterSize, commitOverlay⟩ g →
      Programmed sha256 access f₀ pending candidate.bytes g := by
    intro f g hf ht
    have hlength : commitOverlay.length = 256 := by
      rw [commitOverlay, List.length_append, List.length_replicate]
      rfl
    refine ⟨hf.wireStage.outside.torn_footer hcount ht rfl hlength,
      hf.wireStage.headed.torn_footer hcount ht rfl hlength,
      hf.wireAt.torn_footer hcount hfits ht ?_⟩
    change _ ≤ extentOffset (pending.firstExtent + pending.extentCount - 1) + 4096 - 256
    rw [extentOffset_eq]
    omega
  have hstopped : ∀ g, Programmed sha256 access f₀ pending candidate.bytes g →
      Stopped sha256 access submitted f₀ pending g := fun g hg =>
    ⟨hg.outside, .headed hg.headed fun _ => ⟨candidate, hsubmitted, hfor, hg.wireAt⟩⟩
  exact .cons (fun f g hf ht => (hbase f g hf ht).wireStage.stopped)
    (fun f g hf ht _ => hbase f g hf ht)
    (.cons (fun f g hf ht => hstopped g (hmarker f g hf ht)) (fun f g hf ht _ => hmarker f g hf ht)
      (.nil hstopped))

/-- Programming a record completes it or stops in its span. -/
theorem establishes_programRecord (hcount : 0 < pending.extentCount)
    (hfits : candidate.bytes.length ≤ wireCapacity pending.extentCount)
    (hfor : IsFor sha256 pending candidate) (hsubmitted : submitted candidate) :
    CheckedPatch.Establishes φ (Stopped sha256 access submitted f₀ pending)
      (fun g => Outside f₀ g pending ∧ Unmarked sha256 access g pending)
      (Programmed sha256 access f₀ pending candidate.bytes)
      (programRecord sha256 access candidate pending.firstExtent pending.extentCount
        pending.handle : List (CheckedPatch ε (LxmfCommitError ε))) := by
  rw [programRecord]
  simp only [hfor.header]
  have hheaders : CheckedPatch.Establishes φ (Stopped sha256 access submitted f₀ pending)
      (HeaderStage sha256 access f₀ pending 0)
      (HeaderStage sha256 access f₀ pending pending.extentCount)
      ((List.range pending.extentCount).flatMap fun index => programHeader pending.firstExtent index
        (pendingHeader sha256 access pending index) : List (CheckedPatch ε (LxmfCommitError ε))) :=
    .flatMap_range (fun f hf => hf.stopped) fun index hindex => establishes_programHeader hindex
  have hstart : ∀ f, Outside f₀ f pending ∧ Unmarked sha256 access f pending →
      HeaderStage sha256 access f₀ pending 0 f := by
    rintro f ⟨houtside, hblank | ⟨hheaded, hmarked⟩⟩
    · exact ⟨houtside, .inl ⟨hblank, fun index hindex => absurd hindex (Nat.not_lt_zero _)⟩⟩
    · exact ⟨houtside, .inr ⟨hheaded, hmarked⟩⟩
  have hwire : CheckedPatch.Establishes φ (Stopped sha256 access submitted f₀ pending)
      (WireStage sha256 access f₀ pending) (FooterStage sha256 access f₀ pending candidate.bytes)
      (programCandidateWire pending.firstExtent pending.extentCount candidate :
        List (CheckedPatch ε (LxmfCommitError ε))) :=
    (establishes_programCandidateWire hcount hfits).mono (fun f hf => hf) fun f hf => ⟨hf.1, hf.2⟩
  exact ((hheaders.mono hstart fun f hf => hf.wireStage hcount).append hwire).append
    (establishes_programFooter hcount hfits hfor hsubmitted)

end Record

end LxmfStore
