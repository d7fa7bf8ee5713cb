import Mathlib.Data.List.Basic
import Mathlib.Data.List.Forall2
import Mathlib.Data.List.Nodup
import Mathlib.Order.Lattice

/-!
# Pages before a cursor

The matching items of an ascending list are read newest first, each page from the key of the last
item of the page before. A page takes one item more than it returns, to tell whether there is a
next page. The list may change between two pages. Item after item, a list is read in its order.
-/

namespace Pages

variable {α κ : Type} [LinearOrder κ] (key : α → κ) (selects : α → Bool)

/-- The matching items before a cursor, newest first. -/
def matching (items : List α) (before : Option κ) : List α :=
  items.reverse.filter fun item => before.all (fun cursor => decide (key item < cursor)) &&
    selects item

/-- Up to `limit` items, and the cursor of the next page when there are more. -/
def page (items : List α) (before : Option κ) (limit : ℕ) : List α × Option κ :=
  let taken := (matching key selects items before).take (limit + 1)
  (taken.take limit, if limit < taken.length then (taken.take limit).getLast?.map key else none)

/-- A page of the items that a reader finds, with its limit. -/
def turn (snapshot : List α × ℕ) (before : Option κ) : List α × Option κ :=
  page key selects snapshot.1 before snapshot.2

/-- Reading page after page to the end, each from the next cursor of the page before, whatever the
source of the pages has become in between. -/
inductive Walk {α κ σ : Type} (read : σ → Option κ → List α × Option κ) :
    Option κ → List σ → List α → Prop
  | last {before : Option κ} {source : σ} {events : List α}
      (hpage : read source before = (events, none)) : Walk read before [source] events
  | more {before : Option κ} {source : σ} {events later : List α} {next : κ} {sources : List σ}
      (hpage : read source before = (events, some next))
      (hrest : Walk read (some next) sources later) :
      Walk read before (source :: sources) (events ++ later)

/-- A walk over related pages of other sources. -/
theorem Walk.relate {α β κ σ τ : Type} {read : σ → Option κ → List α × Option κ}
    {read' : τ → Option κ → List β × Option κ} {view : σ → τ} {R : α → β → Prop}
    {before : Option κ} {sources : List σ} {events : List α} (h : Walk read before sources events)
    (hread : ∀ source ∈ sources, ∀ before, List.Forall₂ R (read source before).1
      (read' (view source) before).1 ∧ (read source before).2 = (read' (view source) before).2) :
    ∃ events', Walk read' before (sources.map view) events' ∧ List.Forall₂ R events events' := by
  induction h with
  | @last before source events hpage =>
    obtain ⟨hevents, hnext⟩ := hread source List.mem_cons_self before
    rw [hpage] at hevents hnext
    exact ⟨_, .last (Prod.ext rfl hnext.symm), hevents⟩
  | @more before source events later next sources hpage hrest ih =>
    obtain ⟨hsource, hread⟩ := List.forall_mem_cons.mp hread
    obtain ⟨hevents, hnext⟩ := hsource before
    rw [hpage] at hevents hnext
    obtain ⟨later', hwalk, hlater⟩ := ih hread
    exact ⟨_, .more (Prod.ext rfl hnext.symm) hwalk, List.rel_append hevents hlater⟩

section Page

variable {key : α → κ} {selects : α → Bool} {items : List α} {before : Option κ} {limit : ℕ}

/-- An item matches when it is selected and comes before the cursor. -/
theorem mem_matching {item : α} : item ∈ matching key selects items before ↔
    item ∈ items ∧ (∀ cursor, before = some cursor → key item < cursor) ∧
      selects item = true := by
  rw [matching, List.mem_filter, List.mem_reverse, Bool.and_eq_true, Option.all_eq_true]
  simp only [decide_eq_true_eq]

/-- Items in ascending order are read in descending order. -/
theorem pairwise_matching (selects : α → Bool) (before : Option κ)
    (hitems : items.Pairwise fun a b => key a < key b) :
    (matching key selects items before).Pairwise fun a b => key b < key a :=
  (List.pairwise_reverse.mpr hitems).filter _

/-- Items in ascending order are told apart by their keys. -/
theorem eq_of_key_eq (hitems : items.Pairwise fun a b => key a < key b) {a b : α} (ha : a ∈ items)
    (hb : b ∈ items) (hkey : key a = key b) : a = b :=
  List.inj_on_of_nodup_map (List.pairwise_map.mpr (hitems.imp ne_of_lt)) ha hb hkey

/-- A page is the front of what matches. -/
theorem page_fst :
    (page key selects items before limit).1 = (matching key selects items before).take limit := by
  rw [page, List.take_take, Nat.min_eq_left (Nat.le_succ limit)]

/-- The items before the key of an item are those behind it. -/
theorem filter_key_lt {front rest : List α} {item : α}
    (h : (front ++ item :: rest).Pairwise fun a b => key b < key a) :
    (front ++ item :: rest).filter (fun a => decide (key a < key item)) = rest := by
  obtain ⟨-, hrest, hfront⟩ := List.pairwise_append.mp h
  have hnone : front.filter (fun a => decide (key a < key item)) = [] := by
    refine List.filter_eq_nil_iff.mpr fun a ha => ?_
    have hlt := hfront a ha item List.mem_cons_self
    rw [decide_eq_true_eq]
    exact not_lt_of_gt hlt
  have hall : rest.filter (fun a => decide (key a < key item)) = rest := by
    refine List.filter_eq_self.mpr fun a ha => ?_
    rw [decide_eq_true_eq]
    exact (List.pairwise_cons.mp hrest).1 a ha
  rw [List.filter_append, hnone, List.filter_cons, hall, if_neg (by simp), List.nil_append]

/-- A later cursor selects among the items before the earlier one. -/
theorem matching_some {cursor : κ} (hcursor : ∀ earlier, before = some earlier → cursor ≤ earlier) :
    matching key selects items (some cursor) =
      (matching key selects items before).filter fun item => decide (key item < cursor) := by
  rw [matching, matching, List.filter_filter]
  refine List.filter_congr fun item _ => ?_
  rw [Option.all_some]
  cases before with
  | none => rw [Option.all_none, Bool.true_and]
  | some earlier =>
    have hle := hcursor earlier rfl
    rw [Option.all_some]
    by_cases hlt : key item < cursor
    · rw [decide_eq_true hlt, decide_eq_true (lt_of_lt_of_le hlt hle)]
      simp
    · rw [decide_eq_false hlt]
      simp

/-- There is a next page exactly if items are left, and it starts behind the last one. -/
theorem page_cases (selects : α → Bool) (before : Option κ)
    (hitems : items.Pairwise fun a b => key a < key b) (hlimit : 0 < limit) :
    ((matching key selects items before).length ≤ limit ∧
        page key selects items before limit = (matching key selects items before, none)) ∨
      limit < (matching key selects items before).length ∧
        ∃ next, page key selects items before limit =
            ((matching key selects items before).take limit, some next) ∧
          (∀ cursor, before = some cursor → next < cursor) ∧
          (∀ item ∈ (matching key selects items before).take limit, next ≤ key item) ∧
          matching key selects items (some next) =
            (matching key selects items before).drop limit := by
  rcases Nat.lt_or_ge limit (matching key selects items before).length with hmore | hfits
  · right
    refine ⟨hmore, ?_⟩
    obtain ⟨front, item, hfront⟩ : ∃ front item,
        (matching key selects items before).take limit = front ++ [item] := by
      have hne : (matching key selects items before).take limit ≠ [] := by
        refine List.ne_nil_of_length_pos ?_
        rw [List.length_take]
        omega
      exact ⟨_, _, (List.dropLast_concat_getLast hne).symm⟩
    have hsplit : matching key selects items before =
        front ++ item :: (matching key selects items before).drop limit := by
      have hparts := List.take_append_drop limit (matching key selects items before)
      rw [hfront, List.append_assoc, List.singleton_append] at hparts
      exact hparts.symm
    have hpairs := pairwise_matching selects before hitems
    have hitem : item ∈ matching key selects items before := by
      rw [hsplit]
      simp
    refine ⟨key item, ?_, (mem_matching.mp hitem).2.1, ?_, ?_⟩
    · refine Prod.ext page_fst ?_
      rw [page]
      dsimp only
      rw [List.take_take, Nat.min_eq_left (Nat.le_succ limit), hfront, List.length_take,
        if_pos (by omega), List.getLast?_append_cons]
      rfl
    · intro other hother
      rw [hfront] at hother
      rcases List.mem_append.mp hother with hother | hother
      · rw [hsplit] at hpairs
        exact ((List.pairwise_append.mp hpairs).2.2 other hother item List.mem_cons_self).le
      · rw [List.mem_singleton.mp hother]
    · rw [matching_some fun cursor hcursor => ((mem_matching.mp hitem).2.1 cursor hcursor).le]
      rw [hsplit] at hpairs
      have hrest := filter_key_lt hpairs
      rwa [← hsplit] at hrest
  · left
    refine ⟨hfits, ?_⟩
    have htaken : (matching key selects items before).take (limit + 1) =
        matching key selects items before := List.take_of_length_le (by omega)
    unfold page
    dsimp only
    rw [htaken, List.take_of_length_le hfits, if_neg (by omega)]

end Page

section Walk

variable {key : α → κ} {selects : α → Bool} {items : List α} {before : Option κ}
  {snapshots : List (List α × ℕ)} {events : List α}

/-- Every page is read from items in ascending order and has room for one of them. -/
def Readable (key : α → κ) (snapshot : List α × ℕ) : Prop :=
  (snapshot.1.Pairwise fun a b => key a < key b) ∧ 0 < snapshot.2

/-- A walk returns items before its cursor in strictly descending order. -/
theorem Walk.descending (h : Walk (turn key selects) before snapshots events)
    (hreadable : ∀ snapshot ∈ snapshots, Readable key snapshot) :
    (events.Pairwise fun a b => key b < key a) ∧
      ∀ event ∈ events, (∀ cursor, before = some cursor → key event < cursor) ∧
        selects event = true := by
  induction h with
  | @last before snapshot events hpage =>
    obtain ⟨items, limit⟩ := snapshot
    change page key selects items before limit = _ at hpage
    obtain ⟨hitems, -⟩ := hreadable _ List.mem_cons_self
    have hevents : events = (matching key selects items before).take limit := by
      rw [← page_fst, hpage]
    rw [hevents]
    exact ⟨(pairwise_matching selects _ hitems).sublist (List.take_sublist _ _), fun event hevent =>
      (mem_matching.mp (List.mem_of_mem_take hevent)).2⟩
  | @more before snapshot events later next snapshots hpage hrest ih =>
    obtain ⟨items, limit⟩ := snapshot
    change page key selects items before limit = _ at hpage
    obtain ⟨⟨hitems, hlimit⟩, hreadable⟩ := List.forall_mem_cons.mp hreadable
    obtain ⟨hlater, hbelow⟩ := ih hreadable
    obtain ⟨-, hlast⟩ | ⟨-, next', hnext, hcursor, hfirst, -⟩ :=
      page_cases selects before hitems hlimit
    · rw [hlast] at hpage
      cases hpage
    · rw [hnext] at hpage
      cases hpage
      refine ⟨List.pairwise_append.mpr
        ⟨(pairwise_matching selects _ hitems).sublist (List.take_sublist _ _),
        hlater, fun a ha b hb => ?_⟩, fun event hevent => ?_⟩
      · exact lt_of_lt_of_le ((hbelow b hb).1 next rfl) (hfirst a ha)
      · rcases List.mem_append.mp hevent with hevent | hevent
        · exact (mem_matching.mp (List.mem_of_mem_take hevent)).2
        · refine ⟨fun cursor hbefore => ?_, (hbelow event hevent).2⟩
          exact lt_trans ((hbelow event hevent).1 next rfl) (hcursor cursor hbefore)

/-- A walk returns what it could read on every page. -/
theorem Walk.complete (h : Walk (turn key selects) before snapshots events)
    (hreadable : ∀ snapshot ∈ snapshots, Readable key snapshot) {k : κ}
    (hbefore : ∀ cursor, before = some cursor → k < cursor)
    (hkept : ∀ snapshot ∈ snapshots, ∃ item ∈ snapshot.1, key item = k ∧ selects item = true) :
    ∃ event ∈ events, key event = k := by
  induction h with
  | @last before snapshot events hpage =>
    obtain ⟨items, limit⟩ := snapshot
    change page key selects items before limit = _ at hpage
    obtain ⟨hitems, hlimit⟩ := hreadable _ List.mem_cons_self
    obtain ⟨item, hitem, rfl, hselects⟩ := hkept _ List.mem_cons_self
    obtain ⟨-, hlast⟩ | ⟨-, next, hnext, -⟩ :=
      page_cases selects before hitems hlimit
    · rw [hlast] at hpage
      cases hpage
      exact ⟨item, mem_matching.mpr ⟨hitem, hbefore, hselects⟩, rfl⟩
    · rw [hnext] at hpage
      cases hpage
  | @more before snapshot events later next snapshots hpage hrest ih =>
    obtain ⟨items, limit⟩ := snapshot
    change page key selects items before limit = _ at hpage
    obtain ⟨⟨hitems, hlimit⟩, hreadable⟩ := List.forall_mem_cons.mp hreadable
    obtain ⟨⟨item, hitem, rfl, hselects⟩, hkept⟩ := List.forall_mem_cons.mp hkept
    obtain ⟨-, hlast⟩ | ⟨-, next', hnext, hcursor, hfirst, hdrop⟩ :=
      page_cases selects before hitems hlimit
    · rw [hlast] at hpage
      cases hpage
    · rw [hnext] at hpage
      cases hpage
      have hmem : item ∈ matching key selects items before :=
        mem_matching.mpr ⟨hitem, hbefore, hselects⟩
      rw [← List.take_append_drop limit (matching key selects items before)] at hmem
      rcases List.mem_append.mp hmem with hmem | hmem
      · exact ⟨item, List.mem_append_left _ hmem, rfl⟩
      · -- what the page leaves is before the next cursor
        rw [← hdrop] at hmem
        obtain ⟨event, hevent, hkey⟩ := ih hreadable (mem_matching.mp hmem).2.1 hkept
        exact ⟨event, List.mem_append_right _ hevent, hkey⟩

end Walk

section Shown

variable {β σ : Type} {key : α → κ} {key' : β → κ} {selects : α → Bool} {view : σ → List α × ℕ}
  {read : σ → Option κ → List β × Option κ} {before : Option κ} {sources : List σ}
  {events : List β} {items : List α} {present : α → β}

/-- The pages of a source show the items that it keeps, each under its key. -/
def Shows (key : α → κ) (key' : β → κ) (selects : α → Bool) (view : σ → List α × ℕ)
    (read : σ → Option κ → List β × Option κ) : Prop :=
  ∀ source before, List.Forall₂ (fun b a => key' b = key a) (read source before).1
      (turn key selects (view source) before).1 ∧
    (read source before).2 = (turn key selects (view source) before).2

/-- A walk through the shown pages is one through the items, key by key. -/
theorem Shows.walk (h : Shows key key' selects view read)
    (hwalk : Walk read before sources events) :
    ∃ shown, Walk (turn key selects) before (sources.map view) shown ∧
      events.map key' = shown.map key := by
  obtain ⟨shown, hshown, hkeys⟩ := hwalk.relate fun source _ before => h source before
  exact ⟨shown, hshown, List.forall₂_eq_eq_eq ▸ List.forall₂_map_left_iff.mpr
    (List.forall₂_map_right_iff.mpr hkeys)⟩

/-- No item is returned twice, whatever the source becomes. -/
theorem Shows.descending (h : Shows key key' selects view read)
    (hwalk : Walk read before sources events)
    (hreadable : ∀ source ∈ sources, Readable key (view source)) :
    events.Pairwise fun a b => key' b < key' a := by
  obtain ⟨shown, hshown, hkeys⟩ := h.walk hwalk
  have hdescending := (hshown.descending (List.forall_mem_map.mpr hreadable)).1
  have hpairs : (shown.map key).Pairwise fun a b => b < a := List.pairwise_map.mpr hdescending
  rw [← hkeys] at hpairs
  exact List.pairwise_map.mp hpairs

/-- An item that is there on every page is returned. -/
theorem Shows.complete (h : Shows key key' selects view read)
    (hwalk : Walk read before sources events)
    (hreadable : ∀ source ∈ sources, Readable key (view source)) {k : κ}
    (hbefore : ∀ cursor, before = some cursor → k < cursor)
    (hkept : ∀ source ∈ sources, ∃ item ∈ (view source).1, key item = k ∧ selects item = true) :
    ∃ event ∈ events, key' event = k := by
  obtain ⟨shown, hshown, hkeys⟩ := h.walk hwalk
  obtain ⟨event, hevent, hkey⟩ := hshown.complete (List.forall_mem_map.mpr hreadable) hbefore
    (List.forall_mem_map.mpr hkept)
  have hmem : k ∈ events.map key' := by
    rw [hkeys]
    exact List.mem_map.mpr ⟨event, hevent, hkey⟩
  exact List.mem_map.mp hmem

/-- There is no next page exactly if the page shows everything that is left. -/
theorem Shows.next_eq_none_iff (h : Shows key key' selects view read) {source : σ}
    (hreadable : Readable key (view source)) :
    (read source before).2 = none ↔ ∀ item ∈ matching key selects (view source).1 before,
      ∃ event ∈ (read source before).1, key' event = key item := by
  obtain ⟨hitems, hlimit⟩ := hreadable
  obtain ⟨hshown, hnext⟩ := h source before
  have hkeys : (read source before).1.map key' =
    (turn key selects (view source) before).1.map key :=
    List.forall₂_eq_eq_eq ▸ List.forall₂_map_left_iff.mpr (List.forall₂_map_right_iff.mpr hshown)
  have hmem : ∀ item, (∃ event ∈ (read source before).1, key' event = key item) ↔
      ∃ other ∈ (turn key selects (view source) before).1, key other = key item := by
    intro item
    rw [← List.mem_map, hkeys, List.mem_map]
  simp only [hnext, hmem]
  unfold turn
  obtain ⟨-, hlast⟩ | ⟨hmore, next, hpage, -, -, -⟩ :=
    page_cases selects before hitems hlimit
  · rw [hlast]
    exact ⟨fun _ item hitem => ⟨item, hitem, rfl⟩, fun _ => rfl⟩
  · rw [hpage]
    refine ⟨fun hnone => absurd hnone (Option.some_ne_none _), fun hall => ?_⟩
    -- the first item behind the page is not on it
    have hpairs := pairwise_matching selects before hitems
    rw [← List.take_append_drop (view source).2 (matching key selects (view source).1 before)]
      at hpairs
    obtain ⟨item, hitem⟩ : ∃ item, item ∈
        (matching key selects (view source).1 before).drop (view source).2 := by
      refine List.exists_mem_of_length_pos ?_
      rw [List.length_drop]
      omega
    obtain ⟨other, hother, hkey⟩ := hall item (List.mem_of_mem_drop hitem)
    exact absurd hkey ((List.pairwise_append.mp hpairs).2.2 other hother item hitem).ne'

/-- Reading a source that does not change ends, and returns every matching item. -/
theorem exists_walk (hitems : items.Pairwise fun a b => key a < key b) (source : ℕ → σ)
    (hread : ∀ i before, ∃ limit, 0 < limit ∧ read (source i) before =
      ((page key selects items before limit).1.map present,
        (page key selects items before limit).2)) :
    ∃ n, Walk read before ((List.range n).map source)
      ((matching key selects items before).map present) := by
  generalize hsize : (matching key selects items before).length = size
  induction size using Nat.strongRecOn generalizing before source with
  | _ size ih =>
    obtain ⟨limit, hlimit, hsource⟩ := hread 0 before
    obtain ⟨-, hlast⟩ | ⟨hmore, next, hnext, -, -, hdrop⟩ :=
      page_cases selects before hitems hlimit
    · rw [hlast] at hsource
      exact ⟨1, .last hsource⟩
    · rw [hnext] at hsource
      have hshorter : (matching key selects items (some next)).length < size := by
        rw [hdrop, List.length_drop]
        omega
      obtain ⟨n, hwalk⟩ := ih _ hshorter (fun i => source (i + 1)) (fun i => hread (i + 1)) rfl
      refine ⟨n + 1, ?_⟩
      rw [List.range_succ_eq_map, List.map_cons, List.map_map,
        ← List.take_append_drop limit (matching key selects items before), ← hdrop, List.map_append]
      exact .more hsource hwalk

/-- Any walk over a source that does not change returns every matching item. -/
theorem Walk.eq_matching (h : Walk read before sources events)
    (hitems : items.Pairwise fun a b => key a < key b)
    (hread : ∀ source ∈ sources, ∀ before, ∃ limit, 0 < limit ∧ read source before =
      ((page key selects items before limit).1.map present,
        (page key selects items before limit).2)) :
    events = (matching key selects items before).map present := by
  induction h with
  | @last before source events hpage =>
    obtain ⟨limit, hlimit, hsource⟩ := hread source List.mem_cons_self before
    rw [hpage] at hsource
    obtain ⟨-, hlast⟩ | ⟨-, next, hnext, -⟩ :=
      page_cases selects before hitems hlimit
    · rw [hlast] at hsource
      exact congrArg Prod.fst hsource
    · rw [hnext] at hsource
      cases congrArg Prod.snd hsource
  | @more before source events later next sources hpage hrest ih =>
    obtain ⟨hsource, hread⟩ := List.forall_mem_cons.mp hread
    obtain ⟨limit, hlimit, hsource⟩ := hsource before
    rw [hpage] at hsource
    obtain ⟨-, hlast⟩ | ⟨-, next', hnext, -, -, hdrop⟩ :=
      page_cases selects before hitems hlimit
    · rw [hlast] at hsource
      cases congrArg Prod.snd hsource
    · rw [hnext] at hsource
      obtain ⟨rfl, hsame⟩ := Prod.mk.inj hsource
      obtain rfl : next = next' := Option.some.inj hsame
      rw [ih hread, hdrop, ← List.map_append, List.take_append_drop]

end Shown

section Listing

variable {α κ ε : Type} {key : α → κ} {next : Option κ → Except ε (Option α)} {items : List α}

/-- Item after item to the end, each asked for with the key of the one before. -/
inductive Lists {α κ ε : Type} (key : α → κ) (next : Option κ → Except ε (Option α)) :
    Option κ → List α → Prop
  | done {cursor : Option κ} (h : next cursor = .ok none) : Lists key next cursor []
  | more {cursor : Option κ} {item : α} {items : List α} (h : next cursor = .ok (some item))
      (hrest : Lists key next (some (key item)) items) : Lists key next cursor (item :: items)

/-- A listing has one course. -/
theorem Lists.unique {cursor : Option κ} {items' : List α} (h : Lists key next cursor items)
    (h' : Lists key next cursor items') : items = items' := by
  induction h generalizing items' with
  | done hnone =>
    cases h' with
    | done => rfl
    | more hsome => cases hnone.symm.trans hsome
  | more hsome _ ih =>
    cases h' with
    | done hnone => cases hsome.symm.trans hnone
    | more hsome' hrest' =>
      obtain rfl := Option.some.inj (Except.ok.inj (hsome.symm.trans hsome'))
      rw [ih hrest']

/-- Items are listed in their order if each key is answered with the item behind it. The induction
is on the items that are left. -/
theorem lists_of_answers (hfirst : next none = .ok items.head?)
    (hnext : ∀ front item back, items = front ++ item :: back →
      next (some (key item)) = .ok back.head?) : Lists key next none items := by
  have hrest : ∀ (back front : List α) (cursor : Option κ), items = front ++ back →
      next cursor = .ok back.head? → Lists key next cursor back := by
    intro back
    induction back with
    | nil => exact fun front cursor _ hcursor => .done hcursor
    | cons item back ih =>
      intro front cursor hitems hcursor
      refine .more hcursor (ih (front ++ [item]) _ ?_ (hnext front item back hitems))
      rw [hitems, List.append_assoc, List.singleton_append]
  exact hrest items [] none rfl hfirst

end Listing

end Pages
