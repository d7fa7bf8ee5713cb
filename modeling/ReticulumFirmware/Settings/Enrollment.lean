import Mathlib.Data.List.Induction
import Mathlib.Data.Option.Basic
import Mathlib.Tactic.Ring

/-!
# The enrollment window

`EnrollmentWindow` of `management_authorization.rs`: one enrollment is authorized by releasing
the button and then holding it. Over any run of samples and uses, an open window goes back to a
gesture of its own.
-/

namespace Management

/-- How long the button has to be held. -/
abbrev enrollmentButtonHoldMillis : ℕ := 1000

/-- How long a window stays open. -/
abbrev enrollmentWindowMillis : ℕ := 60000

/-- Release-then-hold policy for one-at-a-time enrollment. -/
structure EnrollmentWindow where
  released : Bool
  lowSince : Option ℕ
  openUntil : Option ℕ
  deriving DecidableEq

namespace EnrollmentWindow

/-- Start closed. A high sample must be observed before a hold can qualify. -/
def new : EnrollmentWindow := ⟨false, none, none⟩

/-- The deadline of an open window has passed. -/
def Expired (window : EnrollmentWindow) (nowMillis : ℕ) : Prop :=
  ∃ deadline ∈ window.openUntil, deadline ≤ nowMillis

/-- A deadline is compared. -/
instance (window : EnrollmentWindow) (nowMillis : ℕ) : Decidable (window.Expired nowMillis) :=
  inferInstanceAs (Decidable (∃ deadline ∈ window.openUntil, deadline ≤ nowMillis))

/-- A window is closed after its deadline. -/
def expire (nowMillis : ℕ) (window : EnrollmentWindow) : EnrollmentWindow :=
  if window.Expired nowMillis then new else window

/-- `u64::checked_add`. -/
def checkedAdd (left right : ℕ) : Option ℕ :=
  if left + right < 2 ^ 64 then some (left + right) else none

/-- Observe the active-low button and report whether a new window opened. -/
def observe (nowMillis : ℕ) (assertedLow : Bool) (window : EnrollmentWindow) :
    Bool × EnrollmentWindow :=
  let window := window.expire nowMillis
  if window.openUntil.isSome then
    (false, if assertedLow then window else { window with released := true })
  else if !assertedLow then (false, { window with released := true, lowSince := none })
  else if !window.released then (false, window)
  else
    let started := window.lowSince.getD nowMillis
    if nowMillis - started < enrollmentButtonHoldMillis then
      (false, { window with lowSince := some started })
    else
      let openUntil := checkedAdd nowMillis enrollmentWindowMillis
      (openUntil.isSome, ⟨false, none, openUntil⟩)

/-- Whether an enrollment is currently authorized. -/
def isOpen (nowMillis : ℕ) (window : EnrollmentWindow) : Bool × EnrollmentWindow :=
  let window := window.expire nowMillis
  (window.openUntil.isSome, window)

/-- Consume the current window after one durable enrollment. -/
def consume (nowMillis : ℕ) (window : EnrollmentWindow) : Bool × EnrollmentWindow :=
  let (isOpen, window) := window.isOpen nowMillis
  if !isOpen then (false, window) else (true, new)

end EnrollmentWindow

/-- A call of the owner of a window. -/
inductive Call where
  | observe (nowMillis : ℕ) (assertedLow : Bool)
  | isOpen (nowMillis : ℕ)
  | consume (nowMillis : ℕ)

/-- The time of a call. -/
def Call.time : Call → ℕ
  | .observe nowMillis _ | .isOpen nowMillis | .consume nowMillis => nowMillis

/-- What happened at a call: a window expired, the button was sampled, a window opened or was
consumed. -/
inductive WindowEvent where
  | expired (at_ : ℕ)
  | high (at_ : ℕ)
  | low (at_ : ℕ)
  | opened (at_ : ℕ)
  | consumed (at_ : ℕ)
  deriving DecidableEq

/-- A sample of the button. -/
def WindowEvent.IsSample : WindowEvent → Prop
  | .high _ | .low _ => True
  | _ => False

namespace EnrollmentWindow

/-- The window after a call. -/
def after (window : EnrollmentWindow) : Call → EnrollmentWindow
  | .observe nowMillis assertedLow => (window.observe nowMillis assertedLow).2
  | .isOpen nowMillis => (window.isOpen nowMillis).2
  | .consume nowMillis => (window.consume nowMillis).2

/-- What happens at a call besides an expiry, from the answers of the window. -/
def answers (window : EnrollmentWindow) : Call → List WindowEvent
  | .observe nowMillis assertedLow =>
    (if assertedLow then .low nowMillis else .high nowMillis) ::
      if (window.observe nowMillis assertedLow).1 then [.opened nowMillis] else []
  | .isOpen _ => []
  | .consume nowMillis => if (window.consume nowMillis).1 then [.consumed nowMillis] else []

/-- What happens at a call. -/
def events (window : EnrollmentWindow) (call : Call) : List WindowEvent :=
  (if window.Expired call.time then [.expired call.time] else []) ++ window.answers call

/-- The window and its history after a run of calls. -/
def run (calls : List Call) : EnrollmentWindow × List WindowEvent :=
  calls.foldl (fun (window, history) call => (window.after call, history ++ window.events call))
    (new, [])

end EnrollmentWindow

/-- The samples of a complete gesture that opens a window at `opening`: the button was released,
and then low at every sample, for the first time long enough before. -/
def Gesture (samples : List WindowEvent) (opening : ℕ) : Prop :=
  ∃ released pressed : ℕ, ∃ lows : List ℕ,
    samples = .high released :: .low pressed :: lows.map .low ∧
      pressed + enrollmentButtonHoldMillis ≤ opening

/-- The part of a history since the window that is open until `deadline` was opened: the gesture,
the opening, and samples only. -/
def OpenedBy (history : List WindowEvent) (deadline now : ℕ) : Prop :=
  ∃ before samples opening rest,
    history = before ++ samples ++ .opened opening :: rest ∧ Gesture samples opening ∧
      opening ≤ now ∧ deadline = opening + enrollmentWindowMillis ∧ ∀ event ∈ rest, event.IsSample

/-- The state of a window agrees with its history. -/
structure Tracks (window : EnrollmentWindow) (history : List WindowEvent) (now : ℕ) : Prop where
  opened : ∀ deadline ∈ window.openUntil,
    window.lowSince = none ∧ OpenedBy history deadline now
  unreleased : window.released = false → window.lowSince = none
  released : window.openUntil = none → window.released = true → window.lowSince = none →
    ∃ before released, history = before ++ [.high released]
  pressed : ∀ pressed ∈ window.lowSince, ∃ before released, ∃ lows : List ℕ,
    history = before ++ .high released :: .low pressed :: lows.map .low

namespace Tracks

open EnrollmentWindow

variable {window : EnrollmentWindow} {history : List WindowEvent} {now now' : ℕ}

/-- A new window is tracked by any history. -/
theorem new (history : List WindowEvent) (now : ℕ) : Tracks .new history now where
  opened _ h := by cases h
  unreleased _ := rfl
  released _ h := by cases h
  pressed _ h := by cases h

/-- A window stays tracked as time goes on. -/
theorem mono (h : Tracks window history now) (hnow : now ≤ now') : Tracks window history now' where
  opened deadline hdeadline := by
    obtain ⟨hlow, before, samples, opening, rest, hhistory, hgesture, hopening, hrest⟩ :=
      h.opened deadline hdeadline
    exact ⟨hlow, before, samples, opening, rest, hhistory, hgesture, Nat.le_trans hopening hnow,
      hrest⟩
  unreleased := h.unreleased
  released := h.released
  pressed := h.pressed

/-- To expire again later changes nothing more. -/
theorem expire_expire (window : EnrollmentWindow) (now : ℕ) :
    (window.expire now).expire now = window.expire now := by
  unfold EnrollmentWindow.expire
  by_cases hexpired : window.Expired now
  · rw [if_pos hexpired]
    exact if_neg nofun
  · rw [if_neg hexpired, if_neg hexpired]

/-- An expiry closes the window and forgets the button. -/
theorem expire (h : Tracks window history now) (hnow : now ≤ now') :
    Tracks (window.expire now')
      (history ++ if window.Expired now' then [.expired now'] else []) now' := by
  unfold EnrollmentWindow.expire
  by_cases hexpired : window.Expired now'
  · rw [if_pos hexpired, if_pos hexpired]
    exact new _ _
  · rw [if_neg hexpired, if_neg hexpired, List.append_nil]
    exact h.mono hnow

/-- A sample while a window is open leaves it as it was opened. -/
theorem sample_open (h : Tracks window history now) {event : WindowEvent} (hevent : event.IsSample)
    {deadline : ℕ} (hopen : window.openUntil = some deadline) (released : Bool) :
    Tracks { window with released } (history ++ [event]) now := by
  obtain ⟨hlow, before, samples, opening, rest, rfl, hgesture, hopening, hdeadline, hrest⟩ :=
    h.opened deadline hopen
  constructor
  · intro limit hlimit
    rw [hopen] at hlimit
    cases hlimit
    refine ⟨hlow, before, samples, opening, rest ++ [event], by simp, hgesture, hopening, hdeadline,
      fun other hother => ?_⟩
    rcases List.mem_append.mp hother with hold | hnew
    · exact hrest other hold
    · rw [List.mem_singleton.mp hnew]
      exact hevent
  · exact fun _ => hlow
  · intro hnone
    rw [hopen] at hnone
    cases hnone
  · intro pressed hpressed
    rw [hlow] at hpressed
    cases hpressed

/-- A released button is tracked. -/
theorem sample_high (h : window.openUntil = none) (history : List WindowEvent) (now : ℕ) :
    Tracks { window with released := true, lowSince := none } (history ++ [.high now]) now where
  opened deadline hdeadline := by
    rw [h] at hdeadline
    cases hdeadline
  unreleased _ := rfl
  released _ _ _ := ⟨history, now, rfl⟩
  pressed _ hpressed := by cases hpressed

/-- A window that is closed and waits for the button to be released depends on no history. -/
theorem waiting (h : window.openUntil = none) (hreleased : window.released = false)
    (hlow : window.lowSince = none) (history : List WindowEvent) (now : ℕ) :
    Tracks window history now where
  opened deadline hdeadline := by
    rw [h] at hdeadline
    cases hdeadline
  unreleased _ := hlow
  released _ htrue := by
    rw [hreleased] at htrue
    cases htrue
  pressed _ hpressed := by
    rw [hlow] at hpressed
    cases hpressed

/-- The low samples after a release, up to the present one. -/
theorem pressed_of_low (h : Tracks window history now) (hclosed : window.openUntil = none)
    (hreleased : window.released = true) :
    ∃ before released, ∃ lows : List ℕ, history ++ [.low now] =
      before ++ .high released :: .low (window.lowSince.getD now) :: lows.map .low := by
  cases hlow : window.lowSince with
  | none =>
    obtain ⟨before, released, rfl⟩ := h.released hclosed hreleased hlow
    exact ⟨before, released, [], by simp⟩
  | some pressed =>
    obtain ⟨before, released, lows, rfl⟩ := h.pressed pressed hlow
    exact ⟨before, released, lows ++ [now], by simp⟩

/-- A button that is held is tracked. -/
theorem holding {before : List WindowEvent} {released pressed : ℕ} {lows : List ℕ}
    (h : history = before ++ .high released :: .low pressed :: lows.map .low) (now : ℕ) :
    Tracks ⟨true, some pressed, none⟩ history now where
  opened _ hdeadline := by cases hdeadline
  unreleased hfalse := by cases hfalse
  released _ _ hnone := by cases hnone
  pressed _ hpressed := by
    cases hpressed
    exact ⟨before, released, lows, h⟩

/-- A hold that was long enough opens the window by its gesture. -/
theorem opening {before : List WindowEvent} {released pressed deadline : ℕ} {lows : List ℕ}
    (h : history = before ++ .high released :: .low pressed :: lows.map .low)
    (hheld : pressed + enrollmentButtonHoldMillis ≤ now)
    (hadd : checkedAdd now enrollmentWindowMillis = some deadline) :
    Tracks ⟨false, none, some deadline⟩ (history ++ [.opened now]) now where
  opened limit hlimit := by
    cases hlimit
    refine ⟨rfl, before, _, now, [], by rw [h], ⟨released, pressed, lows, rfl, hheld⟩,
      Nat.le_refl now, ?_, nofun⟩
    unfold checkedAdd at hadd
    split at hadd
    · exact (Option.some.inj hadd).symm
    · cases hadd
  unreleased _ := rfl
  released hnone := by cases hnone
  pressed _ hpressed := by cases hpressed

/-- What a sample does to a window that is not expired. -/
theorem observe (h : Tracks window history now) (hlive : window.expire now = window)
    (assertedLow : Bool) :
    Tracks (window.observe now assertedLow).2
      (history ++ window.answers (.observe now assertedLow)) now := by
  rw [answers]
  unfold EnrollmentWindow.observe
  rw [hlive]
  obtain ⟨released, lowSince, openUntil⟩ := window
  cases openUntil with
  | some deadline =>
    cases assertedLow with
    | true => exact @sample_open _ _ _ h (.low now) trivial _ rfl released
    | false => exact @sample_open _ _ _ h (.high now) trivial _ rfl true
  | none =>
    cases assertedLow with
    | false => exact @sample_high ⟨released, lowSince, none⟩ rfl history now
    | true =>
      cases released with
      | false => exact waiting rfl rfl (h.unreleased rfl) _ now
      | true =>
        obtain ⟨before, released, lows, hhistory⟩ := h.pressed_of_low rfl rfl
        by_cases hshort : now - lowSince.getD now < enrollmentButtonHoldMillis
        · have hstate : Tracks ⟨true, some (lowSince.getD now), none⟩ (history ++ [.low now]) now :=
            holding hhistory now
          simpa [hshort] using hstate
        · have hheld : lowSince.getD now + enrollmentButtonHoldMillis ≤ now := by
            simp only [enrollmentButtonHoldMillis] at hshort ⊢
            omega
          cases hadd : checkedAdd now enrollmentWindowMillis with
          | none =>
            have hstate : Tracks ⟨false, none, none⟩ (history ++ [.low now]) now := new _ _
            simpa [hshort, hadd] using hstate
          | some deadline =>
            have hstate : Tracks ⟨false, none, some deadline⟩
                (history ++ [.low now] ++ [.opened now]) now :=
              opening hhistory hheld hadd
            simpa [hshort, hadd] using hstate

/-- The state agrees with the history after every call. -/
theorem call (h : Tracks window history now) {call : Call} (hnow : now ≤ call.time) :
    Tracks (window.after call) (history ++ window.events call) call.time := by
  have hexpire := h.expire hnow
  rw [events, ← List.append_assoc]
  cases call
  all_goals simp only [Call.time] at hexpire ⊢
  case observe now assertedLow =>
    have hobserve := hexpire.observe (expire_expire window now) assertedLow
    have hsame : (window.expire now).observe now assertedLow = window.observe now assertedLow := by
      unfold EnrollmentWindow.observe
      rw [expire_expire]
    rw [answers, hsame] at hobserve
    exact hobserve
  case isOpen now =>
    rw [answers, List.append_nil]
    exact hexpire
  case consume now =>
    rw [answers, after]
    cases hopen : (window.expire now).openUntil with
    | none =>
      have hclosed : window.consume now = (false, window.expire now) := by
        simp [EnrollmentWindow.consume, EnrollmentWindow.isOpen, hopen]
      rw [hclosed, if_neg Bool.false_ne_true, List.append_nil]
      exact hexpire
    | some deadline =>
      have hconsumed : (window.consume now) = (true, EnrollmentWindow.new) := by
        simp [EnrollmentWindow.consume, EnrollmentWindow.isOpen, hopen]
      rw [hconsumed]
      exact new _ _

/-- The state agrees with the history after every run. -/
theorem run {calls : List Call} {now : ℕ}
    (hordered : calls.Pairwise fun call next => call.time ≤ next.time)
    (hnow : ∀ call ∈ calls, call.time ≤ now) :
    Tracks (EnrollmentWindow.run calls).1 (EnrollmentWindow.run calls).2 now := by
  induction calls using List.reverseRecOn generalizing now with
  | nil => exact new _ _
  | append_singleton calls call ih =>
    rw [List.pairwise_append] at hordered
    have hlast := hnow call (by simp)
    have hbefore : ∀ earlier ∈ calls, earlier.time ≤ call.time :=
      fun earlier hearlier => hordered.2.2 earlier hearlier call List.mem_cons_self
    have hcall := (ih hordered.1 hbefore).call (Nat.le_refl call.time)
    rw [EnrollmentWindow.run, List.foldl_append]
    exact hcall.mono hlast

end Tracks

/-- An open window has a deadline that has not passed. -/
theorem deadline_of_isOpen {window : EnrollmentWindow} {now : ℕ}
    (h : (window.isOpen now).1 = true) : ∃ deadline ∈ window.openUntil, now < deadline := by
  rw [EnrollmentWindow.isOpen, EnrollmentWindow.expire] at h
  by_cases hexpired : window.Expired now
  · rw [if_pos hexpired] at h
    cases h
  · rw [if_neg hexpired] at h
    obtain ⟨deadline, hdeadline⟩ := Option.isSome_iff_exists.mp h
    refine ⟨deadline, hdeadline, ?_⟩
    by_contra hpassed
    exact hexpired ⟨deadline, hdeadline, Nat.le_of_not_lt hpassed⟩

/-- A window that is open was opened by a gesture of its own: the button was released, and then
low at every sample, for the first time long enough before the opening. Since the gesture began,
no window expired, opened or was consumed before the opening, and none since. -/
theorem window_opened_by_gesture {calls : List Call} {now : ℕ}
    (hordered : calls.Pairwise fun call next => call.time ≤ next.time)
    (hnow : ∀ call ∈ calls, call.time ≤ now)
    (hopen : ((EnrollmentWindow.run calls).1.isOpen now).1 = true) :
    ∃ before samples opening rest,
      (EnrollmentWindow.run calls).2 = before ++ samples ++ .opened opening :: rest ∧
        Gesture samples opening ∧ opening ≤ now ∧ now < opening + enrollmentWindowMillis ∧
        ∀ event ∈ rest, event.IsSample := by
  have htracks := Tracks.run hordered hnow
  obtain ⟨deadline, hdeadline, hlive⟩ := deadline_of_isOpen hopen
  obtain ⟨-, before, samples, opening, rest, hhistory, hgesture, hopening, rfl, hrest⟩ :=
    htracks.opened deadline hdeadline
  exact ⟨before, samples, opening, rest, hhistory, hgesture, hopening, hlive, hrest⟩

/-- A list that an element splits, where the element is not in the second part of it. -/
theorem exists_append_of_not_mem {α : Type*} {before between left right : List α} {x : α}
    (h : before ++ x :: between = left ++ right) (hx : x ∉ right) :
    ∃ earlier, left = before ++ x :: earlier ∧ between = earlier ++ right := by
  rcases List.append_eq_append_iff.mp h with ⟨middle, rfl, hmiddle⟩ | ⟨middle, -, rfl⟩
  · cases middle with
    | nil =>
      rw [List.nil_append] at hmiddle
      exact absurd (hmiddle ▸ List.mem_cons_self : x ∈ right) hx
    | cons y earlier =>
      rw [List.cons_append, List.cons.injEq] at hmiddle
      obtain ⟨rfl, hbetween⟩ := hmiddle
      exact ⟨earlier, rfl, hbetween⟩
  · exact absurd (List.mem_append_right middle List.mem_cons_self) hx

/-- At a call that consumes a window nothing else happens, and the window was open. -/
theorem live_of_consumed {window : EnrollmentWindow} {call : Call} {consumed : ℕ}
    (h : .consumed consumed ∈ window.events call) :
    window.events call = [.consumed consumed] ∧ ∃ deadline, deadline ∈ window.openUntil := by
  have hexpired : ∀ now, .consumed consumed ∉
      if window.Expired now then [WindowEvent.expired now] else [] := by
    intro now
    split_ifs <;> simp
  rw [EnrollmentWindow.events, List.mem_append] at h
  replace h := h.resolve_left (hexpired call.time)
  cases call with
  | observe now assertedLow =>
    rw [EnrollmentWindow.answers] at h
    split_ifs at h <;> simp at h
  | isOpen now => cases h
  | consume now =>
    rw [EnrollmentWindow.answers] at h
    by_cases hconsume : (window.consume now).1 = true
    · rw [if_pos hconsume] at h
      cases List.mem_singleton.mp h
      have hopen : (window.isOpen consumed).1 = true := by
        by_contra hclosed
        rw [EnrollmentWindow.consume, Bool.not_eq_true] at *
        simp [hclosed] at hconsume
      obtain ⟨deadline, hdeadline, hlive⟩ := deadline_of_isOpen hopen
      refine ⟨?_, deadline, hdeadline⟩
      have hfresh : ¬ window.Expired consumed := by
        rintro ⟨other, hother, hpassed⟩
        cases hdeadline.symm.trans hother
        omega
      rw [EnrollmentWindow.events, Call.time, if_neg hfresh, EnrollmentWindow.answers,
        if_pos hconsume, List.nil_append]
    · rw [if_neg hconsume] at h
      cases h

/-- A window is consumed while it is open. -/
theorem opened_before_consumed {calls : List Call}
    (hordered : calls.Pairwise fun call next => call.time ≤ next.time)
    {before rest : List WindowEvent} {consumed : ℕ}
    (hhistory : (EnrollmentWindow.run calls).2 = before ++ .consumed consumed :: rest) :
    ∃ deadline now, OpenedBy before deadline now := by
  induction calls using List.reverseRecOn generalizing rest with
  | nil => exact absurd (congrArg List.length hhistory) (by simp [EnrollmentWindow.run])
  | append_singleton calls call ih =>
    rw [List.pairwise_append] at hordered
    have hbefore : ∀ earlier ∈ calls, earlier.time ≤ call.time :=
      fun earlier hearlier => hordered.2.2 earlier hearlier call List.mem_cons_self
    rw [EnrollmentWindow.run, List.foldl_append] at hhistory
    change (EnrollmentWindow.run calls).2 ++ (EnrollmentWindow.run calls).1.events call =
      before ++ .consumed consumed :: rest at hhistory
    by_cases hmem : .consumed consumed ∈ (EnrollmentWindow.run calls).1.events call
    · obtain ⟨hevents, deadline, hdeadline⟩ := live_of_consumed hmem
      rw [hevents] at hhistory
      rcases List.eq_nil_or_concat rest with rfl | ⟨rest, last, rfl⟩
      · obtain ⟨rfl, -⟩ := List.append_inj' hhistory rfl
        exact ⟨deadline, _, ((Tracks.run hordered.1 hbefore).opened deadline hdeadline).2⟩
      · rw [List.concat_eq_append, ← List.cons_append, ← List.append_assoc] at hhistory
        exact ih hordered.1 (List.append_inj' hhistory rfl).1
    · obtain ⟨earlier, hearlier, -⟩ := exists_append_of_not_mem hhistory.symm hmem
      exact ih hordered.1 hearlier

/-- Two enrollments take two gestures: between two consumed windows the button was released and
held for another one. -/
theorem gesture_between_consumes {calls : List Call}
    (hordered : calls.Pairwise fun call next => call.time ≤ next.time)
    {before between rest : List WindowEvent} {first second : ℕ}
    (hhistory : (EnrollmentWindow.run calls).2 =
      before ++ .consumed first :: between ++ .consumed second :: rest) :
    ∃ earlier samples opening later,
      between = earlier ++ samples ++ .opened opening :: later ∧ Gesture samples opening := by
  obtain ⟨deadline, now, start, samples, opening, later, hbefore, hgesture, -, -, hlater⟩ :=
    opened_before_consumed hordered hhistory
  have habsent : .consumed first ∉ samples ++ .opened opening :: later := by
    obtain ⟨released, pressed, lows, rfl, -⟩ := hgesture
    intro hmem
    simp only [List.mem_append, List.mem_cons, List.mem_map, reduceCtorEq, false_or, and_false,
      exists_false] at hmem
    exact hlater _ hmem
  rw [List.append_assoc] at hbefore
  obtain ⟨earlier, -, hbetween⟩ := exists_append_of_not_mem hbefore habsent
  exact ⟨earlier, samples, opening, later, by rw [hbetween, List.append_assoc], hgesture⟩

/-- Every enrollment takes a physical gesture of its own. Whenever a window is open, it was opened
at most the length of a window ago, after the button was released and then low at every sample for
as long as it has to be held, with no window in between. Between any two enrollments there is such
a gesture. -/
theorem enrollment_takes_gesture {calls : List Call}
    (hordered : calls.Pairwise fun call next => call.time ≤ next.time) :
    (∀ now, (∀ call ∈ calls, call.time ≤ now) →
      ((EnrollmentWindow.run calls).1.isOpen now).1 = true →
        ∃ before samples opening rest,
          (EnrollmentWindow.run calls).2 = before ++ samples ++ .opened opening :: rest ∧
            Gesture samples opening ∧ opening ≤ now ∧ now < opening + enrollmentWindowMillis ∧
            ∀ event ∈ rest, event.IsSample) ∧
      ∀ before between rest first second, (EnrollmentWindow.run calls).2 =
          before ++ .consumed first :: between ++ .consumed second :: rest →
        ∃ earlier samples opening later,
          between = earlier ++ samples ++ .opened opening :: later ∧ Gesture samples opening :=
  ⟨fun _ => window_opened_by_gesture hordered,
    fun _ _ _ _ _ => gesture_between_consumes hordered⟩

/-- One release and one hold of a second. -/
def singleGesture : List Call := [.observe 10 false, .observe 20 true, .observe 1020 true]

/-- The single gesture opens the window once. -/
theorem enrollment_takes_gesture_single :
    ∃ before samples opening rest,
      (EnrollmentWindow.run singleGesture).2 = before ++ samples ++ .opened opening :: rest ∧
        Gesture samples opening ∧ opening ≤ 1030 ∧ 1030 < opening + enrollmentWindowMillis ∧
        ∀ event ∈ rest, event.IsSample :=
  (@enrollment_takes_gesture singleGesture (by simp [singleGesture, Call.time])).1 1030
    (by simp [singleGesture, Call.time]) (by decide)

end Management
