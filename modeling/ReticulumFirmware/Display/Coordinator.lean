import Mathlib.Algebra.Group.Nat.Defs
import Mathlib.Data.List.Induction
import Mathlib.Data.Nat.Notation
import Mathlib.Order.Lattice

/-!
# The display coordinator

`firmware/e290/src/display_coordinator.rs`: the one owner of what the slow display shows. Updates
of the Home view are retained, shown at once or shown when a deadline comes. Labels are compared
and passed on only, so their type is left open.
-/

namespace Display

/-- Whether a part of the appliance was configured. -/
inductive DisplayCompositionState where
  | configured
  | unavailable
  deriving DecidableEq

/-- How far the setup of the appliance has come. -/
inductive DisplaySetupState where
  | enrollmentRequired
  | enrolled
  | unavailable
  deriving DecidableEq

/-- All that the Home view shows. -/
structure DisplayHomeSnapshot (Label : Type) where
  label : Label
  deviceSuffix : Label
  applianceLabel : Option Label
  setup : DisplaySetupState
  lora : DisplayCompositionState
  ble : DisplayCompositionState
  lxmf : DisplayCompositionState
  nomad : DisplayCompositionState
  uncollectedMessages : ℕ
  deriving DecidableEq

/-- What the display is told to show. -/
inductive DisplayCommand (Label : Type) where
  | showBooting (label : Label)
  | showHome (snapshot : DisplayHomeSnapshot Label)

/-- What a call answers. -/
inductive DisplayCoordinatorOutput (Label : Type) where
  | publish (command : DisplayCommand Label)
  | deferred (refreshAtMs : Option ℕ)
  | unchanged

/-- The view that is shown. -/
inductive VisiblePresentation (Label : Type) where
  | none
  | booting (label : Label)
  | home
  deriving DecidableEq

/-- The Home view that is retained, and what of it has been shown. -/
structure E290DisplayCoordinator (Label : Type) where
  home : DisplayHomeSnapshot Label
  visible : VisiblePresentation Label
  lastRequestedHome : Option (DisplayHomeSnapshot Label)
  lastHomeRequestMs : Option ℕ
  pendingHome : Bool
  refreshAtMs : Option ℕ

/-- The least time between two Home views of a burst of messages. -/
abbrev messageBurstCoalesceMillis : ℕ := 5000

/-- The largest number of eight bytes. -/
abbrev u64Max : ℕ := 2 ^ 64 - 1

/-- A sum that stops at the largest number. -/
def saturatingAdd (left right : ℕ) : ℕ := min (left + right) u64Max

variable {Label : Type} [DecidableEq Label]

namespace DisplayHomeSnapshot

variable (home : DisplayHomeSnapshot Label)

/-- The Home view with another label. -/
def withApplianceLabel (applianceLabel : Option Label) : DisplayHomeSnapshot Label :=
  { home with applianceLabel := applianceLabel }

/-- The Home view with another setup state. -/
def withSetup (setup : DisplaySetupState) : DisplayHomeSnapshot Label :=
  { home with setup := setup }

/-- The Home view with another number of messages. -/
def withUncollectedMessages (uncollectedMessages : ℕ) : DisplayHomeSnapshot Label :=
  { home with uncollectedMessages := uncollectedMessages }

/-- The Home view as it is rendered, which does not count beyond a hundred messages. -/
def normalizedHome : DisplayHomeSnapshot Label :=
  home.withUncollectedMessages (min home.uncollectedMessages 100)

end DisplayHomeSnapshot

/-- Whether two Home views look the same. -/
def sameRenderedHome (left right : DisplayHomeSnapshot Label) : Bool :=
  left.normalizedHome = right.normalizedHome

namespace E290DisplayCoordinator

/-- A coordinator that has shown nothing yet. -/
def new (home : DisplayHomeSnapshot Label) : E290DisplayCoordinator Label where
  home := home
  visible := .none
  lastRequestedHome := none
  lastHomeRequestMs := none
  pendingHome := true
  refreshAtMs := none

variable (coordinator : E290DisplayCoordinator Label) (nowMs : ℕ)

/-- Keep the Home view for later, if it differs from the one shown last. -/
def deferHomeBehindProtectedView : E290DisplayCoordinator Label :=
  { coordinator with
    pendingHome := coordinator.lastRequestedHome.all
      fun last => !sameRenderedHome last coordinator.home
    refreshAtMs := none }

/-- Show the Home view that is retained. -/
def requestHome : DisplayCoordinatorOutput Label × E290DisplayCoordinator Label :=
  (.publish (.showHome coordinator.home),
    { coordinator with
      visible := .home
      lastRequestedHome := some coordinator.home
      lastHomeRequestMs := some nowMs
      pendingHome := false
      refreshAtMs := none })

/-- Show a changed Home view at once, unless another view is shown. -/
def homeChangedImmediately : DisplayCoordinatorOutput Label × E290DisplayCoordinator Label :=
  let coordinator := { coordinator with pendingHome := true }
  if coordinator.visible = .home then
    coordinator.requestHome nowMs
  else
    (.deferred none, { coordinator with refreshAtMs := none })

/-- When the next change of the number of messages may be shown. -/
def nextMailboxRefresh : ℕ :=
  max (coordinator.lastHomeRequestMs.elim nowMs
    fun last => saturatingAdd last messageBurstCoalesceMillis) nowMs

/-- Whether the Home view that was published last looks like the one that is retained. -/
def lastSame : Bool :=
  coordinator.lastRequestedHome.any fun last => sameRenderedHome last coordinator.home

/-- Nothing waits to be shown. -/
def settled : E290DisplayCoordinator Label :=
  { coordinator with pendingHome := false, refreshAtMs := none }

/-- Show the boot view, unless it is shown. -/
def showBooting (label : Label) : DisplayCoordinatorOutput Label × E290DisplayCoordinator Label :=
  if coordinator.visible = .booting label then
    (.unchanged, coordinator)
  else
    (.publish (.showBooting label),
      { coordinator with visible := .booting label }.deferHomeBehindProtectedView)

/-- Go back to the Home view, unless it is shown as it is. -/
def resumeHome : DisplayCoordinatorOutput Label × E290DisplayCoordinator Label :=
  if coordinator.visible = .home ∧ coordinator.lastSame then
    (.unchanged, coordinator.settled)
  else
    coordinator.requestHome nowMs

/-- A new setup state, which is shown at once. -/
def setSetup (setup : DisplaySetupState) :
    DisplayCoordinatorOutput Label × E290DisplayCoordinator Label :=
  if coordinator.home.setup = setup then
    (.unchanged, coordinator)
  else
    { coordinator with home := coordinator.home.withSetup setup }.homeChangedImmediately nowMs

/-- A new number of messages, which may wait for a deadline. -/
def setUncollectedMessages (count : ℕ) :
    DisplayCoordinatorOutput Label × E290DisplayCoordinator Label :=
  let previous := coordinator.home.uncollectedMessages
  if previous = count then
    (.unchanged, coordinator)
  else
    let coordinator := { coordinator with home := coordinator.home.withUncollectedMessages count }
    if coordinator.lastSame then
      (.unchanged, coordinator.settled)
    else
      let coordinator := { coordinator with pendingHome := true }
      if coordinator.visible ≠ .home then
        (.deferred none, { coordinator with refreshAtMs := none })
      else if previous = 0 ∨ count = 0 then
        coordinator.requestHome nowMs
      else
        let deadline := coordinator.refreshAtMs.getD (coordinator.nextMailboxRefresh nowMs)
        if deadline ≤ nowMs then
          coordinator.requestHome nowMs
        else
          (.deferred (some deadline), { coordinator with refreshAtMs := some deadline })

/-- A new label, which is shown at once, or only a new number of messages. -/
def setHomeTelemetry (applianceLabel : Option Label) (uncollectedMessages : ℕ) :
    DisplayCoordinatorOutput Label × E290DisplayCoordinator Label :=
  if coordinator.home.applianceLabel ≠ applianceLabel then
    { coordinator with
      home := (coordinator.home.withApplianceLabel applianceLabel).withUncollectedMessages
        uncollectedMessages }.homeChangedImmediately nowMs
  else
    coordinator.setUncollectedMessages nowMs uncollectedMessages

/-- Show the Home view when its deadline has come. -/
def poll : DisplayCoordinatorOutput Label × E290DisplayCoordinator Label :=
  if coordinator.pendingHome = false ∨ coordinator.visible ≠ .home then
    (.unchanged, coordinator)
  else
    match coordinator.refreshAtMs with
    | some deadline =>
      if deadline ≤ nowMs then coordinator.requestHome nowMs
      else (.deferred (some deadline), coordinator)
    | none => (.unchanged, coordinator)

end E290DisplayCoordinator

/-- An operation of the coordinator. -/
inductive Operation (Label : Type) where
  | showBooting (label : Label)
  | resumeHome
  | setSetup (setup : DisplaySetupState)
  | setHomeTelemetry (applianceLabel : Option Label) (uncollectedMessages : ℕ)
  | setUncollectedMessages (count : ℕ)
  | poll

/-- An operation at its time, which a boot view does not look at. -/
structure Call (Label : Type) where
  operation : Operation Label
  nowMs : ℕ

/-- What a call answered, and when. -/
structure Event (Label : Type) where
  output : DisplayCoordinatorOutput Label
  atMs : ℕ

namespace E290DisplayCoordinator

/-- A call, and the coordinator after it. -/
def perform (coordinator : E290DisplayCoordinator Label) (call : Call Label) :
    DisplayCoordinatorOutput Label × E290DisplayCoordinator Label :=
  match call.operation with
  | .showBooting label => coordinator.showBooting label
  | .resumeHome => coordinator.resumeHome call.nowMs
  | .setSetup setup => coordinator.setSetup call.nowMs setup
  | .setHomeTelemetry label count => coordinator.setHomeTelemetry call.nowMs label count
  | .setUncollectedMessages count => coordinator.setUncollectedMessages call.nowMs count
  | .poll => coordinator.poll call.nowMs

/-- The coordinator after the calls, one after the other. -/
def after (coordinator : E290DisplayCoordinator Label) (calls : List (Call Label)) :
    E290DisplayCoordinator Label :=
  calls.foldl (fun coordinator call => (coordinator.perform call).2) coordinator

/-- The answers to the calls. -/
def events : E290DisplayCoordinator Label → List (Call Label) → List (Event Label)
  | _, [] => []
  | coordinator, call :: calls =>
    ⟨(coordinator.perform call).1, call.nowMs⟩ :: (coordinator.perform call).2.events calls

/-- The last call is performed after the others. -/
theorem after_concat (coordinator : E290DisplayCoordinator Label) (calls : List (Call Label))
    (call : Call Label) :
    coordinator.after (calls ++ [call]) = ((coordinator.after calls).perform call).2 :=
  List.foldl_append ..

/-- The event of the last call is the last one. -/
theorem events_concat (coordinator : E290DisplayCoordinator Label) (calls : List (Call Label))
    (call : Call Label) :
    coordinator.events (calls ++ [call]) =
      coordinator.events calls ++ [⟨((coordinator.after calls).perform call).1, call.nowMs⟩] := by
  induction calls generalizing coordinator with
  | nil => rfl
  | cons first calls ih => exact congrArg (_ :: ·) (ih _)

end E290DisplayCoordinator

end Display
