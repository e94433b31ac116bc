import MediaBridge.Foundation.Runs
import Mathlib.Algebra.Order.Field.Rat
import Mathlib.Data.List.Basic
import Mathlib.Logic.Function.Basic

/-!
# The two local processes

`PersonalSupervisor` of `media_bridge_personal/supervisor.py`: the start, the restart and the stop of
the Control and the Data process.

## Implementation notes

Seconds are exact rational numbers. Children exit between the polls of one call as well, so that a
call comes with a moment for each role. A process is named by its place in the order of the
launches, and the log has what the calls did.
-/

namespace MediaBridge.Personal

inductive Role
  | control
  | data
deriving DecidableEq

/-- `restart_base_seconds` and `restart_max_seconds`, as the constructor accepts them. -/
structure RestartSettings where
  base : ℚ
  max : ℚ
  base_pos : 0 < base
  base_le_max : base ≤ max

/-- `_backoff`; `2.0 ** 1024` is an `OverflowError`. -/
def RestartSettings.backoff (settings : RestartSettings) (failures : Nat) : Option ℚ :=
  if failures - 1 < 1024 then some (min (settings.base * 2 ^ (failures - 1)) settings.max) else none

/-- The fields of one role. -/
structure ChildState where
  process : Option Nat
  failures : Nat
  pending : Bool
  restartAt : ℚ

def ChildState.initial : ChildState := ⟨none, 0, false, 0⟩

/-- Why a call raises. -/
inductive SupervisorError
  /-- `supervisor_stopped`. -/
  | supervisorStopped
  /-- `Popen` raises. -/
  | launch
  /-- An `OverflowError`. -/
  | overflow
  | invalidTimeout
  /-- A child could not be terminated or waited for. -/
  | notStopped
deriving DecidableEq

/-- What the calls do. -/
inductive Action
  /-- `start`, or the first `reconcile`, launches a process. -/
  | launched (role : Role) (process : Nat)
  /-- `reconcile` finds a process dead and computes the delay of its restart. -/
  | scheduled (role : Role) (process : Nat) (at_ delay : ℚ)
  /-- `reconcile` launches a process in the place of a dead one. -/
  | relaunched (role : Role) (process : Nat) (at_ : ℚ)
  /-- `reconcile` raises. -/
  | raised (error : SupervisorError)
  /-- `stop` is called with a timeout that it takes. -/
  | stopped
deriving DecidableEq

/-- Whether a process is launched. -/
def Action.launches : Action → Bool
  | .launched _ _ => true
  | .relaunched _ _ _ => true
  | .scheduled _ _ _ _ => false
  | .raised _ => false
  | .stopped => false

/-- A supervisor with the processes of the operating system. -/
structure Supervision where
  children : Role → ChildState
  stopping : Bool
  /-- The processes that run. -/
  live : List (Role × Nat)
  launches : Nat
  /-- The last reading of the clock. -/
  time : ℚ
  log : List Action

/-- What happens up to a poll. -/
structure Moment where
  now : ℚ
  exited : List Nat
  /-- A launch would succeed. -/
  launchable : Bool

namespace Supervision

variable (settings : RestartSettings) (s : Supervision)

/-- Children exit while the clock runs on. -/
def advance (m : Moment) : Supervision :=
  { s with time := m.now, live := s.live.filter fun child => child.2 ∉ m.exited }

/-- `_running`. -/
def running (role : Role) : Bool :=
  (s.children role).process.any fun process => (role, process) ∈ s.live

def setChild (role : Role) (child : ChildState) : Supervision :=
  { s with children := Function.update s.children role child }

def note (action : Action) : Supervision := { s with log := s.log ++ [action] }

/-- `_launch`, and the assignment of what it returns. -/
def launch (role : Role) (m : Moment) (action : Action) : Supervision × Option SupervisorError :=
  if m.launchable then
    ({ s.setChild role { s.children role with process := some s.launches } with
        live := (role, s.launches) :: s.live
        launches := s.launches + 1
        log := s.log ++ [action] }, none)
  else (s, some .launch)

/-- One role of `start`. -/
def startChild (role : Role) (m : Moment) : Supervision × Option SupervisorError :=
  if (s.advance m).running role then (s.advance m, none)
  else (s.advance m).launch role m (.launched role s.launches)

/-- `_schedule_restart`. -/
def scheduleRestart (role : Role) (process : Nat) (now : ℚ) :
    Supervision × Option SupervisorError :=
  let failures := (s.children role).failures + 1
  let s := s.setChild role { s.children role with failures := failures, pending := true }
  match settings.backoff failures with
  | none => (s, some .overflow)
  | some delay =>
      ((s.setChild role { s.children role with restartAt := now + delay }).note
        (.scheduled role process now delay), none)

/-- `_clear_restart_pending`. -/
def clearRestartPending (role : Role) : Supervision :=
  s.setChild role { s.children role with pending := false }

/-- `_reconcile_child`. -/
def reconcileChild (role : Role) (m : Moment) : Supervision × Option SupervisorError :=
  let s := s.advance m
  if s.running role then (s, none)
  else
    match (s.children role).process with
    | none => s.launch role m (.launched role s.launches)
    | some process =>
        if (s.children role).pending = false then s.scheduleRestart settings role process m.now
        else if m.now < (s.children role).restartAt then (s, none)
        else (s.clearRestartPending role).launch role m (.relaunched role process m.now)

/-- A call goes on with the second role unless the first one raises. -/
def andThen (first : Supervision × Option SupervisorError)
    (second : Supervision → Supervision × Option SupervisorError) :
    Supervision × Option SupervisorError :=
  match first.2 with
  | none => second first.1
  | some e => (first.1, some e)

/-- `start`. -/
def start (first second : Moment) : Supervision × Option SupervisorError :=
  if s.stopping then (s, some .supervisorStopped)
  else andThen (s.startChild .control first) fun s => s.startChild .data second

/-- `reconcile`. -/
def reconcile (first second : Moment) : Supervision × Option SupervisorError :=
  if s.stopping then (s, none)
  else andThen (s.reconcileChild settings .control first) fun s =>
    s.reconcileChild settings .data second

/-- `stop`, which returns once the children have been waited for. -/
def stop (timeout : ℚ) (m : Moment) (waited : Bool) : Supervision × Option SupervisorError :=
  if timeout ≤ 0 then (s, some .invalidTimeout)
  else
    let s := { s.advance m with stopping := true, log := s.log ++ [.stopped] }
    if waited then
      ({ s with
          children := fun role => { s.children role with process := none }
          live := s.live.filter fun child => (s.children child.1).process ≠ some child.2 }, none)
    else (s, some .notStopped)

end Supervision

/-- A call of a method, with what happens up to its polls. -/
inductive SupervisorCall
  | start (first second : Moment)
  | reconcile (first second : Moment)
  | stop (timeout : ℚ) (m : Moment) (waited : Bool)

/-- The state after `reconcile`, with what it raises in the log. -/
def Supervision.reconciled (settings : RestartSettings) (s : Supervision)
    (first second : Moment) : Supervision :=
  match s.reconcile settings first second with
  | (s', none) => s'
  | (s', some e) => s'.note (.raised e)

/-- The state after a call. -/
def Supervision.run (settings : RestartSettings) (s : Supervision) : SupervisorCall → Supervision
  | .start first second => (s.start first second).1
  | .reconcile first second => s.reconciled settings first second
  | .stop timeout m waited => (s.stop timeout m waited).1

/-- The readings of the clock of a call. -/
def SupervisorCall.readings : SupervisorCall → List ℚ
  | .start first second => [first.now, second.now]
  | .reconcile first second => [first.now, second.now]
  | .stop _ m _ => [m.now]

/-- The state after the constructor, at some time. -/
def Supervision.initial (time : ℚ) : Supervision :=
  ⟨fun _ => .initial, false, [], 0, time, []⟩

/-- The calls of a supervisor under a clock that never goes back. -/
def supervisor (settings : RestartSettings) : Foundation.Machine Supervision SupervisorCall where
  initial s := ∃ time, s = .initial time
  step s call s' := (s.time :: call.readings).Pairwise (· ≤ ·) ∧ s' = s.run settings call

end MediaBridge.Personal
