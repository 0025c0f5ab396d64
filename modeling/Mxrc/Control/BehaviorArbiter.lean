import Mxrc.Lib.Runs
import Mxrc.Control.BehaviorPriorityQueue

/-!
# The behavior arbiter

The operations of `BehaviorArbiter` as programs in `EStateM`. The tasks are held
in `world`; `TaskApi` says what a call on a task does, and whether it throws.
What the alarm manager answers is an input of `tick`. The mirror of the mode in
the data store is left out. `History` is not part of the code; it records the
tickets of the requests.
-/

namespace Mxrc.Control
open Mxrc.Lib

inductive TaskStatus
  | idle
  | running
  | completed
  | failed
  | cancelled
  | paused
  | scheduled
deriving DecidableEq

def TaskStatus.finished : TaskStatus → Bool
  | .completed => true
  | .failed => true
  | .cancelled => true
  | _ => false

/-- The message is that of the exception the call throws, if it does. -/
structure TaskApi (τ ω : Type) where
  getStatus : τ → ω → TaskStatus
  start : τ → ω → Option String × ω
  stop : τ → ω → Option String × ω
  pause : τ → ω → Option String × ω
  resume : τ → ω → Option String × ω

inductive ControlMode
  | boot
  | init
  | standby
  | manual
  | ready
  | auto
  | fault
  | maint
  | charging
deriving DecidableEq

def isValidTransition (source target : ControlMode) : Bool :=
  target = .fault ||
  match source with
  | .boot => target = .init
  | .init => target = .standby
  | .standby => target = .manual || target = .ready || target = .auto || target = .maint
  | .manual => target = .standby
  | .ready => target = .auto || target = .standby
  | .auto => target = .ready || target = .standby || target = .charging
  | .fault => target = .standby
  | .maint => target = .standby
  | .charging => target = .standby || target = .auto

structure Statistics where
  totalRequests : ℕ
  preemptions : ℕ
  modeTransitions : ℕ
deriving DecidableEq

structure History where
  accepted : ℕ
  started : List ℕ
  dropped : List ℕ
  withdrawn : List ℕ
deriving DecidableEq

structure BehaviorArbiter (τ ω : Type) where
  currentMode : ControlMode
  pendingSafeMode : Bool
  pendingBehaviors : BehaviorPriorityQueue τ
  currentBehavior : Option (Accepted τ)
  suspendedBehaviors : AList (fun _ : String => Accepted τ)
  stats : Statistics
  paused : Bool
  world : ω
  history : History

structure Alarms where
  hasCriticalAlarm : Bool
  hasActiveWarnings : Bool
deriving DecidableEq

inductive StopMethod
  | cancel
  | pause
deriving DecidableEq

def TaskApi.stopCall {τ ω : Type} (api : TaskApi τ ω) : StopMethod → τ → ω → Option String × ω
  | .cancel => api.stop
  | .pause => api.pause

namespace BehaviorArbiter
variable {τ ω : Type}

def make (w : ω) : BehaviorArbiter τ ω where
  currentMode := .standby
  pendingSafeMode := false
  pendingBehaviors := .empty
  currentBehavior := none
  suspendedBehaviors := ∅
  stats := ⟨0, 0, 0⟩
  paused := false
  world := w
  history := ⟨0, [], [], []⟩

abbrev Op (τ ω α : Type) := EStateM String (BehaviorArbiter τ ω) α

def callTask (call : τ → ω → Option String × ω) (task : τ) : Op τ ω Unit := do
  let s ← get
  let (thrown, w) := call task s.world
  set { s with world := w }
  match thrown with
  | none => pure ()
  | some e => throw e

variable (api : TaskApi τ ω)

def requestBehavior (request : BehaviorRequest τ) : Op τ ω Bool := do
  modify fun s => { s with stats.totalRequests := s.stats.totalRequests + 1 }
  let s ← get
  match s.pendingBehaviors.push ⟨request, s.history.accepted⟩ with
  | none => return false
  | some q =>
    set { s with pendingBehaviors := q, history.accepted := s.history.accepted + 1 }
    return true

def stopCurrentTask (method : StopMethod) : Op τ ω Unit := do
  match (← get).currentBehavior with
  | none => pure ()
  | some b => callTask (api.stopCall method) b.task

def startTask (behavior : Accepted τ) : Op τ ω Unit := do
  modify fun s => { s with
    currentBehavior := some behavior
    history.started := behavior.ticket :: s.history.started }
  callTask api.start behavior.task

def tickets (rs : List (Accepted τ)) : List ℕ := rs.map (·.ticket)

def suspendedTickets (s : BehaviorArbiter τ ω) : List ℕ :=
  s.suspendedBehaviors.entries.map (·.2.ticket)

def clearPendingBehaviors : Op τ ω Unit :=
  modify fun s => { s with
    pendingBehaviors := .empty
    suspendedBehaviors := ∅
    history.dropped := tickets s.pendingBehaviors.toList ++ s.history.dropped
    history.withdrawn := s.suspendedTickets ++ s.history.withdrawn }

def transitionTo (newMode : ControlMode) : Op τ ω Bool := do
  let s ← get
  if !isValidTransition s.currentMode newMode then
    return false
  if newMode = .fault then
    stopCurrentTask api .cancel
    clearPendingBehaviors
  modify fun s => { s with
    currentMode := newMode
    stats.modeTransitions := s.stats.modeTransitions + 1 }
  return true

def cancelSuspended (behaviorId : String) : Op τ ω Bool := do
  let s ← get
  match s.suspendedBehaviors.lookup behaviorId with
  | some b =>
    set { s with
      suspendedBehaviors := s.suspendedBehaviors.erase behaviorId
      history.withdrawn := b.ticket :: s.history.withdrawn }
    return true
  | none => return false

def cancelBehavior (behaviorId : String) : Op τ ω Bool := do
  match (← get).currentBehavior with
  | some b =>
    if b.behaviorId = behaviorId then
      if !b.cancellable then
        return false
      stopCurrentTask api .cancel
      modify fun s => { s with
        currentBehavior := none
        history.withdrawn := b.ticket :: s.history.withdrawn }
      return true
    else cancelSuspended behaviorId
  | none => cancelSuspended behaviorId

def pause : Op τ ω Bool := do
  if (← get).paused then
    return false
  modify fun s => { s with paused := true }
  stopCurrentTask api .pause
  return true

def resume : Op τ ω Bool := do
  if !(← get).paused then
    return false
  modify fun s => { s with paused := false }
  match (← get).currentBehavior with
  | none => pure ()
  | some b => callTask api.resume b.task
  return true

def selectNextBehavior : Op τ ω (Option (Accepted τ)) := do
  let s ← get
  match s.pendingBehaviors.pop with
  | none => return none
  | some (r, q) =>
    set { s with pendingBehaviors := q }
    return some r

def shouldPreempt (newBehavior current : Accepted τ) : Bool :=
  newBehavior.priority < current.priority && canPreempt newBehavior.priority

def suspendCurrent (current : Accepted τ) : Op τ ω Unit :=
  modify fun s => { s with
    suspendedBehaviors := s.suspendedBehaviors.insert current.behaviorId current
    currentBehavior := none }

def handlePreemption (newBehavior : Accepted τ) : Op τ ω Unit := do
  match (← get).currentBehavior with
  | none => return
  | some current =>
    modify fun s => { s with stats.preemptions := s.stats.preemptions + 1 }
    match newBehavior.priority with
    | .emergencyStop =>
      stopCurrentTask api .cancel
      modify fun s => { s with currentBehavior := none }
      let _ ← transitionTo api .fault
    | .safetyIssue =>
      stopCurrentTask api .pause
      suspendCurrent current
    | .urgentTask =>
      if Priority.normalTask ≤ current.priority then
        stopCurrentTask api .pause
        suspendCurrent current
    | _ => pure ()
    startTask api newBehavior

def checkCriticalAlarms (alarms : Alarms) : Op τ ω Unit := do
  if alarms.hasCriticalAlarm then
    if (← get).currentMode ≠ .fault then
      let _ ← transitionTo api .fault

def checkWarningAlarms (alarms : Alarms) : Op τ ω Unit := do
  if alarms.hasActiveWarnings then
    let s ← get
    if s.currentMode ≠ .maint ∧ s.currentMode ≠ .fault ∧ s.pendingSafeMode = false then
      if s.currentBehavior.isSome then
        set { s with pendingSafeMode := true }
      else
        let _ ← transitionTo api .maint

/-- Steps 5 and 6 of `tick`: the end of the current task, preemption, and the start of the next
behavior. -/
def arbitrate : Op τ ω Unit := do
  let s ← get
  match s.currentBehavior with
  | some current =>
    if (api.getStatus current.task s.world).finished then
      modify fun s => { s with currentBehavior := none }
      if s.pendingSafeMode then
        let _ ← transitionTo api .maint
        modify fun s => { s with pendingSafeMode := false }
      else
        startNext
    else
      match ← selectNextBehavior with
      | some next =>
        if shouldPreempt next current then
          handlePreemption api next
      | none => pure ()
  | none => startNext
where
  startNext : Op τ ω Unit := do
    match ← selectNextBehavior with
    | some next => startTask api next
    | none => pure ()

def tick (alarms : Alarms) : Op τ ω Unit := do
  checkCriticalAlarms api alarms
  checkWarningAlarms api alarms
  if (← get).paused then
    return
  arbitrate api

inductive Label (τ ω : Type)
  | requestBehavior (request : BehaviorRequest τ)
  | tick (alarms : Alarms)
  | transitionTo (newMode : ControlMode)
  | clearPendingBehaviors
  | cancelBehavior (behaviorId : String)
  | pause
  | resume
  | tasks (w : ω)

def next (s : BehaviorArbiter τ ω) : Label τ ω → Option (BehaviorArbiter τ ω)
  | .requestBehavior request => some (after (requestBehavior request) s)
  | .tick alarms => some (after (tick api alarms) s)
  | .transitionTo newMode => some (after (transitionTo api newMode) s)
  | .clearPendingBehaviors => some (after clearPendingBehaviors s)
  | .cancelBehavior behaviorId => some (after (cancelBehavior api behaviorId) s)
  | .pause => some (after (pause api) s)
  | .resume => some (after (resume api) s)
  | .tasks w => some { s with world := w }

end BehaviorArbiter
end Mxrc.Control
