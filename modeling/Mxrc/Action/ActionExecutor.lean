import Mxrc.Lib.Maps

/-!
# The action executor

A worker thread for every submitted action and one `ExecutionState` per action
id. The steps are those of the caller, the workers, the timeout monitors, and
`cancel` from any thread. A critical section of `actionsMutex_` is one step,
except that `emplace` on a registered id destroys the new future, and so waits
for the new worker, with the mutex held.

An action changes its status by `setStatus`. Destroying a joinable `std::thread`
calls `std::terminate`. Progress, times and events are left out.
-/

namespace Mxrc.Action

inductive ActionStatus
  | pending
  | running
  | completed
  | failed
  | cancelled
  | timeout
deriving DecidableEq

def ActionStatus.terminal : ActionStatus → Bool
  | .completed => true
  | .failed => true
  | .cancelled => true
  | .timeout => true
  | _ => false

structure ExecutionResult where
  actionId : String
  status : ActionStatus
  errorMessage : String
deriving DecidableEq

def ExecutionResult.isSuccessful (r : ExecutionResult) : Bool := r.status = .completed

def ExecutionResult.isFailed (r : ExecutionResult) : Bool :=
  r.status = .failed || r.status = .timeout

def ExecutionResult.isCancelled (r : ExecutionResult) : Bool := r.status = .cancelled

/-- In `threw` the action has thrown and the handler has not yet taken the
mutex; in `done` the future is ready. -/
inductive Worker
  | running
  | threw (message : String)
  | done (thrown : Option String)
deriving DecidableEq

def Worker.isDone : Worker → Bool
  | .done _ => true
  | _ => false

structure Execution where
  actionId : String
  object : ℕ
  startTime : ℕ
  timeout : ℕ
  worker : Worker
deriving DecidableEq

structure ExecutionState where
  action : ℕ
  future : ℕ
  startTime : ℕ
  timeout : ℕ
  cancelRequested : Bool
  shouldStopMonitoring : Bool
  timeoutThread : Option ℕ
  exceptionOccurred : Bool
  exceptionMessage : String
deriving DecidableEq

inductive MonitorPc
  | polling
  | cancelling
  | ended
deriving DecidableEq

structure Monitor where
  actionId : String
  startTime : ℕ
  timeout : ℕ
  pc : MonitorPc
deriving DecidableEq

/-- In `executeAsync` after the start of worker `k`, in `emplace`, after it, or in
`clearCompletedActions`. -/
inductive Caller
  | idle
  | launched (k : ℕ)
  | dropping (k : ℕ)
  | registered (k : ℕ)
  | clearing (ids : List String) (threads : List ℕ)
deriving DecidableEq

abbrev Registry := AList (fun _ : String => ExecutionState)

abbrev Registry.modify (m : Registry) (id : String) (f : ExecutionState → ExecutionState) :
    Registry :=
  Lib.modify m id f

structure ActionExecutor where
  now : ℕ
  status : ℕ → ActionStatus
  executions : List Execution
  runningActions : Registry
  monitors : List Monitor
  caller : Caller
  terminated : Bool

inductive Label
  | executeAsync (id : String) (object timeout : ℕ)
  | emplace
  | dropFuture
  | startMonitor
  | waitForCompletion (id : String)
  | clearCollect
  | clearErase
  | cancel (id : String)
  | finish (k : ℕ) (thrown : Option String)
  | recordException (k : ℕ)
  | monitor (m : ℕ)
  | setStatus (object : ℕ) (status : ActionStatus)
  | elapse (ms : ℕ)
deriving DecidableEq

namespace ActionExecutor

def init : ActionExecutor :=
  ⟨0, fun _ => .pending, [], ∅, [], .idle, false⟩

def mutexFree (s : ActionExecutor) : Bool :=
  match s.caller with
  | .dropping _ => false
  | _ => true

def ready (s : ActionExecutor) (k : ℕ) : Bool := (s.executions[k]?).any (·.worker.isDone)

lemma ready_of_execution {s : ActionExecutor} {k : ℕ} {x : Execution}
    (h : s.executions[k]? = some x) : s.ready k = x.worker.isDone := by
  rw [ready, h]
  rfl

def getResult (s : ActionExecutor) (id : String) : ExecutionResult :=
  match s.runningActions.lookup id with
  | none => ⟨id, .failed, "Action not found"⟩
  | some e =>
    if s.ready e.future then
      if e.exceptionOccurred then ⟨id, .failed, e.exceptionMessage⟩
      else if e.cancelRequested && s.status e.action = .cancelled then
        ⟨id, .timeout, "Action exceeded timeout"⟩
      else ⟨id, s.status e.action, ""⟩
    else ⟨id, .running, ""⟩

def isRunning (s : ActionExecutor) (id : String) : Bool :=
  (s.runningActions.lookup id).any fun e => !s.ready e.future

def emplace (s : ActionExecutor) : Option ActionExecutor :=
  match s.caller with
  | .launched k => (s.executions[k]?).map fun x =>
    if (s.runningActions.lookup x.actionId).isSome then { s with caller := .dropping k }
    else { s with
      runningActions := s.runningActions.insert x.actionId
        ⟨x.object, k, x.startTime, x.timeout, false, false, none, false, ""⟩
      caller := .registered k }
  | _ => none

def startMonitor (s : ActionExecutor) : Option ActionExecutor :=
  match s.caller with
  | .registered k => (s.executions[k]?).map fun x =>
    if x.timeout = 0 then { s with caller := .idle }
    else match s.runningActions.lookup x.actionId with
      | none => { s with caller := .idle }
      | some e =>
        if e.timeoutThread.isSome then { s with terminated := true }
        else { s with
          runningActions := s.runningActions.modify x.actionId fun e =>
            { e with timeoutThread := some s.monitors.length }
          monitors := s.monitors ++ [⟨x.actionId, x.startTime, x.timeout, .polling⟩]
          caller := .idle }
  | _ => none

def completed (s : ActionExecutor) : List ((_ : String) × ExecutionState) :=
  s.runningActions.entries.filter fun e =>
    s.ready e.2.future && (s.status e.2.action).terminal

def clearCollect (s : ActionExecutor) : Option ActionExecutor :=
  if s.caller = .idle then
    let ids := s.completed.map (·.1)
    some { s with
      runningActions := ids.foldl (fun m id => m.modify id fun e => { e with
        shouldStopMonitoring := e.shouldStopMonitoring || e.timeoutThread.isSome
        timeoutThread := none }) s.runningActions
      caller := .clearing ids (s.completed.filterMap (·.2.timeoutThread)) }
  else none

def clearErase (s : ActionExecutor) : Option ActionExecutor :=
  match s.caller with
  | .clearing ids threads =>
    if threads.all fun m => (s.monitors[m]?).all (·.pc = .ended) then
      some { s with
        runningActions := ids.foldl (fun m id => m.erase id) s.runningActions
        caller := .idle
        terminated := ids.any fun id =>
          (s.runningActions.lookup id).any (·.timeoutThread.isSome) }
    else none
  | _ => none

def finish (s : ActionExecutor) (k : ℕ) (thrown : Option String) : Option ActionExecutor :=
  match s.executions[k]? with
  | some x =>
    if x.worker = .running then
      some { s with executions := s.executions.set k { x with
        worker := match thrown with
          | none => .done none
          | some message => .threw message } }
    else none
  | none => none

def recordException (s : ActionExecutor) (k : ℕ) : Option ActionExecutor :=
  match s.executions[k]? with
  | some x =>
    match x.worker with
    | .threw message =>
      if s.mutexFree then
        some { s with
          executions := s.executions.set k { x with worker := .done (some message) }
          runningActions := s.runningActions.modify x.actionId fun e =>
            { e with exceptionOccurred := true, exceptionMessage := message } }
      else none
    | _ => none
  | none => none

def cancel (s : ActionExecutor) (id : String) : Option ActionExecutor :=
  if s.mutexFree then
    some { s with
      runningActions := s.runningActions.modify id fun e => { e with cancelRequested := true } }
  else none

def monitor (s : ActionExecutor) (m : ℕ) : Option ActionExecutor :=
  match s.monitors[m]? with
  | some t =>
    let setPc (pc : MonitorPc) : List Monitor := s.monitors.set m { t with pc }
    if s.mutexFree = false then none
    else match t.pc with
      | .polling =>
        match s.runningActions.lookup t.actionId with
        | none => some { s with monitors := setPc .ended }
        | some e =>
          if e.shouldStopMonitoring then some { s with monitors := setPc .ended }
          else if t.timeout < s.now - t.startTime && !e.cancelRequested then
            some { s with
              runningActions := s.runningActions.modify t.actionId fun e =>
                { e with cancelRequested := true }
              monitors := setPc .cancelling }
          else some s
      | .cancelling => (s.cancel t.actionId).map fun s => { s with monitors := setPc .ended }
      | .ended => none
  | none => none

def step (s : ActionExecutor) : Label → Option ActionExecutor
  | .executeAsync id object timeout =>
    if s.caller = .idle then
      some { s with
        executions := s.executions ++ [⟨id, object, s.now, timeout, .running⟩]
        caller := .launched s.executions.length }
    else none
  | .emplace => s.emplace
  | .dropFuture =>
    match s.caller with
    | .dropping k => if s.ready k then some { s with caller := .registered k } else none
    | _ => none
  | .startMonitor => s.startMonitor
  | .waitForCompletion id =>
    if s.caller = .idle && (s.runningActions.lookup id).all (fun e => s.ready e.future) then some s
    else none
  | .clearCollect => s.clearCollect
  | .clearErase => s.clearErase
  | .cancel id => s.cancel id
  | .finish k thrown => s.finish k thrown
  | .recordException k => s.recordException k
  | .monitor m => s.monitor m
  | .setStatus object status => some { s with status := Function.update s.status object status }
  | .elapse ms => some { s with now := s.now + ms }

def next (s : ActionExecutor) (l : Label) : Option ActionExecutor :=
  if s.terminated then none else s.step l

lemma step_of_next {s s' : ActionExecutor} {l : Label} (h : next s l = some s') :
    s.step l = some s' := by
  rw [next] at h
  split_ifs at h
  exact h

end ActionExecutor
end Mxrc.Action
