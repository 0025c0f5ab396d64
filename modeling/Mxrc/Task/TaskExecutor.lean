import Mxrc.Action.Clients
import Mxrc.Control.BehaviorArbiter

/-!
# A task that runs one action

The thread of a task of work type ACTION submits the action and polls the
executor until the action is not running or the task is to be cancelled; it then
forwards the cancel. Workers, monitors, other cancellers and the clock are the
environment. The creation of the action is a parameter; ids and times of a
result are left out.
-/

namespace Mxrc.Task
open Mxrc.Action
open Mxrc.Control (TaskStatus)

structure TaskDefinition where
  id : String
  workId : String
deriving DecidableEq

structure TaskState where
  status : TaskStatus
  progress : ℚ
  cancelRequested : Bool
  pauseRequested : Bool
deriving DecidableEq

structure TaskExecution where
  taskId : String
  status : TaskStatus
  progress : ℚ
  errorMessage : String
deriving DecidableEq

inductive TaskPc
  | called
  | creating
  | submitting
  | polling
  | checking
  | cancelling (wasRunning : Bool)
  | collecting (wasRunning : Bool)
  | converting (wasRunning : Bool) (actionResult : ExecutionResult)
  | returned (wasRunning : Bool) (result : TaskExecution)
deriving DecidableEq

structure TaskExecutor where
  executor : ActionExecutor
  state : TaskState
  pc : TaskPc

inductive TaskLabel
  | task
  | cancel
  | pause
  | resume
  | environment (l : Label)
deriving DecidableEq

namespace TaskExecutor

def start (executor : ActionExecutor) (state : TaskState) : TaskExecutor :=
  ⟨executor, state, .called⟩

def convert (taskId : String) (actionResult : ExecutionResult) (cancelRequested : Bool) :
    TaskExecution :=
  if actionResult.isCancelled || (actionResult.status = .timeout && cancelRequested) then
    ⟨taskId, .cancelled, 0, ""⟩
  else if actionResult.isSuccessful then ⟨taskId, .completed, 1, ""⟩
  else ⟨taskId, .failed, 0, actionResult.errorMessage⟩

def returnResult (s : TaskExecutor) (wasRunning : Bool) (result : TaskExecution) : TaskExecutor :=
  { s with
    state := { s.state with
      status := result.status
      progress := if result.status = .completed then 1 else s.state.progress }
    pc := .returned wasRunning result }

def submitStep (e : ActionExecutor) : Option ActionExecutor :=
  match e.caller with
  | .launched _ => e.next .emplace
  | .dropping _ => e.next .dropFuture
  | .registered _ => e.next .startMonitor
  | _ => none

def step (d : TaskDefinition) (created : Except String ℕ) (s : TaskExecutor) :
    Option TaskExecutor :=
  match s.pc with
  | .called => some { s with
      state := { s.state with
        status := .running, cancelRequested := false, pauseRequested := false }
      pc := .creating }
  | .creating =>
    match created with
    | .error message => some (s.returnResult false ⟨d.id, .failed, 0, message⟩)
    | .ok object => (s.executor.next (.executeAsync d.workId object 0)).map fun executor =>
        { s with executor, pc := .submitting }
  | .submitting =>
    if s.executor.caller = .idle then some { s with pc := .polling }
    else (submitStep s.executor).map fun executor => { s with executor }
  | .polling =>
    if s.executor.isRunning d.workId then some { s with pc := .checking }
    else some { s with pc := .collecting false }
  | .checking =>
    if s.state.cancelRequested then
      some { s with pc := .cancelling (s.executor.isRunning d.workId) }
    else some { s with pc := .polling }
  | .cancelling wasRunning => (s.executor.next (.cancel d.workId)).map fun executor =>
      { s with executor, pc := .collecting wasRunning }
  | .collecting wasRunning =>
      some { s with pc := .converting wasRunning (s.executor.getResult d.workId) }
  | .converting wasRunning actionResult =>
      some (s.returnResult wasRunning (convert d.id actionResult s.state.cancelRequested))
  | .returned _ _ => none

def next (d : TaskDefinition) (created : Except String ℕ) (s : TaskExecutor) :
    TaskLabel → Option TaskExecutor
  | .task => s.step d created
  | .cancel => some { s with state := { s.state with cancelRequested := true } }
  | .pause => some { s with state := { s.state with pauseRequested := true, status := .paused } }
  | .resume => some { s with state := { s.state with pauseRequested := false, status := .running } }
  | .environment l =>
    if l.isClient then none
    else (s.executor.next l).map fun executor => { s with executor }

end TaskExecutor
end Mxrc.Task
