import Mxrc.Lib.Runs

/-!
# The periodic scheduler

Any number of calls and a thread for every schedule. A critical section is one
step, and so is every other access to a schedule. The `unique_ptr` of a schedule
is in the map, in a local variable of a call, or gone; destroying a schedule
whose thread is joinable terminates the process. Calls do not come from
callbacks, and callbacks return.
-/

namespace Mxrc.Task
open Mxrc.Lib

inductive SchedulePhase
  | testing
  | calling
  | resting
  | ended
deriving DecidableEq

inductive Owner
  | map
  | call (i : ℕ)
  | gone
deriving DecidableEq

structure ScheduleInfo where
  taskId : String
  running : Bool
  thread : SchedulePhase
  joined : Bool
  owner : Owner
deriving DecidableEq

inductive CallKind
  | start (taskId : String)
  | stop (taskId : String)
  | stopAll
deriving DecidableEq

inductive CallPhase
  | entering
  | testing
  | clearing
  | joining
  | inserting
  | returning
  | returned
deriving DecidableEq

/-- `old` are the schedules taken from the map and `todo` those still to be ended. `undisturbed`: no
`start` in progress since the call began. -/
structure SchedulerCall where
  kind : CallKind
  phase : CallPhase
  old : List ℕ
  todo : List ℕ
  undisturbed : Bool
deriving DecidableEq

structure PeriodicScheduler where
  schedules : AList (fun _ : String => ℕ)
  infos : List ScheduleInfo
  calls : List SchedulerCall
  terminated : Bool

inductive SchedulerStep
  | call (kind : CallKind)
  | step (i : ℕ)
  | thread (j : ℕ)
deriving DecidableEq

def CallKind.isStart : CallKind → Bool
  | .start _ => true
  | _ => false

namespace SchedulerCall

def unfinishedStart (c : SchedulerCall) : Bool := c.kind.isStart && c.phase ≠ .returned

def afterwards (c : SchedulerCall) : CallPhase := if c.kind.isStart then .inserting else .returning

def goOn (c : SchedulerCall) (todo : List ℕ) : SchedulerCall :=
  { c with todo, phase := if todo = [] then c.afterwards else .testing }

end SchedulerCall

namespace PeriodicScheduler

def init : PeriodicScheduler := ⟨∅, [], [], false⟩

def setCall (s : PeriodicScheduler) (i : ℕ) (c : SchedulerCall) : PeriodicScheduler :=
  { s with calls := s.calls.set i c }

def give (s : PeriodicScheduler) (js : List ℕ) (owner : Owner) : PeriodicScheduler :=
  { s with infos := s.infos.mapIdx fun j x => if j ∈ js then { x with owner } else x }

def modifyInfo (s : PeriodicScheduler) (j : ℕ) (f : ScheduleInfo → ScheduleInfo) :
    PeriodicScheduler := { s with infos := s.infos.modify j f }

def destroy (s : PeriodicScheduler) (js : List ℕ) : PeriodicScheduler :=
  { s.give js .gone with
    terminated := s.terminated || js.any fun j => s.infos[j]?.any fun x => !x.joined }

def stopInternal (s : PeriodicScheduler) (i : ℕ) (taskId : String) : List ℕ × PeriodicScheduler :=
  match s.schedules.lookup taskId with
  | none => ([], s)
  | some j => ([j], { s with schedules := s.schedules.erase taskId }.give [j] (.call i))

def enter (s : PeriodicScheduler) (i : ℕ) (c : SchedulerCall) : PeriodicScheduler :=
  match c.kind with
  | .start taskId =>
    let (old, s) := s.stopInternal i taskId
    s.setCall i (if old = [] then { c with phase := .inserting }
      else { c with old, todo := old, phase := .clearing })
  | .stop taskId =>
    let (old, s) := s.stopInternal i taskId
    s.setCall i ({ c with old }.goOn old)
  | .stopAll =>
    let old := s.schedules.entries.map fun e => e.2
    ({ s with schedules := ∅ }.give old (.call i)).setCall i ({ c with old }.goOn old)

def insert (s : PeriodicScheduler) (i : ℕ) (c : SchedulerCall) (taskId : String) :
    PeriodicScheduler :=
  let displaced := (s.schedules.lookup taskId).toList
  let new : ScheduleInfo := ⟨taskId, true, .testing, false, .map⟩
  { s.destroy displaced with
    schedules := s.schedules.insert taskId s.infos.length
    infos := (s.destroy displaced).infos ++ [new] }.setCall i { c with phase := .returning }

def callStep (s : PeriodicScheduler) (i : ℕ) (c : SchedulerCall) : Option PeriodicScheduler :=
  match c.phase, c.todo with
  | .entering, _ => some (s.enter i c)
  | .testing, j :: todo =>
    s.infos[j]?.map fun x =>
      s.setCall i (if x.running then { c with phase := .clearing } else c.goOn todo)
  | .clearing, j :: _ =>
    some ((s.modifyInfo j fun x => { x with running := false }).setCall i
      { c with phase := .joining })
  | .joining, j :: todo =>
    s.infos[j]?.bind fun x =>
      if x.thread = .ended then
        some ((s.modifyInfo j fun x => { x with joined := true }).setCall i (c.goOn todo))
      else none
  | .inserting, _ =>
    match c.kind with
    | .start taskId => some (s.insert i c taskId)
    | _ => none
  | .returning, _ => some ((s.destroy c.old).setCall i { c with phase := .returned })
  | _, _ => none

def threadStep (s : PeriodicScheduler) (j : ℕ) : Option PeriodicScheduler :=
  s.infos[j]?.bind fun x =>
    match x.thread with
    | .testing =>
      some (s.modifyInfo j fun x =>
        { x with thread := if x.running then .calling else .ended })
    | .calling => some (s.modifyInfo j fun x => { x with thread := .resting })
    | .resting => some (s.modifyInfo j fun x => { x with thread := .testing })
    | .ended => none

def begin (s : PeriodicScheduler) (kind : CallKind) : PeriodicScheduler :=
  let call : SchedulerCall :=
    ⟨kind, .entering, [], [], !kind.isStart && s.calls.all fun c => !c.unfinishedStart⟩
  let calls :=
    if kind.isStart then s.calls.map fun c => { c with undisturbed := false } else s.calls
  { s with calls := calls ++ [call] }

def next (s : PeriodicScheduler) (l : SchedulerStep) : Option PeriodicScheduler :=
  if s.terminated then none
  else
    match l with
    | .call kind => some (s.begin kind)
    | .step i => s.calls[i]?.bind fun c => s.callStep i c
    | .thread j => s.threadStep j

end PeriodicScheduler
end Mxrc.Task
