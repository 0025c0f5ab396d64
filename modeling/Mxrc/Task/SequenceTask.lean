import Mxrc.Sequence.SequenceEngine
import Mxrc.Task.TaskExecutor

/-!
# A task that runs a sequence

The thread of a task of work type SEQUENCE starts a second thread, which runs
`SequenceEngine::execute`, and polls until that is done or the task is to be
cancelled. The sequence is not looked up: the definition passed on has the id of
the work and no steps.
-/

namespace Mxrc.Task
open Mxrc.Lib Option
open Mxrc.Sequence (SequenceDefinition SequenceResult SequenceEngine.next SequenceEngine.start)
open Mxrc.Action (ExecutionResult)

def workDefinition (workId : String) : SequenceDefinition := ⟨workId, [], ∅, none⟩

inductive SequenceTaskPc
  | called
  | starting
  | polling
  | checking
  | cancelling
  | joining
  | returned (result : TaskExecution)
deriving DecidableEq

/-- The engine is there from the moment the second thread enters `execute`. -/
structure SequenceTask where
  state : TaskState
  pc : SequenceTaskPc
  engine : Option Sequence.Engine
  sequenceCompleted : Bool

inductive SequenceTaskLabel
  | task
  | threadFails (message : String)
  | enter
  | engine (l : Sequence.Label)
  | complete
  | cancel
  | pause
  | resume

namespace SequenceTask

def init (state : TaskState) : SequenceTask := ⟨state, .called, none, false⟩

def convertSequence (taskId : String) (r : SequenceResult) : TaskExecution :=
  if r.status = .cancelled then ⟨taskId, .cancelled, 0, ""⟩
  else if r.status = .completed then ⟨taskId, .completed, 1, ""⟩
  else ⟨taskId, .failed, 0, r.errorMessage⟩

def returnResult (s : SequenceTask) (result : TaskExecution) : SequenceTask :=
  { s with
    state := { s.state with
      status := result.status
      progress := if result.status = .completed then 1 else s.state.progress }
    pc := .returned result }

def sequenceResult (s : SequenceTask) : Option SequenceResult :=
  s.engine.bind fun e => match e.pc with
    | .returned r => some r
    | _ => none

/-- `SequenceEngine::cancel` does nothing before the sequence has a state. -/
def cancelSequence (s : SequenceTask) (d : TaskDefinition) : Option SequenceTask :=
  match s.engine with
  | none => some { s with pc := .joining }
  | some e => (SequenceEngine.next (workDefinition d.workId) e .cancel).map fun e =>
      { s with engine := some e, pc := .joining }

def step (d : TaskDefinition) (s : SequenceTask) : Option SequenceTask :=
  match s.pc with
  | .called => some { s with
      state := { s.state with
        status := .running, cancelRequested := false, pauseRequested := false }
      pc := .starting }
  | .starting => some { s with pc := .polling }
  | .polling => some { s with pc := if s.sequenceCompleted then .joining else .checking }
  | .checking => some { s with pc := if s.state.cancelRequested then .cancelling else .polling }
  | .cancelling => s.cancelSequence d
  | .joining =>
    if s.sequenceCompleted then
      s.sequenceResult.map fun r => s.returnResult (convertSequence d.id r)
    else none
  | .returned _ => none

def threadStarted (s : SequenceTask) : Bool := s.pc ≠ .called ∧ s.pc ≠ .starting

def next (d : TaskDefinition) (progress : ℚ)
    (context : AList (fun _ : String => ExecutionResult)) (s : SequenceTask) :
    SequenceTaskLabel → Option SequenceTask
  | .task => s.step d
  | .threadFails message =>
    if s.pc = .starting then some (s.returnResult ⟨d.id, .failed, 0, message⟩) else none
  | .enter =>
    if s.threadStarted ∧ s.engine.isNone then
      some { s with engine := some (SequenceEngine.start progress context) } else none
  | .engine l => s.engine.bind fun e =>
      (SequenceEngine.next (workDefinition d.workId) e l).map fun e => { s with engine := some e }
  | .complete => s.sequenceResult.map fun _ => { s with sequenceCompleted := true }
  | .cancel => some { s with state := { s.state with cancelRequested := true } }
  | .pause => some { s with state := { s.state with pauseRequested := true, status := .paused } }
  | .resume => some { s with state := { s.state with pauseRequested := false, status := .running } }

def RanStep (e : Sequence.Engine) (step : Sequence.ActionStep) : Prop :=
  step ∈ e.submissions ∧ ∃ r, e.context.lookup step.actionId = some r ∧ r.isSuccessful = true

/-- A task that is reported COMPLETED has a registered sequence, all of whose steps were run. -/
def CompletedOnlyAfterRun (registry : AList (fun _ : String => SequenceDefinition))
    (d : TaskDefinition) (s : SequenceTask) : Prop :=
  ∀ result, s.pc = .returned result → result.status = .completed →
    ∃ definition e, registry.lookup d.workId = some definition ∧ s.engine = some e ∧
      ∀ step ∈ definition.steps, RanStep e step

variable {d : TaskDefinition} {progress : ℚ} {s s' : SequenceTask}
  {context : AList (fun _ : String => ExecutionResult)} {l : SequenceTaskLabel}

lemma engine_of_sequenceResult {r : SequenceResult} (h : s.sequenceResult = some r) :
    ∃ e, s.engine = some e := by
  rw [sequenceResult, bind_eq_some_iff] at h
  obtain ⟨e, he, -⟩ := h
  exact ⟨e, he⟩

def Executed (s : SequenceTask) : Prop :=
  ∀ result, s.pc = .returned result → result.status = .completed → ∃ e, s.engine = some e

lemma Executed.task_step (hn : s.step d = some s') : Executed s' := by
  rw [step] at hn
  intro result hpc hst
  cases h : s.pc with
  | returned result' =>
    rw [h] at hn
    cases hn
  | cancelling =>
    rw [h] at hn
    simp only [cancelSequence] at hn
    cases he : s.engine with
    | none
    | some e =>
      rw [he] at hn
      cases hn
      cases hpc
  | joining =>
    simp only [h, ite_none_right_eq_some, map_eq_some_iff] at hn
    obtain ⟨-, r, hr, rfl⟩ := hn
    exact engine_of_sequenceResult hr
  | called
  | starting =>
    rw [h] at hn
    cases hn
    cases hpc
  | polling
  | checking =>
    rw [h] at hn
    cases hn
    simp only at hpc
    split_ifs at hpc

lemma Executed.step (h : Executed s) (hn : next d progress context s l = some s') :
    Executed s' := by
  cases l with
  | task => exact Executed.task_step hn
  | threadFails message =>
    simp only [next, ite_none_right_eq_some, Option.some.injEq] at hn
    obtain ⟨-, rfl⟩ := hn
    intro result hpc hst
    cases hpc
    cases hst
  | enter =>
    simp only [next, ite_none_right_eq_some, Option.some.injEq] at hn
    obtain ⟨-, rfl⟩ := hn
    exact fun _ _ _ => ⟨_, rfl⟩
  | engine l =>
    simp only [next, bind_eq_some_iff, map_eq_some_iff] at hn
    obtain ⟨e, -, e', -, rfl⟩ := hn
    exact fun _ _ _ => ⟨e', rfl⟩
  | complete =>
    simp only [next, map_eq_some_iff] at hn
    obtain ⟨r, -, rfl⟩ := hn
    exact h
  | cancel
  | pause
  | resume =>
    cases hn
    exact h

lemma exists_completed_run (d : TaskDefinition) (progress : ℚ)
    (context : AList (fun _ : String => ExecutionResult)) (state : TaskState) :
    ∃ s e, Run (next d progress context) (fun _ _ => True) (init state)
        [.task, .task, .enter, .engine (.step .go), .complete, .task, .task] s ∧
      s.pc = .returned ⟨d.id, .completed, 1, ""⟩ ∧ s.engine = some e ∧ e.submissions = [] := by
  have hexec : exec (next d progress context) (fun _ _ => true) (init state)
      [.task, .task, .enter, .engine (.step .go), .complete, .task, .task] = some _ := rfl
  exact ⟨_, _, Run.of_exec (fun _ _ _ => trivial) hexec, rfl, rfl, rfl⟩

theorem completedOnlyAfterRun_iff (registry : AList (fun _ : String => SequenceDefinition))
    (d : TaskDefinition) (progress : ℚ) (context : AList (fun _ : String => ExecutionResult))
    (state : TaskState) :
    (∀ ls s, Run (next d progress context) (fun _ _ => True) (init state) ls s →
        CompletedOnlyAfterRun registry d s) ↔
      ∃ definition, registry.lookup d.workId = some definition ∧ definition.steps = [] := by
  constructor
  · intro h
    obtain ⟨s, e, hrun, hpc, heng, hnone⟩ := exists_completed_run d progress context state
    obtain ⟨definition, e', hlk, heng', hstp⟩ := h _ s hrun _ hpc rfl
    rw [heng] at heng'
    cases heng'
    refine ⟨definition, hlk, List.eq_nil_iff_forall_not_mem.mpr fun step hstep => ?_⟩
    have hsub := (hstp step hstep).1
    rw [hnone] at hsub
    cases hsub
  · rintro ⟨definition, hlk, hnil⟩ ls s hrun result hpc hst
    have hinit : Executed (init state) := fun _ hpc => by cases hpc
    have hexe := hrun.invariant Executed hinit fun _ _ _ h _ hn => h.step hn
    obtain ⟨e, he⟩ := hexe result hpc hst
    refine ⟨definition, e, hlk, he, fun step hstep => ?_⟩
    rw [hnil] at hstep
    cases hstep

/-- With an empty registry every sequence task is reported COMPLETED. -/
theorem not_completedOnlyAfterRun :
    ¬ ∀ (registry : AList (fun _ : String => SequenceDefinition)) (d : TaskDefinition)
      (progress : ℚ) (context : AList (fun _ : String => ExecutionResult)) (state : TaskState)
      (ls : List SequenceTaskLabel) (s : SequenceTask),
      Run (next d progress context) (fun _ _ => True) (init state) ls s →
        CompletedOnlyAfterRun registry d s := by
  intro h
  obtain ⟨s, e, hrun, hpc, -⟩ :=
    exists_completed_run ⟨"task", "transport"⟩ 0 ∅ ⟨.idle, 0, false, false⟩
  obtain ⟨definition, -, hlk, -⟩ := h ∅ _ _ _ _ _ s hrun _ hpc rfl
  cases hlk

end SequenceTask
end Mxrc.Task
