import Mxrc.Action.ActionExecutor

/-!
# The sequence engine

One execution, as a step function on the program counter of `executeSequential`
and `handleConditionalBranch` with the `SequenceState` that `cancel`, `pause`
and `resume` share. What the engine asks others is given with each step.
`submissions` is not part of the code; it lists the calls of `executeAsync`.
Delays, parameters and events are left out.
-/

namespace Mxrc.Sequence
open Mxrc.Action

inductive SequenceStatus
  | pending
  | running
  | completed
  | failed
  | cancelled
  | paused
  | timeout
deriving DecidableEq

structure ActionStep where
  actionId : String
  actionType : String
  timeout : ℕ
deriving DecidableEq

structure ConditionalBranch where
  condition : String
  trueActions : List String
  falseActions : List String
deriving DecidableEq

structure RetryPolicy where
  maxRetries : ℤ
deriving DecidableEq

structure SequenceDefinition where
  id : String
  steps : List ActionStep
  conditionalBranches : AList (fun _ : String => ConditionalBranch)
  retryPolicy : Option RetryPolicy

structure SequenceResult where
  sequenceId : String
  status : SequenceStatus
  errorMessage : String
  completedSteps : ℕ
  totalSteps : ℕ
deriving DecidableEq

def canRetry (policy : RetryPolicy) (currentRetry : ℕ) : Bool := currentRetry < policy.maxRetries

/-- Who runs an action: the main loop at step `i`, or the branch of step `i` with `rest` to come and
`added` done. -/
inductive Site
  | main (i retryCount : ℕ)
  | branch (i : ℕ) (rest : List String) (added : ℕ)
deriving DecidableEq

inductive Phase
  | create
  | submit
  | track
  | wait
  | untrack
  | fetch
deriving DecidableEq

inductive Pc
  | head (i : ℕ)
  | pauseTest (i : ℕ)
  | cancelTest (i : ℕ)
  | take (i : ℕ)
  | action (site : Site) (step : ActionStep) (phase : Phase)
  | backoff (i retryCount : ℕ) (step : ActionStep)
  | conclude (i retryCount : ℕ) (step : ActionStep) (actionResult : ExecutionResult)
  | evaluate (i : ℕ) (step : ActionStep)
  | branching (i : ℕ) (todo : List String) (added : ℕ)
  | returned (result : SequenceResult)
deriving DecidableEq

structure Engine where
  pc : Pc
  status : SequenceStatus
  progress : ℚ
  cancelRequested : Bool
  pauseRequested : Bool
  completedSteps : ℕ
  currentActionId : Option String
  executedActions : List String
  context : AList (fun _ : String => ExecutionResult)
  submissions : List ActionStep

inductive Oracle
  | go
  | throws (message : String)
  | result (actionResult : ExecutionResult)
  | condition (value : Bool)
deriving DecidableEq

inductive Label
  | step (o : Oracle)
  | cancel
  | pause
  | resume
deriving DecidableEq

namespace SequenceEngine
variable (d : SequenceDefinition)

def start (progress : ℚ) (context : AList (fun _ : String => ExecutionResult)) : Engine where
  pc := .head 0
  status := .running
  progress := progress
  cancelRequested := false
  pauseRequested := false
  completedSteps := 0
  currentActionId := none
  executedActions := []
  context := context
  submissions := []

def finish (s : Engine) (status : SequenceStatus) (errorMessage : String) : Engine :=
  { s with
    pc := .returned ⟨d.id, status, errorMessage, s.completedSteps, d.steps.length⟩
    status := status }

def updateProgress (s : Engine) : Engine :=
  if 0 < d.steps.length then { s with progress := s.completedSteps / d.steps.length } else s

def stepLabel (i : ℕ) (actionId : String) : String :=
  "Step " ++ toString (i + 1) ++ " (" ++ actionId ++ ")"

/-- An exception ends the execution in the main loop and is passed over in a
branch. -/
def raise (s : Engine) (site : Site) (step : ActionStep) (message : String) : Engine :=
  match site with
  | .main i _ => finish d s .failed (stepLabel i step.actionId ++ " exception: " ++ message)
  | .branch i rest added => { s with pc := .branching i rest added }

def retries (retryCount : ℕ) : Bool := d.retryPolicy.any (canRetry · retryCount)

def runAction (s : Engine) (site : Site) (step : ActionStep) (phase : Phase) (o : Oracle) :
    Option Engine :=
  match phase, o with
  | .create, .go => some { s with pc := .action site step .submit }
  | .create, .throws message => some (raise d s site step message)
  | .submit, .go => some { s with
      submissions := s.submissions ++ [step], pc := .action site step .track }
  | .submit, .throws message =>
    some (raise d { s with submissions := s.submissions ++ [step] } site step message)
  | .track, .go => some { s with
      currentActionId := some step.actionId, pc := .action site step .wait }
  | .wait, .go => some { s with pc := .action site step .untrack }
  | .untrack, .go => some { s with currentActionId := none, pc := .action site step .fetch }
  | .fetch, .result r =>
    match site with
    | .main i retryCount =>
      if !r.isSuccessful && retries d retryCount then
        some { s with pc := .backoff i retryCount step }
      else some { s with pc := .conclude i retryCount step r }
    | .branch i rest added => some { s with
        context := s.context.insert step.actionId r
        executedActions := step.actionId :: s.executedActions
        pc := .branching i rest (added + 1) }
  | _, _ => none

def conclude (s : Engine) (i retryCount : ℕ) (step : ActionStep) (r : ExecutionResult) : Engine :=
  let s := { s with context := s.context.insert step.actionId r }
  if r.isCancelled || (r.status = .timeout && s.cancelRequested) then finish d s .cancelled ""
  else if r.isFailed then
    finish d s .failed (stepLabel i step.actionId ++ " failed after " ++ toString retryCount ++
      " retries: " ++ r.errorMessage)
  else updateProgress d { s with
    completedSteps := s.completedSteps + 1
    executedActions := step.actionId :: s.executedActions
    pc := .evaluate i step }

def evaluate (s : Engine) (i : ℕ) (step : ActionStep) (o : Oracle) : Option Engine :=
  match d.conditionalBranches.lookup step.actionId, o with
  | none, .go => some { s with pc := .head (i + 1) }
  | some branch, .condition value =>
    some { s with
      pc := .branching i (if value then branch.trueActions else branch.falseActions) 0 }
  | some _, .throws _ => some { s with pc := .head (i + 1) }
  | _, _ => none

def findStep (actionId : String) : Option ActionStep := d.steps.find? (·.actionId = actionId)

def branching (s : Engine) (i : ℕ) (todo : List String) (added : ℕ) : Engine :=
  match todo with
  | [] =>
    let s := { s with completedSteps := s.completedSteps + added, pc := .head (i + 1) }
    if 0 < added then updateProgress d s else s
  | a :: rest =>
    if a ∈ s.executedActions then { s with pc := .branching i rest added }
    else match findStep d a with
      | none => { s with pc := .branching i rest added }
      | some step => { s with pc := .action (.branch i rest added) step .create }

def step (s : Engine) (o : Oracle) : Option Engine :=
  match s.pc, o with
  | .head i, .go =>
    if i < d.steps.length then
      if s.cancelRequested then some (finish d s .cancelled "")
      else some { s with pc := .pauseTest i }
    else some { finish d s .completed "" with progress := 1 }
  | .pauseTest i, .go => some { s with pc := if s.pauseRequested then .cancelTest i else .take i }
  | .cancelTest i, .go => some { s with pc := if s.cancelRequested then .take i else .pauseTest i }
  | .take i, .go => (d.steps[i]?).map fun step =>
    if step.actionId ∈ s.executedActions then { s with pc := .head (i + 1) }
    else { s with pc := .action (.main i 0) step .create }
  | .action site step phase, o => runAction d s site step phase o
  | .backoff i retryCount step, .go =>
    some { s with pc := .action (.main i (retryCount + 1)) step .create }
  | .conclude i retryCount step r, .go => some (conclude d s i retryCount step r)
  | .evaluate i step, o => evaluate d s i step o
  | .branching i todo added, .go => some (branching d s i todo added)
  | _, _ => none

def next (s : Engine) : Label → Option Engine
  | .step o => step d s o
  | .cancel => some { s with cancelRequested := true }
  | .pause => some { s with pauseRequested := true, status := .paused }
  | .resume => some { s with pauseRequested := false, status := .running }

end SequenceEngine
end Mxrc.Sequence
