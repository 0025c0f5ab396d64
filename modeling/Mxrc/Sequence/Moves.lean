import Mxrc.Sequence.SequenceEngine

/-!
# What one step of an execution can do

`Moved` lists the steps of the executing thread by what they do; `Between` those
between two actions. `moved_of_step` is the one place where `step` is taken
apart.
-/

namespace Mxrc.Sequence
open Mxrc.Action

def Pc.inHand : Pc → Option ActionStep
  | .action _ step _ | .backoff _ _ step | .conclude _ _ step _ => some step
  | _ => none

def Pc.isBetween : Pc → Bool
  | .head _ | .pauseTest _ | .cancelTest _ | .take _ | .evaluate _ _ | .branching _ _ _ => true
  | _ => false

def Pc.isReturned : Pc → Bool
  | .returned _ => true
  | _ => false

def Site.retryCount : Site → ℕ
  | .main _ retryCount => retryCount
  | .branch _ _ _ => 0

lemma inHand_of_isBetween {pc : Pc} (h : pc.isBetween = true) : pc.inHand = none := by
  cases pc <;> first | rfl | cases h

lemma isReturned_of_isBetween {pc : Pc} (h : pc.isBetween = true) : pc.isReturned = false := by
  cases pc <;> first | rfl | cases h

lemma isReturned_of_inHand {pc : Pc} {step : ActionStep} (h : pc.inHand = some step) :
    pc.isReturned = false := by
  cases pc <;> first | rfl | cases h

namespace SequenceEngine
variable (d : SequenceDefinition)

inductive Between (s : Engine) : Oracle → Pc → Prop
  | entered {i : ℕ} (hpc : s.pc = .head i) (hflag : s.cancelRequested = false) :
      Between s .go (.pauseTest i)
  | looked {i : ℕ} {pc : Pc} (hpc : s.pc = .pauseTest i ∨ s.pc = .cancelTest i)
      (hpc' : pc ∈ [.pauseTest i, .cancelTest i, .take i]) : Between s .go pc
  | passed {i : ℕ} {step : ActionStep} (hpc : s.pc = .take i) (hstep : d.steps[i]? = some step)
      (hexecuted : step.actionId ∈ s.executedActions) : Between s .go (.head (i + 1))
  | evaluated {i : ℕ} {step : ActionStep} {o : Oracle} (hpc : s.pc = .evaluate i step) :
      Between s o (.head (i + 1))
  | chosen {i : ℕ} {step : ActionStep} {branch : ConditionalBranch} {value : Bool}
      (hpc : s.pc = .evaluate i step)
      (hbranch : d.conditionalBranches.lookup step.actionId = some branch) :
      Between s (.condition value)
        (.branching i (if value then branch.trueActions else branch.falseActions) 0)
  | skipped {i added : ℕ} {a : String} {rest : List String}
      (hpc : s.pc = .branching i (a :: rest) added) : Between s .go (.branching i rest added)

inductive Moved (s : Engine) : Oracle → Engine → Prop
  | test {o : Oracle} (pc : Pc) (hpc : s.pc.isBetween = true) (hpc' : pc.isBetween = true)
      (h : Between d s o pc) : Moved s o { s with pc := pc }
  | cancelled {i : ℕ} (hpc : s.pc = .head i) : Moved s .go (finish d s .cancelled "")
  | completed {i : ℕ} (hpc : s.pc = .head i) (hi : ¬ i < d.steps.length) :
      Moved s .go { finish d s .completed "" with progress := 1 }
  | branched {i added : ℕ} (hpc : s.pc = .branching i [] added) :
      Moved s .go (branching d s i [] added)
  | taken {i : ℕ} {step : ActionStep} (hpc : s.pc = .take i)
      (hnew : step.actionId ∉ s.executedActions) (hstep : d.steps[i]? = some step) :
      Moved s .go { s with pc := .action (.main i 0) step .create }
  | takenBranch {i added : ℕ} {a : String} {rest : List String} {step : ActionStep}
      (hpc : s.pc = .branching i (a :: rest) added) (hnew : step.actionId ∉ s.executedActions)
      (hfind : findStep d a = some step) :
      Moved s .go { s with pc := .action (.branch i rest added) step .create }
  | created {site : Site} {step : ActionStep} (hpc : s.pc = .action site step .create) :
      Moved s .go { s with pc := .action site step .submit }
  | createThrew {site : Site} {step : ActionStep} {message : String}
      (hpc : s.pc = .action site step .create) :
      Moved s (.throws message) (raise d s site step message)
  | submitted {site : Site} {step : ActionStep} (hpc : s.pc = .action site step .submit) :
      Moved s .go { s with
        submissions := s.submissions ++ [step], pc := .action site step .track }
  | submitThrew {site : Site} {step : ActionStep} {message : String}
      (hpc : s.pc = .action site step .submit) :
      Moved s (.throws message)
        (raise d { s with submissions := s.submissions ++ [step] } site step message)
  | waited {site : Site} {step : ActionStep} {phase phase' : Phase} (id : Option String)
      (hpc : s.pc = .action site step phase) (hphase : phase ∈ [.track, .wait, .untrack])
      (hphase' : phase' ∈ [.wait, .untrack, .fetch]) :
      Moved s .go { s with currentActionId := id, pc := .action site step phase' }
  | refused {i retryCount : ℕ} {step : ActionStep} {r : ExecutionResult}
      (hpc : s.pc = .action (.main i retryCount) step .fetch) (hr : r.isSuccessful = false)
      (hretries : retries d retryCount = true) :
      Moved s (.result r) { s with pc := .backoff i retryCount step }
  | fetched {i retryCount : ℕ} {step : ActionStep} {r : ExecutionResult}
      (hpc : s.pc = .action (.main i retryCount) step .fetch) :
      Moved s (.result r) { s with pc := .conclude i retryCount step r }
  | recorded {i added : ℕ} {rest : List String} {step : ActionStep} {r : ExecutionResult}
      (hpc : s.pc = .action (.branch i rest added) step .fetch) :
      Moved s (.result r) { s with
        context := s.context.insert step.actionId r
        executedActions := step.actionId :: s.executedActions
        pc := .branching i rest (added + 1) }
  | retried {i retryCount : ℕ} {step : ActionStep} (hpc : s.pc = .backoff i retryCount step) :
      Moved s .go { s with pc := .action (.main i (retryCount + 1)) step .create }
  | concluded {i retryCount : ℕ} {step : ActionStep} {r : ExecutionResult}
      (hpc : s.pc = .conclude i retryCount step r) :
      Moved s .go (conclude d s i retryCount step r)

variable {d} {s s' : Engine} {o : Oracle}

lemma findStep_spec {a : String} {step : ActionStep} (h : findStep d a = some step) :
    step ∈ d.steps ∧ step.actionId = a :=
  ⟨List.mem_of_find?_eq_some h, by simpa using List.find?_some h⟩

lemma Between.moved {pc : Pc} (h : Between d s o pc) : Moved d s o { s with pc := pc } := by
  refine .test pc ?_ ?_ h
  · cases h with
    | looked hpc => rcases hpc with hpc | hpc <;> rw [hpc] <;> rfl
    | _ hpc =>
      rw [hpc]
      rfl
  · cases h with
    | looked _ hpc' => fin_cases hpc' <;> rfl
    | _ => rfl

lemma moved_of_runAction {site : Site} {step : ActionStep} {phase : Phase}
    (hpc : s.pc = .action site step phase) (hn : runAction d s site step phase o = some s') :
    Moved d s o s' := by
  unfold runAction at hn
  split at hn
  case h_1 =>
    cases hn
    exact .created hpc
  case h_2 =>
    cases hn
    exact .createThrew hpc
  case h_3 =>
    cases hn
    exact .submitted hpc
  case h_4 =>
    cases hn
    exact .submitThrew hpc
  case h_5 =>
    cases hn
    exact .waited _ hpc (by simp) (by simp)
  case h_6 =>
    cases hn
    exact .waited s.currentActionId hpc (by simp) (by simp)
  case h_7 =>
    cases hn
    exact .waited _ hpc (by simp) (by simp)
  case h_8 r =>
    cases site with
    | main i retryCount =>
      simp only at hn
      split_ifs at hn with hret
      · cases hn
        rw [Bool.and_eq_true, Bool.not_eq_true'] at hret
        exact .refused hpc hret.1 hret.2
      · cases hn
        exact .fetched hpc
    | branch i rest added =>
      cases hn
      exact .recorded hpc
  case h_9 => cases hn

lemma moved_of_evaluate {i : ℕ} {step : ActionStep} (hpc : s.pc = .evaluate i step)
    (hn : evaluate d s i step o = some s') : Moved d s o s' := by
  unfold evaluate at hn
  split at hn
  case h_1 | h_3 =>
    cases hn
    exact (Between.evaluated hpc).moved
  case h_2 branch value hbran =>
    cases hn
    exact (Between.chosen hpc hbran).moved
  case h_4 => cases hn

lemma moved_of_branching {i added : ℕ} {todo : List String}
    (hpc : s.pc = .branching i todo added) : Moved d s .go (branching d s i todo added) := by
  cases todo with
  | nil => exact .branched hpc
  | cons a rest =>
    rw [branching]
    split_ifs with hexe
    · exact (Between.skipped hpc).moved
    · cases hfind : findStep d a with
      | none => exact (Between.skipped hpc).moved
      | some step => exact .takenBranch hpc ((findStep_spec hfind).2 ▸ hexe) hfind

lemma moved_of_step (hn : step d s o = some s') : Moved d s o s' := by
  unfold step at hn
  split at hn <;> rename_i hpc
  case h_1 i =>
    split_ifs at hn with hi hflag
    · cases hn
      exact .cancelled hpc
    · cases hn
      exact (Between.entered hpc (by simpa using hflag)).moved
    · cases hn
      exact .completed hpc hi
  case h_2 =>
    cases hn
    exact (Between.looked (.inl hpc) (by cases s.pauseRequested <;> simp)).moved
  case h_3 =>
    cases hn
    exact (Between.looked (.inr hpc) (by cases s.cancelRequested <;> simp)).moved
  case h_4 =>
    obtain ⟨x, hx, rfl⟩ := Option.map_eq_some_iff.mp hn
    split_ifs with hexe
    · exact (Between.passed hpc hx hexe).moved
    · exact .taken hpc hexe hx
  case h_5 => exact moved_of_runAction hpc hn
  case h_6 =>
    cases hn
    exact .retried hpc
  case h_7 =>
    cases hn
    exact .concluded hpc
  case h_8 => exact moved_of_evaluate hpc hn
  case h_9 =>
    cases hn
    exact moved_of_branching hpc
  case h_10 => cases hn

lemma Moved.isReturned (hm : Moved d s o s') : s.pc.isReturned = false := by
  cases hm with
  | test pc hpc hpc' => exact isReturned_of_isBetween hpc
  | waited id hpc =>
    rw [hpc]
    rfl
  | _ hpc =>
    rw [hpc]
    rfl

@[simp]
lemma updateProgress_pc : (updateProgress d s).pc = s.pc := by
  rw [updateProgress]
  split_ifs <;> rfl

@[simp]
lemma updateProgress_executedActions :
    (updateProgress d s).executedActions = s.executedActions := by
  rw [updateProgress]
  split_ifs <;> rfl

@[simp]
lemma updateProgress_completedSteps :
    (updateProgress d s).completedSteps = s.completedSteps := by
  rw [updateProgress]
  split_ifs <;> rfl

@[simp]
lemma updateProgress_submissions : (updateProgress d s).submissions = s.submissions := by
  rw [updateProgress]
  split_ifs <;> rfl

lemma raise_inHand {s : Engine} {site : Site} {step : ActionStep} {message : String} :
    (raise d s site step message).pc.inHand = none := by
  cases site <;> rfl

lemma conclude_inHand {s : Engine} {i retryCount : ℕ} {step : ActionStep} {r : ExecutionResult} :
    (conclude d s i retryCount step r).pc.inHand = none := by
  rw [conclude]
  split_ifs
  · rfl
  · rfl
  · rw [updateProgress_pc]
    rfl

lemma branching_nil_pc {s : Engine} {i added : ℕ} :
    (branching d s i [] added).pc = .head (i + 1) := by
  rw [branching]
  split_ifs
  · rw [updateProgress_pc]
  · rfl

end SequenceEngine
end Mxrc.Sequence
