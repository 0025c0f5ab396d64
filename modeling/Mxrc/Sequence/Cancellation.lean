import Mxrc.Lib.Runs
import Mxrc.Sequence.Moves

/-!
# Cancelling a sequence

The engine looks at `cancelRequested` at the head of its loop, in the pause loop
and after a timed out action, and nowhere else. `Stopping` describes the points
from which it comes to such a look before it starts another action.
-/

namespace Mxrc.Sequence.SequenceEngine
open Mxrc.Lib Mxrc.Action

/-- Once the flag is set during an execution, no action is submitted any more
and the execution can only return `CANCELLED`. -/
def StopsWork (d : SequenceDefinition) (G : Engine → Label → Prop) : Prop :=
  ∀ progress context ls s ls' t, Run (next d) G (start progress context) ls s →
    s.cancelRequested = true → (∀ r, s.pc ≠ .returned r) → Run (next d) G s ls' t →
    t.submissions = s.submissions ∧ ∀ r, t.pc = .returned r → r.status = .cancelled

variable (d : SequenceDefinition)

def NothingToStart (executed todo : List String) : Prop :=
  ∀ a ∈ todo, a ∈ executed ∨ findStep d a = none

/-- The branch of the step, if any, has no action to start, and step `i` is not
the last one. -/
def PassesOn (executed : List String) (i : ℕ) (step : ActionStep) : Prop :=
  i + 1 < d.steps.length ∧ ∀ branch, d.conditionalBranches.lookup step.actionId = some branch →
    NothingToStart d executed branch.trueActions ∧ NothingToStart d executed branch.falseActions

/-- The result ends the sequence as cancelled, or counts as a completed step
after which the engine passes on to its next look at the flag. -/
def StoppingResult (executed : List String) (i : ℕ) (step : ActionStep) (r : ExecutionResult) :
    Prop :=
  r.isCancelled = true ∨ r.status = .timeout ∨
    r.isFailed = false ∧ PassesOn d (step.actionId :: executed) i step

def Stopping (s : Engine) : Prop :=
  match s.pc with
  | .head i => i < d.steps.length
  | .pauseTest i | .cancelTest i | .take i => i + 1 < d.steps.length ∧
      ∀ step, d.steps[i]? = some step → step.actionId ∈ s.executedActions
  | .action site step phase =>
    match phase with
    | .create | .submit => False
    | _ =>
      match site with
      | .main _ _ => True
      | .branch i rest _ => i + 1 < d.steps.length ∧
          NothingToStart d (step.actionId :: s.executedActions) rest
  | .backoff _ _ _ => False
  | .conclude i _ step r => StoppingResult d s.executedActions i step r
  | .evaluate i step => PassesOn d s.executedActions i step
  | .branching i todo _ => i + 1 < d.steps.length ∧ NothingToStart d s.executedActions todo
  | .returned _ => True

/-- The flag is set at a stopping point, and a result fetched with the flag set
leads to one without a retry. -/
def NoBlindSpot (s : Engine) : Label → Prop
  | .cancel => Stopping d s
  | .step (.result r) => s.cancelRequested = true → ∀ i retryCount step,
      s.pc = .action (.main i retryCount) step .fetch →
      (r.isSuccessful = true ∨ retries d retryCount = false) ∧
        StoppingResult d s.executedActions i step r
  | _ => True

structure Stops (submissions : List ActionStep) (s : Engine) : Prop where
  flag : s.cancelRequested = true
  stopping : Stopping d s
  submissions_eq : s.submissions = submissions
  cancelled : ∀ r, s.pc = .returned r → r.status = .cancelled

section
variable {d} {s s' : Engine} {submissions : List ActionStep}

lemma Stops.goto (h : Stops d submissions s) (hflag : s'.cancelRequested = s.cancelRequested)
    (hsub : s'.submissions = s.submissions) (hstop : Stopping d s')
    (hpc : ∀ r, s'.pc ≠ .returned r) :
    Stops d submissions s' :=
  ⟨hflag.trans h.flag, hstop, hsub.trans h.submissions_eq, fun r hr => absurd hr (hpc r)⟩

lemma Stops.finish (h : Stops d submissions s) :
    Stops d submissions (finish d s .cancelled "") := by
  refine ⟨h.flag, trivial, h.submissions_eq, fun r hr => ?_⟩
  cases hr
  rfl

lemma Stops.updateProgress (h : Stops d submissions s) :
    Stops d submissions (updateProgress d s) := by
  rw [SequenceEngine.updateProgress]
  split_ifs
  · exact ⟨h.flag, h.stopping, h.submissions_eq, h.cancelled⟩
  · exact h

lemma Stops.conclude {i retryCount : ℕ} {step : ActionStep} {r : ExecutionResult}
    (h : Stops d submissions s) (hr : StoppingResult d s.executedActions i step r) :
    Stops d submissions (conclude d s i retryCount step r) := by
  rw [SequenceEngine.conclude]
  split_ifs with hcan hfail
  · exact Stops.finish ⟨h.flag, h.stopping, h.submissions_eq, h.cancelled⟩
  · rcases hr with hr | hr | hr
    · simp [hr] at hcan
    · simp [hr, h.flag] at hcan
    · rw [hr.1] at hfail
      cases hfail
  · have hpass : PassesOn d (step.actionId :: s.executedActions) i step := by
      rcases hr with hr | hr | hr
      · simp [hr] at hcan
      · simp [hr, h.flag] at hcan
      · exact hr.2
    have hdone : Stops d submissions { s with
        context := s.context.insert step.actionId r
        completedSteps := s.completedSteps + 1
        executedActions := step.actionId :: s.executedActions
        pc := .evaluate i step } := h.goto rfl rfl hpass (by simp)
    exact hdone.updateProgress

lemma NothingToStart.tail {executed : List String} {a : String} {rest : List String}
    (h : NothingToStart d executed (a :: rest)) : NothingToStart d executed rest :=
  fun b hb => h b (List.mem_cons_of_mem a hb)

lemma Stops.between {o : Oracle} {pc : Pc} (h : Stops d submissions s) (hb : Between d s o pc) :
    Stops d submissions { s with pc := pc } := by
  have hstop := h.stopping
  cases hb with
  | entered _ hflag =>
    rw [h.flag] at hflag
    cases hflag
  | looked hpc hpc' =>
    rcases hpc with hpc | hpc <;> simp only [Stopping, hpc] at hstop <;> fin_cases hpc' <;>
      exact h.goto rfl rfl hstop (by simp)
  | @chosen _ _ branch value hpc hbran =>
    simp only [Stopping, hpc] at hstop
    refine h.goto rfl rfl ⟨hstop.1, ?_⟩ (by simp)
    cases value
    · exact (hstop.2 branch hbran).2
    · exact (hstop.2 branch hbran).1
  | passed hpc
  | evaluated hpc =>
    simp only [Stopping, hpc] at hstop
    exact h.goto rfl rfl hstop.1 (by simp)
  | skipped hpc =>
    simp only [Stopping, hpc] at hstop
    exact h.goto rfl rfl ⟨hstop.1, hstop.2.tail⟩ (by simp)

lemma Stops.moved {o : Oracle} (h : Stops d submissions s) (hg : NoBlindSpot d s (.step o))
    (hm : Moved d s o s') : Stops d submissions s' := by
  have hstop := h.stopping
  cases hm with
  | test pc _ _ hb => exact h.between hb
  | cancelled => exact h.finish
  | completed hpc hi =>
    simp only [Stopping, hpc] at hstop
    exact absurd hstop hi
  | @branched i added hpc =>
    simp only [Stopping, hpc] at hstop
    have hhead : Stops d submissions
        { s with completedSteps := s.completedSteps + added, pc := .head (i + 1) } :=
      h.goto rfl rfl hstop.1 (by simp)
    rw [SequenceEngine.branching]
    split_ifs
    · exact hhead.updateProgress
    · exact hhead
  | taken hpc hnew hstep =>
    simp only [Stopping, hpc] at hstop
    exact absurd (hstop.2 _ hstep) hnew
  | takenBranch hpc hnew hfind =>
    simp only [Stopping, hpc] at hstop
    rcases hstop.2 _ List.mem_cons_self with ha | ha
    · rw [← (findStep_spec hfind).2] at ha
      exact absurd ha hnew
    · rw [ha] at hfind
      cases hfind
  | created hpc
  | createThrew hpc
  | submitted hpc
  | submitThrew hpc
  | retried hpc => simp only [Stopping, hpc] at hstop
  | waited id hpc hph hph' =>
    simp only [Stopping, hpc] at hstop
    fin_cases hph <;> fin_cases hph' <;> exact h.goto rfl rfl hstop (by simp)
  | refused hpc hr hret =>
    obtain ⟨hrtr, -⟩ := hg h.flag _ _ _ hpc
    simp [hr, hret] at hrtr
  | fetched hpc => exact h.goto rfl rfl (hg h.flag _ _ _ hpc).2 (by simp)
  | recorded hpc =>
    simp only [Stopping, hpc] at hstop
    exact h.goto rfl rfl hstop (by simp)
  | concluded hpc =>
    simp only [Stopping, hpc] at hstop
    exact h.conclude hstop

lemma Stops.next {l : Label} (h : Stops d submissions s) (hg : NoBlindSpot d s l)
    (hn : next d s l = some s') : Stops d submissions s' := by
  cases l with
  | step o => exact h.moved hg (moved_of_step hn)
  | cancel =>
    cases hn
    exact ⟨rfl, h.stopping, h.submissions_eq, h.cancelled⟩
  | pause
  | resume =>
    cases hn
    exact ⟨h.flag, h.stopping, h.submissions_eq, h.cancelled⟩

end

lemma updateProgress_cancelRequested (s : Engine) :
    (updateProgress d s).cancelRequested = s.cancelRequested := by
  rw [updateProgress]
  split_ifs <;> rfl

variable {d} in
lemma Moved.cancelRequested {s s' : Engine} {o : Oracle} (hm : Moved d s o s') :
    s'.cancelRequested = s.cancelRequested := by
  cases hm with
  | branched =>
    rw [branching]
    split_ifs
    · exact updateProgress_cancelRequested d _
    · rfl
  | @createThrew site
  | @submitThrew site => cases site <;> rfl
  | concluded =>
    rw [conclude]
    split_ifs
    · rfl
    · rfl
    · exact updateProgress_cancelRequested d _
  | _ => rfl

lemma stopping_run {progress : ℚ} {context : AList (fun _ : String => ExecutionResult)}
    {ls : List Label} {s : Engine}
    (h : Run (next d) (NoBlindSpot d) (start progress context) ls s) :
    s.cancelRequested = true → Stopping d s := by
  refine h.invariant (fun s => s.cancelRequested = true → Stopping d s) (by simp [start]) ?_
  intro s l s' ih hg hn hflag'
  cases l with
  | cancel =>
    cases hn
    exact hg
  | pause
  | resume =>
    cases hn
    exact ih hflag'
  | step o =>
    have hm : Moved d s o s' := moved_of_step hn
    have hflag : s.cancelRequested = true := hm.cancelRequested ▸ hflag'
    have hpc : ∀ r, s.pc ≠ .returned r := by
      intro r hr
      have hopen := hm.isReturned
      rw [hr] at hopen
      cases hopen
    have hs : Stops d s.submissions s := ⟨hflag, ih hflag, rfl, fun r hr => absurd hr (hpc r)⟩
    exact (hs.moved hg hm).stopping

theorem stopsWork_of_noBlindSpot : StopsWork d (NoBlindSpot d) := by
  intro progress context ls s ls' t hs hflag hpc ht
  have h0 : Stops d s.submissions s :=
    ⟨hflag, stopping_run d hs hflag, rfl, fun r hr => absurd hr (hpc r)⟩
  have h1 : Stops d s.submissions t :=
    ht.invariant (Stops d s.submissions) h0 fun _ _ _ h hg hn => h.next hg hn
  exact ⟨h1.submissions_eq, h1.cancelled⟩

def onePick : SequenceDefinition :=
  ⟨"transport", [⟨"pick", "move", 0⟩], ∅, none⟩

/-- The request comes after the check at the head of the loop. -/
theorem not_stopsWork : ¬ StopsWork onePick (fun _ _ => True) := by
  intro h
  have hs : ∃ s, exec (next onePick) (fun _ _ => true) (start 0 ∅) [.step .go, .cancel] = some s ∧
      s.cancelRequested = true ∧ s.pc = .pauseTest 0 ∧ s.submissions = [] ∧
      ∃ t, exec (next onePick) (fun _ _ => true) s
        [.step .go, .step .go, .step .go, .step .go] = some t ∧
        t.submissions = [⟨"pick", "move", 0⟩] :=
    ⟨_, rfl, rfl, rfl, rfl, _, rfl, rfl⟩
  obtain ⟨s, hs, hflag, hpc, hbef, t, ht, haft⟩ := hs
  obtain ⟨hsame, -⟩ := h 0 ∅ _ s _ t (Run.of_exec (by simp) hs) hflag (by simp [hpc])
    (Run.of_exec (by simp) ht)
  rw [haft, hbef] at hsame
  cases hsame

end Mxrc.Sequence.SequenceEngine
