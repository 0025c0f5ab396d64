import Mxrc.Lib.Runs
import Mxrc.Sequence.Moves

/-!
# The books of an execution

`Accounted` relates the program counter of an execution to the set of executed
actions, the counter of completed steps and the submissions. An action id is
executed at most once, main steps are passed in order, and the counter is the
number of executed ids.
-/

namespace Mxrc.Sequence.SequenceEngine
open Mxrc.Lib Mxrc.Action List

def added (s : Engine) : ℕ :=
  match s.pc with
  | .branching _ _ added => added
  | .action (.branch _ _ added) _ _ => added
  | _ => 0

variable (d : SequenceDefinition)

def Passed (executed : List String) (i : ℕ) : Prop :=
  ∀ j < i, ∀ step, d.steps[j]? = some step → step.actionId ∈ executed

def InHand (s : Engine) (step : ActionStep) (phase : Phase) : Prop :=
  step ∈ d.steps ∧ step.actionId ∉ s.executedActions ∧
    (phase ≠ .create → phase ≠ .submit → step ∈ s.submissions)

def AtPc (s : Engine) : Prop :=
  match s.pc with
  | .head i | .pauseTest i | .cancelTest i | .take i => Passed d s.executedActions i
  | .action (.main i _) step phase => Passed d s.executedActions i ∧ d.steps[i]? = some step ∧
      InHand d s step phase
  | .action (.branch i _ _) step phase => Passed d s.executedActions (i + 1) ∧ InHand d s step phase
  | .backoff i _ step => Passed d s.executedActions i ∧ d.steps[i]? = some step ∧
      InHand d s step .create
  | .conclude i _ step _ => Passed d s.executedActions i ∧ d.steps[i]? = some step ∧
      InHand d s step .fetch
  | .evaluate i step => Passed d s.executedActions (i + 1) ∧ step ∈ d.steps
  | .branching i _ _ => Passed d s.executedActions (i + 1)
  | .returned r => r.status = .completed →
      Passed d s.executedActions d.steps.length ∧ r.completedSteps = s.executedActions.length

structure Accounted (s : Engine) : Prop where
  nodup : s.executedActions.Nodup
  submitted : ∀ a ∈ s.executedActions, ∃ step ∈ s.submissions, step.actionId = a
  inSteps : ∀ step ∈ s.submissions, step ∈ d.steps
  count : s.completedSteps + added s = s.executedActions.length
  atPc : AtPc d s

variable {d} {s s' : Engine} {step : ActionStep}

lemma Passed.succ {executed : List String} {i : ℕ} (h : Passed d executed i)
    (hstep : ∀ step, d.steps[i]? = some step → step.actionId ∈ executed) :
    Passed d executed (i + 1) := by
  intro j hj step hs
  rcases Nat.lt_succ_iff_lt_or_eq.mp hj with hlt | rfl
  · exact h j hlt step hs
  · exact hstep step hs

lemma Passed.cons {executed : List String} {i : ℕ} (h : Passed d executed i) (a : String) :
    Passed d (a :: executed) i :=
  fun j hj step hs => mem_cons_of_mem a (h j hj step hs)

lemma Passed.mem {executed : List String} (h : Passed d executed d.steps.length)
    (hstep : step ∈ d.steps) : step.actionId ∈ executed := by
  obtain ⟨i, hi, rfl⟩ := getElem_of_mem hstep
  exact h i hi _ (getElem?_eq_getElem hi)

section
variable (h : Accounted d s)
include h

lemma Accounted.goto (hexe : s'.executedActions = s.executedActions)
    (hsub : s'.submissions = s.submissions)
    (hcnt : s'.completedSteps + added s' = s.completedSteps + added s) (hat : AtPc d s') :
    Accounted d s' where
  nodup := hexe ▸ h.nodup
  submitted := by
    rw [hexe, hsub]
    exact h.submitted
  inSteps := hsub ▸ h.inSteps
  count := by
    rw [hcnt, hexe]
    exact h.count
  atPc := hat

lemma Accounted.record (hand : InHand d s step .fetch)
    (hexe : s'.executedActions = step.actionId :: s.executedActions)
    (hsub : s'.submissions = s.submissions)
    (hcnt : s'.completedSteps + added s' = s.completedSteps + added s + 1) (hat : AtPc d s') :
    Accounted d s' where
  nodup := by
    rw [hexe]
    exact nodup_cons.mpr ⟨hand.2.1, h.nodup⟩
  submitted := by
    rw [hexe, hsub]
    intro a ha
    rcases mem_cons.mp ha with rfl | ha
    · exact ⟨step, hand.2.2 (by decide) (by decide), rfl⟩
    · exact h.submitted a ha
  inSteps := hsub ▸ h.inSteps
  count := by
    rw [hcnt, hexe, length_cons, h.count]
  atPc := hat

lemma Accounted.updateProgress : Accounted d (updateProgress d s) := by
  rw [SequenceEngine.updateProgress]
  split_ifs
  · exact h.goto rfl rfl rfl h.atPc
  · exact h

lemma Accounted.finish_of_ne {status : SequenceStatus} {message : String} (hadd : added s = 0)
    (hst : status ≠ .completed) : Accounted d (finish d s status message) :=
  h.goto rfl rfl (by rw [hadd]; rfl) fun hcom => absurd hcom hst

lemma Accounted.submit (hstep : step ∈ d.steps) {pc : Pc}
    (hadd : added { s with pc := pc } = added s)
    (hat : AtPc d { s with submissions := s.submissions ++ [step], pc := pc }) :
    Accounted d { s with submissions := s.submissions ++ [step], pc := pc } where
  nodup := h.nodup
  submitted a ha := by
    obtain ⟨x, hx, hxa⟩ := h.submitted a ha
    exact ⟨x, mem_append_left _ hx, hxa⟩
  inSteps x hx := by
    rcases mem_append.mp hx with hx | hx
    · exact h.inSteps x hx
    · cases mem_singleton.mp hx
      exact hstep
  count := by
    rw [← h.count, ← hadd]
    rfl
  atPc := hat

lemma Accounted.conclude {i retryCount : ℕ} {r : ExecutionResult}
    (hpc : s.pc = .conclude i retryCount step r) :
    Accounted d (conclude d s i retryCount step r) := by
  have hat := h.atPc
  simp only [AtPc, hpc] at hat
  obtain ⟨hpas, hstep, hand⟩ := hat
  have hadd : added s = 0 := by simp [added, hpc]
  have hsto : Accounted d { s with context := s.context.insert step.actionId r } :=
    h.goto rfl rfl rfl h.atPc
  rw [SequenceEngine.conclude]
  split_ifs
  · exact hsto.finish_of_ne hadd (by decide)
  · exact hsto.finish_of_ne hadd (by decide)
  · refine Accounted.updateProgress (hsto.record hand rfl rfl ?_ ?_)
    · simp [added, hpc]
    · refine ⟨(hpas.cons step.actionId).succ fun x hx => ?_, hand.1⟩
      cases hstep.symm.trans hx
      exact mem_cons_self

lemma Accounted.raise {site : Site} {phase : Phase} {message : String}
    (hpc : s.pc = .action site step phase) : Accounted d (raise d s site step message) := by
  have hat := h.atPc
  simp only [AtPc, hpc] at hat
  cases site with
  | main i retryCount => exact h.finish_of_ne (by simp [added, hpc]) (by decide)
  | branch i rest done =>
    exact h.goto rfl rfl (by simp [added, hpc, SequenceEngine.raise]) hat.1

end

lemma AtPc.inHand {site : Site} {phase : Phase} (h : AtPc d s)
    (hpc : s.pc = .action site step phase) : InHand d s step phase := by
  simp only [AtPc, hpc] at h
  cases site with
  | main i retryCount => exact h.2.2
  | branch i rest done => exact h.2

lemma AtPc.phase {site : Site} {phase phase' : Phase} (h : AtPc d s)
    (hpc : s.pc = .action site step phase) (hexe : s'.executedActions = s.executedActions)
    (hpc' : s'.pc = .action site step phase') (hand : InHand d s' step phase') : AtPc d s' := by
  simp only [AtPc, hpc] at h
  simp only [AtPc, hpc', hexe]
  cases site with
  | main i retryCount => exact ⟨h.1, h.2.1, hand⟩
  | branch i rest done => exact ⟨h.1, hand⟩

lemma added_action {site : Site} {phase phase' : Phase} (hpc : s.pc = .action site step phase)
    (hpc' : s'.pc = .action site step phase') : added s' = added s := by
  simp only [added, hpc, hpc']
  cases site <;> rfl

lemma Accounted.phase {site : Site} {phase phase' : Phase} (h : Accounted d s)
    (hpc : s.pc = .action site step phase) (hph : phase ≠ .create ∧ phase ≠ .submit)
    (currentActionId : Option String) :
    Accounted d { s with currentActionId := currentActionId, pc := .action site step phase' } := by
  have hand := h.atPc.inHand hpc
  refine h.goto rfl rfl (congrArg _ (added_action hpc rfl)) (h.atPc.phase hpc rfl rfl ?_)
  exact ⟨hand.1, hand.2.1, fun _ _ => hand.2.2 hph.1 hph.2⟩

lemma Accounted.submitted_action {site : Site} (h : Accounted d s)
    (hpc : s.pc = .action site step .submit) :
    Accounted d { s with
      submissions := s.submissions ++ [step]
      pc := .action site step .track } := by
  have hand := h.atPc.inHand hpc
  refine h.submit hand.1 (added_action hpc rfl) (h.atPc.phase hpc rfl rfl ?_)
  exact ⟨hand.1, hand.2.1, fun _ _ => mem_append_right _ mem_cons_self⟩

lemma Accounted.between {o : Oracle} {pc : Pc} (h : Accounted d s) (hb : Between d s o pc) :
    Accounted d { s with pc := pc } := by
  have hat := h.atPc
  cases hb with
  | looked hpc hpc' =>
    rcases hpc with hpc | hpc <;> simp only [AtPc, hpc] at hat <;> fin_cases hpc' <;>
      exact h.goto rfl rfl (by simp [added, hpc]) hat
  | passed hpc hstep hexe =>
    simp only [AtPc, hpc] at hat
    refine h.goto rfl rfl (by simp [added, hpc]) (hat.succ fun x hx => ?_)
    cases hstep.symm.trans hx
    exact hexe
  | evaluated hpc
  | chosen hpc =>
    simp only [AtPc, hpc] at hat
    exact h.goto rfl rfl (by simp [added, hpc]) hat.1
  | entered hpc
  | skipped hpc =>
    simp only [AtPc, hpc] at hat
    exact h.goto rfl rfl (by simp [added, hpc]) hat

lemma Accounted.moved {o : Oracle} (h : Accounted d s) (hm : Moved d s o s') :
    Accounted d s' := by
  have hat := h.atPc
  cases hm with
  | test pc _ _ hb => exact h.between hb
  | cancelled hpc => exact h.finish_of_ne (by simp [added, hpc]) (by decide)
  | completed hpc hi =>
    have hcnt := h.count
    simp only [AtPc, hpc] at hat
    simp only [added, hpc, Nat.add_zero] at hcnt
    refine h.goto rfl rfl (by simp [added, hpc, SequenceEngine.finish]) fun _ => ⟨?_, hcnt⟩
    exact fun j hj => hat j (lt_of_lt_of_le hj (Nat.le_of_not_lt hi))
  | @branched i done hpc =>
    simp only [AtPc, hpc] at hat
    have hhead : Accounted d
        { s with completedSteps := s.completedSteps + done, pc := .head (i + 1) } :=
      h.goto rfl rfl (by simp [added, hpc]) hat
    rw [SequenceEngine.branching]
    split_ifs
    · exact hhead.updateProgress
    · exact hhead
  | taken hpc hnew hstep =>
    simp only [AtPc, hpc] at hat
    exact h.goto rfl rfl (by simp [added, hpc])
      ⟨hat, hstep, mem_of_getElem? hstep, hnew, fun hne => absurd rfl hne⟩
  | takenBranch hpc hnew hfind =>
    simp only [AtPc, hpc] at hat
    exact h.goto rfl rfl (by simp [added, hpc])
      ⟨hat, (findStep_spec hfind).1, hnew, fun hne => absurd rfl hne⟩
  | created hpc =>
    have hand := hat.inHand hpc
    exact h.goto rfl rfl (congrArg _ (added_action hpc rfl))
      (hat.phase hpc rfl rfl ⟨hand.1, hand.2.1, fun _ hne => absurd rfl hne⟩)
  | createThrew hpc => exact h.raise hpc
  | submitted hpc => exact h.submitted_action hpc
  | submitThrew hpc => exact (h.submitted_action hpc).raise rfl
  | waited id hpc hph => exact h.phase hpc (by fin_cases hph <;> decide) id
  | refused hpc =>
    simp only [AtPc, hpc] at hat
    obtain ⟨hpas, hstep, hand⟩ := hat
    exact h.goto rfl rfl (by simp [added, hpc])
      ⟨hpas, hstep, hand.1, hand.2.1, fun hne => absurd rfl hne⟩
  | fetched hpc
  | retried hpc =>
    simp only [AtPc, hpc] at hat
    exact h.goto rfl rfl (by simp [added, hpc]) hat
  | recorded hpc =>
    simp only [AtPc, hpc] at hat
    exact h.record hat.2 rfl rfl (by simp [added, hpc, Nat.add_assoc]) (hat.1.cons _)
  | concluded hpc => exact h.conclude hpc

lemma Accounted.next {l : Label} (h : Accounted d s) (hn : next d s l = some s') :
    Accounted d s' := by
  cases l with
  | step o => exact h.moved (moved_of_step hn)
  | cancel
  | pause
  | resume =>
    cases hn
    exact h.goto rfl rfl rfl h.atPc

variable (d) in
lemma accounted_start (progress : ℚ) (context : AList (fun _ : String => ExecutionResult)) :
    Accounted d (start progress context) := by
  refine ⟨nodup_nil, ?_, ?_, rfl, ?_⟩
  · intro a ha
    cases ha
  · intro x hx
    cases hx
  · intro j hj
    cases hj

lemma accounted_run {G : Engine → Label → Prop} {progress : ℚ}
    {context : AList (fun _ : String => ExecutionResult)} {ls : List Label}
    (h : Run (next d) G (start progress context) ls s) : Accounted d s :=
  h.invariant (Accounted d) (accounted_start d progress context)
    fun _ _ _ hs _ hn => hs.next hn

end Mxrc.Sequence.SequenceEngine
