import Mxrc.Sequence.Accounting

/-!
# Repetition in an execution

A journal records each action that is taken up, as a step or as a branch action,
with the calls of `executeAsync` made for it. An action is taken up again when a
branch action throws: the exception is caught and the action is not entered
among the executed ones.
-/

namespace Mxrc.Sequence.SequenceEngine
open Mxrc.Lib Mxrc.Action List Option

/-- An action that was taken up, and for each call of `executeAsync` whether
its result was a success. -/
structure TakeUp where
  actionId : String
  calls : List Bool
deriving DecidableEq

structure Journal where
  engine : Engine
  takeUps : List TakeUp

namespace Journal

def start (progress : ℚ) (context : AList (fun _ : String => ExecutionResult)) : Journal :=
  ⟨SequenceEngine.start progress context, []⟩

def record (takeUps : List TakeUp) (pc : Pc) (o : Oracle) (pc' : Pc) : List TakeUp :=
  match pc, o, pc' with
  | .take _, _, .action _ step _ | .branching _ _ _, _, .action _ step _ =>
    ⟨step.actionId, []⟩ :: takeUps
  | .action _ _ .submit, _, _ =>
    takeUps.modifyHead fun t => { t with calls := t.calls ++ [false] }
  | .action _ _ .fetch, .result r, _ =>
    takeUps.modifyHead fun t => { t with calls := t.calls.dropLast ++ [r.isSuccessful] }
  | _, _, _ => takeUps

variable (d : SequenceDefinition)

def next (j : Journal) : Label → Option Journal
  | .step o => (step d j.engine o).map fun s => ⟨s, record j.takeUps j.engine.pc o s.pc⟩
  | l => (SequenceEngine.next d j.engine l).map fun s => ⟨s, j.takeUps⟩

def maxCalls : ℕ :=
  match d.retryPolicy with
  | none => 1
  | some policy => (max 0 policy.maxRetries).toNat + 1

structure Frugal (j : Journal) : Prop where
  once : (j.takeUps.map (·.actionId)).Nodup
  calls_le : ∀ t ∈ j.takeUps, t.calls.length ≤ maxCalls d
  success_last : ∀ t ∈ j.takeUps, true ∉ t.calls.dropLast
  completed_le : j.engine.completedSteps ≤ d.steps.length

/-- No action is taken up twice, and the calls and completed steps are bounded,
at every point of every execution that meets the condition. -/
def Unrepeated (G : Journal → Label → Prop) : Prop :=
  ∀ progress context ls j, Run (next d) G (start progress context) ls j → Frugal d j

def NoBranchException (j : Journal) (l : Label) : Prop :=
  ∀ i rest added step phase message,
    j.engine.pc = .action (.branch i rest added) step phase → l ≠ .step (.throws message)

variable {d} {j j' : Journal} {l : Label}
  {s s' : Engine} {o : Oracle} {takeUps takeUps' : List TakeUp} {pc pc' : Pc} {site : Site}
  {step : ActionStep} {n i retryCount : ℕ} {G : Journal → Label → Prop} {progress : ℚ}
  {context : AList (fun _ : String => ExecutionResult)} {ls : List Label}

lemma next_engine (hn : next d j l = some j') :
    SequenceEngine.next d j.engine l = some j'.engine := by
  cases l with
  | step o =>
    obtain ⟨s, hs, rfl⟩ := map_eq_some_iff.mp hn
    exact hs
  | cancel
  | pause
  | resume =>
    cases hn
    rfl

/-! ## Calls -/

def callsMade : Phase → ℕ
  | .create | .submit => 0
  | _ => 1

def Current (takeUps : List TakeUp) (step : ActionStep) (n : ℕ) : Prop :=
  takeUps.head? = some ⟨step.actionId, List.replicate n false⟩

variable (d) in
def CallsAt (takeUps : List TakeUp) : Pc → Prop
  | .action site step phase => site.retryCount < maxCalls d ∧
      Current takeUps step (site.retryCount + callsMade phase)
  | .backoff _ retryCount step => retryCount + 1 < maxCalls d ∧
      Current takeUps step (retryCount + 1)
  | _ => True

variable (d) in
structure Bounded (takeUps : List TakeUp) (pc : Pc) : Prop where
  calls_le : ∀ t ∈ takeUps, t.calls.length ≤ maxCalls d
  success_last : ∀ t ∈ takeUps, true ∉ t.calls.dropLast
  callsAt : CallsAt d takeUps pc

lemma maxCalls_pos : 0 < maxCalls d := by
  unfold maxCalls
  split <;> omega

lemma lt_maxCalls_of_retries (h : retries d retryCount = true) : retryCount + 1 < maxCalls d := by
  unfold retries at h
  unfold maxCalls
  cases hpol : d.retryPolicy with
  | none => simp [hpol] at h
  | some policy =>
    simp only [hpol, any_some, canRetry, decide_eq_true_eq] at h
    simp only
    omega

lemma callsAt_of_inHand_eq_none (h : pc.inHand = none) : CallsAt d takeUps pc := by
  cases pc <;> trivial

lemma record_of_isBetween (hpc : pc.isBetween = true) (hpc' : pc'.inHand = none) :
    record takeUps pc o pc' = takeUps := by
  cases pc <;> cases pc' <;> first | rfl | contradiction

lemma Bounded.same (h : Bounded d takeUps pc) (hat : CallsAt d takeUps pc') :
    Bounded d takeUps pc' :=
  ⟨h.calls_le, h.success_last, hat⟩

lemma Bounded.takeUp (h : Bounded d takeUps pc) (step : ActionStep)
    (hsite : site.retryCount = 0) :
    Bounded d (⟨step.actionId, []⟩ :: takeUps) (.action site step .create) where
  calls_le := by
    intro t ht
    rcases mem_cons.mp ht with rfl | ht
    · exact Nat.zero_le _
    · exact h.calls_le t ht
  success_last := by
    intro t ht
    rcases mem_cons.mp ht with rfl | ht
    · simp
    · exact h.success_last t ht
  callsAt := by
    rw [CallsAt, hsite]
    exact ⟨maxCalls_pos, rfl⟩

lemma Bounded.modifyHead {f : List Bool → List Bool} (h : Bounded d takeUps pc)
    (hcur : Current takeUps step n)
    (hlen : (f (List.replicate n false)).length ≤ maxCalls d)
    (hlast : true ∉ (f (List.replicate n false)).dropLast)
    (hat : CallsAt d (takeUps.modifyHead fun t => { t with calls := f t.calls }) pc') :
    Bounded d (takeUps.modifyHead fun t => { t with calls := f t.calls }) pc' := by
  cases takeUps with
  | nil => cases hcur
  | cons t rest =>
    cases hcur
    refine ⟨?_, ?_, hat⟩
    · intro t ht
      rcases mem_cons.mp ht with rfl | ht
      · exact hlen
      · exact h.calls_le t (mem_cons_of_mem _ ht)
    · intro t ht
      rcases mem_cons.mp ht with rfl | ht
      · exact hlast
      · exact h.success_last t (mem_cons_of_mem _ ht)

lemma Bounded.submit (h : Bounded d takeUps (.action site step .submit))
    (hat : CallsAt d (takeUps.modifyHead fun t => { t with calls := t.calls ++ [false] }) pc') :
    Bounded d (takeUps.modifyHead fun t => { t with calls := t.calls ++ [false] }) pc' := by
  obtain ⟨hlt, hcur⟩ := h.callsAt
  refine h.modifyHead (f := fun calls => calls ++ [false]) hcur ?_ ?_ hat
  · rw [length_append, length_replicate]
    exact hlt
  · simp

lemma Bounded.fetch {success : Bool} (h : Bounded d takeUps (.action site step .fetch))
    (hat : CallsAt d
      (takeUps.modifyHead fun t => { t with calls := t.calls.dropLast ++ [success] }) pc') :
    Bounded d (takeUps.modifyHead fun t => { t with calls := t.calls.dropLast ++ [success] })
      pc' := by
  obtain ⟨hlt, hcur⟩ := h.callsAt
  refine h.modifyHead (f := fun calls => calls.dropLast ++ [success]) hcur ?_ ?_ hat
  · simpa [callsMade] using hlt
  · simp [callsMade]

lemma Current.submitted (h : Current takeUps step n) :
    Current (takeUps.modifyHead fun t => { t with calls := t.calls ++ [false] }) step (n + 1) := by
  rw [Current] at h ⊢
  rw [head?_modifyHead, h, map_some, replicate_succ']

lemma Current.refused (h : Current takeUps step (n + 1)) :
    Current (takeUps.modifyHead fun t => { t with calls := t.calls.dropLast ++ [false] }) step
      (n + 1) := by
  rw [Current] at h ⊢
  rw [head?_modifyHead, h, map_some, replicate_succ', dropLast_concat]

lemma Bounded.moved (h : Bounded d takeUps s.pc) (hm : Moved d s o s') :
    Bounded d (record takeUps s.pc o s'.pc) s'.pc := by
  cases hm with
  | test pc hpc hpc' =>
    rw [record_of_isBetween hpc (inHand_of_isBetween hpc')]
    exact h.same (callsAt_of_inHand_eq_none (inHand_of_isBetween hpc'))
  | cancelled hpc
  | completed hpc =>
    rw [record_of_isBetween (by rw [hpc]; rfl) rfl]
    exact h.same trivial
  | branched hpc =>
    rw [branching_nil_pc, record_of_isBetween (by rw [hpc]; rfl) rfl]
    exact h.same trivial
  | taken hpc hnew
  | takenBranch hpc hnew =>
    rw [hpc]
    exact h.takeUp _ rfl
  | created hpc =>
    rw [hpc] at h ⊢
    exact h.same h.callsAt
  | createThrew hpc =>
    rw [hpc] at h ⊢
    exact h.same (callsAt_of_inHand_eq_none raise_inHand)
  | submitted hpc =>
    rw [hpc] at h ⊢
    exact h.submit ⟨h.callsAt.1, h.callsAt.2.submitted⟩
  | submitThrew hpc =>
    rw [hpc] at h ⊢
    exact h.submit (callsAt_of_inHand_eq_none raise_inHand)
  | @waited site step phase phase' id hpc hph hph' =>
    rw [hpc] at h ⊢
    have hmade : callsMade phase' = callsMade phase := by
      fin_cases hph <;> fin_cases hph' <;> rfl
    have hrcd : record takeUps (.action site step phase) .go (.action site step phase') =
        takeUps := by
      fin_cases hph <;> rfl
    rw [hrcd]
    refine h.same ?_
    rw [CallsAt, hmade]
    exact h.callsAt
  | refused hpc hr hret =>
    rw [hpc] at h ⊢
    refine h.fetch ⟨lt_maxCalls_of_retries hret, ?_⟩
    rw [hr]
    exact h.callsAt.2.refused
  | fetched hpc
  | recorded hpc =>
    rw [hpc] at h ⊢
    exact h.fetch trivial
  | retried hpc =>
    rw [hpc] at h ⊢
    exact h.same h.callsAt
  | concluded hpc =>
    rw [hpc] at h ⊢
    exact h.same (callsAt_of_inHand_eq_none conclude_inHand)

lemma bounded_run (h : Run (next d) G (start progress context) ls j) :
    Bounded d j.takeUps j.engine.pc := by
  refine h.invariant (fun j => Bounded d j.takeUps j.engine.pc) ?_ ?_
  · refine ⟨?_, ?_, trivial⟩
    · intro t ht
      cases ht
    · intro t ht
      cases ht
  · intro j l j' hj _ hn
    cases l with
    | step o =>
      obtain ⟨s, hs, rfl⟩ := map_eq_some_iff.mp hn
      exact hj.moved (moved_of_step hs)
    | cancel
    | pause
    | resume =>
      cases hn
      exact hj

def called (takeUps : List TakeUp) : List String :=
  takeUps.reverse.flatMap fun t => List.replicate t.calls.length t.actionId

lemma called_cons (t : TakeUp) (takeUps : List TakeUp) :
    called (t :: takeUps) = called takeUps ++ List.replicate t.calls.length t.actionId := by
  simp [called]

lemma called_submit (h : Current takeUps step n) :
    called (takeUps.modifyHead fun t => { t with calls := t.calls ++ [false] }) =
      called takeUps ++ [step.actionId] := by
  cases takeUps with
  | nil => cases h
  | cons t rest =>
    cases h
    rw [modifyHead_cons, called_cons, called_cons, append_assoc, length_append,
      length_singleton, replicate_succ']

lemma called_fetch {success : Bool} (h : Current takeUps step (n + 1)) :
    called (takeUps.modifyHead fun t => { t with calls := t.calls.dropLast ++ [success] }) =
      called takeUps := by
  cases takeUps with
  | nil => cases h
  | cons t rest =>
    cases h
    simp [called_cons]

lemma raise_submissions {message : String} :
    (raise d s site step message).submissions = s.submissions := by
  cases site <;> rfl

lemma conclude_submissions {r : ExecutionResult} :
    (conclude d s i retryCount step r).submissions = s.submissions := by
  rw [conclude]
  split_ifs
  · rfl
  · rfl
  · rw [updateProgress_submissions]

lemma branching_nil_submissions {added : ℕ} :
    (branching d s i [] added).submissions = s.submissions := by
  rw [branching]
  split_ifs
  · rw [updateProgress_submissions]
  · rfl

lemma Bounded.called_moved (h : Bounded d takeUps s.pc)
    (hcal : s.submissions.map (·.actionId) = called takeUps) (hm : Moved d s o s') :
    s'.submissions.map (·.actionId) = called (record takeUps s.pc o s'.pc) := by
  cases hm with
  | test pc hpc hpc' =>
    rw [record_of_isBetween hpc (inHand_of_isBetween hpc')]
    exact hcal
  | cancelled hpc
  | completed hpc =>
    rw [record_of_isBetween (by rw [hpc]; rfl) rfl]
    exact hcal
  | branched hpc =>
    rw [branching_nil_pc, record_of_isBetween (by rw [hpc]; rfl) rfl, branching_nil_submissions]
    exact hcal
  | taken hpc hnew
  | takenBranch hpc hnew =>
    rw [hpc, record, called_cons]
    simpa using hcal
  | created hpc =>
    rw [hpc]
    exact hcal
  | createThrew hpc =>
    rw [hpc, raise_submissions]
    exact hcal
  | submitted hpc =>
    rw [hpc] at h ⊢
    rw [record, called_submit h.callsAt.2, ← hcal, map_append, map_singleton]
  | submitThrew hpc =>
    rw [hpc] at h ⊢
    rw [record, called_submit h.callsAt.2, ← hcal, raise_submissions, map_append, map_singleton]
  | waited id hpc hph hph' =>
    rw [hpc]
    fin_cases hph <;> exact hcal
  | refused hpc hr hret
  | fetched hpc
  | recorded hpc =>
    rw [hpc] at h ⊢
    rw [record, called_fetch h.callsAt.2]
    exact hcal
  | retried hpc =>
    rw [hpc]
    exact hcal
  | concluded hpc =>
    rw [hpc, conclude_submissions]
    exact hcal

lemma called_run (h : Run (next d) G (start progress context) ls j) :
    j.engine.submissions.map (·.actionId) = called j.takeUps := by
  induction h with
  | nil => rfl
  | @snoc _ _ l _ hpref _ hn ih =>
    cases l with
    | step o =>
      obtain ⟨s, hs, rfl⟩ := map_eq_some_iff.mp hn
      exact (bounded_run hpref).called_moved ih (moved_of_step hs)
    | cancel
    | pause
    | resume =>
      cases hn
      exact ih

/-! ## Take-ups -/

def ids (takeUps : List TakeUp) : List String := takeUps.map (·.actionId)

structure Once (takeUps : List TakeUp) (s : Engine) : Prop where
  nodup : (ids takeUps).Nodup
  taken : s.pc.isReturned = false → ∀ a ∈ ids takeUps, a ∈ s.executedActions ∨
    s.pc.inHand.map (·.actionId) = some a

lemma ids_modifyHead (takeUps : List TakeUp) (f : List Bool → List Bool) :
    ids (takeUps.modifyHead fun t => { t with calls := f t.calls }) = ids takeUps := by
  cases takeUps <;> rfl

lemma ids_record (h : pc.isBetween = false ∨ pc'.inHand = none) :
    ids (record takeUps pc o pc') = ids takeUps := by
  unfold record
  split
  · simp [Pc.isBetween, Pc.inHand] at h
  · simp [Pc.isBetween, Pc.inHand] at h
  · exact ids_modifyHead takeUps (· ++ [false])
  · exact ids_modifyHead takeUps (·.dropLast ++ [_])
  · rfl

section
variable (h : Once takeUps s)
include h

lemma Once.goto (hids : ids takeUps' = ids takeUps) (hopen : s.pc.isReturned = false)
    (hexe : s.executedActions ⊆ s'.executedActions)
    (hhand : s'.pc.isReturned = false → ∀ step, s.pc.inHand = some step →
      step.actionId ∈ s'.executedActions ∨ s'.pc.inHand = some step) : Once takeUps' s' where
  nodup := hids ▸ h.nodup
  taken := by
    intro hopen' a ha
    rw [hids] at ha
    rcases h.taken hopen a ha with hdone | hin
    · exact Or.inl (hexe hdone)
    · obtain ⟨step, hstep, rfl⟩ := map_eq_some_iff.mp hin
      rcases hhand hopen' step hstep with hdone | hin'
      · exact Or.inl hdone
      · exact Or.inr (by rw [hin']; rfl)

lemma Once.carry (hstep : s.pc.inHand = some step) (hstep' : s'.pc.inHand = some step)
    (hexe : s'.executedActions = s.executedActions) :
    Once (record takeUps s.pc o s'.pc) s' := by
  have hbet : s.pc.isBetween = false := by
    by_contra hne
    rw [inHand_of_isBetween (by simpa using hne)] at hstep
    cases hstep
  refine h.goto (ids_record (Or.inl hbet)) (isReturned_of_inHand hstep)
    (by rw [hexe]; exact List.Subset.refl _) ?_
  intro _ x hx
  rw [hstep', ← hstep]
  exact Or.inr hx

lemma Once.of_isBetween (hpc : s.pc.isBetween = true) (hids : ids takeUps' = ids takeUps)
    (hexe : s'.executedActions = s.executedActions) : Once takeUps' s' := by
  refine h.goto hids (isReturned_of_isBetween hpc) (by rw [hexe]; exact List.Subset.refl _) ?_
  intro _ step hstep
  rw [inHand_of_isBetween hpc] at hstep
  cases hstep

lemma Once.takeUp {phase : Phase} (hpc : s.pc.isBetween = true)
    (hnew : step.actionId ∉ s.executedActions) :
    Once (⟨step.actionId, []⟩ :: takeUps) { s with pc := .action site step phase } := by
  have hdone : ∀ a ∈ ids takeUps, a ∈ s.executedActions := by
    intro a ha
    rcases h.taken (isReturned_of_isBetween hpc) a ha with hdone | hin
    · exact hdone
    · rw [inHand_of_isBetween hpc] at hin
      cases hin
  refine ⟨nodup_cons.mpr ⟨fun hmem => hnew (hdone _ hmem), h.nodup⟩, ?_⟩
  intro _ a ha
  rcases mem_cons.mp ha with rfl | ha
  · exact Or.inr rfl
  · exact Or.inl (hdone a ha)

lemma Once.conclude {r : ExecutionResult} (hpc : s.pc = .conclude i retryCount step r) :
    Once takeUps (conclude d s i retryCount step r) := by
  have hopen : s.pc.isReturned = false := by rw [hpc]; rfl
  rw [SequenceEngine.conclude]
  split_ifs
  · refine h.goto rfl hopen (List.Subset.refl _) fun hopen' => ?_
    cases hopen'
  · refine h.goto rfl hopen (List.Subset.refl _) fun hopen' => ?_
    cases hopen'
  · refine h.goto rfl hopen ?_ ?_
    · rw [updateProgress_executedActions]
      exact subset_cons_self _ _
    · intro _ x hx
      rw [hpc] at hx
      cases hx
      rw [updateProgress_executedActions]
      exact Or.inl mem_cons_self

lemma Once.raise {message : String} {phase : Phase}
    (hpc : s.pc = .action (.main i retryCount) step phase) (hids : ids takeUps' = ids takeUps)
    (submissions : List ActionStep) :
    Once takeUps' (raise d { s with submissions := submissions } (.main i retryCount) step
      message) := by
  refine h.goto hids (by rw [hpc]; rfl) (List.Subset.refl _) ?_
  intro hopen
  cases hopen

lemma Once.moved (hm : Moved d s o s')
    (hquiet : ∀ i rest added step phase message,
      s.pc = .action (.branch i rest added) step phase → o ≠ .throws message) :
    Once (record takeUps s.pc o s'.pc) s' := by
  cases hm with
  | test pc hpc hpc' =>
    exact h.of_isBetween hpc (ids_record (Or.inr (inHand_of_isBetween hpc'))) rfl
  | cancelled hpc => exact h.of_isBetween (by rw [hpc]; rfl) (ids_record (Or.inr rfl)) rfl
  | completed hpc => exact h.of_isBetween (by rw [hpc]; rfl) (ids_record (Or.inr rfl)) rfl
  | branched hpc =>
    refine h.of_isBetween (by rw [hpc]; rfl) (ids_record (Or.inr ?_)) ?_
    · rw [branching_nil_pc]
      rfl
    · rw [branching]
      split_ifs
      · exact updateProgress_executedActions
      · rfl
  | taken hpc hnew
  | takenBranch hpc hnew =>
    rw [hpc]
    exact h.takeUp (by rw [hpc]; rfl) hnew
  | created hpc => exact h.carry (by rw [hpc]; rfl) rfl rfl
  | @createThrew site step message hpc =>
    cases site with
    | main i retryCount =>
      exact h.raise hpc (ids_record (Or.inl (by rw [hpc]; rfl))) s.submissions
    | branch i rest added => exact absurd rfl (hquiet _ _ _ _ _ message hpc)
  | submitted hpc => exact h.carry (by rw [hpc]; rfl) rfl rfl
  | @submitThrew site step message hpc =>
    cases site with
    | main i retryCount => exact h.raise hpc (ids_record (Or.inl (by rw [hpc]; rfl))) _
    | branch i rest added => exact absurd rfl (hquiet _ _ _ _ _ message hpc)
  | waited id hpc hph hph' => exact h.carry (by rw [hpc]; rfl) rfl rfl
  | refused hpc hr hret => exact h.carry (by rw [hpc]; rfl) rfl rfl
  | fetched hpc => exact h.carry (by rw [hpc]; rfl) rfl rfl
  | recorded hpc =>
    refine h.goto (ids_record (Or.inl (by rw [hpc]; rfl))) (by rw [hpc]; rfl)
      (subset_cons_self _ _) ?_
    intro _ x hx
    rw [hpc] at hx
    cases hx
    exact Or.inl mem_cons_self
  | retried hpc => exact h.carry (by rw [hpc]; rfl) rfl rfl
  | concluded hpc =>
    rw [hpc]
    exact h.conclude hpc

end

lemma once_run (h : Run (next d) NoBranchException (start progress context) ls j) :
    Once j.takeUps j.engine := by
  refine h.invariant (fun j => Once j.takeUps j.engine) ?_ ?_
  · refine ⟨nodup_nil, ?_⟩
    intro _ a ha
    cases ha
  · intro j l j' hj hg hn
    cases l with
    | step o =>
      obtain ⟨s, hs, rfl⟩ := map_eq_some_iff.mp hn
      refine hj.moved (moved_of_step hs) ?_
      intro i rest added step phase message hpc ho
      exact hg i rest added step phase message hpc (congrArg Label.step ho)
    | cancel
    | pause
    | resume =>
      cases hn
      exact ⟨hj.nodup, hj.taken⟩

lemma completedSteps_le (h : Run (next d) G (start progress context) ls j) :
    j.engine.completedSteps ≤ d.steps.length := by
  have hacc : Accounted d j.engine :=
    h.invariant (fun j => Accounted d j.engine) (accounted_start d progress context)
      fun _ _ _ hj _ hn => hj.next (next_engine hn)
  have hsub : j.engine.executedActions ⊆ d.steps.map (·.actionId) := by
    intro a ha
    obtain ⟨step, hstep, rfl⟩ := hacc.submitted a ha
    exact List.mem_map_of_mem (hacc.inSteps step hstep)
  have hlen := (hacc.nodup.subperm hsub).length_le
  rw [length_map, ← hacc.count] at hlen
  omega

theorem unrepeated_of_noBranchException (d : SequenceDefinition) :
    Unrepeated d NoBranchException := by
  intro progress context ls j h
  have hboun := bounded_run h
  exact ⟨(once_run h).nodup, hboun.calls_le, hboun.success_last, completedSteps_le h⟩

def pickAndPlace : SequenceDefinition where
  id := "transport"
  steps := [⟨"pick", "move", 0⟩, ⟨"place", "move", 0⟩]
  conditionalBranches := AList.insert "pick" ⟨"pick == ok", ["place"], []⟩ ∅
  retryPolicy := none

/-- The creation of the branch action throws, and the main loop takes it up again. -/
theorem not_unrepeated : ¬ ∀ d, Unrepeated d (fun _ _ => True) := by
  intro hall
  have hexec : (exec (next pickAndPlace) (fun _ _ => true) (start 0 ∅)
      [.step .go, .step .go, .step .go, .step .go, .step .go, .step .go, .step .go, .step .go,
        .step (.result ⟨"pick", .completed, ""⟩), .step .go, .step (.condition true), .step .go,
        .step (.throws "no such action type"), .step .go, .step .go, .step .go, .step .go]).map
      (fun j => j.takeUps.map (·.actionId)) = some ["place", "place", "pick"] := by
    decide +kernel
  obtain ⟨j, hrun, htakeUps⟩ := exists_run_of_exec (fun _ _ _ => trivial) hexec
  have hfrug := hall pickAndPlace 0 ∅ _ j hrun
  have hnd := hfrug.once
  rw [htakeUps] at hnd
  exact absurd hnd (by decide)

end Journal
end Mxrc.Sequence.SequenceEngine
