import Mxrc.Sequence.Accounting

/-!
# What COMPLETED means

The main loop goes on after every result that is neither failed nor cancelled,
and a branch after every result. Either way the action counts as executed and is
skipped from then on.
-/

namespace Mxrc.Sequence.SequenceEngine
open Mxrc.Lib Mxrc.Action

def StoredSuccess (s : Engine) (a : String) : Prop :=
  ∃ r, s.context.lookup a = some r ∧ r.isSuccessful = true

def succeededIds (s : Engine) : Finset String :=
  ((s.submissions.map (·.actionId)).filter fun a =>
    (s.context.lookup a).any (·.isSuccessful)).toFinset

/-- Every step succeeded, and the completed steps of the result are the distinct ids executed
successfully. -/
def ReallySucceeded (d : SequenceDefinition) (s : Engine) (r : SequenceResult) : Prop :=
  (∀ step ∈ d.steps, StoredSuccess s step.actionId) ∧ r.completedSteps = (succeededIds s).card

/-- A main action ends successful, failed or cancelled, and a branch action successful. -/
def recordsSuccess (s : Engine) : Label → Bool
  | .step .go =>
    match s.pc with
    | .conclude _ _ _ r => r.isSuccessful || r.isFailed || r.isCancelled
    | _ => true
  | .step (.result r) =>
    match s.pc with
    | .action (.branch _ _ _) _ .fetch => r.isSuccessful
    | _ => true
  | _ => true

def AllSucceeded (s : Engine) : Prop := ∀ a ∈ s.executedActions, StoredSuccess s a

inductive Records (s s' : Engine) (ok : Bool) : Prop
  | kept (hexecuted : s'.executedActions = s.executedActions)
      (hcontext : ∀ a ∈ s.executedActions, s'.context.lookup a = s.context.lookup a)
      (hok : ok = true)
  | recorded (a : String) (r : ExecutionResult) (hnew : a ∉ s.executedActions)
      (hexecuted : s'.executedActions = a :: s.executedActions)
      (hcontext : s'.context = s.context.insert a r) (hok : ok = r.isSuccessful)

variable {d : SequenceDefinition} {s s' : Engine}

lemma StoredSuccess.congr {a : String} (h : s'.context.lookup a = s.context.lookup a) :
    StoredSuccess s' a ↔ StoredSuccess s a := by
  rw [StoredSuccess, h, StoredSuccess]

lemma Records.allSucceeded_iff {ok : Bool} (h : Records s s' ok) :
    AllSucceeded s' ↔ AllSucceeded s ∧ ok = true := by
  cases h with
  | kept hexe hctx hok =>
    rw [AllSucceeded, hexe, hok]
    simp only [and_true]
    exact forall₂_congr fun a ha => StoredSuccess.congr (hctx a ha)
  | recorded b r hnew hexe hctx hok =>
    have hold : ∀ a ∈ s.executedActions, (StoredSuccess s' a ↔ StoredSuccess s a) := by
      intro a ha
      refine StoredSuccess.congr ?_
      rw [hctx]
      exact AList.lookup_insert_ne fun heq => hnew (heq ▸ ha)
    have hb : StoredSuccess s' b ↔ r.isSuccessful = true := by
      rw [StoredSuccess, hctx, AList.lookup_insert]
      simp
    rw [AllSucceeded, hexe, hok, List.forall_mem_cons, hb, and_comm]
    exact and_congr_left fun _ => forall₂_congr hold

lemma Records.of_eq (hexe : s'.executedActions = s.executedActions)
    (hctx : s'.context = s.context) : Records s s' true :=
  .kept hexe (fun a _ => by rw [hctx]) rfl

lemma updateProgress_books (s : Engine) :
    (updateProgress d s).executedActions = s.executedActions ∧
      (updateProgress d s).context = s.context := by
  rw [updateProgress]
  split_ifs <;> exact ⟨rfl, rfl⟩

lemma records_conclude {i retryCount : ℕ} {step : ActionStep} {r : ExecutionResult}
    (hnew : step.actionId ∉ s.executedActions) :
    Records s (conclude d s i retryCount step r)
      (r.isSuccessful || r.isFailed || r.isCancelled) := by
  have hsto : ∀ a ∈ s.executedActions,
      (s.context.insert step.actionId r).lookup a = s.context.lookup a :=
    fun a ha => AList.lookup_insert_ne fun heq => hnew (heq ▸ ha)
  rw [conclude]
  split_ifs with hcan hfail
  · refine .kept rfl hsto ?_
    simp only [Bool.or_eq_true, Bool.and_eq_true, decide_eq_true_eq] at hcan
    rcases hcan with h | ⟨h, -⟩
    · simp [h]
    · simp [ExecutionResult.isFailed, h]
  · exact .kept rfl hsto (by simp [hfail])
  · obtain ⟨hexe, hctx⟩ := updateProgress_books (d := d) { s with
      context := s.context.insert step.actionId r
      completedSteps := s.completedSteps + 1
      executedActions := step.actionId :: s.executedActions
      pc := .evaluate i step }
    refine .recorded step.actionId r hnew hexe hctx ?_
    simp only [Bool.or_eq_true, not_or, Bool.not_eq_true] at hcan hfail
    simp [hcan.1, hfail]

lemma recordsSuccess_of_isBetween (h : s.pc.isBetween = true) (o : Oracle) :
    recordsSuccess s (.step o) = true := by
  cases hpc : s.pc <;> rw [hpc] at h <;> cases h <;> cases o <;> simp only [recordsSuccess, hpc]

lemma records_moved {o : Oracle} (h : Accounted d s) (hm : Moved d s o s') :
    Records s s' (recordsSuccess s (.step o)) := by
  have hat := h.atPc
  cases hm with
  | test pc hpc =>
    rw [recordsSuccess_of_isBetween hpc]
    exact .of_eq rfl rfl
  | @branched i done hpc =>
    simp only [recordsSuccess, hpc, branching]
    split_ifs
    · obtain ⟨hexe, hctx⟩ := updateProgress_books (d := d)
        { s with completedSteps := s.completedSteps + done, pc := .head (i + 1) }
      exact .of_eq hexe hctx
    · exact .of_eq rfl rfl
  | @createThrew site
  | @submitThrew site => cases site <;> exact .of_eq rfl rfl
  | @recorded i done rest step r hpc =>
    simp only [recordsSuccess, hpc]
    exact .recorded step.actionId r (hat.inHand hpc).2.1 rfl rfl rfl
  | concluded hpc =>
    simp only [AtPc, hpc] at hat
    simp only [recordsSuccess, hpc]
    exact records_conclude hat.2.2.2.1
  | waited id hpc
  | _ hpc =>
    simp only [recordsSuccess, hpc]
    exact .of_eq rfl rfl

lemma records_next {l : Label} (h : Accounted d s) (hn : next d s l = some s') :
    Records s s' (recordsSuccess s l) := by
  cases l with
  | step o => exact records_moved h (moved_of_step hn)
  | cancel
  | pause
  | resume =>
    cases hn
    exact .of_eq rfl rfl

lemma allSucceeded_iff_run {progress : ℚ} {context : AList (fun _ : String => ExecutionResult)}
    {ls : List Label} (h : Run (next d) (fun _ _ => True) (start progress context) ls s) :
    AllSucceeded s ↔
      Run (next d) (fun s l => recordsSuccess s l = true) (start progress context) ls s := by
  induction h with
  | nil =>
    refine iff_of_true (fun a ha => ?_) .nil
    cases ha
  | snoc h _ hn ih =>
    rw [(records_next (accounted_run h) hn).allSucceeded_iff, ih]
    constructor
    · intro hboth
      exact hboth.1.snoc hboth.2 hn
    · intro hrun
      obtain ⟨mid, hmid, hok, -⟩ := hrun.snoc_inv
      cases h.deterministic hmid
      exact ⟨hmid, hok⟩

section
variable {r : SequenceResult}

lemma mem_succeededIds {a : String} :
    a ∈ succeededIds s ↔ (∃ step ∈ s.submissions, step.actionId = a) ∧ StoredSuccess s a := by
  simp [succeededIds, StoredSuccess, Option.any_eq_true]

lemma succeededIds_eq (h : Accounted d s)
    (hpas : Passed d s.executedActions d.steps.length) (hall : AllSucceeded s) :
    succeededIds s = s.executedActions.toFinset := by
  ext a
  rw [mem_succeededIds, List.mem_toFinset]
  constructor
  · rintro ⟨⟨x, hx, rfl⟩, -⟩
    exact hpas.mem (h.inSteps x hx)
  · intro ha
    exact ⟨h.submitted a ha, hall a ha⟩

lemma reallySucceeded_iff (h : Accounted d s) (hpc : s.pc = .returned r)
    (hcompleted : r.status = .completed) : ReallySucceeded d s r ↔ AllSucceeded s := by
  have hat := h.atPc
  simp only [AtPc, hpc] at hat
  obtain ⟨hpas, hcnt⟩ := hat hcompleted
  constructor
  · intro hreal a ha
    obtain ⟨x, hx, rfl⟩ := h.submitted a ha
    exact hreal.1 x (h.inSteps x hx)
  · intro hall
    refine ⟨fun x hx => hall _ (hpas.mem hx), ?_⟩
    rw [succeededIds_eq h hpas hall, List.toFinset_card_of_nodup h.nodup, hcnt]

theorem reallySucceeded_iff_run {progress : ℚ}
    {context : AList (fun _ : String => ExecutionResult)} {ls : List Label}
    (hrun : Run (next d) (fun _ _ => True) (start progress context) ls s)
    (hpc : s.pc = .returned r) (hcompleted : r.status = .completed) :
    ReallySucceeded d s r ↔
      Run (next d) (fun s l => recordsSuccess s l = true) (start progress context) ls s := by
  rw [reallySucceeded_iff (accounted_run hrun) hpc hcompleted, allSucceeded_iff_run hrun]

end

def retriedPick : SequenceDefinition :=
  ⟨"transport", [⟨"pick", "move", 0⟩], ∅, some ⟨1⟩⟩

theorem reallySucceeded_retried : ∃ s r,
    Run (next retriedPick) (fun _ _ => True) (start 0 ∅)
      [.step .go, .step .go, .step .go, .step .go,
      .step .go, .step .go, .step .go, .step .go, .step (.result ⟨"pick", .failed, "blocked"⟩),
      .step .go, .step .go, .step .go, .step .go, .step .go, .step .go,
      .step (.result ⟨"pick", .completed, ""⟩), .step .go, .step .go, .step .go] s ∧
    s.pc = .returned r ∧ ReallySucceeded retriedPick s r := by
  have hexec : (exec (next retriedPick) recordsSuccess (start 0 ∅) [.step .go, .step .go, .step .go,
      .step .go, .step .go, .step .go, .step .go, .step .go,
      .step (.result ⟨"pick", .failed, "blocked"⟩), .step .go, .step .go, .step .go, .step .go,
      .step .go, .step .go, .step (.result ⟨"pick", .completed, ""⟩), .step .go, .step .go,
      .step .go]).map (·.pc) =
      some (.returned ⟨"transport", .completed, "", 1, 1⟩) := by decide +kernel
  obtain ⟨s, hguar, hpc⟩ :=
    exists_run_of_exec (G := fun s l => recordsSuccess s l = true) (fun _ _ => id) hexec
  have hrun := hguar.weaken fun _ _ _ => trivial
  exact ⟨s, _, hrun, hpc, (reallySucceeded_iff_run hrun hpc rfl).mpr hguar⟩

/-- A branch action fails, is remembered as executed and skipped by the main loop. -/
def checkThenReport : SequenceDefinition where
  id := "inspection"
  steps := [⟨"check", "sensor", 0⟩, ⟨"report", "message", 0⟩]
  conditionalBranches := AList.insert "check" ⟨"check == ok", ["report"], []⟩ ∅
  retryPolicy := none

theorem not_reallySucceeded :
    ¬ ∀ (d : SequenceDefinition) (progress : ℚ)
      (context : AList (fun _ : String => ExecutionResult))
      (ls : List Label) (s : Engine) (r : SequenceResult),
      Run (next d) (fun _ _ => True) (start progress context) ls s → s.pc = .returned r →
      r.status = .completed → ReallySucceeded d s r := by
  intro hall
  have hexec : (exec (next checkThenReport) (fun _ _ => true) (start 0 ∅) [.step .go, .step .go,
      .step .go, .step .go, .step .go, .step .go, .step .go, .step .go,
      .step (.result ⟨"check", .completed, ""⟩), .step .go, .step (.condition true), .step .go,
      .step .go, .step .go, .step .go, .step .go, .step .go,
      .step (.result ⟨"report", .failed, "offline"⟩), .step .go, .step .go, .step .go, .step .go,
      .step .go]).map (fun s => (s.pc, s.context.lookup "report")) =
      some (.returned ⟨"inspection", .completed, "", 2, 2⟩,
        some ⟨"report", .failed, "offline"⟩) := by decide +kernel
  obtain ⟨s, hrun, hend⟩ := exists_run_of_exec (fun _ _ _ => trivial) hexec
  simp only [Prod.mk.injEq] at hend
  obtain ⟨hpc, hrep⟩ := hend
  have hreal := hall checkThenReport 0 ∅ _ s _ hrun hpc rfl
  obtain ⟨x, hx, hsuc⟩ := hreal.1 ⟨"report", "message", 0⟩ (by decide)
  cases hrep.symm.trans hx
  cases hsuc

end Mxrc.Sequence.SequenceEngine
