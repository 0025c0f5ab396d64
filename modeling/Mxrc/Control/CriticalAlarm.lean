import Mxrc.Control.Steps
import Mxrc.Robot.PalletTransportTask

/-!
# Critical alarms

A tick that finds a critical alarm stops the current task before it changes the
mode, and a pallet transport task can only be stopped while it is running: in
any other status the exception leaves `tick`. In FAULT the alarm has no effect
at all.
-/

namespace Mxrc.Control
open Mxrc.Lib Mxrc.Robot

lemma BehaviorPriorityQueue.pop_eq_none_iff {τ : Type} {q : BehaviorPriorityQueue τ} :
    q.pop = none ↔ q = .empty := by
  constructor
  · intro h
    obtain ⟨es, si, ut, nt, mt⟩ := q
    rw [pop] at h
    repeat' split at h
    all_goals simp_all [empty]
  · intro h
    rw [h]
    rfl

namespace BehaviorArbiter
variable {s : BehaviorArbiter ℕ PalletTransportTask.Objects} {alarms : Alarms}
  {current r : Accepted ℕ} {q : BehaviorPriorityQueue ℕ}

def status (s : BehaviorArbiter ℕ PalletTransportTask.Objects) (b : Accepted ℕ) : TaskStatus :=
  (s.world b.task).status

def RunningCurrent (s : BehaviorArbiter ℕ PalletTransportTask.Objects) : Prop :=
  ∃ b, s.currentBehavior = some b ∧ s.status b = .running

/-- The call returns, in FAULT, with nothing pending and nothing running. -/
def Faulted : EStateM.Result String (BehaviorArbiter ℕ PalletTransportTask.Objects) Unit → Prop
  | .ok _ s => s.currentMode = .fault ∧ s.pendingBehaviors = .empty ∧ ¬ RunningCurrent s
  | .error _ _ => False

/-- The current task is not running, and nothing is pending but perhaps one request that the tick
drops. -/
def Quiescent (s : BehaviorArbiter ℕ PalletTransportTask.Objects) : Prop :=
  ¬ RunningCurrent s ∧ (s.pendingBehaviors = .empty ∨
    s.paused = false ∧ ∃ current r, s.currentBehavior = some current ∧
      (s.status current).finished = false ∧ s.pendingBehaviors.pop = some (r, .empty) ∧
      shouldPreempt r current = false)

def Stoppable (s : BehaviorArbiter ℕ PalletTransportTask.Objects) : Prop :=
  ∀ b, s.currentBehavior = some b → s.status b = .running

lemma not_faulted_startTask (r : Accepted ℕ)
    (s : BehaviorArbiter ℕ PalletTransportTask.Objects) :
    ¬ Faulted ((startTask PalletTransportTask.api r).run s) := by
  rw [startTask_run]
  by_cases hidle : (s.world r.task).status = .idle
  · have hstr : PalletTransportTask.api.start r.task s.world = _ :=
      PalletTransportTask.call_move_of_eq hidle
    rw [callTask_run_ok (by rw [hstr])]
    intro hfaul
    refine hfaul.2.2 ⟨r, rfl, ?_⟩
    simp [status, hstr]
  · have hstr : (PalletTransportTask.api.start r.task s.world).1 = some _ :=
      PalletTransportTask.call_move_of_ne hidle
    rw [callTask_run_error (by exact hstr)]
    exact id

lemma faulted_ok_iff (h : s.currentMode = .fault) :
    Faulted (.ok () s) ↔ s.pendingBehaviors = .empty ∧ ¬ RunningCurrent s := by
  simp [Faulted, h]

lemma not_quiescent_of_pop (hpop : s.pendingBehaviors.pop = some (r, q))
    (h : ∀ current, s.currentBehavior = some current → (s.status current).finished = false →
      s.paused = false → shouldPreempt r current = true ∨ q ≠ .empty) : ¬ Quiescent s := by
  intro hq
  rcases hq.2 with hemp | ⟨hpau, current, r', hc, hf, hpop', hp⟩
  · rw [BehaviorPriorityQueue.pop_eq_none_iff.mpr hemp] at hpop
    cases hpop
  · cases hpop.symm.trans hpop'
    rcases h current hc hf hpau with hp' | hne
    · rw [hp] at hp'
      cases hp'
    · exact hne rfl

lemma faulted_startNext_iff (h : s.currentMode = .fault) (hc : s.currentBehavior = none) :
    Faulted ((arbitrate.startNext PalletTransportTask.api).run s) ↔
      s.pendingBehaviors = .empty := by
  cases hpop : s.pendingBehaviors.pop with
  | none =>
    have hemp := BehaviorPriorityQueue.pop_eq_none_iff.mp hpop
    rw [startNext_run_none hpop, faulted_ok_iff h]
    simp [hemp, RunningCurrent, hc]
  | some p =>
    rw [startNext_run_some hpop]
    refine iff_of_false (not_faulted_startTask _ _) fun hemp => ?_
    rw [BehaviorPriorityQueue.pop_eq_none_iff.mpr hemp] at hpop
    cases hpop

lemma not_faulted_handlePreemption (hc : s.currentBehavior = some current)
    (hp : shouldPreempt r current = true) :
    ¬ Faulted ((handlePreemption PalletTransportTask.api r).run s) := by
  by_cases hrng : (s.world current.task).status = .running
  · by_cases hr : r.priority = .emergencyStop
    · have hstop : (PalletTransportTask.api.stop current.task s.world).1 = none :=
        congrArg Prod.fst (PalletTransportTask.call_move_of_eq hrng)
      rw [handlePreemption_run_cancel hc hr hstop]
      exact not_faulted_startTask _ _
    · have hpause : (PalletTransportTask.api.pause current.task s.world).1 = none :=
        congrArg Prod.fst (PalletTransportTask.call_move_of_eq hrng)
      rw [handlePreemption_run_pause hc hp hr hpause]
      exact not_faulted_startTask _ _
  · have hthr : ∃ e, (PalletTransportTask.api.stopCall (stopMethod r) current.task s.world).1 =
        some e := by
      cases stopMethod r with
      | cancel => exact ⟨_, PalletTransportTask.call_move_of_ne hrng⟩
      | pause => exact ⟨_, PalletTransportTask.call_move_of_ne hrng⟩
    obtain ⟨e, he⟩ := hthr
    rw [handlePreemption_run_error hc hp he]
    exact id

lemma quiescent_iff_of_finished
    (h : ∀ current, s.currentBehavior = some current → (s.status current).finished = true) :
    Quiescent s ↔ s.pendingBehaviors = .empty := by
  constructor
  · intro hq
    rcases hq.2 with hemp | ⟨-, current, r, hc, hf, -⟩
    · exact hemp
    · rw [h current hc] at hf
      cases hf
  · intro hemp
    refine ⟨?_, .inl hemp⟩
    intro hrng
    obtain ⟨b, hb, hst⟩ := hrng
    have hf := h b hb
    rw [hst] at hf
    cases hf

lemma faulted_arbitrate_iff (h : s.currentMode = .fault) (hpau : s.paused = false) :
    Faulted ((arbitrate PalletTransportTask.api).run s) ↔ Quiescent s := by
  cases hc : s.currentBehavior with
  | none =>
    rw [arbitrate_run_none hc, faulted_startNext_iff h hc, quiescent_iff_of_finished (by simp [hc])]
  | some current =>
    cases hf : (s.status current).finished with
    | true =>
      have hquies := quiescent_iff_of_finished (s := s) (by simp [hc, hf])
      cases hsafe : s.pendingSafeMode with
      | false =>
        rw [arbitrate_run_finished hc hf hsafe, hquies]
        exact faulted_startNext_iff (s := { s with currentBehavior := none }) h rfl
      | true =>
        rw [arbitrate_run_safeMode hc hf hsafe, hquies]
        simp [Faulted, RunningCurrent, h, isValidTransition]
    | false =>
      cases hpop : s.pendingBehaviors.pop with
      | none =>
        have hemp := BehaviorPriorityQueue.pop_eq_none_iff.mp hpop
        rw [arbitrate_run_continue hc hf hpop, faulted_ok_iff h, Quiescent]
        simp [hemp]
      | some p =>
        obtain ⟨r, q⟩ := p
        cases hp : shouldPreempt r current with
        | true =>
          rw [arbitrate_run_preempt hc hf hpop hp]
          refine iff_of_false (not_faulted_handlePreemption hc hp) (not_quiescent_of_pop hpop ?_)
          intro current' hc' _ _
          cases hc.symm.trans hc'
          exact .inl hp
        | false =>
          rw [arbitrate_run_drop hc hf hpop hp]
          by_cases hq : q = .empty
          · subst hq
            simp only [Faulted, h, true_and]
            exact ⟨fun hrest => ⟨hrest, .inr ⟨hpau, current, r, hc, hf, hpop, hp⟩⟩, fun hq => hq.1⟩
          · exact iff_of_false (fun hfaul => hq hfaul.2.1)
              (not_quiescent_of_pop hpop fun _ _ _ _ => .inr hq)

lemma faulted_tick_fault_iff (h : s.currentMode = .fault) :
    Faulted ((tick PalletTransportTask.api alarms).run s) ↔ Quiescent s := by
  rw [tick_run_fault h]
  cases hpau : s.paused with
  | true =>
    rw [if_pos rfl, faulted_ok_iff h, Quiescent, hpau]
    simp [and_comm]
  | false => exact faulted_arbitrate_iff h hpau

theorem faulted_tick_iff (s : BehaviorArbiter ℕ PalletTransportTask.Objects)
    (hcritical : alarms.hasCriticalAlarm = true) :
    Faulted ((tick PalletTransportTask.api alarms).run s) ↔
      (s.currentMode ≠ .fault → Stoppable s) ∧ (s.currentMode = .fault → Quiescent s) := by
  by_cases hflt : s.currentMode = .fault
  · simp [faulted_tick_fault_iff hflt, hflt]
  · simp only [hflt, ne_eq, not_false_eq_true, true_implies, false_implies, and_true]
    cases hc : s.currentBehavior with
    | none =>
      rw [tick_run_critical hcritical hflt (transitionTo_run_fault_none hc) rfl,
        faulted_tick_fault_iff rfl]
      refine iff_of_true ⟨?_, .inl rfl⟩ (by simp [Stoppable, hc])
      simp [RunningCurrent, enterFault, hc]
    | some b =>
      by_cases hrng : s.status b = .running
      · have hstop : PalletTransportTask.api.stop b.task s.world = _ :=
          PalletTransportTask.call_move_of_eq hrng
        rw [tick_run_critical hcritical hflt
          (transitionTo_run_fault_ok hc (congrArg Prod.fst hstop)) rfl, faulted_tick_fault_iff rfl]
        refine iff_of_true ⟨?_, .inl rfl⟩ (by simp [Stoppable, hc, hrng])
        simp [RunningCurrent, enterFault, hc, status, hstop]
      · have hstop : (PalletTransportTask.api.stop b.task s.world).1 = some _ :=
          PalletTransportTask.call_move_of_ne hrng
        rw [tick_run_critical_error hcritical hflt (transitionTo_run_fault_error hc hstop)]
        exact iff_of_false id fun hstopp => hrng (hstopp b hc)

def transport : BehaviorRequest ℕ := ⟨"transport", .normalTask, 0, true⟩

def idleTasks : PalletTransportTask.Objects := fun _ => ⟨"pallet", .idle⟩

theorem faulted_tick_running :
    let s : BehaviorArbiter ℕ PalletTransportTask.Objects :=
      { make (fun _ => ⟨"pallet", .running⟩) with
      currentBehavior := some ⟨transport, 0⟩
      pendingBehaviors := { BehaviorPriorityQueue.empty with normalTask := [⟨transport, 1⟩] } }
    Faulted ((tick PalletTransportTask.api ⟨true, false⟩).run s) := by
  intro s
  refine (faulted_tick_iff s rfl).mpr ⟨?_, ?_⟩
  · intro _ b hb
    cases hb
    rfl
  · intro hflt
    cases hflt

/-- The current task was paused with the arbiter, and cannot be stopped. -/
theorem not_faulted_tick_paused :
    ¬ ∀ (w₀ : PalletTransportTask.Objects) (ls : List (Label ℕ PalletTransportTask.Objects))
      (s : BehaviorArbiter ℕ PalletTransportTask.Objects) (alarms : Alarms),
      Run (next PalletTransportTask.api) (fun _ _ => True) (make w₀) ls s →
      alarms.hasCriticalAlarm = true → Faulted ((tick PalletTransportTask.api alarms).run s) := by
  intro hall
  have hexec : (exec (next PalletTransportTask.api) (fun _ _ => true) (make idleTasks)
      [.requestBehavior transport, .tick ⟨false, false⟩, .pause]).map (fun s =>
        (s.currentMode, s.currentBehavior, (s.world 0).status)) =
      some (.standby, some ⟨transport, 0⟩, .paused) := by decide +kernel
  obtain ⟨s, hrun, hend⟩ := exists_run_of_exec (fun _ _ _ => trivial) hexec
  simp only [Prod.mk.injEq] at hend
  obtain ⟨hmode, hc, hst⟩ := hend
  have hfaul := hall _ _ s ⟨true, false⟩ hrun rfl
  have hstop : (PalletTransportTask.api.stop 0 s.world).1 = some _ :=
    PalletTransportTask.call_move_of_ne (by rw [hst]; decide)
  rw [tick_run_critical_error rfl (by rw [hmode]; decide)
    (transitionTo_run_fault_error hc hstop)] at hfaul
  exact hfaul

end BehaviorArbiter
end Mxrc.Control
