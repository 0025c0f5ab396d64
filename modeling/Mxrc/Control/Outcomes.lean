import Mxrc.Control.Evaluation

/-!
# The states a call can lead to

Each call of the arbiter is described by the states it can end in: `Outcome` for
arbitration, `Checked` for the two alarm checks, `TickOutcome` for the whole
tick and `StepOutcome` for every call.
-/

namespace Mxrc.Control
open Mxrc.Lib

namespace BehaviorArbiter
variable {τ ω : Type} {api : TaskApi τ ω} {s s' : BehaviorArbiter τ ω} {alarms : Alarms}
  {b r current : Accepted τ} {q : BehaviorPriorityQueue τ} {l : Label τ ω}

def Busy (api : TaskApi τ ω) (s : BehaviorArbiter τ ω) (current : Accepted τ) : Prop :=
  s.currentBehavior = some current ∧ (api.getStatus current.task s.world).finished = false

def Free (api : TaskApi τ ω) (s : BehaviorArbiter τ ω) : Prop :=
  ∀ current, s.currentBehavior = some current →
    (api.getStatus current.task s.world).finished = true ∧ s.pendingSafeMode = false

lemma Free.not_busy (h : Free api s) : ¬ Busy api s current := by
  intro hbusy
  have hfin := (h current hbusy.1).1
  rw [hbusy.2] at hfin
  cases hfin

inductive Outcome (api : TaskApi τ ω) (s : BehaviorArbiter τ ω) : BehaviorArbiter τ ω → Prop
  | idle (hfree : Free api s) (hpop : s.pendingBehaviors.pop = none) :
      Outcome api s { s with currentBehavior := none }
  | next (r : Accepted τ) (q : BehaviorPriorityQueue τ) (hfree : Free api s)
      (hpop : s.pendingBehaviors.pop = some (r, q)) :
      Outcome api s (after (startTask api r) { s with
        currentBehavior := none
        pendingBehaviors := q })
  | safeMode (current : Accepted τ) (hcurrent : s.currentBehavior = some current)
      (hfinished : (api.getStatus current.task s.world).finished = true)
      (hsafe : s.pendingSafeMode = true) :
      Outcome api s { s with
        currentMode := if isValidTransition s.currentMode .maint then .maint else s.currentMode
        currentBehavior := none
        pendingSafeMode := false
        stats.modeTransitions := s.stats.modeTransitions +
          if isValidTransition s.currentMode .maint then 1 else 0 }
  | continued (current : Accepted τ) (hbusy : Busy api s current)
      (hpop : s.pendingBehaviors.pop = none) : Outcome api s s
  | dropped (current r : Accepted τ) (q : BehaviorPriorityQueue τ) (hbusy : Busy api s current)
      (hpop : s.pendingBehaviors.pop = some (r, q)) (hp : shouldPreempt r current = false) :
      Outcome api s { s with pendingBehaviors := q }
  | failed (current r : Accepted τ) (q : BehaviorPriorityQueue τ) (e : String)
      (hbusy : Busy api s current) (hpop : s.pendingBehaviors.pop = some (r, q))
      (hp : shouldPreempt r current = true)
      (he : (api.stopCall (stopMethod r) current.task s.world).1 = some e) :
      Outcome api s { s with
        pendingBehaviors := q
        stats.preemptions := s.stats.preemptions + 1
        world := (api.stopCall (stopMethod r) current.task s.world).2 }
  | stopped (current r : Accepted τ) (q : BehaviorPriorityQueue τ) (hbusy : Busy api s current)
      (hpop : s.pendingBehaviors.pop = some (r, q)) (hp : shouldPreempt r current = true)
      (hr : r.priority = .emergencyStop) (hok : (api.stop current.task s.world).1 = none) :
      Outcome api s (after (startTask api r) (enterFault { s with
        pendingBehaviors := q
        stats.preemptions := s.stats.preemptions + 1
        currentBehavior := none
        world := (api.stop current.task s.world).2 }))
  | suspended (current r : Accepted τ) (q : BehaviorPriorityQueue τ) (hbusy : Busy api s current)
      (hpop : s.pendingBehaviors.pop = some (r, q)) (hp : shouldPreempt r current = true)
      (hr : r.priority ≠ .emergencyStop) (hok : (api.pause current.task s.world).1 = none) :
      Outcome api s (after (startTask api r) { s with
        pendingBehaviors := q
        stats.preemptions := s.stats.preemptions + 1
        suspendedBehaviors := s.suspendedBehaviors.insert current.behaviorId current
        currentBehavior := none
        world := (api.pause current.task s.world).2 })

lemma stopsFor_of_stop (hbusy : Busy api s current) (hr : r.priority = .emergencyStop)
    (hok : (api.stop current.task s.world).1 = none) : StopsFor api s r := by
  refine ⟨current, hbusy.1, ?_⟩
  rw [stopMethod, if_pos hr]
  exact hok

lemma stopsFor_of_pause (hbusy : Busy api s current) (hr : r.priority ≠ .emergencyStop)
    (hok : (api.pause current.task s.world).1 = none) : StopsFor api s r := by
  refine ⟨current, hbusy.1, ?_⟩
  rw [stopMethod, if_neg hr]
  exact hok

lemma outcome_startNext (hfree : Free api s) :
    Outcome api s (after (arbitrate.startNext api) { s with currentBehavior := none }) := by
  cases hpop : s.pendingBehaviors.pop with
  | none =>
    rw [after_of_ok (startNext_run_none (by exact hpop))]
    exact .idle hfree hpop
  | some p =>
    obtain ⟨r, q⟩ := p
    rw [after_congr (startNext_run_some (by exact hpop))]
    exact .next r q hfree hpop

lemma outcome_handlePreemption (hbusy : Busy api s current)
    (hpop : s.pendingBehaviors.pop = some (r, q)) (hp : shouldPreempt r current = true) :
    Outcome api s (after (handlePreemption api r) { s with pendingBehaviors := q }) := by
  cases he : (api.stopCall (stopMethod r) current.task s.world).1 with
  | some e =>
    rw [after_of_error
      (handlePreemption_run_error (s := { s with pendingBehaviors := q }) hbusy.1 hp he)]
    exact .failed current r q e hbusy hpop hp he
  | none =>
    by_cases hr : r.priority = .emergencyStop
    · rw [stopMethod, if_pos hr] at he
      rw [after_congr
        (handlePreemption_run_cancel (s := { s with pendingBehaviors := q }) hbusy.1 hr he)]
      exact .stopped current r q hbusy hpop hp hr he
    · rw [stopMethod, if_neg hr] at he
      rw [after_congr
        (handlePreemption_run_pause (s := { s with pendingBehaviors := q }) hbusy.1 hp hr he)]
      exact .suspended current r q hbusy hpop hp hr he

lemma outcome_arbitrate (api : TaskApi τ ω) (s : BehaviorArbiter τ ω) :
    Outcome api s (after (arbitrate api) s) := by
  cases hc : s.currentBehavior with
  | none =>
    have hfree : Free api s := by
      intro current hcur
      rw [hc] at hcur
      cases hcur
    have hsame : { s with currentBehavior := none } = s := by rw [← hc]
    rw [after_congr (arbitrate_run_none hc), ← congrArg (after (arbitrate.startNext api)) hsame]
    exact outcome_startNext hfree
  | some current =>
    cases hf : (api.getStatus current.task s.world).finished with
    | true =>
      cases hsafe : s.pendingSafeMode with
      | false =>
        have hfree : Free api s := by
          intro b hb
          cases hc.symm.trans hb
          exact ⟨hf, hsafe⟩
        rw [after_congr (arbitrate_run_finished hc hf hsafe)]
        exact outcome_startNext hfree
      | true =>
        rw [after_of_ok (arbitrate_run_safeMode hc hf hsafe)]
        exact .safeMode current hc hf hsafe
    | false =>
      cases hpop : s.pendingBehaviors.pop with
      | none =>
        rw [after_of_ok (arbitrate_run_continue hc hf hpop)]
        exact .continued current ⟨hc, hf⟩ hpop
      | some p =>
        obtain ⟨r, q⟩ := p
        cases hp : shouldPreempt r current with
        | false =>
          rw [after_of_ok (arbitrate_run_drop hc hf hpop hp)]
          exact .dropped current r q ⟨hc, hf⟩ hpop hp
        | true =>
          rw [after_congr (arbitrate_run_preempt hc hf hpop hp)]
          exact outcome_handlePreemption ⟨hc, hf⟩ hpop hp

inductive Warned (alarms : Alarms) (s : BehaviorArbiter τ ω) : BehaviorArbiter τ ω → Prop
  | calm (h : ¬ (alarms.hasActiveWarnings = true ∧ s.currentMode ≠ .maint ∧
      s.currentMode ≠ .fault ∧ s.pendingSafeMode = false)) : Warned alarms s s
  | postponed (hw : alarms.hasActiveWarnings = true) (hc : s.currentBehavior.isSome = true) :
      Warned alarms s { s with pendingSafeMode := true }
  | refused (hw : alarms.hasActiveWarnings = true) (hc : s.currentBehavior.isSome = false)
      (hvalid : isValidTransition s.currentMode .maint = false) : Warned alarms s s
  | maint (hw : alarms.hasActiveWarnings = true) (hc : s.currentBehavior.isSome = false)
      (hvalid : isValidTransition s.currentMode .maint = true) :
      Warned alarms s { s with
        currentMode := .maint
        stats.modeTransitions := s.stats.modeTransitions + 1 }

lemma checkWarningAlarms_cases (api : TaskApi τ ω) (alarms : Alarms) (s : BehaviorArbiter τ ω) :
    ∃ t, (checkWarningAlarms api alarms).run s = .ok () t ∧ Warned alarms s t := by
  cases hw : alarms.hasActiveWarnings with
  | false => exact ⟨s, by simp [checkWarningAlarms, hw], .calm (by simp [hw])⟩
  | true =>
    by_cases hcond : s.currentMode ≠ .maint ∧ s.currentMode ≠ .fault ∧ s.pendingSafeMode = false
    · cases hc : s.currentBehavior.isSome with
      | true =>
        refine ⟨{ s with pendingSafeMode := true }, ?_, .postponed hw hc⟩
        simp [checkWarningAlarms, hw, hcond, hc]
      | false =>
        cases hval : isValidTransition s.currentMode .maint with
        | true =>
          refine ⟨_, ?_, .maint hw hc hval⟩
          simp [checkWarningAlarms, hw, hcond, hc, transitionTo_run_valid, hval]
        | false =>
          refine ⟨s, ?_, .refused hw hc hval⟩
          simp [checkWarningAlarms, hw, hcond, hc, transitionTo_run_invalid, hval]
    · refine ⟨s, ?_, .calm fun h => hcond h.2⟩
      simp only [checkWarningAlarms, hw, if_true, EStateM.run_bind, EStateM.run_get, if_neg hcond]
      rfl

inductive Checked (alarms : Alarms) (s : BehaviorArbiter τ ω) : BehaviorArbiter τ ω → Prop
  | warned (t : BehaviorArbiter τ ω)
      (hquiet : alarms.hasCriticalAlarm = false ∨ s.currentMode = .fault)
      (h : Warned alarms s t) : Checked alarms s t
  | faulted (w : ω) (hcritical : alarms.hasCriticalAlarm = true) (hfault : s.currentMode ≠ .fault) :
      Checked alarms s (enterFault { s with world := w })

inductive TickOutcome (api : TaskApi τ ω) (alarms : Alarms) (s s' : BehaviorArbiter τ ω) : Prop
  | interrupted (w : ω) (hcritical : alarms.hasCriticalAlarm = true)
      (hfault : s.currentMode ≠ .fault) (hs' : s' = { s with world := w })
  | waited (hchecked : Checked alarms s s') (hpaused : s'.paused = true)
  | arbitrated (t : BehaviorArbiter τ ω) (hchecked : Checked alarms s t)
      (hpaused : t.paused = false) (h : Outcome api t s')

lemma TickOutcome.of_run {t : BehaviorArbiter τ ω} (hchk : Checked alarms s t)
    (hrun : (tick api alarms).run s = if t.paused then .ok () t else (arbitrate api).run t) :
    TickOutcome api alarms s (after (tick api alarms) s) := by
  cases hpau : t.paused with
  | true =>
    rw [after_of_ok (hrun.trans (if_pos hpau))]
    exact .waited hchk hpau
  | false =>
    rw [after_congr (hrun.trans (if_neg (by simp [hpau])))]
    exact .arbitrated t hchk hpau (outcome_arbitrate api t)

lemma outcome_tick (api : TaskApi τ ω) (alarms : Alarms) (s : BehaviorArbiter τ ω) :
    TickOutcome api alarms s (after (tick api alarms) s) := by
  by_cases hquiet : alarms.hasCriticalAlarm = false ∨ s.currentMode = .fault
  · obtain ⟨t, hrun, hwar⟩ := checkWarningAlarms_cases api alarms s
    exact .of_run (.warned t hquiet hwar) (tick_run_checked hquiet hrun)
  · push Not at hquiet
    obtain ⟨hcrit, hflt⟩ := hquiet
    rw [Ne, Bool.not_eq_false] at hcrit
    cases hc : s.currentBehavior with
    | none =>
      have hrun : (tick api alarms).run s = (tick api alarms).run s.enterFault :=
        tick_run_critical hcrit hflt (transitionTo_run_fault_none hc) rfl
      exact .of_run (.faulted s.world hcrit hflt) (hrun.trans (tick_run_fault rfl))
    | some b =>
      cases he : (api.stop b.task s.world).1 with
      | none =>
        have hrun := tick_run_critical hcrit hflt (transitionTo_run_fault_ok hc he) rfl
        exact .of_run (.faulted _ hcrit hflt) (hrun.trans (tick_run_fault rfl))
      | some e =>
        rw [after_of_error (tick_run_critical_error hcrit hflt
          (transitionTo_run_fault_error hc he))]
        exact .interrupted _ hcrit hflt rfl

lemma Checked.eq_of_quiet {t : BehaviorArbiter τ ω} (h : Checked ⟨false, false⟩ s t) : t = s := by
  cases h with
  | warned _ _ hwar =>
    cases hwar with
    | calm => rfl
    | postponed hw => cases hw
    | refused => rfl
    | maint hw => cases hw
  | faulted _ hcrit => cases hcrit

lemma outcome_of_quiet (hpau : s.paused = false) :
    Outcome api s (after (tick api ⟨false, false⟩) s) := by
  cases outcome_tick api ⟨false, false⟩ s with
  | interrupted _ hcrit => cases hcrit
  | waited hchk hp =>
    rw [hchk.eq_of_quiet, hpau] at hp
    cases hp
  | arbitrated t hchk _ h =>
    rw [hchk.eq_of_quiet] at h
    exact h

inductive StepOutcome (api : TaskApi τ ω) (s : BehaviorArbiter τ ω) :
    Label τ ω → BehaviorArbiter τ ω → Prop
  | ticked (alarms : Alarms) (s' : BehaviorArbiter τ ω) (h : TickOutcome api alarms s s') :
      StepOutcome api s (.tick alarms) s'
  | rejected (request : BehaviorRequest τ) :
      StepOutcome api s (.requestBehavior request) { s with
        stats.totalRequests := s.stats.totalRequests + 1 }
  | accepted (request : BehaviorRequest τ) (q : BehaviorPriorityQueue τ)
      (hpush : s.pendingBehaviors.push ⟨request, s.history.accepted⟩ = some q) :
      StepOutcome api s (.requestBehavior request) { s with
        stats.totalRequests := s.stats.totalRequests + 1
        pendingBehaviors := q
        history.accepted := s.history.accepted + 1 }
  | called (l : Label τ ω) (hl : ∀ alarms, l ≠ .tick alarms) (w : ω) :
      StepOutcome api s l { s with world := w }
  | paused (w : ω) : StepOutcome api s .pause { s with paused := true, world := w }
  | resumed (w : ω) : StepOutcome api s .resume { s with paused := false, world := w }
  | moved (newMode : ControlMode) (hvalid : isValidTransition s.currentMode newMode = true)
      (hfault : newMode ≠ .fault) :
      StepOutcome api s (.transitionTo newMode) { s with
        currentMode := newMode
        stats.modeTransitions := s.stats.modeTransitions + 1 }
  | faulted (w : ω) : StepOutcome api s (.transitionTo .fault) (enterFault { s with world := w })
  | cleared : StepOutcome api s .clearPendingBehaviors { s with
      pendingBehaviors := .empty
      suspendedBehaviors := ∅
      history.dropped := tickets s.pendingBehaviors.toList ++ s.history.dropped
      history.withdrawn := s.suspendedTickets ++ s.history.withdrawn }
  | withdrawn (b : Accepted τ) (hc : s.currentBehavior = some b)
      (hcancellable : b.cancellable = true) (w : ω) :
      StepOutcome api s (.cancelBehavior b.behaviorId) { s with
        currentBehavior := none
        world := w
        history.withdrawn := b.ticket :: s.history.withdrawn }
  | erased (behaviorId : String) (b : Accepted τ)
      (hother : ∀ b, s.currentBehavior = some b → b.behaviorId ≠ behaviorId)
      (hlookup : s.suspendedBehaviors.lookup behaviorId = some b) :
      StepOutcome api s (.cancelBehavior behaviorId) { s with
        suspendedBehaviors := s.suspendedBehaviors.erase behaviorId
        history.withdrawn := b.ticket :: s.history.withdrawn }

lemma StepOutcome.kept (hl : ∀ alarms, l ≠ .tick alarms) : StepOutcome api s l s :=
  .called l hl s.world

lemma outcome_requestBehavior (request : BehaviorRequest τ) (s : BehaviorArbiter τ ω) :
    StepOutcome api s (.requestBehavior request) (after (requestBehavior request) s) := by
  cases hpush : s.pendingBehaviors.push ⟨request, s.history.accepted⟩ with
  | none =>
    have hrun : (requestBehavior request).run s = .ok false { s with
        stats.totalRequests := s.stats.totalRequests + 1 } := by
      simp [requestBehavior, hpush]
    rw [after_of_ok hrun]
    exact .rejected request
  | some q =>
    have hrun : (requestBehavior request).run s = .ok true { s with
        stats.totalRequests := s.stats.totalRequests + 1
        pendingBehaviors := q
        history.accepted := s.history.accepted + 1 } := by
      simp [requestBehavior, hpush]
    rw [after_of_ok hrun]
    exact .accepted request q hpush

lemma outcome_transitionTo (newMode : ControlMode) (s : BehaviorArbiter τ ω) :
    StepOutcome api s (.transitionTo newMode) (after (transitionTo api newMode) s) := by
  cases hval : isValidTransition s.currentMode newMode with
  | false =>
    rw [after_of_ok (transitionTo_run_invalid hval)]
    exact .kept (by simp)
  | true =>
    by_cases hflt : newMode = .fault
    · subst hflt
      cases hc : s.currentBehavior with
      | none =>
        rw [after_of_ok (transitionTo_run_fault_none hc)]
        exact .faulted s.world
      | some b =>
        cases he : (api.stop b.task s.world).1 with
        | none =>
          rw [after_of_ok (transitionTo_run_fault_ok hc he)]
          exact .faulted _
        | some e =>
          rw [after_of_error (transitionTo_run_fault_error hc he)]
          exact .called _ (by simp) _
    · rw [after_of_ok (transitionTo_run_valid hval hflt)]
      exact .moved newMode hval hflt

lemma outcome_cancelBehavior (behaviorId : String) (s : BehaviorArbiter τ ω) :
    StepOutcome api s (.cancelBehavior behaviorId) (after (cancelBehavior api behaviorId) s) := by
  by_cases hoth : ∀ b, s.currentBehavior = some b → b.behaviorId ≠ behaviorId
  · rw [after_congr (cancelBehavior_run_other hoth)]
    cases hlk : s.suspendedBehaviors.lookup behaviorId with
    | none =>
      rw [after_of_ok (cancelSuspended_run_none hlk)]
      exact .kept (by simp)
    | some b =>
      rw [after_of_ok (cancelSuspended_run_some hlk)]
      exact .erased behaviorId b hoth hlk
  · push Not at hoth
    obtain ⟨b, hc, rfl⟩ := hoth
    cases hcan : b.cancellable with
    | false =>
      rw [after_of_ok (cancelBehavior_run_refused hc rfl hcan)]
      exact .kept (by simp)
    | true =>
      cases he : (api.stop b.task s.world).1 with
      | none =>
        rw [after_of_ok (cancelBehavior_run_ok hc rfl hcan he)]
        exact .withdrawn b hc hcan _
      | some e =>
        rw [after_of_error (cancelBehavior_run_error hc rfl hcan he)]
        exact .called _ (by simp) _

lemma outcome_pause (s : BehaviorArbiter τ ω) :
    StepOutcome api s .pause (after (pause api) s) := by
  cases hp : s.paused with
  | true =>
    have hrun : (pause api).run s = .ok false s := by simp [pause, hp]
    rw [after_of_ok hrun]
    exact .kept (by simp)
  | false =>
    have haft : after (pause api) s =
        after (stopCurrentTask api .pause) { s with paused := true } := by
      cases hrun : (stopCurrentTask api .pause).run { s with paused := true } <;>
        simp [after, pause, hp, hrun]
    obtain ⟨w, hw⟩ := after_stopCurrentTask api .pause { s with paused := true }
    rw [haft, hw]
    exact .paused w

lemma outcome_resume (s : BehaviorArbiter τ ω) :
    StepOutcome api s .resume (after (resume api) s) := by
  cases hp : s.paused with
  | false =>
    have hrun : (resume api).run s = .ok false s := by simp [resume, hp]
    rw [after_of_ok hrun]
    exact .kept (by simp)
  | true =>
    cases hc : s.currentBehavior with
    | none =>
      have hrun : (resume api).run s = .ok true { s with paused := false } := by
        simp [resume, hp, hc]
      rw [after_of_ok hrun]
      exact .resumed s.world
    | some b =>
      cases he : (api.resume b.task s.world).1 with
      | none =>
        have hrun : (resume api).run s = .ok true { s with
            paused := false
            world := (api.resume b.task s.world).2 } := by
          simp [resume, hp, hc, callTask_run_ok, he]
        rw [after_of_ok hrun]
        exact .resumed _
      | some e =>
        have hrun : (resume api).run s = .error e { s with
            paused := false
            world := (api.resume b.task s.world).2 } := by
          simp [resume, hp, hc, callTask_run_error, he]
        rw [after_of_error hrun]
        exact .resumed _

lemma outcome_next (hn : next api s l = some s') : StepOutcome api s l s' := by
  cases l with
  | requestBehavior request =>
    cases hn
    exact outcome_requestBehavior request s
  | tick alarms =>
    cases hn
    exact .ticked alarms _ (outcome_tick api alarms s)
  | transitionTo newMode =>
    cases hn
    exact outcome_transitionTo newMode s
  | clearPendingBehaviors =>
    cases hn
    exact .cleared
  | cancelBehavior behaviorId =>
    cases hn
    exact outcome_cancelBehavior behaviorId s
  | pause =>
    cases hn
    exact outcome_pause s
  | resume =>
    cases hn
    exact outcome_resume s
  | tasks w =>
    cases hn
    exact .called _ (by simp) w

end BehaviorArbiter
end Mxrc.Control
