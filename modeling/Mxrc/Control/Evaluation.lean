import Mxrc.Control.BehaviorArbiter

/-!
# What a tick of the arbiter comes to

The operations of the arbiter evaluated on a state: what they return, or the
state an exception leaves. In FAULT the alarm checks do nothing and a tick
arbitrates as in any other mode.
-/

namespace Mxrc.Control
open Mxrc.Lib

namespace BehaviorArbiter
variable {τ ω : Type} {api : TaskApi τ ω} {s s' : BehaviorArbiter τ ω} {alarms : Alarms}
  {b r current : Accepted τ} {q : BehaviorPriorityQueue τ} {e : String}

section
variable {call : τ → ω → Option String × ω} {task : τ} {method : StopMethod}

lemma callTask_run_ok (h : (call task s.world).1 = none) :
    (callTask call task).run s = .ok () { s with world := (call task s.world).2 } := by
  simp [callTask, h]

lemma callTask_run_error (h : (call task s.world).1 = some e) :
    (callTask call task).run s = .error e { s with world := (call task s.world).2 } := by
  simp [callTask, h]

lemma after_callTask (call : τ → ω → Option String × ω) (task : τ) (s : BehaviorArbiter τ ω) :
    after (callTask call task) s = { s with world := (call task s.world).2 } := by
  cases h : (call task s.world).1 with
  | none => exact after_of_ok (callTask_run_ok h)
  | some e => exact after_of_error (callTask_run_error h)

lemma stopCurrentTask_run_none (h : s.currentBehavior = none) :
    (stopCurrentTask api method).run s = .ok () s := by
  simp [stopCurrentTask, h]

lemma stopCurrentTask_run_some (h : s.currentBehavior = some b) :
    (stopCurrentTask api method).run s = (callTask (api.stopCall method) b.task).run s := by
  simp [stopCurrentTask, h]

lemma after_stopCurrentTask (api : TaskApi τ ω) (method : StopMethod) (s : BehaviorArbiter τ ω) :
    ∃ w, after (stopCurrentTask api method) s = { s with world := w } := by
  rcases Option.eq_none_or_eq_some s.currentBehavior with hc | ⟨b, hc⟩
  · exact ⟨s.world, after_of_ok (stopCurrentTask_run_none hc)⟩
  · rw [after_congr (stopCurrentTask_run_some hc)]
    exact ⟨_, after_callTask _ _ s⟩

end

lemma startTask_run (b : Accepted τ) (s : BehaviorArbiter τ ω) :
    (startTask api b).run s = (callTask api.start b.task).run { s with
      currentBehavior := some b
      history.started := b.ticket :: s.history.started } := by
  simp [startTask]

lemma after_startTask (b : Accepted τ) (s : BehaviorArbiter τ ω) :
    after (startTask api b) s = { s with
      currentBehavior := some b
      history.started := b.ticket :: s.history.started
      world := (api.start b.task s.world).2 } := by
  rw [after_congr (startTask_run b s), after_callTask]

section
variable {newMode : ControlMode}

lemma isValidTransition_fault (mode : ControlMode) : isValidTransition mode .fault = true := rfl

def enterFault (s : BehaviorArbiter τ ω) : BehaviorArbiter τ ω :=
  { s with
    currentMode := .fault
    pendingBehaviors := .empty
    suspendedBehaviors := ∅
    stats.modeTransitions := s.stats.modeTransitions + 1
    history.dropped := tickets s.pendingBehaviors.toList ++ s.history.dropped
    history.withdrawn := s.suspendedTickets ++ s.history.withdrawn }

lemma transitionTo_run_invalid (h : isValidTransition s.currentMode newMode = false) :
    (transitionTo api newMode).run s = .ok false s := by
  simp [transitionTo, h]

lemma transitionTo_run_valid (h : isValidTransition s.currentMode newMode = true)
    (hne : newMode ≠ .fault) :
    (transitionTo api newMode).run s = .ok true { s with
      currentMode := newMode
      stats.modeTransitions := s.stats.modeTransitions + 1 } := by
  simp [transitionTo, h, hne]

lemma transitionTo_run_fault_none (h : s.currentBehavior = none) :
    (transitionTo api .fault).run s = .ok true s.enterFault := by
  simp [transitionTo, isValidTransition_fault, stopCurrentTask_run_none h, clearPendingBehaviors,
    enterFault, h, suspendedTickets]

lemma transitionTo_run_fault_ok (h : s.currentBehavior = some b)
    (hok : (api.stop b.task s.world).1 = none) :
    (transitionTo api .fault).run s =
      .ok true { s with world := (api.stop b.task s.world).2 }.enterFault := by
  simp [transitionTo, isValidTransition_fault, stopCurrentTask_run_some h, callTask_run_ok,
    TaskApi.stopCall, hok, clearPendingBehaviors, enterFault, suspendedTickets]

lemma transitionTo_run_fault_error (h : s.currentBehavior = some b)
    (he : (api.stop b.task s.world).1 = some e) :
    (transitionTo api .fault).run s =
      .error e { s with world := (api.stop b.task s.world).2 } := by
  simp [transitionTo, isValidTransition_fault, stopCurrentTask_run_some h, callTask_run_error,
    TaskApi.stopCall, he]

end

section

def stopMethod (r : Accepted τ) : StopMethod :=
  if r.priority = .emergencyStop then .cancel else .pause

def StopsFor (api : TaskApi τ ω) (s : BehaviorArbiter τ ω) (r : Accepted τ) : Prop :=
  ∃ current, s.currentBehavior = some current ∧
    (api.stopCall (stopMethod r) current.task s.world).1 = none

lemma shouldPreempt_cases (h : shouldPreempt r current = true) :
    r.priority = .emergencyStop ∨ r.priority = .safetyIssue ∨
      r.priority = .urgentTask ∧ Priority.normalTask ≤ current.priority := by
  rw [shouldPreempt, Bool.and_eq_true, decide_eq_true_eq, canPreempt, decide_eq_true_eq] at h
  obtain ⟨hlt, hcan⟩ := h
  cases hr : r.priority with
  | emergencyStop => exact .inl rfl
  | safetyIssue => exact .inr (.inl rfl)
  | urgentTask =>
    rw [hr] at hlt
    exact .inr (.inr ⟨rfl, hlt⟩)
  | normalTask => exact absurd (hr ▸ hcan) (by decide)
  | maintenance => exact absurd (hr ▸ hcan) (by decide)
  | unknown k =>
    rw [hr] at hcan
    have hle : 5 + (k : ℕ) ≤ 2 := hcan
    omega

lemma handlePreemption_run_error (h : s.currentBehavior = some current)
    (hp : shouldPreempt r current = true)
    (he : (api.stopCall (stopMethod r) current.task s.world).1 = some e) :
    (handlePreemption api r).run s = .error e { s with
      stats.preemptions := s.stats.preemptions + 1
      world := (api.stopCall (stopMethod r) current.task s.world).2 } := by
  rcases shouldPreempt_cases hp with hr | hr | ⟨hr, hle⟩ <;> simp only [stopMethod, hr] at he ⊢
  · simp_all [handlePreemption, stopCurrentTask_run_some, callTask_run_error]
  · simp_all [handlePreemption, stopCurrentTask_run_some, callTask_run_error]
  · simp_all [handlePreemption, stopCurrentTask_run_some, callTask_run_error]

lemma handlePreemption_run_cancel (h : s.currentBehavior = some current)
    (hr : r.priority = .emergencyStop) (hok : (api.stop current.task s.world).1 = none) :
    (handlePreemption api r).run s = (startTask api r).run { s with
      stats.preemptions := s.stats.preemptions + 1
      currentBehavior := none
      world := (api.stop current.task s.world).2 }.enterFault := by
  simp [handlePreemption, h, hr, stopCurrentTask_run_some, callTask_run_ok, TaskApi.stopCall, hok,
    transitionTo_run_fault_none]

lemma handlePreemption_run_pause (h : s.currentBehavior = some current)
    (hp : shouldPreempt r current = true) (hr : r.priority ≠ .emergencyStop)
    (hok : (api.pause current.task s.world).1 = none) :
    (handlePreemption api r).run s = (startTask api r).run { s with
      stats.preemptions := s.stats.preemptions + 1
      suspendedBehaviors := s.suspendedBehaviors.insert current.behaviorId current
      currentBehavior := none
      world := (api.pause current.task s.world).2 } := by
  rcases shouldPreempt_cases hp with hr' | hr' | ⟨hr', hle⟩
  · exact absurd hr' hr
  · simp [handlePreemption, h, hr', stopCurrentTask_run_some, callTask_run_ok, TaskApi.stopCall,
      hok, suspendCurrent]
  · simp [handlePreemption, h, hr', hle, stopCurrentTask_run_some, callTask_run_ok,
      TaskApi.stopCall, hok, suspendCurrent]

end

section

lemma startNext_run_none (h : s.pendingBehaviors.pop = none) :
    (arbitrate.startNext api).run s = .ok () s := by
  simp [arbitrate.startNext, selectNextBehavior, h]

lemma startNext_run_some (h : s.pendingBehaviors.pop = some (r, q)) :
    (arbitrate.startNext api).run s = (startTask api r).run { s with pendingBehaviors := q } := by
  simp [arbitrate.startNext, selectNextBehavior, h]

lemma arbitrate_run_none (h : s.currentBehavior = none) :
    (arbitrate api).run s = (arbitrate.startNext api).run s := by
  simp [arbitrate, h]

section
variable (h : s.currentBehavior = some current)
include h

lemma arbitrate_run_finished (hf : (api.getStatus current.task s.world).finished = true)
    (hsafe : s.pendingSafeMode = false) :
    (arbitrate api).run s = (arbitrate.startNext api).run { s with currentBehavior := none } := by
  simp [arbitrate, h, hf, hsafe]

lemma arbitrate_run_safeMode (hf : (api.getStatus current.task s.world).finished = true)
    (hsafe : s.pendingSafeMode = true) :
    (arbitrate api).run s = .ok () { s with
      currentMode := if isValidTransition s.currentMode .maint then .maint else s.currentMode
      currentBehavior := none
      pendingSafeMode := false
      stats.modeTransitions := s.stats.modeTransitions +
        if isValidTransition s.currentMode .maint then 1 else 0 } := by
  cases hval : isValidTransition s.currentMode .maint with
  | true => simp [arbitrate, h, hf, hsafe, transitionTo_run_valid, hval]
  | false => simp [arbitrate, h, hf, hsafe, transitionTo_run_invalid, hval]

lemma arbitrate_run_continue (hf : (api.getStatus current.task s.world).finished = false)
    (hpop : s.pendingBehaviors.pop = none) : (arbitrate api).run s = .ok () s := by
  simp [arbitrate, h, hf, selectNextBehavior, hpop]

lemma arbitrate_run_drop (hf : (api.getStatus current.task s.world).finished = false)
    (hpop : s.pendingBehaviors.pop = some (r, q)) (hp : shouldPreempt r current = false) :
    (arbitrate api).run s = .ok () { s with pendingBehaviors := q } := by
  simp [arbitrate, h, hf, selectNextBehavior, hpop, hp]

lemma arbitrate_run_preempt (hf : (api.getStatus current.task s.world).finished = false)
    (hpop : s.pendingBehaviors.pop = some (r, q)) (hp : shouldPreempt r current = true) :
    (arbitrate api).run s = (handlePreemption api r).run { s with pendingBehaviors := q } := by
  simp [arbitrate, h, hf, selectNextBehavior, hpop, hp]

end
end

section

lemma checkCriticalAlarms_run_quiet
    (h : alarms.hasCriticalAlarm = false ∨ s.currentMode = .fault) :
    (checkCriticalAlarms api alarms).run s = .ok () s := by
  rcases h with h | h
  · simp [checkCriticalAlarms, h]
  · cases hc : alarms.hasCriticalAlarm <;> simp [checkCriticalAlarms, hc, h]

lemma checkWarningAlarms_run_fault (h : s.currentMode = .fault) :
    (checkWarningAlarms api alarms).run s = .ok () s := by
  cases hw : alarms.hasActiveWarnings <;> simp [checkWarningAlarms, hw, h]

lemma tick_run_checked {t : BehaviorArbiter τ ω}
    (hquiet : alarms.hasCriticalAlarm = false ∨ s.currentMode = .fault)
    (hrun : (checkWarningAlarms api alarms).run s = .ok () t) :
    (tick api alarms).run s = if t.paused then .ok () t else (arbitrate api).run t := by
  simp only [tick, EStateM.run_bind, checkCriticalAlarms_run_quiet hquiet, hrun, EStateM.run_get]
  cases t.paused <;> simp

lemma tick_run_fault (h : s.currentMode = .fault) :
    (tick api alarms).run s = if s.paused then .ok () s else (arbitrate api).run s :=
  tick_run_checked (.inr h) (checkWarningAlarms_run_fault h)

lemma tick_run_critical {t : BehaviorArbiter τ ω} (hcrit : alarms.hasCriticalAlarm = true)
    (h : s.currentMode ≠ .fault) (hrun : (transitionTo api .fault).run s = .ok true t)
    (ht : t.currentMode = .fault) : (tick api alarms).run s = (tick api alarms).run t := by
  have hchc : (checkCriticalAlarms api alarms).run s = .ok () t := by
    simp [checkCriticalAlarms, hcrit, h, hrun]
  rw [tick, EStateM.run_bind, EStateM.run_bind, hchc, checkCriticalAlarms_run_quiet (.inr ht)]

lemma tick_run_critical_error {t : BehaviorArbiter τ ω}
    (hcrit : alarms.hasCriticalAlarm = true) (h : s.currentMode ≠ .fault)
    (hrun : (transitionTo api .fault).run s = .error e t) :
    (tick api alarms).run s = .error e t := by
  have hchc : (checkCriticalAlarms api alarms).run s = .error e t := by
    simp [checkCriticalAlarms, hcrit, h, hrun]
  rw [tick, EStateM.run_bind, hchc]

end

section
variable {behaviorId : String}

lemma cancelSuspended_run_none (h : s.suspendedBehaviors.lookup behaviorId = none) :
    (cancelSuspended behaviorId).run s = .ok false s := by
  simp [cancelSuspended, h]

lemma cancelSuspended_run_some (h : s.suspendedBehaviors.lookup behaviorId = some b) :
    (cancelSuspended behaviorId).run s = .ok true { s with
      suspendedBehaviors := s.suspendedBehaviors.erase behaviorId
      history.withdrawn := b.ticket :: s.history.withdrawn } := by
  simp [cancelSuspended, h]

lemma cancelBehavior_run_other (h : ∀ b, s.currentBehavior = some b → b.behaviorId ≠ behaviorId) :
    (cancelBehavior api behaviorId).run s = (cancelSuspended behaviorId).run s := by
  cases hc : s.currentBehavior with
  | none => simp [cancelBehavior, hc]
  | some b => simp [cancelBehavior, hc, h b hc]

section
variable (hc : s.currentBehavior = some b) (hid : b.behaviorId = behaviorId)
include hc hid

lemma cancelBehavior_run_refused (hkept : b.cancellable = false) :
    (cancelBehavior api behaviorId).run s = .ok false s := by
  simp [cancelBehavior, hc, hid, hkept]

lemma cancelBehavior_run_ok (hcanc : b.cancellable = true)
    (hok : (api.stop b.task s.world).1 = none) :
    (cancelBehavior api behaviorId).run s = .ok true { s with
      currentBehavior := none
      world := (api.stop b.task s.world).2
      history.withdrawn := b.ticket :: s.history.withdrawn } := by
  simp [cancelBehavior, hc, hid, hcanc, stopCurrentTask_run_some hc, callTask_run_ok,
    TaskApi.stopCall, hok]

lemma cancelBehavior_run_error (hcanc : b.cancellable = true)
    (he : (api.stop b.task s.world).1 = some e) :
    (cancelBehavior api behaviorId).run s =
      .error e { s with world := (api.stop b.task s.world).2 } := by
  simp [cancelBehavior, hc, hid, hcanc, stopCurrentTask_run_some hc, callTask_run_error,
    TaskApi.stopCall, he]

end
end
end BehaviorArbiter
end Mxrc.Control
