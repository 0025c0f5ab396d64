import Mxrc.Lib.Bytes
import Mxrc.Lib.Runs
import Mxrc.Ha.HAStateMachine

/-!
# Escalation to manual intervention

The attempt counter is the number of recovery failures since the last success
modulo the maximum. The failure that brings it to the maximum asks for manual
intervention, which only some states permit, and a refused request is not
repeated.
-/

namespace Mxrc.Ha
open Mxrc.Lib

namespace HAStateMachine
variable {m : HAStateMachine}

def Last (m : HAStateMachine) : Prop :=
  m.recoveryAttemptCount.toNat + 1 = m.maxRecoveryAttempts.toNat

instance (m : HAStateMachine) : Decidable m.Last := inferInstanceAs (Decidable (_ = _))

section
variable (h : m.recoveryAttemptCount < m.maxRecoveryAttempts)
include h

lemma reportRecoveryFailure_of_last (hlast : m.Last) :
    m.reportRecoveryFailure =
      transitionTo { m with recoveryAttemptCount := 0 } .manualIntervention := by
  rw [reportRecoveryFailure]
  apply if_pos
  rw [ge_iff_le, UInt32.le_iff_toNat_le, toNat_add_one_of_lt h]
  exact hlast.ge

lemma reportRecoveryFailure_of_not_last (hlast : ¬ m.Last) :
    m.reportRecoveryFailure =
      (true, { m with recoveryAttemptCount := m.recoveryAttemptCount + 1 }) := by
  rw [reportRecoveryFailure]
  apply if_neg
  rw [ge_iff_le, UInt32.le_iff_toNat_le, toNat_add_one_of_lt h]
  rw [Last] at hlast
  have hlt := UInt32.lt_iff_toNat_lt.mp h
  omega

lemma currentState_reportRecoveryFailure :
    m.reportRecoveryFailure.2.currentState = .manualIntervention ↔
      m.currentState = .manualIntervention ∨
        m.Last ∧ (m.currentState = .safeMode ∨ m.currentState = .recoveryInProgress) := by
  by_cases hlast : m.Last
  · rw [reportRecoveryFailure_of_last h hlast, currentState_transitionTo_eq_iff,
      isValidTransition_manualIntervention]
    tauto
  · rw [reportRecoveryFailure_of_not_last h hlast]
    simp [hlast]

lemma recoveryAttemptCount_reportRecoveryFailure :
    m.reportRecoveryFailure.2.recoveryAttemptCount.toNat =
      (m.recoveryAttemptCount.toNat + 1) % m.maxRecoveryAttempts.toNat := by
  by_cases hlast : m.Last
  · rw [reportRecoveryFailure_of_last h hlast, recoveryAttemptCount_transitionTo,
      show m.recoveryAttemptCount.toNat + 1 = _ from hlast, Nat.mod_self]
    rfl
  · rw [reportRecoveryFailure_of_not_last h hlast, Nat.mod_eq_of_lt]
    · exact toNat_add_one_of_lt h
    · have hlt := UInt32.lt_iff_toNat_lt.mp h
      rw [Last] at hlast
      omega

end
end HAStateMachine

structure RecoveryHistory where
  machine : HAStateMachine
  failures : List HAState := []
  justFailed : Bool := false

namespace RecoveryHistory
open HAStateMachine (Op)

def failuresAfter (h : RecoveryHistory) (op : Op) : List HAState :=
  if h.machine.fails op then h.machine.currentState :: h.failures
  else
    match op with
    | .reportRecoverySuccess => []
    | _ => h.failures

def next (h : RecoveryHistory) (op : Op) : Option RecoveryHistory :=
  some ⟨h.machine.apply op, h.failuresAfter op, h.machine.fails op⟩

def firstFailure (h : RecoveryHistory) (failures : List HAState) : Option HAState :=
  failures[h.machine.maxRecoveryAttempts.toNat - 1]?

def Escalated (h : RecoveryHistory) : Prop :=
  h.justFailed = true → ∀ first ∈ h.firstFailure h.failures, first ≠ .shutdown →
    h.machine.currentState = .manualIntervention

/-- Such a failure is reported in manual intervention, or it uses up the attempts in a state that
permits manual intervention. -/
def Permitted (h : RecoveryHistory) (op : Op) : Prop :=
  h.machine.fails op = true →
    ∀ first ∈ h.firstFailure (h.machine.currentState :: h.failures), first ≠ .shutdown →
      h.machine.currentState = .manualIntervention ∨
        h.machine.Last ∧
          (h.machine.currentState = .safeMode ∨ h.machine.currentState = .recoveryInProgress)

instance (h : RecoveryHistory) (op : Op) : Decidable (h.Permitted op) :=
  inferInstanceAs (Decidable (_ → _))

def Counting (h : RecoveryHistory) : Prop :=
  h.machine.recoveryAttemptCount < h.machine.maxRecoveryAttempts

variable {h h' : RecoveryHistory} {op : Op}

lemma failuresAfter_of_fails (hf : h.machine.fails op = true) :
    h.failuresAfter op = h.machine.currentState :: h.failures := by
  unfold failuresAfter
  rw [if_pos hf]

lemma counting_start {m : UInt32} (hm : 1 ≤ m) :
    Counting ⟨{ maxRecoveryAttempts := m }, [], false⟩ := by
  change (0 : UInt32) < m
  exact UInt32.lt_of_lt_of_le (by decide) hm

lemma counting_next (hc : h.Counting) (hn : h.next op = some h') : h'.Counting := by
  cases hn
  rw [Counting, HAStateMachine.maxRecoveryAttempts_apply]
  cases hf : h.machine.fails op with
  | true =>
    have hlt := UInt32.lt_iff_toNat_lt.mp hc
    rw [HAStateMachine.apply_of_fails hf, UInt32.lt_iff_toNat_lt,
      HAStateMachine.recoveryAttemptCount_reportRecoveryFailure hc]
    exact Nat.mod_lt _ (by omega)
  | false =>
    by_cases hop : op = .reportRecoverySuccess
    · rw [hop, HAStateMachine.apply, HAStateMachine.recoveryAttemptCount_reportRecoverySuccess]
      exact UInt32.lt_of_le_of_lt UInt32.zero_le hc
    · rw [HAStateMachine.recoveryAttemptCount_apply hf hop]
      exact hc

lemma escalated_next_iff (hc : h.Counting) (hn : h.next op = some h') :
    h'.Escalated ↔ h.Permitted op := by
  cases hn
  rw [Escalated, Permitted]
  refine forall_congr' fun hf => ?_
  have hf' : h.machine.fails op = true := hf
  have happ := HAStateMachine.apply_of_fails hf'
  simp only [failuresAfter_of_fails hf', firstFailure, happ,
    HAStateMachine.maxRecoveryAttempts_reportRecoveryFailure,
    HAStateMachine.currentState_reportRecoveryFailure hc]

theorem escalated_throughout_iff (m : UInt32) (hm : 1 ≤ m) {ops : List Op}
    (hrun : Run next (fun _ _ => True) ⟨{ maxRecoveryAttempts := m }, [], false⟩ ops h) :
    Throughout next Escalated ⟨{ maxRecoveryAttempts := m }, [], false⟩ ops ↔
      Run next Permitted ⟨{ maxRecoveryAttempts := m }, [], false⟩ ops h := by
  refine hrun.throughout_iff_of_base (counting_start hm) ?_ ?_
  · intro hfail
    cases hfail
  · intro h op h' hc _ hn
    exact ⟨counting_next hc hn, escalated_next_iff hc hn⟩

theorem escalated_throughout_recovery :
    let start : RecoveryHistory := ⟨{ maxRecoveryAttempts := 2 }, [], false⟩
    let ops : List Op := [.registerRecoveryActionCallback,
      .setRecoveryPolicies (AList.insert .sensorFailure .reloadConfiguration ∅),
      .handleFailure .sensorFailure (fun _ => true), .handleFailure .sensorFailure (fun _ => false),
      .reportRecoveryFailure, .reportRecoveryFailure]
    ∃ h, h.machine.currentState = .manualIntervention ∧
      Run next (fun _ _ => True) start ops h ∧ Throughout next Escalated start ops := by
  intro start ops
  have hexec : (exec next (fun h op => decide (Permitted h op)) start ops).map
      (·.machine.currentState) = some .manualIntervention := by decide +kernel
  obtain ⟨h, hs, hsta⟩ := Option.map_eq_some_iff.mp hexec
  have hper : Run next Permitted start ops h :=
    Run.of_exec (fun _ _ => of_decide_eq_true) hs
  have hrun := hper.weaken fun _ _ _ => trivial
  exact ⟨h, hsta, hrun, (escalated_throughout_iff 2 (by decide) hrun).mpr hper⟩

/-- In normal operation the last failure resets the counter and the machine stays where it is. -/
theorem not_escalated_throughout : ¬ ∀ (m : UInt32) (ops : List Op) (h : RecoveryHistory), 1 ≤ m →
    Run next (fun _ _ => True) ⟨{ maxRecoveryAttempts := m }, [], false⟩ ops h →
      Throughout next Escalated ⟨{ maxRecoveryAttempts := m }, [], false⟩ ops := by
  intro hesc
  have hexec : (exec next (fun _ _ => true) ⟨{ maxRecoveryAttempts := 3 }, [], false⟩
      [.reportRecoveryFailure, .reportRecoveryFailure, .reportRecoveryFailure]).map (fun h =>
        (h.justFailed, h.firstFailure h.failures, h.machine.currentState)) =
      some (true, some .normal, .normal) := by decide +kernel
  obtain ⟨h, hrun, hend⟩ := exists_run_of_exec (fun _ _ _ => trivial) hexec
  simp only [Prod.mk.injEq] at hend
  obtain ⟨hfail, hfir, hsta⟩ := hend
  have hman := hesc 3 _ h (by decide) hrun _ h List.prefix_rfl hrun hfail .normal hfir (by decide)
  rw [hsta] at hman
  cases hman

end RecoveryHistory
end Mxrc.Ha
