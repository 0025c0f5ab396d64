import Mxrc.Lib.Runs
import Mxrc.Ha.HAStateMachine

/-!
# Critical failures and safe mode

For the three critical failure types the target is safe mode whatever the policy
table says. It is chosen without a look at the transition table, which has no
way from degraded operation to safe mode.
-/

namespace Mxrc.Ha
open Mxrc.Lib

def FailureType.critical : FailureType → Bool
  | .deadlineMissConsecutive => true
  | .ethercatCommFailure => true
  | .motorOvercurrent => true
  | _ => false

namespace HAStateMachine

def next (m : HAStateMachine) (op : Op) : Option HAStateMachine := some (m.apply op)

/-- The failure is critical, and the policy table has an action for it that succeeds. -/
structure Recoverable (m : HAStateMachine) (failureType : FailureType)
    (callback : RecoveryAction → Bool) : Prop where
  critical : failureType.critical = true
  executed : ∃ action, m.recoveryPolicies.lookup failureType = some action ∧
    m.executeRecoveryAction callback action = true

variable {m : HAStateMachine} {failureType : FailureType} {callback : RecoveryAction → Bool}

lemma determineTargetState_of_critical (h : failureType.critical = true)
    (action : RecoveryAction) : determineTargetState failureType action = .safeMode := by
  cases failureType <;> cases h <;> rfl

lemma isValidTransition_safeMode {source : HAState} :
    isValidTransition source .safeMode = true ↔
      source = .normal ∨ source = .safeMode ∨ source = .recoveryInProgress := by
  cases source <;> decide

lemma Recoverable.handleFailure_eq (h : m.Recoverable failureType callback) :
    m.handleFailure failureType callback = m.transitionTo .safeMode := by
  obtain ⟨action, hlk, hexe⟩ := h.executed
  rw [handleFailure, hlk]
  simp only [hexe, Bool.not_true, Bool.false_eq_true, if_false]
  rw [determineTargetState_of_critical h.critical]

lemma fst_transitionTo (m : HAStateMachine) (newState : HAState) :
    (m.transitionTo newState).1 = isValidTransition m.currentState newState := by
  rw [transitionTo]
  cases isValidTransition m.currentState newState <;> rfl

theorem handleFailure_safeMode_iff (h : m.Recoverable failureType callback)
    (hmanual : m.currentState ≠ .manualIntervention) (hshutdown : m.currentState ≠ .shutdown) :
    (m.handleFailure failureType callback).1 = true ∧
        (m.handleFailure failureType callback).2.currentState = .safeMode ↔
      m.currentState ≠ .degraded := by
  rw [h.handleFailure_eq, fst_transitionTo, currentState_transitionTo_eq_iff, and_self,
    isValidTransition_safeMode]
  cases hsta : m.currentState with
  | manualIntervention => exact absurd hsta hmanual
  | shutdown => exact absurd hsta hshutdown
  | _ => decide

theorem handleFailure_safeMode_recovery :
    let m : HAStateMachine := {
      maxRecoveryAttempts := 3
      currentState := .recoveryInProgress
      recoveryPolicies := AList.insert .motorOvercurrent .notifyAndWait ∅
      recoveryActionCallback := true }
    (m.handleFailure .motorOvercurrent fun _ => true).2.currentState = .safeMode := by
  intro m
  have hrec : m.Recoverable .motorOvercurrent fun _ => true :=
    ⟨rfl, .notifyAndWait, by decide, rfl⟩
  exact ((handleFailure_safeMode_iff hrec (by decide) (by decide)).mpr (by decide)).2

/-- After a transition to degraded operation the overcurrent is refused. -/
theorem not_safeMode_of_degraded : ¬ ∀ (ops : List Op) (m : HAStateMachine)
    (failureType : FailureType) (callback : RecoveryAction → Bool),
    Run next (fun _ _ => True) { maxRecoveryAttempts := 3 } ops m →
    m.Recoverable failureType callback →
    m.currentState ≠ .manualIntervention → m.currentState ≠ .shutdown →
    (m.handleFailure failureType callback).1 = true ∧
      (m.handleFailure failureType callback).2.currentState = .safeMode := by
  intro hsafe
  have hexec : (exec next (fun _ _ => true) { maxRecoveryAttempts := 3 }
      [.setRecoveryPolicies (AList.insert .motorOvercurrent .enterSafeMode ∅),
        .registerRecoveryActionCallback, .transitionTo .degraded]).map (fun m =>
          (m.recoveryPolicies.lookup .motorOvercurrent, m.recoveryActionCallback,
            m.currentState, (m.handleFailure .motorOvercurrent fun _ => true).1)) =
      some (some .enterSafeMode, true, .degraded, false) := by decide +kernel
  obtain ⟨m, hrun, hend⟩ := exists_run_of_exec (fun _ _ _ => trivial) hexec
  simp only [Prod.mk.injEq] at hend
  obtain ⟨hlk, hreg, hsta, href⟩ := hend
  have hrec : m.Recoverable .motorOvercurrent fun _ => true :=
    ⟨rfl, .enterSafeMode, hlk, by rw [executeRecoveryAction, hreg]; rfl⟩
  have hacc := (hsafe _ m .motorOvercurrent (fun _ => true)
    hrun hrec (by rw [hsta]; decide)
    (by rw [hsta]; decide)).1
  rw [href] at hacc
  cases hacc

end HAStateMachine
end Mxrc.Ha
