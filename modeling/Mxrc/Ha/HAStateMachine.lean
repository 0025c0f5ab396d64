import Mathlib

/-!
# The high availability state machine

`handleFailure` runs the recovery action of the policy table and only then asks
whether the state it leads to may be entered. An action that fails is a recovery
failure; the one that uses up the attempts asks for manual intervention, after
the counter has been reset. What the callback returns is an argument of each
call.
-/

namespace Mxrc.Ha

inductive HAState
  | normal
  | degraded
  | safeMode
  | recoveryInProgress
  | manualIntervention
  | shutdown
deriving DecidableEq

inductive FailureType
  | rtProcessCrash
  | deadlineMissConsecutive
  | ethercatCommFailure
  | sensorFailure
  | motorOvercurrent
  | datastoreCorruption
  | memoryExhaustion
  | unknown
deriving DecidableEq

inductive RecoveryAction
  | restartRtProcess
  | enterSafeMode
  | notifyAndWait
  | shutdownSystem
  | reloadConfiguration
  | none
deriving DecidableEq

structure HAStateMachine where
  maxRecoveryAttempts : UInt32
  currentState : HAState := .normal
  previousState : HAState := .normal
  recoveryPolicies : AList (fun _ : FailureType => RecoveryAction) := ∅
  recoveryAttemptCount : UInt32 := 0
  recoveryActionCallback : Bool := false

namespace HAStateMachine

def isValidTransition (source target : HAState) : Bool :=
  if source = target then true
  else
    match source with
    | .normal => target = .degraded || target = .recoveryInProgress || target = .safeMode ||
        target = .shutdown
    | .degraded => target = .normal || target = .recoveryInProgress || target = .shutdown
    | .safeMode => target = .recoveryInProgress || target = .manualIntervention ||
        target = .shutdown
    | .recoveryInProgress => target = .normal || target = .safeMode ||
        target = .manualIntervention || target = .shutdown
    | .manualIntervention => target = .normal || target = .shutdown
    | .shutdown => false

def determineTargetState (failureType : FailureType) (action : RecoveryAction) : HAState :=
  if failureType = .deadlineMissConsecutive || failureType = .ethercatCommFailure ||
      failureType = .motorOvercurrent then .safeMode
  else
    match action with
    | .enterSafeMode => .safeMode
    | .restartRtProcess | .reloadConfiguration => .recoveryInProgress
    | .notifyAndWait => .manualIntervention
    | .shutdownSystem => .shutdown
    | .none => .degraded

def setRecoveryPolicies (m : HAStateMachine)
    (policies : AList (fun _ : FailureType => RecoveryAction)) : HAStateMachine :=
  { m with recoveryPolicies := policies }

def registerRecoveryActionCallback (m : HAStateMachine) : HAStateMachine :=
  { m with recoveryActionCallback := true }

def transitionTo (m : HAStateMachine) (newState : HAState) : Bool × HAStateMachine :=
  if !isValidTransition m.currentState newState then (false, m)
  else (true, { m with previousState := m.currentState, currentState := newState })

def reportRecoverySuccess (m : HAStateMachine) : Bool × HAStateMachine :=
  transitionTo { m with recoveryAttemptCount := 0 } .normal

def reportRecoveryFailure (m : HAStateMachine) : Bool × HAStateMachine :=
  let attempts := m.recoveryAttemptCount + 1
  if attempts ≥ m.maxRecoveryAttempts then
    transitionTo { m with recoveryAttemptCount := 0 } .manualIntervention
  else (true, { m with recoveryAttemptCount := attempts })

def executeRecoveryAction (m : HAStateMachine) (callback : RecoveryAction → Bool)
    (action : RecoveryAction) : Bool :=
  if !m.recoveryActionCallback then false else callback action

def handleFailure (m : HAStateMachine) (failureType : FailureType)
    (callback : RecoveryAction → Bool) : Bool × HAStateMachine :=
  match m.recoveryPolicies.lookup failureType with
  | .none => (false, m)
  | some action =>
    if !m.executeRecoveryAction callback action then m.reportRecoveryFailure
    else m.transitionTo (determineTargetState failureType action)

inductive Op
  | handleFailure (failureType : FailureType) (callback : RecoveryAction → Bool)
  | transitionTo (newState : HAState)
  | reportRecoverySuccess
  | reportRecoveryFailure
  | setRecoveryPolicies (policies : AList (fun _ : FailureType => RecoveryAction))
  | registerRecoveryActionCallback

def apply (m : HAStateMachine) : Op → HAStateMachine
  | .handleFailure failureType callback => (m.handleFailure failureType callback).2
  | .transitionTo newState => (m.transitionTo newState).2
  | .reportRecoverySuccess => m.reportRecoverySuccess.2
  | .reportRecoveryFailure => m.reportRecoveryFailure.2
  | .setRecoveryPolicies policies => m.setRecoveryPolicies policies
  | .registerRecoveryActionCallback => m.registerRecoveryActionCallback

def fails (m : HAStateMachine) : Op → Bool
  | .handleFailure failureType callback =>
    (m.recoveryPolicies.lookup failureType).any (!m.executeRecoveryAction callback ·)
  | .reportRecoveryFailure => true
  | _ => false

variable {m : HAStateMachine} {op : Op}

lemma isValidTransition_self (state : HAState) : isValidTransition state state = true := by
  cases state <;> rfl

lemma isValidTransition_manualIntervention {source : HAState} :
    isValidTransition source .manualIntervention = true ↔
      source = .safeMode ∨ source = .recoveryInProgress ∨ source = .manualIntervention := by
  cases source <;> decide

@[simp] lemma recoveryAttemptCount_transitionTo (m : HAStateMachine) (newState : HAState) :
    (m.transitionTo newState).2.recoveryAttemptCount = m.recoveryAttemptCount := by
  rw [transitionTo]
  split <;> rfl

@[simp] lemma maxRecoveryAttempts_transitionTo (m : HAStateMachine) (newState : HAState) :
    (m.transitionTo newState).2.maxRecoveryAttempts = m.maxRecoveryAttempts := by
  rw [transitionTo]
  split <;> rfl

lemma currentState_transitionTo_eq_iff {newState : HAState} :
    (m.transitionTo newState).2.currentState = newState ↔
      isValidTransition m.currentState newState = true := by
  rw [transitionTo]
  cases hval : isValidTransition m.currentState newState with
  | true => simp
  | false =>
    simp only [Bool.not_false, if_true, Bool.false_eq_true, iff_false]
    intro heq
    rw [heq, isValidTransition_self] at hval
    cases hval

@[simp] lemma maxRecoveryAttempts_reportRecoveryFailure (m : HAStateMachine) :
    m.reportRecoveryFailure.2.maxRecoveryAttempts = m.maxRecoveryAttempts := by
  rw [reportRecoveryFailure]
  split <;> simp

lemma handleFailure_cases (m : HAStateMachine) (failureType : FailureType)
    (callback : RecoveryAction → Bool) :
    (m.fails (.handleFailure failureType callback) = false ∧
      m.handleFailure failureType callback = (false, m)) ∨
    (m.fails (.handleFailure failureType callback) = true ∧
      m.handleFailure failureType callback = m.reportRecoveryFailure) ∨
    ∃ action, m.fails (.handleFailure failureType callback) = false ∧
      m.handleFailure failureType callback =
        m.transitionTo (determineTargetState failureType action) := by
  rw [handleFailure, fails]
  cases m.recoveryPolicies.lookup failureType with
  | none => exact .inl ⟨rfl, rfl⟩
  | some action =>
    cases hexe : m.executeRecoveryAction callback action with
    | false => exact .inr (.inl (by simp [hexe]))
    | true => exact .inr (.inr ⟨action, by simp [hexe]⟩)

lemma apply_of_fails (h : m.fails op = true) : m.apply op = m.reportRecoveryFailure.2 := by
  cases op with
  | reportRecoveryFailure => rfl
  | handleFailure failureType callback =>
    rcases m.handleFailure_cases failureType callback with ⟨hn, -⟩ | ⟨-, heq⟩ | ⟨_, hn, -⟩
    · rw [h] at hn
      cases hn
    · exact congrArg Prod.snd heq
    · rw [h] at hn
      cases hn
  | _ => cases h

@[simp] lemma maxRecoveryAttempts_apply (m : HAStateMachine) (op : Op) :
    (m.apply op).maxRecoveryAttempts = m.maxRecoveryAttempts := by
  cases op with
  | handleFailure failureType callback =>
    rw [apply]
    rcases m.handleFailure_cases failureType callback with ⟨-, heq⟩ | ⟨-, heq⟩ | ⟨_, -, heq⟩ <;>
      simp [heq]
  | transitionTo newState => exact maxRecoveryAttempts_transitionTo m newState
  | reportRecoverySuccess => exact maxRecoveryAttempts_transitionTo _ _
  | reportRecoveryFailure => exact maxRecoveryAttempts_reportRecoveryFailure m
  | setRecoveryPolicies policies => rfl
  | registerRecoveryActionCallback => rfl

lemma recoveryAttemptCount_apply (h : m.fails op = false) (hop : op ≠ .reportRecoverySuccess) :
    (m.apply op).recoveryAttemptCount = m.recoveryAttemptCount := by
  cases op with
  | handleFailure failureType callback =>
    rw [apply]
    rcases m.handleFailure_cases failureType callback with ⟨-, heq⟩ | ⟨hf, -⟩ | ⟨_, -, heq⟩
    · rw [heq]
    · rw [h] at hf
      cases hf
    · rw [heq, recoveryAttemptCount_transitionTo]
  | transitionTo newState => exact recoveryAttemptCount_transitionTo m newState
  | reportRecoverySuccess => exact absurd rfl hop
  | reportRecoveryFailure => cases h
  | setRecoveryPolicies policies => rfl
  | registerRecoveryActionCallback => rfl

@[simp] lemma recoveryAttemptCount_reportRecoverySuccess (m : HAStateMachine) :
    m.reportRecoverySuccess.2.recoveryAttemptCount = 0 := by
  rw [reportRecoverySuccess, recoveryAttemptCount_transitionTo]

end HAStateMachine
end Mxrc.Ha
