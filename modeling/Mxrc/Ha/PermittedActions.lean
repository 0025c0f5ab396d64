import Mxrc.Ha.SafeMode

/-!
# Recovery actions and the transition table

`handleFailure` invokes the callback before it has looked at the transition
table. `Allowed` is what a call must find for its action to be permitted.
-/

namespace Mxrc.Ha
open Mxrc.Lib

namespace HAStateMachine

def invoked (m : HAStateMachine) (failureType : FailureType) : Option RecoveryAction :=
  if m.recoveryActionCallback then m.recoveryPolicies.lookup failureType else none

def targetValid (m : HAStateMachine) (failureType : FailureType) (action : RecoveryAction) : Bool :=
  isValidTransition m.currentState (determineTargetState failureType action)

/-- The callback is invoked only for a valid transition and never after shutdown; a call with
another transition changes nothing. -/
structure PermittedAction (m : HAStateMachine) (failureType : FailureType)
    (callback : RecoveryAction → Bool) : Prop where
  valid : ∀ action, m.invoked failureType = some action → m.targetValid failureType action = true
  shutdown : m.currentState = .shutdown → m.invoked failureType = none
  unchanged : ∀ action, m.recoveryPolicies.lookup failureType = some action →
    m.targetValid failureType action = false →
      (m.handleFailure failureType callback).2.currentState = m.currentState ∧
        (m.handleFailure failureType callback).2.recoveryAttemptCount = m.recoveryAttemptCount

def Permitted (m : HAStateMachine) : Op → Prop
  | .handleFailure failureType callback => m.PermittedAction failureType callback
  | _ => True

/-- A failed attempt does not show: there is only one, and it does not lead to manual
intervention. -/
def FailureHidden (m : HAStateMachine) : Prop :=
  m.recoveryAttemptCount = 0 ∧ m.maxRecoveryAttempts ≤ 1 ∧
    m.currentState ≠ .safeMode ∧ m.currentState ≠ .recoveryInProgress

/-- There is no action for the failure, or the transition is valid and the machine not shut down.
Without a callback less is enough. -/
def Allowed (m : HAStateMachine) : Op → Prop
  | .handleFailure failureType _ => ∀ action, m.recoveryPolicies.lookup failureType = some action →
      if m.recoveryActionCallback then
        m.targetValid failureType action = true ∧ m.currentState ≠ .shutdown
      else m.targetValid failureType action = true ∨ m.FailureHidden
  | _ => True

variable {m : HAStateMachine} {failureType : FailureType} {callback : RecoveryAction → Bool}
  {action : RecoveryAction}

lemma handleFailure_congr {callback' : RecoveryAction → Bool}
    (h : ∀ action, m.invoked failureType = some action → callback action = callback' action) :
    m.handleFailure failureType callback = m.handleFailure failureType callback' := by
  rw [handleFailure, handleFailure]
  cases hlk : m.recoveryPolicies.lookup failureType with
  | none => rfl
  | some action =>
    have hexe : m.executeRecoveryAction callback action =
        m.executeRecoveryAction callback' action := by
      rw [executeRecoveryAction, executeRecoveryAction]
      cases hreg : m.recoveryActionCallback with
      | false => rfl
      | true => exact h action (by rw [invoked, hreg, hlk]; rfl)
    dsimp only
    rw [hexe]

lemma currentState_transitionTo (m : HAStateMachine) (newState : HAState) :
    (m.transitionTo newState).2.currentState =
      if isValidTransition m.currentState newState then newState else m.currentState := by
  rw [transitionTo]
  cases isValidTransition m.currentState newState with
  | true => rfl
  | false => rfl

lemma reportRecoveryFailure_unchanged_iff (m : HAStateMachine) :
    m.reportRecoveryFailure.2.currentState = m.currentState ∧
        m.reportRecoveryFailure.2.recoveryAttemptCount = m.recoveryAttemptCount ↔
      m.FailureHidden := by
  have hman : (({ m with recoveryAttemptCount := 0 } : HAStateMachine).transitionTo
      .manualIntervention).2.currentState = m.currentState ↔
        m.currentState ≠ .safeMode ∧ m.currentState ≠ .recoveryInProgress := by
    rw [currentState_transitionTo]
    cases m.currentState <;> decide
  rw [reportRecoveryFailure, FailureHidden]
  split_ifs with hatt
  · rw [hman, recoveryAttemptCount_transitionTo]
    constructor
    · rintro ⟨hsta, hcnt⟩
      refine ⟨hcnt.symm, ?_, hsta⟩
      rw [← hcnt] at hatt
      exact hatt
    · rintro ⟨hcnt, -, hsta⟩
      exact ⟨hsta, hcnt.symm⟩
  · constructor
    · rintro ⟨-, hcnt⟩
      have hne : m.recoveryAttemptCount + 1 ≠ m.recoveryAttemptCount := by
        intro heq
        have hone : (1 : UInt32) = 0 := add_eq_left.mp heq
        exact absurd hone (by decide)
      exact absurd hcnt hne
    · rintro ⟨hcnt, hmax, -⟩
      rw [hcnt] at hatt
      exact absurd hmax hatt

lemma permittedAction_iff_of_registered
    (hlk : m.recoveryPolicies.lookup failureType = some action)
    (hreg : m.recoveryActionCallback = true) :
    m.PermittedAction failureType callback ↔ m.Allowed (.handleFailure failureType callback) := by
  have hinv : m.invoked failureType = some action := by
    rw [invoked, hreg, hlk]
    rfl
  constructor
  · intro h action' hact'
    rw [hlk] at hact'
    cases hact'
    rw [if_pos hreg]
    refine ⟨h.valid action hinv, fun hshut => ?_⟩
    have hnone := h.shutdown hshut
    rw [hinv] at hnone
    cases hnone
  · intro h
    have hact := h action hlk
    rw [if_pos hreg] at hact
    obtain ⟨hval, hsta⟩ := hact
    refine ⟨fun action' hact' => ?_, fun hshut => absurd hshut hsta, fun action' hact' hinval => ?_⟩
    · rw [hinv] at hact'
      cases hact'
      exact hval
    · rw [hlk] at hact'
      cases hact'
      rw [hval] at hinval
      cases hinval

lemma permittedAction_iff_of_not_registered
    (hlk : m.recoveryPolicies.lookup failureType = some action)
    (hreg : m.recoveryActionCallback = false) :
    m.PermittedAction failureType callback ↔ m.Allowed (.handleFailure failureType callback) := by
  have hinv : m.invoked failureType = none := by
    rw [invoked, hreg]
    rfl
  have hfail : m.handleFailure failureType callback = m.reportRecoveryFailure := by
    simp [handleFailure, executeRecoveryAction, hlk, hreg]
  constructor
  · intro h action' hact'
    rw [hlk] at hact'
    cases hact'
    rw [hreg]
    cases hval : m.targetValid failureType action with
    | true => exact .inl rfl
    | false =>
      have hunc := h.unchanged action hlk hval
      rw [hfail, reportRecoveryFailure_unchanged_iff] at hunc
      exact .inr hunc
  · intro h
    have hact := h action hlk
    rw [hreg] at hact
    refine ⟨fun action' hact' => ?_, fun _ => hinv, fun action' hact' hinval => ?_⟩
    · rw [hinv] at hact'
      cases hact'
    · rw [hlk] at hact'
      cases hact'
      rw [hfail, reportRecoveryFailure_unchanged_iff]
      rcases hact with hval | hhid
      · rw [hval] at hinval
        cases hinval
      · exact hhid

lemma permitted_iff_allowed (m : HAStateMachine) (op : Op) : m.Permitted op ↔ m.Allowed op := by
  cases op with
  | handleFailure failureType callback =>
    cases hlk : m.recoveryPolicies.lookup failureType with
    | none =>
      have hinv : m.invoked failureType = none := by
        rw [invoked, hlk, ite_self]
      refine iff_of_true ⟨?_, fun _ => hinv, ?_⟩ ?_
      · intro action hact
        rw [hinv] at hact
        cases hact
      · intro action hact
        rw [hlk] at hact
        cases hact
      · intro action hact
        rw [hlk] at hact
        cases hact
    | some action =>
      cases hreg : m.recoveryActionCallback with
      | true => exact permittedAction_iff_of_registered hlk hreg
      | false => exact permittedAction_iff_of_not_registered hlk hreg
  | _ => exact Iff.rfl

theorem permitted_iff (maxRecoveryAttempts : UInt32) (ops : List Op) :
    EveryStep next Permitted { maxRecoveryAttempts } ops ↔
      EveryStep next Allowed { maxRecoveryAttempts } ops :=
  everyStep_congr (I := fun _ => True) trivial fun m op _ _ _ =>
    ⟨permitted_iff_allowed m op, fun _ => trivial⟩

/-- A failure after shutdown has its process restarted. -/
theorem not_permitted : ¬ ∀ (maxRecoveryAttempts : UInt32) (ops : List Op),
    EveryStep next Permitted { maxRecoveryAttempts } ops := by
  intro hall
  let before : List Op :=
    [.setRecoveryPolicies (AList.insert .rtProcessCrash .restartRtProcess ∅),
      .registerRecoveryActionCallback, .transitionTo .shutdown]
  let failure : Op := .handleFailure .rtProcessCrash fun _ => true
  have hexec : (exec next (fun _ _ => true) { maxRecoveryAttempts := 3 } before).map (fun m =>
      (m.currentState, m.invoked .rtProcessCrash)) = some (.shutdown, some .restartRtProcess) := by
    decide +kernel
  obtain ⟨m, hm, hend⟩ := Option.map_eq_some_iff.mp hexec
  obtain ⟨hsta, hinv⟩ := Prod.mk.inj hend
  have hrun : Run next (fun _ _ => True) { maxRecoveryAttempts := 3 } before m :=
    Run.of_exec (fun _ _ _ => trivial) hm
  have hper : m.PermittedAction .rtProcessCrash fun _ => true :=
    hall 3 (before ++ [failure]) before failure [] m _ rfl hrun rfl
  have hnone := hper.shutdown hsta
  rw [hinv] at hnone
  cases hnone

end HAStateMachine
end Mxrc.Ha
