import Mxrc.Rt.Heartbeat
import Mxrc.Ethercat.RTEtherCATCycle

/-!
# SAFE_MODE with two causes

`RTEtherCATCycle::execute` runs in an executive that monitors the heartbeat of
the Non-RT process, and both send events to one state machine. The results of
`send` and `receive` are given for the EtherCAT cycles in order; other actions
send no events.
-/

namespace Mxrc.Rt

def RTExecutive.executeSlotWith {κ σ : Type} (invoke : κ → RTContext → σ → σ)
    (stateMachine : σ → RTState) (context : RTContext) : List (ActionSlot κ) → σ → σ
  | [], s => s
  | action :: actions, s =>
    if action.guard.any (fun guard => !guard (stateMachine s)) then
      executeSlotWith invoke stateMachine context actions s
    else
      match action.callback with
      | none => executeSlotWith invoke stateMachine context actions s
      | some callback =>
        executeSlotWith invoke stateMachine context actions (invoke callback context s)

lemma RTExecutive.executeSlotWith_id {κ : Type} (invoke : κ → RTContext → RTState → RTState)
    (context : RTContext) (actions : List (ActionSlot κ)) (st : RTState) :
    executeSlotWith invoke id context actions st =
      (executeSlot invoke context actions st).2 := by
  induction actions generalizing st with
  | nil => rfl
  | cons action actions ih =>
    simp only [executeSlotWith, executeSlot, id_eq]
    split_ifs with hgrd
    · exact ih st
    · cases action.callback with
      | none => exact ih st
      | some callback => exact ih (invoke callback context st)

lemma RTExecutive.executeSlotWith_invariant {κ σ : Type} {invoke : κ → RTContext → σ → σ}
    {stateMachine : σ → RTState} {context : RTContext} (I : σ → Prop)
    (hinv : ∀ callback s, I s → I (invoke callback context s)) (actions : List (ActionSlot κ))
    {s : σ} (h : I s) : I (executeSlotWith invoke stateMachine context actions s) := by
  induction actions generalizing s with
  | nil => exact h
  | cons action actions ih =>
    rw [executeSlotWith]
    split_ifs with hgrd
    · exact ih h
    · cases action.callback with
      | none => exact ih h
      | some callback => exact ih (hinv callback s h)

end Mxrc.Rt

namespace Mxrc.Ethercat
open Mxrc.Lib
open Mxrc.Rt

inductive SharedCallback
  | etherCAT
  | other (name : String)
deriving DecidableEq

/-- `owed`: SAFE_MODE was entered because of EtherCAT errors and no EtherCAT cycle has succeeded
since. -/
structure Shared where
  state : RTState
  etherCAT : RTEtherCATCycle
  executed : ℕ
  owed : Bool

def invokeShared (outcomes : ℕ → CycleOutcome) :
    SharedCallback → RTContext → Shared → Shared
  | .other _, _, s => s
  | .etherCAT, _, s =>
    let o := outcomes s.executed
    let r := s.etherCAT.execute o
    let state := r.2.foldl RTState.next s.state
    { state
      etherCAT := r.1
      executed := s.executed + 1
      owed := if o.failed then s.owed || (s.state ≠ .safeMode && state = .safeMode) else false }

structure SharedSystem where
  loop : RTExecutive.RunLoop SharedCallback
  etherCAT : RTEtherCATCycle
  executed : ℕ
  owed : Bool

namespace SharedSystem

def start (loop : RTExecutive.RunLoop SharedCallback) : SharedSystem := ⟨loop, {}, 0, false⟩

def next (outcomes : ℕ → CycleOutcome) (s : SharedSystem) (inp : RTExecutive.CycleInput) :
    Option SharedSystem :=
  let context : RTContext :=
    ⟨s.loop.executive.currentSlot, s.loop.executive.cycleCount, s.loop.cycleStartNs⟩
  let x := s.loop.executive.checkHeartbeat inp
  match x.schedule[x.currentSlot.toNat]? with
  | none => none
  | some actions =>
    let ran := RTExecutive.executeSlotWith (invokeShared outcomes) Shared.state context actions
      ⟨x.stateMachine, s.etherCAT, s.executed, s.owed && x.stateMachine = .safeMode⟩
    some ⟨x.nextSlot ran.state s.loop.cycleStartNs, ran.etherCAT, ran.executed, ran.owed⟩

/-- The heartbeat check does not return to RUNNING while an EtherCAT cycle is owed. -/
def KeepsSafeMode (s : SharedSystem) (inp : RTExecutive.CycleInput) : Prop :=
  s.owed = true → (s.loop.executive.checkHeartbeat inp).stateMachine ≠ .running

def LostWhileOwed (s : SharedSystem) (inp : RTExecutive.CycleInput) : Prop :=
  s.owed = true → s.loop.executive.heartbeatMonitoringEnabled = true →
    s.loop.executive.sharedMemory = true →
      RTExecutive.heartbeatTimeoutNs < inp.nowNs - inp.nonrtHeartbeatNs

def OwedInSafeMode (s : SharedSystem) : Prop :=
  s.owed = true → s.loop.executive.stateMachine = .safeMode

variable {outcomes : ℕ → CycleOutcome} {s s' : SharedSystem} {inp : RTExecutive.CycleInput}

lemma safeMode_foldl (c : RTEtherCATCycle) (o : CycleOutcome) :
    (c.execute o).2.foldl RTState.next .safeMode = .safeMode := by
  cases ho : o.failed with
  | true =>
    rw [(c.execute_of_failed ho).2]
    split_ifs <;> rfl
  | false => rw [(c.execute_of_succeeded ho).2, List.foldl_nil]

lemma invokeShared_owed {callback : SharedCallback} {context : RTContext} {s : Shared}
    (h : s.owed = true → s.state = .safeMode) :
    (invokeShared outcomes callback context s).owed = true →
      (invokeShared outcomes callback context s).state = .safeMode := by
  cases callback with
  | other name => exact h
  | etherCAT =>
    intro howed
    simp only [invokeShared] at howed ⊢
    split_ifs at howed with hfail
    rw [Bool.or_eq_true, Bool.and_eq_true, decide_eq_true_eq, decide_eq_true_eq] at howed
    rcases howed with howed | ⟨-, hsafe⟩
    · rw [h howed]
      exact safeMode_foldl _ _
    · exact hsafe

lemma OwedInSafeMode.step (hn : next outcomes s inp = some s') : OwedInSafeMode s' := by
  rw [next] at hn
  split at hn
  next => cases hn
  next actions _ =>
    cases hn
    refine RTExecutive.executeSlotWith_invariant
      (fun s : Shared => s.owed = true → s.state = .safeMode)
      (fun callback s h => invokeShared_owed h) actions ?_
    intro howed
    rw [Bool.and_eq_true, decide_eq_true_eq] at howed
    exact howed.2

lemma keepsSafeMode_iff (h : OwedInSafeMode s) : KeepsSafeMode s inp ↔ LostWhileOwed s inp := by
  rw [KeepsSafeMode, LostWhileOwed]
  refine imp_congr_right fun howed => ?_
  have hsafe := h howed
  rw [RTExecutive.checkHeartbeat_eq]
  cases hmon : s.loop.executive.heartbeatMonitoringEnabled && s.loop.executive.sharedMemory with
  | false =>
    rw [if_neg Bool.false_ne_true, hsafe]
    refine iff_of_true (by decide) fun hena hshar => ?_
    rw [hena, hshar] at hmon
    cases hmon
  | true =>
    obtain ⟨hena, hshar⟩ := Bool.and_eq_true_iff.mp hmon
    rw [if_pos rfl, RTExecutive.stateMachine_concludeHeartbeat, RTExecutive.heartbeatEvent, hsafe]
    by_cases hlost : RTExecutive.heartbeatTimeoutNs < inp.nowNs - inp.nonrtHeartbeatNs
    · rw [if_pos hlost, if_neg (by decide)]
      exact iff_of_true (by decide) fun _ _ => hlost
    · rw [if_neg hlost, if_pos rfl]
      refine iff_of_false (by decide) fun hall => hlost (hall hena hshar)

theorem keepsSafeMode_throughout_iff (outcomes : ℕ → CycleOutcome)
    (loop : RTExecutive.RunLoop SharedCallback) (inputs : List RTExecutive.CycleInput) :
    EveryStep (next outcomes) KeepsSafeMode (start loop) inputs ↔
      EveryStep (next outcomes) LostWhileOwed (start loop) inputs := by
  have h0 : OwedInSafeMode (start loop) := nofun
  exact everyStep_congr (I := OwedInSafeMode) h0 fun s inp s' hs hn =>
    ⟨keepsSafeMode_iff hs, fun _ => OwedInSafeMode.step hn⟩

def monitoredLoop : RTExecutive.RunLoop SharedCallback :=
  RTExecutive.enterRun { (RTExecutive.make 1 1 false : RTExecutive SharedCallback) with
    schedule := [[⟨"ethercat", 1, some .etherCAT, none, 1⟩]]
    sharedMemory := true
    heartbeatMonitoringEnabled := true
    table_eq := rfl } 0

/-- The eleventh failed cycle enters SAFE_MODE, and the next heartbeat check leaves it. -/
theorem not_keepsSafeMode : ¬ ∀ (outcomes : ℕ → CycleOutcome)
    (loop : RTExecutive.RunLoop SharedCallback) (inputs : List RTExecutive.CycleInput),
      loop.executive.heartbeatMonitoringEnabled = true → loop.executive.sharedMemory = true →
        EveryStep (next outcomes) KeepsSafeMode (start loop) inputs := by
  intro h
  have hend : (exec (next fun _ => ⟨true, -1, 0⟩) (fun _ _ => true) (start monitoredLoop)
      (List.replicate 11 ⟨0, 0⟩)).map (fun s =>
        (s.owed, (next (fun _ => ⟨true, -1, 0⟩) s ⟨0, 0⟩).isSome,
          (s.loop.executive.checkHeartbeat ⟨0, 0⟩).stateMachine)) =
      some (true, true, .running) := by decide +kernel
  obtain ⟨s, hrun, hfac⟩ := exists_run_of_exec (G := fun _ _ => True) (fun _ _ _ => trivial) hend
  obtain ⟨howed, hfac⟩ := Prod.mk.inj hfac
  obtain ⟨hsome, hrng⟩ := Prod.mk.inj hfac
  obtain ⟨s', hnext⟩ := Option.isSome_iff_exists.mp hsome
  have hall := h (fun _ => ⟨true, -1, 0⟩) monitoredLoop
    (List.replicate 11 ⟨0, 0⟩ ++ [⟨0, 0⟩]) rfl rfl
  exact hall (List.replicate 11 ⟨0, 0⟩) ⟨0, 0⟩ [] s s' rfl hrun hnext howed hrng

end SharedSystem
end Mxrc.Ethercat
