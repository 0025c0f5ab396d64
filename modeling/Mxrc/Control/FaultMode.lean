import Mxrc.Control.Conservation

/-!
# Work in FAULT mode

Entering FAULT empties the queue, but requests are accepted in every mode, and a
tick does not look at the mode when it starts the next one. A request that
arrives in FAULT is started by the next tick, or, with a task still unfinished,
dropped.
-/

namespace Mxrc.Control
open Mxrc.Lib

namespace BehaviorArbiter
variable {τ ω : Type} (api : TaskApi τ ω)

/-- In FAULT only an emergency stop is started, and the mode is left by an allowed transition only.
-/
structure FaultStep (s s' : BehaviorArbiter τ ω) : Prop where
  starts : ∀ b, Starts s s' b → s'.currentMode = .fault → b.priority = .emergencyStop
  pending : s.currentMode = .fault → s'.currentMode = .fault → ∀ r ∈ s.pendingBehaviors.toList,
    r ∈ s'.pendingBehaviors.toList ∨ r.priority = .emergencyStop ∧ Starts s s' r
  leaves : s.currentMode = .fault → s'.currentMode ≠ .fault →
    isValidTransition .fault s'.currentMode = true

def NoWorkInFault (G : BehaviorArbiter τ ω → Label τ ω → Prop) : Prop :=
  ∀ w₀ ls s l s', Run (next api) G (make w₀) ls s → G s l → next api s l = some s' →
    FaultStep s s'

def Label.operates : Label τ ω → Bool
  | .requestBehavior _ => true
  | .tick _ => true
  | .transitionTo _ => true
  | .pause => true
  | .resume => true
  | .tasks _ => true
  | .clearPendingBehaviors => false
  | .cancelBehavior _ => false

/-- What the tick takes from the queue is an emergency stop; where it preempts, it was the only
request. -/
def HeadMayStart (s : BehaviorArbiter τ ω) : Prop :=
  ∀ r q, s.pendingBehaviors.pop = some (r, q) → r.priority = .emergencyStop ∧
    ∀ current, s.currentBehavior = some current →
      (api.getStatus current.task s.world).finished = true ∨
        shouldPreempt r current = true ∧ StopsFor api s r ∧ q = .empty

/-- In FAULT nothing is waiting for a tick, unless the arbiter is paused, or for another change to
FAULT. -/
def CalmInFault (s : BehaviorArbiter τ ω) (l : Label τ ω) : Prop :=
  l.operates = true ∧ (s.currentMode = .fault →
    match l with
    | .tick _ => s.paused = false → HeadMayStart api s
    | .transitionTo newMode => newMode = .fault → s.pendingBehaviors = .empty
    | _ => True)

section
variable {api} {s s' : BehaviorArbiter τ ω}

lemma FaultStep.of_rests (hstd : s'.history.started = s.history.started)
    (hmode : s'.currentMode = s.currentMode)
    (hpend : s.currentMode = .fault → ∀ r ∈ s.pendingBehaviors.toList,
      r ∈ s'.pendingBehaviors.toList) : FaultStep s s' where
  starts b hb := absurd hb (not_starts hstd b)
  pending hflt _ r hr := .inl (hpend hflt r hr)
  leaves hflt hleft := absurd (hmode.trans hflt) hleft

lemma FaultStep.of_not_fault (hflt : s.currentMode ≠ .fault)
    (hstar : ∀ b, Starts s s' b → s'.currentMode = .fault → b.priority = .emergencyStop) :
    FaultStep s s' where
  starts := hstar
  pending h := absurd h hflt
  leaves h := absurd h hflt

lemma KeepsMode.of_fault (h : KeepsMode s s') (hflt : s.currentMode = .fault) :
    s'.currentMode = .fault := by
  rcases h with h | ⟨-, hval⟩
  · exact h.trans hflt
  · rw [hflt] at hval
    cases hval

lemma KeepsMode.not_fault (h : KeepsMode s s') (hflt : s.currentMode ≠ .fault) :
    s'.currentMode ≠ .fault := by
  rcases h with h | ⟨h, -⟩
  · rwa [h]
  · rw [h]
    decide

lemma Arbitrated.faultStep (h : Arbitrated api s s') (hflt : s.currentMode ≠ .fault) :
    FaultStep s s' := by
  refine .of_not_fault hflt fun b hb hmode' => ?_
  cases h with
  | rested _ hstd _ => exact absurd hb (not_starts hstd b)
  | dropped _ _ _ _ _ _ hstd _ => exact absurd hb (not_starts hstd b)
  | started _ _ _ hmode => exact absurd hmode' (hmode.not_fault hflt)
  | stopped _ r _ _ _ _ hr hstar =>
    cases hstar.1.symm.trans hb.1
    exact hr

lemma Arbitrated.faultStep_of_calm (h : Arbitrated api s s') (hflt : s.currentMode = .fault)
    (hcalm : HeadMayStart api s) : FaultStep s s' := by
  cases h with
  | rested hpend hstd hmode =>
    refine .of_rests hstd ((hmode.of_fault hflt).trans hflt.symm) fun _ r hr => ?_
    rwa [hpend]
  | dropped current r hc hf hpop hcause _ _ =>
    rcases (hcalm r _ hpop).2 current hc with hfin | ⟨hp, hstp, -⟩
    · rw [hf] at hfin
      cases hfin
    · exact absurd hstp (hcause hp)
  | started r hpop hstar hmode =>
    refine ⟨fun b hb _ => ?_, fun _ _ x hx => ?_, fun _ hleft => ?_⟩
    · cases hstar.1.symm.trans hb.1
      exact (hcalm r _ hpop).1
    · rw [BehaviorPriorityQueue.toList_pop hpop] at hx
      rcases List.mem_cons.mp hx with rfl | hx
      · exact .inr ⟨(hcalm x _ hpop).1, hstar⟩
      · exact .inl hx
    · exact absurd (hmode.of_fault hflt) hleft
  | stopped current r q hc hf hpop hr hstar hmode _ =>
    refine ⟨fun b hb _ => ?_, fun _ _ x hx => ?_, fun _ hleft => absurd hmode hleft⟩
    · cases hstar.1.symm.trans hb.1
      exact hr
    · rcases (hcalm r q hpop).2 current hc with hfin | ⟨-, -, rfl⟩
      · rw [hf] at hfin
        cases hfin
      · rw [BehaviorPriorityQueue.toList_pop hpop] at hx
        cases List.mem_singleton.mp hx
        exact .inr ⟨hr, hstar⟩

lemma Ticked.faultStep (h : Ticked api s s')
    (hcalm : s.currentMode = .fault → s.paused = false → HeadMayStart api s) : FaultStep s s' := by
  cases h with
  | interrupted hflt _ hstd _ =>
    exact .of_not_fault hflt fun b hb => absurd hb (not_starts hstd b)
  | faulted hflt _ hstd _ =>
    exact .of_not_fault hflt fun b hb => absurd hb (not_starts hstd b)
  | waited _ hpend hstd hmode =>
    by_cases hflt : s.currentMode = .fault
    · refine .of_rests hstd ((hmode.of_fault hflt).trans hflt.symm) fun _ r hr => ?_
      rwa [hpend]
    · exact .of_not_fault hflt fun b hb => absurd hb (not_starts hstd b)
  | arbitrated hpau h =>
    by_cases hflt : s.currentMode = .fault
    · exact h.faultStep_of_calm hflt (hcalm hflt hpau)
    · exact h.faultStep hflt

end

lemma faultStep_next {s s' : BehaviorArbiter τ ω} {l : Label τ ω} (hcalm : CalmInFault api s l)
    (hn : next api s l = some s') : FaultStep s s' := by
  cases next_cases hn with
  | rested _ h =>
    refine .of_rests h.started h.mode fun _ r hr => ?_
    rwa [h.pending]
  | accepted request hpush hstd hmode =>
    refine .of_rests hstd hmode fun _ r hr => ?_
    exact (BehaviorPriorityQueue.toList_push hpush).mem_iff.mpr (List.mem_cons_of_mem _ hr)
  | moved newMode hval hmode hstd hpend =>
    refine ⟨fun b hb => absurd hb (not_starts hstd b), fun hflt hflt' r hr => ?_, ?_⟩
    · rw [hcalm.2 hflt (hmode.symm.trans hflt')] at hr
      cases hr
    · intro hflt _
      rw [hmode, ← hflt]
      exact hval
  | cleared =>
    cases hcalm.1
  | ticked alarms h => exact h.faultStep hcalm.2

theorem noWorkInFault_of_calm : NoWorkInFault api (CalmInFault api) := by
  intro w₀ ls s l s' _ hcalm hn
  exact faultStep_next api hcalm hn

/-- A request that comes in FAULT is started by the next tick. -/
theorem not_noWorkInFault : ¬ NoWorkInFault endlessTasks (fun _ l => l.operates = true) := by
  intro hall
  have hexec : ∃ s, exec (next endlessTasks) (fun _ l => l.operates) (make ())
      [.transitionTo .fault, .requestBehavior (normalRequest "late")] = some s ∧
      s.history.started = [] ∧ (after (tick endlessTasks ⟨false, false⟩) s).currentMode = .fault ∧
      (after (tick endlessTasks ⟨false, false⟩) s).currentBehavior =
        some ⟨normalRequest "late", 0⟩ ∧
      (after (tick endlessTasks ⟨false, false⟩) s).history.started = [0] :=
    ⟨_, rfl, rfl, rfl, rfl, rfl⟩
  obtain ⟨s, hs, hbef, hmode, hcur, haft⟩ := hexec
  have hstep := hall () _ s (.tick ⟨false, false⟩) _ (Run.of_exec (fun _ _ => id) hs) rfl rfl
  have hprior := hstep.starts _ ⟨hcur, by rw [haft, hbef]⟩ hmode
  cases hprior

end BehaviorArbiter
end Mxrc.Control
