import Mxrc.Control.Outcomes

/-!
# The queue, the mode and the started behaviors over a step

`Arbitrated` says what the end of a tick can do to the queue, the mode and the
started behaviors, `Ticked` says it for the whole tick, and `Stepped` for every
call.
-/

namespace Mxrc.Control
open Mxrc.Lib

namespace BehaviorArbiter
variable {τ ω : Type} {api : TaskApi τ ω} {s s' : BehaviorArbiter τ ω} {alarms : Alarms}
  {b r current : Accepted τ} {q : BehaviorPriorityQueue τ} {l : Label τ ω}

def Starts (s s' : BehaviorArbiter τ ω) (b : Accepted τ) : Prop :=
  s'.currentBehavior = some b ∧ s'.history.started = b.ticket :: s.history.started

lemma not_starts (h : s'.history.started = s.history.started) (b : Accepted τ) :
    ¬ Starts s s' b := by
  intro hstar
  have hlen := congrArg List.length (h.symm.trans hstar.2)
  simp at hlen

def KeepsMode (s s' : BehaviorArbiter τ ω) : Prop :=
  s'.currentMode = s.currentMode ∨
    s'.currentMode = .maint ∧ isValidTransition s.currentMode .maint = true

inductive Arbitrated (api : TaskApi τ ω) (s s' : BehaviorArbiter τ ω) : Prop
  | rested (hpending : s'.pendingBehaviors = s.pendingBehaviors)
      (hstarted : s'.history.started = s.history.started) (hmode : KeepsMode s s')
  | dropped (current r : Accepted τ) (hcurrent : s.currentBehavior = some current)
      (hrunning : (api.getStatus current.task s.world).finished = false)
      (hpop : s.pendingBehaviors.pop = some (r, s'.pendingBehaviors))
      (hcause : shouldPreempt r current = true → ¬ StopsFor api s r)
      (hstarted : s'.history.started = s.history.started) (hmode : KeepsMode s s')
  | started (r : Accepted τ) (hpop : s.pendingBehaviors.pop = some (r, s'.pendingBehaviors))
      (hstarts : Starts s s' r) (hmode : KeepsMode s s')
  | stopped (current r : Accepted τ) (q : BehaviorPriorityQueue τ)
      (hcurrent : s.currentBehavior = some current)
      (hrunning : (api.getStatus current.task s.world).finished = false)
      (hpop : s.pendingBehaviors.pop = some (r, q)) (hpriority : r.priority = .emergencyStop)
      (hstarts : Starts s s' r) (hmode : s'.currentMode = .fault)
      (hpending : s'.pendingBehaviors = .empty)

lemma Outcome.arbitrated (h : Outcome api s s') : Arbitrated api s s' := by
  cases h with
  | idle => exact .rested rfl rfl (.inl rfl)
  | next r q _ hpop =>
    rw [after_startTask]
    exact .started r hpop ⟨rfl, rfl⟩ (.inl rfl)
  | safeMode =>
    refine .rested rfl rfl ?_
    cases hval : isValidTransition s.currentMode .maint with
    | true => exact .inr ⟨rfl, hval⟩
    | false => exact .inl rfl
  | continued => exact .rested rfl rfl (.inl rfl)
  | dropped current r q hbusy hpop hp =>
    refine .dropped current r hbusy.1 hbusy.2 hpop (fun hpreem => ?_) rfl (.inl rfl)
    rw [hp] at hpreem
    cases hpreem
  | failed current r q e hbusy hpop hp he =>
    refine .dropped current r hbusy.1 hbusy.2 hpop (fun _ hstp => ?_) rfl (.inl rfl)
    obtain ⟨b, hb, hok⟩ := hstp
    cases hbusy.1.symm.trans hb
    rw [he] at hok
    cases hok
  | stopped current r q hbusy hpop _ hr =>
    rw [after_startTask]
    exact .stopped current r q hbusy.1 hbusy.2 hpop hr ⟨rfl, rfl⟩ rfl rfl
  | suspended current r q _ hpop =>
    rw [after_startTask]
    exact .started r hpop ⟨rfl, rfl⟩ (.inl rfl)

lemma Warned.keeps {t : BehaviorArbiter τ ω} (h : Warned alarms s t) :
    KeepsMode s t ∧ t.pendingBehaviors = s.pendingBehaviors ∧
      t.currentBehavior = s.currentBehavior ∧ t.world = s.world ∧ t.history = s.history ∧
      t.paused = s.paused := by
  cases h with
  | calm => exact ⟨.inl rfl, rfl, rfl, rfl, rfl, rfl⟩
  | postponed => exact ⟨.inl rfl, rfl, rfl, rfl, rfl, rfl⟩
  | refused => exact ⟨.inl rfl, rfl, rfl, rfl, rfl, rfl⟩
  | maint _ _ hval => exact ⟨.inr ⟨rfl, hval⟩, rfl, rfl, rfl, rfl, rfl⟩

lemma KeepsMode.trans {t : BehaviorArbiter τ ω} (h : KeepsMode s t) (h' : KeepsMode t s') :
    KeepsMode s s' := by
  rcases h with h | ⟨h, hval⟩
  · rw [KeepsMode, ← h]
    exact h'
  · rcases h' with h' | ⟨h', -⟩
    · exact .inr ⟨h'.trans h, hval⟩
    · exact .inr ⟨h', hval⟩

lemma Arbitrated.of_warned {t : BehaviorArbiter τ ω} (h : Arbitrated api t s')
    (hmode : KeepsMode s t) (hpend : t.pendingBehaviors = s.pendingBehaviors)
    (hcur : t.currentBehavior = s.currentBehavior) (hwor : t.world = s.world)
    (hhis : t.history = s.history) : Arbitrated api s s' := by
  cases h with
  | rested hp hs hm =>
    exact .rested (hp.trans hpend) (hs.trans (by rw [hhis])) (hmode.trans hm)
  | dropped current r hc hf hpop hcause hs hm =>
    rw [hcur] at hc
    rw [hwor] at hf
    rw [hpend] at hpop
    rw [hhis] at hs
    simp only [StopsFor, hcur, hwor] at hcause
    exact .dropped current r hc hf hpop hcause hs (hmode.trans hm)
  | started r hpop hs hm =>
    rw [hpend] at hpop
    rw [Starts, hhis] at hs
    exact .started r hpop hs (hmode.trans hm)
  | stopped current r q hc hf hpop hr hs hm hp =>
    rw [hcur] at hc
    rw [hwor] at hf
    rw [hpend] at hpop
    rw [Starts, hhis] at hs
    exact .stopped current r q hc hf hpop hr hs hm hp

inductive Ticked (api : TaskApi τ ω) (s s' : BehaviorArbiter τ ω) : Prop
  | interrupted (hfault : s.currentMode ≠ .fault)
      (hpending : s'.pendingBehaviors = s.pendingBehaviors)
      (hstarted : s'.history.started = s.history.started) (hmode : s'.currentMode = s.currentMode)
  | faulted (hfault : s.currentMode ≠ .fault) (hpending : s'.pendingBehaviors = .empty)
      (hstarted : s'.history.started = s.history.started) (hmode : s'.currentMode = .fault)
  | waited (hpaused : s.paused = true) (hpending : s'.pendingBehaviors = s.pendingBehaviors)
      (hstarted : s'.history.started = s.history.started) (hmode : KeepsMode s s')
  | arbitrated (hpaused : s.paused = false) (h : Arbitrated api s s')

lemma TickOutcome.ticked (h : TickOutcome api alarms s s') : Ticked api s s' := by
  cases h with
  | interrupted _ _ hflt hs' =>
    subst hs'
    exact .interrupted hflt rfl rfl rfl
  | waited hchk hpau =>
    cases hchk with
    | warned _ _ hwar =>
      obtain ⟨hmode, hpend, -, -, hhis, hpau'⟩ := hwar.keeps
      exact .waited (hpau' ▸ hpau) hpend (by rw [hhis]) hmode
    | faulted _ _ hflt => exact .faulted hflt rfl rfl rfl
  | arbitrated t hchk hpau h =>
    cases hchk with
    | warned _ _ hwar =>
      obtain ⟨hmode, hpend, hcur, hwor, hhis, hpau'⟩ := hwar.keeps
      exact .arbitrated (hpau' ▸ hpau) (h.arbitrated.of_warned hmode hpend hcur hwor hhis)
    | faulted _ _ hflt =>
      -- The queue is empty, so arbitration has nothing to take.
      rcases h.arbitrated with ⟨hp, hs, hm⟩ | ⟨_, _, _, _, hpop⟩ | ⟨_, hpop⟩ | ⟨_, _, _, _, _, hpop⟩
      · refine .faulted hflt hp hs ?_
        rcases hm with hm | ⟨-, hval⟩
        · exact hm
        · cases hval
      all_goals cases hpop

structure Rests (s s' : BehaviorArbiter τ ω) : Prop where
  pending : s'.pendingBehaviors = s.pendingBehaviors
  started : s'.history.started = s.history.started
  mode : s'.currentMode = s.currentMode

inductive Stepped (api : TaskApi τ ω) (s s' : BehaviorArbiter τ ω) : Label τ ω → Prop
  | rested (l : Label τ ω) (h : Rests s s') : Stepped api s s' l
  | accepted (request : BehaviorRequest τ)
      (hpush : s.pendingBehaviors.push ⟨request, s.history.accepted⟩ = some s'.pendingBehaviors)
      (hstarted : s'.history.started = s.history.started) (hmode : s'.currentMode = s.currentMode) :
      Stepped api s s' (.requestBehavior request)
  | moved (newMode : ControlMode) (hvalid : isValidTransition s.currentMode newMode = true)
      (hmode : s'.currentMode = newMode) (hstarted : s'.history.started = s.history.started)
      (hpending : s'.pendingBehaviors = if newMode = .fault then .empty else s.pendingBehaviors) :
      Stepped api s s' (.transitionTo newMode)
  | cleared (hpending : s'.pendingBehaviors = .empty)
      (hstarted : s'.history.started = s.history.started) (hmode : s'.currentMode = s.currentMode) :
      Stepped api s s' .clearPendingBehaviors
  | ticked (alarms : Alarms) (h : Ticked api s s') : Stepped api s s' (.tick alarms)

lemma StepOutcome.stepped (h : StepOutcome api s l s') : Stepped api s s' l := by
  cases h with
  | ticked alarms _ h => exact .ticked alarms h.ticked
  | rejected => exact .rested _ ⟨rfl, rfl, rfl⟩
  | accepted request q hpush => exact .accepted request hpush rfl rfl
  | called => exact .rested _ ⟨rfl, rfl, rfl⟩
  | paused => exact .rested _ ⟨rfl, rfl, rfl⟩
  | resumed => exact .rested _ ⟨rfl, rfl, rfl⟩
  | moved newMode hval hflt => exact .moved newMode hval rfl rfl (if_neg hflt).symm
  | faulted => exact .moved .fault (isValidTransition_fault _) rfl rfl rfl
  | cleared => exact .cleared rfl rfl rfl
  | withdrawn => exact .rested _ ⟨rfl, rfl, rfl⟩
  | erased => exact .rested _ ⟨rfl, rfl, rfl⟩

lemma next_cases (hn : next api s l = some s') : Stepped api s s' l :=
  (outcome_next hn).stepped

lemma Arbitrated.mem_pending (h : Arbitrated api s s') (hr : r ∈ s'.pendingBehaviors.toList) :
    r ∈ s.pendingBehaviors.toList := by
  cases h with
  | rested hpend => rwa [hpend] at hr
  | dropped _ _ _ _ hpop
  | started _ hpop =>
    rw [BehaviorPriorityQueue.toList_pop hpop]
    exact List.mem_cons_of_mem _ hr
  | stopped _ _ _ _ _ _ _ _ _ hpend =>
    rw [hpend] at hr
    cases hr

lemma pending_or_requested (hn : next api s l = some s') (hr : r ∈ s'.pendingBehaviors.toList) :
    r ∈ s.pendingBehaviors.toList ∨
      ∃ request, l = .requestBehavior request ∧ r = ⟨request, s.history.accepted⟩ := by
  cases next_cases hn with
  | rested _ h =>
    rw [h.pending] at hr
    exact .inl hr
  | accepted request hpush =>
    rcases List.mem_cons.mp ((BehaviorPriorityQueue.toList_push hpush).mem_iff.mp hr) with rfl | hr
    · exact .inr ⟨request, rfl, rfl⟩
    · exact .inl hr
  | moved _ _ _ _ hpend =>
    rw [hpend] at hr
    split at hr
    · cases hr
    · exact .inl hr
  | cleared hpend =>
    rw [hpend] at hr
    cases hr
  | ticked _ h =>
    cases h with
    | interrupted _ hpend =>
      rw [hpend] at hr
      exact .inl hr
    | faulted _ hpend =>
      rw [hpend] at hr
      cases hr
    | waited _ hpend =>
      rw [hpend] at hr
      exact .inl hr
    | arbitrated _ h => exact .inl (h.mem_pending hr)

lemma pop_of_starts (hn : next api s l = some s') (hb : Starts s s' b) :
    ∃ q, s.pendingBehaviors.pop = some (b, q) ∧
      (s'.pendingBehaviors = q ∨ s'.pendingBehaviors = .empty) := by
  have hsame : s'.history.started ≠ s.history.started := fun h => not_starts h b hb
  cases next_cases hn with
  | rested _ h => exact absurd h.started hsame
  | accepted _ _ hstd => exact absurd hstd hsame
  | moved _ _ _ hstd => exact absurd hstd hsame
  | cleared _ hstd => exact absurd hstd hsame
  | ticked _ h =>
    cases h with
    | interrupted _ _ hstd => exact absurd hstd hsame
    | faulted _ _ hstd => exact absurd hstd hsame
    | waited _ _ hstd => exact absurd hstd hsame
    | arbitrated _ h =>
      cases h with
      | rested _ hstd => exact absurd hstd hsame
      | dropped _ _ _ _ _ _ hstd => exact absurd hstd hsame
      | started r hpop hstar =>
        cases hstar.1.symm.trans hb.1
        exact ⟨_, hpop, .inl rfl⟩
      | stopped _ r q _ _ hpop _ hstar _ hpend =>
        cases hstar.1.symm.trans hb.1
        exact ⟨q, hpop, .inr hpend⟩

end BehaviorArbiter
end Mxrc.Control
