import Mxrc.Control.PreemptionOrder

/-!
# Behaviors that cannot be cancelled

`cancelBehavior` refuses to stop the current behavior if it is not cancellable.
Preemption does not look at the flag: a request with a preempting priority
pauses and replaces such a behavior like any other.
-/

namespace Mxrc.Control
open Mxrc.Lib Mxrc.Robot

namespace BehaviorArbiter
variable {τ ω : Type} (api : TaskApi τ ω)

/-- The current behavior, not cancellable and with a task that has not ended. -/
def Shielded (s : BehaviorArbiter τ ω) (b : Accepted τ) : Prop :=
  Busy api s b ∧ b.cancellable = false

def Untouched (s s' : BehaviorArbiter τ ω) : Prop :=
  s'.currentBehavior = s.currentBehavior ∧ s'.world = s.world

def EmergencyNext (s : BehaviorArbiter τ ω) : Prop :=
  ∃ r q, s.pendingBehaviors.pop = some (r, q) ∧ r.priority = .emergencyStop

/-- A shielded behavior is left alone by ticks without a critical alarm or an emergency stop, and by
every cancellation. -/
def Shields (s : BehaviorArbiter τ ω) : Label τ ω → Prop
  | .tick alarms => alarms.hasCriticalAlarm = false → ∀ b, Shielded api s b →
      Untouched s (after (tick api alarms) s) ∨ EmergencyNext s
  | .cancelBehavior behaviorId => ∀ b, Shielded api s b →
      Untouched s (after (cancelBehavior api behaviorId) s)
  | _ => True

/-- The head of the queue preempts only in an emergency, or its call of `pause` throws and has no
effect. -/
def Spared (s : BehaviorArbiter τ ω) (b : Accepted τ) : Prop :=
  ∀ r q, s.pendingBehaviors.pop = some (r, q) → shouldPreempt r b = true →
    r.priority = .emergencyStop ∨ ∃ e, api.pause b.task s.world = (some e, s.world)

def Spares (s : BehaviorArbiter τ ω) : Label τ ω → Prop
  | .tick alarms => alarms.hasCriticalAlarm = false → ∀ b, Shielded api s b →
      s.paused = false → Spared api s b
  | _ => True

section
variable {api} {s s' t : BehaviorArbiter τ ω} {l : Label τ ω} {b : Accepted τ} {alarms : Alarms}

lemma Outcome.untouched_iff (h : Outcome api s s') (hbusy : Busy api s b) :
    Untouched s s' ∨ EmergencyNext s ↔ Spared api s b := by
  cases h with
  | idle hfree => exact absurd hbusy hfree.not_busy
  | next _ _ hfree => exact absurd hbusy hfree.not_busy
  | safeMode current hc hf =>
    cases hc.symm.trans hbusy.1
    rw [hbusy.2] at hf
    cases hf
  | continued current _ hpop =>
    refine iff_of_true (.inl ⟨rfl, rfl⟩) fun r q hpop' => ?_
    rw [hpop] at hpop'
    cases hpop'
  | dropped current r q hbusy' hpop hp =>
    refine iff_of_true (.inl ⟨rfl, rfl⟩) fun r' q' hpop' hp' => ?_
    cases hbusy'.1.symm.trans hbusy.1
    cases hpop.symm.trans hpop'
    rw [hp] at hp'
    cases hp'
  | failed current r q e hbusy' hpop hp he =>
    cases hbusy'.1.symm.trans hbusy.1
    by_cases hr : r.priority = .emergencyStop
    · refine iff_of_true (.inr ⟨r, q, hpop, hr⟩) fun r' q' hpop' _ => ?_
      cases hpop.symm.trans hpop'
      exact .inl hr
    · rw [stopMethod, if_neg hr] at he ⊢
      constructor
      · rintro (⟨-, hwor⟩ | ⟨r', q', hpop', hr'⟩) first q'' hpop'' _
        · exact .inr ⟨e, Prod.ext he hwor⟩
        · cases hpop.symm.trans hpop'
          exact absurd hr' hr
      · intro hspar
        rcases hspar r q hpop hp with hr' | ⟨e', hpause⟩
        · exact absurd hr' hr
        · exact .inl ⟨rfl, congrArg Prod.snd hpause⟩
  | stopped current r q hbusy' hpop hp hr =>
    refine iff_of_true (.inr ⟨r, q, hpop, hr⟩) fun r' q' hpop' _ => ?_
    cases hpop.symm.trans hpop'
    exact .inl hr
  | suspended current r q hbusy' hpop hp hr hok =>
    cases hbusy'.1.symm.trans hbusy.1
    rw [after_startTask]
    refine iff_of_false ?_ fun hspar => ?_
    · rintro (⟨hcur, -⟩ | ⟨r', q', hpop', hr'⟩)
      -- The new current behavior has a higher priority, so it is another one.
      · have hsame : r = b := Option.some.inj (hcur.trans hbusy.1)
        rw [hsame, shouldPreempt, Bool.and_eq_true, decide_eq_true_eq] at hp
        exact absurd hp.1 (Nat.lt_irrefl _)
      · cases hpop.symm.trans hpop'
        exact hr hr'
    · rcases hspar r q hpop hp with hr' | ⟨e, hpause⟩
      · exact hr hr'
      · rw [hpause] at hok
        cases hok

lemma Checked.keeps (h : Checked alarms s t) (hcrit : alarms.hasCriticalAlarm = false) :
    t.pendingBehaviors = s.pendingBehaviors ∧ t.currentBehavior = s.currentBehavior ∧
      t.world = s.world ∧ t.paused = s.paused := by
  cases h with
  | warned _ _ hwar =>
    obtain ⟨-, hpend, hcur, hwor, -, hpau⟩ := hwar.keeps
    exact ⟨hpend, hcur, hwor, hpau⟩
  | faulted _ hcrit' =>
    rw [hcrit] at hcrit'
    cases hcrit'

lemma TickOutcome.untouched_iff (h : TickOutcome api alarms s s')
    (hcrit : alarms.hasCriticalAlarm = false) (hbusy : Busy api s b) :
    Untouched s s' ∨ EmergencyNext s ↔ (s.paused = false → Spared api s b) := by
  cases h with
  | interrupted _ hcrit' =>
    rw [hcrit] at hcrit'
    cases hcrit'
  | waited hchk hpau =>
    obtain ⟨-, hcur, hwor, hpau'⟩ := hchk.keeps hcrit
    refine iff_of_true (.inl ⟨hcur, hwor⟩) fun hrng => ?_
    rw [hpau', hrng] at hpau
    cases hpau
  | arbitrated t hchk hpau h =>
    obtain ⟨hpend, hcur, hwor, hpau'⟩ := hchk.keeps hcrit
    have hbusy' : Busy api t b := by
      rw [Busy, hcur, hwor]
      exact hbusy
    have hiff := h.untouched_iff hbusy'
    rw [Untouched, EmergencyNext, Spared, hpend, hcur, hwor] at hiff
    exact ⟨fun h _ => hiff.mp h, fun h => hiff.mpr (h (hpau'.symm.trans hpau))⟩

lemma untouched_cancelBehavior (behaviorId : String) (h : Shielded api s b) :
    Untouched s (after (cancelBehavior api behaviorId) s) := by
  by_cases hid : b.behaviorId = behaviorId
  · rw [after_of_ok (cancelBehavior_run_refused h.1.1 hid h.2)]
    exact ⟨rfl, rfl⟩
  · have hoth : ∀ b', s.currentBehavior = some b' → b'.behaviorId ≠ behaviorId := by
      intro b' hb'
      cases h.1.1.symm.trans hb'
      exact hid
    rw [after_congr (cancelBehavior_run_other hoth)]
    cases hlk : s.suspendedBehaviors.lookup behaviorId with
    | none =>
      rw [after_of_ok (cancelSuspended_run_none hlk)]
      exact ⟨rfl, rfl⟩
    | some _ =>
      rw [after_of_ok (cancelSuspended_run_some hlk)]
      exact ⟨rfl, rfl⟩

lemma shields_iff : Shields api s l ↔ Spares api s l := by
  cases l with
  | tick alarms =>
    refine forall_congr' fun hcrit => forall_congr' fun b => forall_congr' fun hb => ?_
    exact (outcome_tick api alarms s).untouched_iff hcrit hb.1
  | cancelBehavior behaviorId =>
    exact iff_of_true (fun b hb => untouched_cancelBehavior behaviorId hb) trivial
  | _ => exact Iff.rfl

end

def ProtectsNonCancellable (w₀ : ω) (ls : List (Label τ ω)) : Prop :=
  EveryStep (next api) (Shields api) (make w₀) ls

theorem protectsNonCancellable_iff (w₀ : ω) (ls : List (Label τ ω)) :
    ProtectsNonCancellable api w₀ ls ↔ EveryStep (next api) (Spares api) (make w₀) ls :=
  everyStep_congr (I := fun _ => True) trivial fun _ _ _ _ _ => ⟨shields_iff, fun _ => trivial⟩

/-- An urgent request pauses a transport that is not cancellable, and takes its place. -/
theorem not_protectsNonCancellable :
    ¬ ∀ (w₀ : PalletTransportTask.Objects) (ls : List (Label ℕ PalletTransportTask.Objects)),
      ProtectsNonCancellable PalletTransportTask.api w₀ ls := by
  intro hall
  have hexec : (exec (next PalletTransportTask.api) (fun _ _ => true) (make idleTasks)
      [.requestBehavior { transport with cancellable := false }, .tick ⟨false, false⟩,
        .requestBehavior (urgentRequest "inspect" 1)]).map (fun s =>
        (s.currentBehavior, (s.world 0).status,
          s.pendingBehaviors.pop.map fun p => p.1.priority,
          (after (tick PalletTransportTask.api ⟨false, false⟩) s).currentBehavior)) =
      some (some ⟨{ transport with cancellable := false }, 0⟩, .running, some .urgentTask,
        some ⟨urgentRequest "inspect" 1, 1⟩) := by decide +kernel
  obtain ⟨s, hrun, hend⟩ := exists_run_of_exec (fun _ _ _ => trivial) hexec
  simp only [Prod.mk.injEq] at hend
  obtain ⟨hcur, hst, hpop, haft⟩ := hend
  have hbusy : Busy PalletTransportTask.api s ⟨{ transport with cancellable := false }, 0⟩ := by
    refine ⟨hcur, ?_⟩
    change (s.world 0).status.finished = false
    rw [hst]
    rfl
  have hshiel := hall _ _ _ (.tick ⟨false, false⟩) [] s _ rfl hrun rfl rfl _ ⟨hbusy, rfl⟩
  rcases hshiel with ⟨hsame, -⟩ | ⟨r, q, hr, hemer⟩
  · rw [haft, hcur] at hsame
    revert hsame
    decide
  · rw [hr, Option.map_some, Option.some.injEq, hemer] at hpop
    cases hpop

end BehaviorArbiter
end Mxrc.Control
