import Mxrc.Control.CriticalAlarm

/-!
# Warnings and the change to MAINT

A tick that sees a warning changes the mode to MAINT if no behavior is current,
and otherwise sets a flag for the tick that sees the end of the task. From
READY, AUTO and MANUAL that change is not valid: the flag is cleared all the
same.
-/

namespace Mxrc.Control
open Mxrc.Lib Mxrc.Robot

namespace BehaviorArbiter
variable {τ ω : Type} (api : TaskApi τ ω) (G : BehaviorArbiter τ ω → Label τ ω → Prop)

def Label.warns : Label τ ω → Bool
  | .tick alarms => alarms.hasActiveWarnings && !alarms.hasCriticalAlarm
  | _ => true

def FromTick (ls : List (Label τ ω)) : Prop := ∃ alarms rest, ls = .tick alarms :: rest

def Watched (s : BehaviorArbiter τ ω) (l : Label τ ω) : Prop :=
  l.warns = true ∧ s.currentMode ≠ .maint ∧ G s l

def HasEnded (s : BehaviorArbiter τ ω) (b : Accepted τ) : Prop :=
  (api.getStatus b.task s.world).finished = true

def MaintAtOnce (s : BehaviorArbiter τ ω) : Prop :=
  s.currentBehavior = none → ∀ alarms, Watched G s (.tick alarms) →
    (after (tick api alarms) s).currentMode = .maint

def MaintAtEnd (s : BehaviorArbiter τ ω) (b : Accepted τ) : Prop :=
  ∀ ls t alarms, Run (next api) (Watched G) s ls t → FromTick (ls ++ [.tick alarms]) →
    Watched G t (.tick alarms) → t.paused = false → t.currentBehavior = some b →
    HasEnded api t b → (after (tick api alarms) t).currentMode = .maint

def NoStartBefore (s : BehaviorArbiter τ ω) (b : Accepted τ) : Prop :=
  ∀ ls t ls' t' l t'' r, Run (next api) (Watched G) s ls t → HasEnded api t b →
    Run (next api) (Watched G) t ls' t' → FromTick (ls ++ (ls' ++ [l])) → Watched G t' l →
    next api t' l = some t'' → Starts t' t'' r → t''.currentMode = .maint

def Operating (mode : ControlMode) : Prop :=
  mode = .standby ∨ mode = .ready ∨ mode = .auto ∨ mode = .manual

/-- From every reachable state in one of the four modes, with the warning active from there on. -/
def MaintBeforeWork : Prop :=
  ∀ w₀ ls s, Run (next api) (fun _ _ => True) (make w₀) ls s → Operating s.currentMode →
    MaintAtOnce api G s ∧
      ∀ b, s.currentBehavior = some b → MaintAtEnd api G s b ∧ NoStartBefore api G s b

/-- The ticks are taken in STANDBY and without an old flag, and the current behavior is neither
preempted nor cancelled. -/
def Undisturbed (s : BehaviorArbiter τ ω) : Label τ ω → Prop
  | .tick _ => s.currentMode = .standby ∧
      (s.currentBehavior = none → s.pendingSafeMode = false) ∧
      ∀ current r q, Busy api s current → s.pendingBehaviors.pop = some (r, q) →
        shouldPreempt r current = true → ¬ StopsFor api s r
  | .cancelBehavior behaviorId => ∀ b, s.currentBehavior = some b → b.behaviorId = behaviorId →
      b.cancellable = false
  | _ => True

section
variable {api} {s s' t : BehaviorArbiter τ ω} {l : Label τ ω} {b : Accepted τ} {alarms : Alarms}

lemma Label.warns_tick (h : (.tick alarms : Label τ ω).warns = true) :
    alarms.hasActiveWarnings = true ∧ alarms.hasCriticalAlarm = false := by
  simpa [Label.warns] using h

section
variable (h : Checked alarms s t) (hwar : (.tick alarms : Label τ ω).warns = true)
  (hmode : s.currentMode = .standby)
include h hwar hmode

lemma Checked.flagged (hc : s.currentBehavior = some b) :
    t = { s with pendingSafeMode := true } := by
  obtain ⟨hw, hcrit⟩ := Label.warns_tick hwar
  cases h with
  | warned _ _ hwarn =>
    cases hwarn with
    | calm h =>
      have hsafe : s.pendingSafeMode = true := by
        by_contra hsafe
        rw [Bool.not_eq_true] at hsafe
        exact h ⟨hw, by rw [hmode]; decide, by rw [hmode]; decide, hsafe⟩
      rw [← hsafe]
    | postponed => rfl
    | refused _ hnone => simp [hc] at hnone
    | maint _ hnone => simp [hc] at hnone
  | faulted _ hcrit' =>
    rw [hcrit] at hcrit'
    cases hcrit'

lemma Checked.changed (hc : s.currentBehavior = none) (hsafe : s.pendingSafeMode = false) :
    t.currentMode = .maint ∧ t.currentBehavior = none := by
  obtain ⟨hw, hcrit⟩ := Label.warns_tick hwar
  cases h with
  | warned _ _ hwarn =>
    cases hwarn with
    | calm h => exact absurd ⟨hw, by rw [hmode]; decide, by rw [hmode]; decide, hsafe⟩ h
    | postponed _ hsome => simp [hc] at hsome
    | refused _ _ hval =>
      rw [hmode] at hval
      cases hval
    | maint => exact ⟨rfl, hc⟩
  | faulted _ hcrit' =>
    rw [hcrit] at hcrit'
    cases hcrit'

end

lemma Outcome.watched (h : Outcome api { s with pendingSafeMode := true } s')
    (hg : Undisturbed api s (.tick alarms)) (hc : s.currentBehavior = some b) :
    s'.history.started = s.history.started ∧
      (s'.currentMode = .maint ∨ s'.currentBehavior = some b ∧ ¬ HasEnded api s b) := by
  obtain ⟨hmode, -, hsty⟩ := hg
  have hrng : ∀ {current}, Busy api { s with pendingSafeMode := true } current →
      s.currentBehavior = some b ∧ ¬ HasEnded api s b := by
    intro current hbusy
    cases hc.symm.trans hbusy.1
    refine ⟨hc, fun hndd => ?_⟩
    rw [HasEnded, hbusy.2] at hndd
    cases hndd
  cases h with
  | idle hfree => cases (hfree b hc).2
  | next _ _ hfree => cases (hfree b hc).2
  | safeMode => exact ⟨rfl, .inl (by simp [hmode, isValidTransition])⟩
  | continued _ hbusy => exact ⟨rfl, .inr (hrng hbusy)⟩
  | dropped _ _ _ hbusy => exact ⟨rfl, .inr (hrng hbusy)⟩
  | failed _ _ _ _ hbusy => exact ⟨rfl, .inr (hrng hbusy)⟩
  | stopped current r q hbusy hpop hp hr hok =>
    exact absurd (stopsFor_of_stop hbusy hr hok) (hsty current r q hbusy hpop hp)
  | suspended current r q hbusy hpop hp hr hok =>
    exact absurd (stopsFor_of_pause hbusy hr hok) (hsty current r q hbusy hpop hp)

lemma tick_watched (hwar : (.tick alarms : Label τ ω).warns = true)
    (hg : Undisturbed api s (.tick alarms)) (hc : s.currentBehavior = some b) :
    let s' := after (tick api alarms) s
    s'.history.started = s.history.started ∧ (s'.currentMode = .maint ∨
      s'.currentBehavior = some b ∧ (s.paused = false → ¬ HasEnded api s b)) := by
  have hcrit := (Label.warns_tick hwar).2
  cases outcome_tick api alarms s with
  | interrupted _ hcrit' =>
    rw [hcrit] at hcrit'
    cases hcrit'
  | waited hchk hpau =>
    rw [hchk.flagged hwar hg.1 hc] at hpau ⊢
    refine ⟨rfl, .inr ⟨hc, fun hrng => ?_⟩⟩
    cases hrng.symm.trans hpau
  | arbitrated t hchk _ h =>
    rw [hchk.flagged hwar hg.1 hc] at h
    obtain ⟨hstd, hmnt | ⟨hsty, hndd⟩⟩ := h.watched hg hc
    · exact ⟨hstd, .inl hmnt⟩
    · exact ⟨hstd, .inr ⟨hsty, fun _ => hndd⟩⟩

lemma next_watched (h : Watched (Undisturbed api) s l) (hc : s.currentBehavior = some b)
    (hn : next api s l = some s') :
    s'.history.started = s.history.started ∧
      (s'.currentMode = .maint ∨ s'.currentBehavior = some b) := by
  cases outcome_next hn with
  | ticked alarms _ _ =>
    cases hn
    obtain ⟨hstd, hmnt | ⟨hsty, -⟩⟩ := tick_watched h.1 h.2.2 hc
    · exact ⟨hstd, .inl hmnt⟩
    · exact ⟨hstd, .inr hsty⟩
  | withdrawn b' hc' hcan =>
    have hkept := h.2.2 b' hc' rfl
    rw [hcan] at hkept
    cases hkept
  | _ => exact ⟨rfl, .inr hc⟩

lemma maintAtOnce : MaintAtOnce api (Undisturbed api) s := by
  intro hc alarms h
  obtain ⟨hwar, -, hmode, hflag, -⟩ := h
  have hcrit := (Label.warns_tick hwar).2
  cases outcome_tick api alarms s with
  | interrupted _ hcrit' =>
    rw [hcrit] at hcrit'
    cases hcrit'
  | waited hchk => exact (hchk.changed hwar hmode hc (hflag hc)).1
  | arbitrated t hchk _ h =>
    obtain ⟨hmnt, hnone⟩ := hchk.changed hwar hmode hc (hflag hc)
    rcases h.arbitrated with ⟨_, _, hm⟩ | ⟨_, _, hcur⟩ | ⟨_, _, _, hm⟩ | ⟨_, _, _, hcur⟩
    · exact hm.elim (fun hm => hm.trans hmnt) And.left
    · rw [hnone] at hcur
      cases hcur
    · exact hm.elim (fun hm => hm.trans hmnt) And.left
    · rw [hnone] at hcur
      cases hcur

lemma maintAtEnd : MaintAtEnd api (Undisturbed api) s b := by
  intro ls t alarms _ _ h hrng hc hndd
  obtain ⟨-, hmnt | ⟨-, hnot⟩⟩ := tick_watched h.1 h.2.2 hc
  · exact hmnt
  · exact absurd hndd (hnot hrng)

lemma noStartBefore (hc : s.currentBehavior = some b) :
    NoStartBefore api (Undisturbed api) s b := by
  intro ls t ls' t' l t'' r hrun _ hrun' _ h hn hr
  -- A watched step is taken before MAINT, so the behavior is still there.
  have hsty : t'.currentMode = .maint ∨ t'.currentBehavior = some b :=
    (hrun.append hrun').invariant (fun t => t.currentMode = .maint ∨ t.currentBehavior = some b)
      (.inr hc) fun u l u' hu h hn => by
        rcases hu with hmnt | hu
        · exact absurd hmnt h.2.1
        · exact (next_watched h hu hn).2
  rcases hsty with hmnt | hsty
  · exact absurd hmnt h.2.1
  · exact absurd hr (not_starts (next_watched h hsty hn).1 r)

end

theorem maintBeforeWork_of_undisturbed : MaintBeforeWork api (Undisturbed api) := by
  intro w₀ ls s _ _
  refine ⟨maintAtOnce, fun b hc => ⟨maintAtEnd, noStartBefore hc⟩⟩

/-- The transport ends in READY under a warning, and the mode stays READY. -/
theorem not_maintBeforeWork : ¬ MaintBeforeWork PalletTransportTask.api (fun _ _ => True) := by
  intro hall
  have hexec : ((exec (next PalletTransportTask.api) (fun _ _ => true) (make idleTasks)
      [.transitionTo .ready, .requestBehavior transport, .tick ⟨false, false⟩]).bind fun s =>
        (exec (next PalletTransportTask.api)
          (fun s l => l.warns && decide (s.currentMode ≠ .maint)) s
          [.tick ⟨false, true⟩, .tasks fun _ => ⟨"pallet", .completed⟩]).map fun t =>
          ([s.currentMode, t.currentMode,
            (after (tick PalletTransportTask.api ⟨false, true⟩) t).currentMode],
            [s.currentBehavior, t.currentBehavior], t.paused, (t.world 0).status)) =
      some ([.ready, .ready, .ready], [some ⟨transport, 0⟩, some ⟨transport, 0⟩], false,
        .completed) := by decide +kernel
  obtain ⟨s, hs, hrest⟩ := Option.bind_eq_some_iff.mp hexec
  obtain ⟨t, ht, hend⟩ := Option.map_eq_some_iff.mp hrest
  simp only [Prod.mk.injEq, List.cons.injEq, and_true] at hend
  obtain ⟨⟨hmode, hmode', haft⟩, ⟨hcur, hcur'⟩, hpau, hst⟩ := hend
  have hwat : Run (next PalletTransportTask.api) (Watched fun _ _ => True) s
      [.tick ⟨false, true⟩, .tasks fun _ => ⟨"pallet", .completed⟩] t := by
    refine Run.of_exec (fun u l hu => ?_) ht
    rw [Bool.and_eq_true, decide_eq_true_eq] at hu
    exact ⟨hu.1, hu.2, trivial⟩
  have hfrom := hall idleTasks _ s (Run.of_exec (fun _ _ _ => trivial) hs) (.inr (.inl hmode))
  have hmnt := (hfrom.2 _ hcur).1 _ t ⟨false, true⟩ hwat ⟨_, _, rfl⟩
    ⟨rfl, by rw [hmode']; decide, trivial⟩ hpau hcur' (by
      change (t.world 0).status.finished = true
      rw [hst]
      rfl)
  rw [haft] at hmnt
  cases hmnt

end BehaviorArbiter
end Mxrc.Control
