import Mxrc.Control.PreemptionOrder

/-!
# Suspended work

A preempted behavior is paused and put into the map of suspended behaviors, and
no tick takes it out again. The `Journal` records the behaviors that wait to be
resumed; of two with the same id the map only holds the later one.
-/

namespace Mxrc.Control
open Mxrc.Lib Mxrc.Robot List

namespace BehaviorArbiter
variable {τ ω : Type} (api : TaskApi τ ω)

def suspendedNow (s s' : BehaviorArbiter τ ω) : Option (Accepted τ) :=
  s.currentBehavior.filter fun b =>
    decide ((s'.suspendedBehaviors.lookup b.behaviorId).map (·.ticket) = some b.ticket)

/-- `waiting` has every behavior that was suspended and whose id has been in the map since then. -/
structure Journal (τ ω : Type) where
  arbiter : BehaviorArbiter τ ω
  waiting : List (Accepted τ)

namespace Journal

def make (w₀ : ω) : Journal τ ω := ⟨BehaviorArbiter.make w₀, []⟩

def record (J : Journal τ ω) (s' : BehaviorArbiter τ ω) : Journal τ ω :=
  ⟨s', ((suspendedNow J.arbiter s').toList ++ J.waiting).filter fun b =>
    (s'.suspendedBehaviors.lookup b.behaviorId).isSome⟩

def next (J : Journal τ ω) (l : Label τ ω) : Option (Journal τ ω) :=
  (BehaviorArbiter.next api J.arbiter l).map J.record

end Journal

def Idle (s : BehaviorArbiter τ ω) : Prop :=
  s.paused = false ∧ s.pendingBehaviors = .empty ∧
    ∀ b, s.currentBehavior = some b → (api.getStatus b.task s.world).finished = true

def Resumes (s s' : BehaviorArbiter τ ω) (b : Accepted τ) : Prop :=
  s'.currentBehavior = some b ∧ s'.world = (api.resume b.task s.world).2

/-- An endless run of ticks without alarms and of steps of the tasks, in which every task that is
current ends. -/
structure Endless (states : ℕ → BehaviorArbiter τ ω) (labels : ℕ → Label τ ω) : Prop where
  quiet : ∀ k, labels k = .tick ⟨false, false⟩ ∨ ∃ w, labels k = .tasks w
  step : ∀ k, next api (states k) (labels k) = some (states (k + 1))
  ticks : ∀ k, ∃ j ≥ k, labels j = .tick ⟨false, false⟩
  ends : ∀ k b, (states k).currentBehavior = some b → ∃ j ≥ k,
    (states j).currentBehavior ≠ some b ∨
      (api.getStatus b.task (states j).world).finished = true

/-- The next tick resumes a waiting behavior. In every endless run all of them are resumed, and the
map becomes empty. -/
structure ResumesWaiting (J : Journal τ ω) : Prop where
  first : J.waiting ≠ [] → ∃ b ∈ J.waiting,
    Resumes api J.arbiter (after (tick api ⟨false, false⟩) J.arbiter) b
  all : ∀ states labels, states 0 = J.arbiter → Endless api states labels →
    (∀ b ∈ J.waiting, ∃ k, Resumes api (states k) (states (k + 1)) b) ∧
      ∃ k, (states k).suspendedBehaviors = ∅

/-- In every reachable idle state with `C`, what waits is resumed. -/
def ResumesSuspended (C : Journal τ ω → Prop) : Prop :=
  ∀ w₀ ls J, Run (Journal.next api) (fun _ _ => True) (.make w₀) ls J → Idle api J.arbiter → C J →
    ResumesWaiting api J

section
variable {api} {s s' t : BehaviorArbiter τ ω} {l : Label τ ω} {b : Accepted τ} {alarms : Alarms}
  {behaviorId : String}

lemma Outcome.lookup_suspended (h : Outcome api s s')
    (hb : s'.suspendedBehaviors.lookup behaviorId = some b) :
    s.suspendedBehaviors.lookup behaviorId = some b ∨
      s.currentBehavior = some b ∧ b.behaviorId = behaviorId := by
  cases h with
  | idle => exact .inl hb
  | next =>
    rw [after_startTask] at hb
    exact .inl hb
  | safeMode => exact .inl hb
  | continued => exact .inl hb
  | dropped => exact .inl hb
  | failed => exact .inl hb
  | stopped =>
    rw [after_startTask] at hb
    cases hb
  | suspended current r q hbusy =>
    rw [after_startTask] at hb
    change (s.suspendedBehaviors.insert current.behaviorId current).lookup behaviorId = some b at hb
    rcases lookup_insert_cases hb with ⟨rfl, rfl⟩ | ⟨-, hb⟩
    · exact .inr ⟨hbusy.1, rfl⟩
    · exact .inl hb

lemma Checked.lookup_suspended (h : Checked alarms s t)
    (hb : t.suspendedBehaviors.lookup behaviorId = some b) :
    s.suspendedBehaviors.lookup behaviorId = some b := by
  cases h with
  | warned _ _ hwar => cases hwar <;> exact hb
  | faulted => cases hb

lemma Checked.currentBehavior (h : Checked alarms s t) :
    t.currentBehavior = s.currentBehavior := by
  cases h with
  | warned _ _ hwar => exact hwar.keeps.2.2.1
  | faulted => rfl

lemma lookup_suspended_next (hn : next api s l = some s')
    (hb : s'.suspendedBehaviors.lookup behaviorId = some b) :
    s.suspendedBehaviors.lookup behaviorId = some b ∨
      s.currentBehavior = some b ∧ b.behaviorId = behaviorId := by
  cases outcome_next hn with
  | ticked _ _ h =>
    cases h with
    | interrupted _ _ _ hs' =>
      rw [hs'] at hb
      exact .inl hb
    | waited hchk => exact .inl (hchk.lookup_suspended hb)
    | arbitrated t hchk _ h =>
      rcases h.lookup_suspended hb with hb | ⟨hcur, hid⟩
      · exact .inl (hchk.lookup_suspended hb)
      · exact .inr ⟨hchk.currentBehavior ▸ hcur, hid⟩
  | faulted => cases hb
  | cleared => cases hb
  | erased cancelled =>
    change (s.suspendedBehaviors.erase cancelled).lookup behaviorId = some b at hb
    by_cases hid : behaviorId = cancelled
    · subst hid
      rw [AList.lookup_erase] at hb
      cases hb
    · rw [AList.lookup_erase_ne hid] at hb
      exact .inl hb
  | _ => exact .inl hb

lemma currentBehavior_of_idle (h : Idle api s) :
    (after (tick api ⟨false, false⟩) s).currentBehavior = none := by
  obtain ⟨hpau, hpend, hndd⟩ := h
  have hnot : ∀ {current}, ¬ Busy api s current := by
    intro current hbusy
    have hfin := hndd current hbusy.1
    rw [hbusy.2] at hfin
    cases hfin
  have hnone : ∀ {r q}, s.pendingBehaviors.pop ≠ some (r, q) := by
    intro r q hpop
    rw [hpend] at hpop
    cases hpop
  have h : Outcome api s (after (tick api ⟨false, false⟩) s) := outcome_of_quiet hpau
  generalize after (tick api ⟨false, false⟩) s = s' at h
  cases h with
  | idle => rfl
  | next _ _ _ hpop => exact absurd hpop hnone
  | safeMode => rfl
  | continued _ hbusy => exact absurd hbusy hnot
  | dropped _ _ _ hbusy => exact absurd hbusy hnot
  | failed _ _ _ _ hbusy => exact absurd hbusy hnot
  | stopped _ _ _ hbusy => exact absurd hbusy hnot
  | suspended _ _ _ hbusy => exact absurd hbusy hnot

def Journal.Complete (J : Journal τ ω) : Prop :=
  ∀ behaviorId b, J.arbiter.suspendedBehaviors.lookup behaviorId = some b →
    b.behaviorId = behaviorId ∧ b ∈ J.waiting

variable {J : Journal τ ω}

lemma Journal.Complete.next {J' : Journal τ ω} (h : J.Complete) (hn : J.next api l = some J') :
    J'.Complete := by
  obtain ⟨s', hs', rfl⟩ := Option.map_eq_some_iff.mp hn
  intro behaviorId b hb
  change s'.suspendedBehaviors.lookup behaviorId = some b at hb
  rcases lookup_suspended_next hs' hb with hold | ⟨hcur, rfl⟩
  · obtain ⟨rfl, hwait⟩ := h behaviorId b hold
    refine ⟨rfl, mem_filter.mpr ⟨mem_append_right _ hwait, ?_⟩⟩
    rw [hb]
    rfl
  · have hnow : suspendedNow J.arbiter s' = some b := by simp [suspendedNow, hcur, hb]
    refine ⟨rfl, mem_filter.mpr ⟨mem_append_left _ ?_, ?_⟩⟩
    · rw [hnow]
      exact mem_singleton_self b
    · rw [hb]
      rfl

lemma Journal.Complete.suspended_eq_empty (h : J.Complete) (hwait : J.waiting = []) :
    J.arbiter.suspendedBehaviors = ∅ := by
  refine AList.ext (eq_nil_iff_forall_not_mem.mpr fun entry hent => ?_)
  have hmem := (h entry.1 entry.2 (AList.mem_lookup_iff.mpr hent)).2
  rw [hwait] at hmem
  cases hmem

def Journal.Held (J : Journal τ ω) : Prop :=
  ∀ b ∈ J.waiting, (J.arbiter.suspendedBehaviors.lookup b.behaviorId).isSome = true

lemma Journal.held_next {J' : Journal τ ω} (hn : J.next api l = some J') : J'.Held := by
  obtain ⟨s', -, rfl⟩ := Option.map_eq_some_iff.mp hn
  intro b hb
  exact (mem_filter.mp hb).2

lemma Journal.Held.waiting_eq_nil (h : J.Held) (hemp : J.arbiter.suspendedBehaviors = ∅) :
    J.waiting = [] := by
  refine eq_nil_iff_forall_not_mem.mpr fun b hb => ?_
  have hsome := h b hb
  rw [hemp] at hsome
  cases hsome

structure Stalled (suspended : AList (fun _ : String => Accepted τ)) (s : BehaviorArbiter τ ω) :
    Prop where
  paused : s.paused = false
  pending : s.pendingBehaviors = .empty
  suspended : s.suspendedBehaviors = suspended

variable {suspended : AList (fun _ : String => Accepted τ)}

lemma Outcome.stalled (h : Outcome api s s') (hs : Stalled suspended s) :
    Stalled suspended s' := by
  have hnone : ∀ {r q}, s.pendingBehaviors.pop ≠ some (r, q) := by
    intro r q hpop
    rw [hs.pending] at hpop
    cases hpop
  cases h with
  | idle => exact ⟨hs.paused, hs.pending, hs.suspended⟩
  | next _ _ _ hpop => exact absurd hpop hnone
  | safeMode => exact ⟨hs.paused, hs.pending, hs.suspended⟩
  | continued => exact hs
  | dropped _ _ _ _ hpop => exact absurd hpop hnone
  | failed _ _ _ _ _ hpop => exact absurd hpop hnone
  | stopped _ _ _ _ hpop => exact absurd hpop hnone
  | suspended _ _ _ _ hpop => exact absurd hpop hnone

lemma Endless.stalled {states : ℕ → BehaviorArbiter τ ω} {labels : ℕ → Label τ ω}
    (h : Endless api states labels) (h0 : Stalled suspended (states 0)) (k : ℕ) :
    Stalled suspended (states k) := by
  induction k with
  | zero => exact h0
  | succ k ih =>
    have hn := h.step k
    rcases h.quiet k with hl | ⟨w, hl⟩
    · rw [hl] at hn
      have hs' : after (tick api ⟨false, false⟩) (states k) = states (k + 1) := Option.some.inj hn
      rw [← hs']
      exact (outcome_of_quiet ih.paused).stalled ih
    · rw [hl] at hn
      have hs' : { states k with world := w } = states (k + 1) := Option.some.inj hn
      rw [← hs']
      exact ⟨ih.paused, ih.pending, ih.suspended⟩

end

variable {w₀ : ω} {ls : List (Label τ ω)} {J : Journal τ ω}

section
variable (h : Run (Journal.next api) (fun _ _ => True) (.make w₀) ls J)
include h

lemma complete_of_run : J.Complete := by
  refine h.invariant Journal.Complete ?_ fun _ _ _ hJ _ hn => hJ.next hn
  intro behaviorId b hb
  cases hb

lemma held_of_run : J.Held := by
  refine h.invariant Journal.Held ?_ fun _ _ _ _ _ hn => Journal.held_next hn
  intro b hb
  cases hb

lemma waiting_eq_nil_iff : J.waiting = [] ↔ J.arbiter.suspendedBehaviors = ∅ :=
  ⟨(complete_of_run api h).suspended_eq_empty, (held_of_run api h).waiting_eq_nil⟩

end

def ticking (s : BehaviorArbiter τ ω) : ℕ → BehaviorArbiter τ ω
  | 0 => s
  | k + 1 => after (tick api ⟨false, false⟩) (ticking s k)

variable {api} in
lemma idle_ticking {s : BehaviorArbiter τ ω} (h : Idle api s) (k : ℕ) :
    Idle api (ticking api s k) := by
  induction k with
  | zero => exact h
  | succ k ih =>
    have hstal : Stalled (ticking api s k).suspendedBehaviors (ticking api s (k + 1)) :=
      (outcome_of_quiet ih.1).stalled ⟨ih.1, ih.2.1, rfl⟩
    refine ⟨hstal.paused, hstal.pending, fun b hb => ?_⟩
    have hnone : (ticking api s (k + 1)).currentBehavior = none := currentBehavior_of_idle ih
    rw [hnone] at hb
    cases hb

variable {api} in
lemma endless_ticking {s : BehaviorArbiter τ ω} (h : Idle api s) :
    Endless api (ticking api s) (fun _ => .tick ⟨false, false⟩) where
  quiet _ := .inl rfl
  step _ := rfl
  ticks k := ⟨k, le_rfl, rfl⟩
  ends k b hb := ⟨k, le_rfl, .inr ((idle_ticking h k).2.2 b hb)⟩

variable {api} in
lemma suspended_eq_empty_of_endless {s : BehaviorArbiter τ ω} (h : Idle api s)
    (hall : ∀ states labels, states 0 = s → Endless api states labels →
      ∃ k, (states k).suspendedBehaviors = ∅) : s.suspendedBehaviors = ∅ := by
  obtain ⟨k, hk⟩ := hall _ _ rfl (endless_ticking h)
  have hstal : Stalled s.suspendedBehaviors (ticking api s k) :=
    (endless_ticking h).stalled ⟨h.1, h.2.1, rfl⟩ k
  exact hstal.suspended.symm.trans hk

theorem resumesSuspended_iff (C : Journal τ ω → Prop) :
    ResumesSuspended api C ↔ ∀ w₀ ls J,
      Run (Journal.next api) (fun _ _ => True) (.make w₀) ls J → Idle api J.arbiter → C J →
        J.arbiter.suspendedBehaviors = ∅ := by
  constructor
  · intro h w₀ ls J hrun hidle hC
    exact suspended_eq_empty_of_endless hidle fun states labels h0 hendl =>
      ((h w₀ ls J hrun hidle hC).all states labels h0 hendl).2
  · intro h w₀ ls J hrun hidle hC
    have hemp := h w₀ ls J hrun hidle hC
    have hwait := (waiting_eq_nil_iff api hrun).mpr hemp
    refine ⟨fun hne => absurd hwait hne, fun states labels h0 _ => ⟨?_, 0, ?_⟩⟩
    · intro b hb
      rw [hwait] at hb
      cases hb
    · rw [h0]
      exact hemp

/-- Two behaviors with the same id are suspended, one after the other, and the third one ends. -/
theorem not_resumesSuspended :
    ¬ ResumesSuspended PalletTransportTask.api (fun _ => True) := by
  intro hall
  have hexec : (exec (Journal.next PalletTransportTask.api) (fun _ _ => true) (.make idleTasks)
      [.requestBehavior transport, .tick ⟨false, false⟩,
        .requestBehavior (urgentRequest "transport" 1), .tick ⟨false, false⟩,
        .requestBehavior ⟨"inspect", .safetyIssue, 2, true⟩, .tick ⟨false, false⟩,
        .tasks fun n => ⟨"pallet", if n = 2 then .completed else .paused⟩]).map (fun J =>
        ((J.arbiter.paused, J.arbiter.pendingBehaviors),
          (J.arbiter.currentBehavior, (J.arbiter.world 2).status),
          J.arbiter.suspendedTickets, J.waiting.map (·.ticket))) =
      some ((false, .empty), (some ⟨⟨"inspect", .safetyIssue, 2, true⟩, 2⟩, .completed), [1],
        [1, 0]) := by decide +kernel
  obtain ⟨J, hrun, hend⟩ := exists_run_of_exec (fun _ _ _ => trivial) hexec
  simp only [Prod.mk.injEq] at hend
  obtain ⟨⟨hpau, hpend⟩, ⟨hcur, hst⟩, -, hwait⟩ := hend
  have hidle : Idle PalletTransportTask.api J.arbiter := by
    refine ⟨hpau, hpend, fun b hb => ?_⟩
    cases hcur.symm.trans hb
    change (J.arbiter.world 2).status.finished = true
    rw [hst]
    rfl
  have hres := hall idleTasks _ J hrun hidle trivial
  obtain ⟨b, -, hnext, -⟩ := hres.first fun hnil => by
    rw [hnil] at hwait
    cases hwait
  rw [currentBehavior_of_idle hidle] at hnext
  cases hnext

end BehaviorArbiter
end Mxrc.Control
