import Mxrc.Lib.Maps
import Mxrc.Control.Steps

/-!
# No accepted request is lost

Seen through its tickets the arbiter is a `Ledger`. It is `Conserved`, apart
from the tickets `held` by the operation in progress, when every ticket given
out is in the queue, was started or was dropped, in one way only.
-/

namespace Mxrc.Control
open Mxrc.Lib List

structure Ledger where
  pending : List ℕ
  current : Option ℕ
  suspended : List ℕ
  history : History

inductive Fate
  | pending
  | current
  | suspended
  | started
  | removed
deriving DecidableEq

/-- A request that was started and has left the current and the suspended
behaviors, not by removal, has the fate `started`. -/
def Ledger.HasFate (L : Ledger) (n : ℕ) : Fate → Prop
  | .pending => n ∈ L.pending
  | .current => L.current = some n
  | .suspended => n ∈ L.suspended
  | .removed => n ∈ L.history.dropped ∨ n ∈ L.history.withdrawn
  | .started => n ∈ L.history.started ∧ L.current ≠ some n ∧ n ∉ L.suspended ∧
      n ∉ L.history.withdrawn

structure Ledger.Conserved (L : Ledger) (held : List ℕ) : Prop where
  perm : (held ++ (L.pending ++ (L.history.started ++ L.history.dropped))).Perm
    (List.range L.history.accepted)
  current : ∀ n, L.current = some n →
    n ∈ L.history.started ∧ n ∉ L.suspended ∧ n ∉ L.history.withdrawn
  suspended : ∀ n ∈ L.suspended, n ∈ L.history.started ∧ n ∉ L.history.withdrawn
  nodup : L.suspended.Nodup
  withdrawn : ∀ n ∈ L.history.withdrawn, n ∈ L.history.started

namespace Ledger
variable {L : Ledger} {held : List ℕ} {n : ℕ}

lemma Conserved.disjoint (h : L.Conserved held) (hn : n ∈ L.history.started) :
    n ∉ held ∧ n ∉ L.pending ∧ n ∉ L.history.dropped := by
  have hnd := h.perm.nodup_iff.mpr nodup_range
  simp only [nodup_append', disjoint_append_right] at hnd
  obtain ⟨-, ⟨-, ⟨-, -, hsd⟩, hps, -⟩, -, hhs, -⟩ := hnd
  exact ⟨fun hm => hhs hm hn, fun hm => hps hm hn, fun hm => hsd hn hm⟩

lemma Conserved.existsUnique_fate (h : L.Conserved []) (hn : n < L.history.accepted) :
    ∃! f, L.HasFate n f := by
  have hmem : n ∈ L.pending ∨ n ∈ L.history.started ∨ n ∈ L.history.dropped := by
    simpa using h.perm.mem_iff.mpr (mem_range.mpr hn)
  by_cases hs : n ∈ L.history.started
  · obtain ⟨-, hp, hd⟩ := h.disjoint hs
    by_cases hc : L.current = some n
    · obtain ⟨-, hns, hnw⟩ := h.current n hc
      refine ⟨.current, hc, fun f hf => ?_⟩
      cases f <;> simp_all [HasFate]
    by_cases hsus : n ∈ L.suspended
    · have hnw := (h.suspended n hsus).2
      refine ⟨.suspended, hsus, fun f hf => ?_⟩
      cases f <;> simp_all [HasFate]
    by_cases hw : n ∈ L.history.withdrawn
    · refine ⟨.removed, Or.inr hw, fun f hf => ?_⟩
      cases f <;> simp_all [HasFate]
    · refine ⟨.started, ⟨hs, hc, hsus, hw⟩, fun f hf => ?_⟩
      cases f <;> simp_all [HasFate]
  · have hc : L.current ≠ some n := fun hc => hs (h.current n hc).1
    have hsus : n ∉ L.suspended := fun hm => hs (h.suspended n hm).1
    have hw : n ∉ L.history.withdrawn := fun hm => hs (h.withdrawn n hm)
    by_cases hp : n ∈ L.pending
    · have hd : n ∉ L.history.dropped := by
        have hnd := h.perm.nodup_iff.mpr nodup_range
        simp only [nil_append, nodup_append', disjoint_append_right] at hnd
        exact fun hm => hnd.2.2.2 hp hm
      refine ⟨.pending, hp, fun f hf => ?_⟩
      cases f <;> simp_all [HasFate]
    · refine ⟨.removed, Or.inl (by tauto), fun f hf => ?_⟩
      cases f <;> simp_all [HasFate]

lemma Conserved.accept {pending : List ℕ} (h : L.Conserved [])
    (hp : pending.Perm (L.history.accepted :: L.pending)) :
    ({ L with
      pending := pending
      history.accepted := L.history.accepted + 1 } : Ledger).Conserved [] where
  perm := by
    rw [range_succ]
    refine ((hp.append_right _).trans ?_).trans (perm_append_singleton _ _).symm
    exact h.perm.cons _
  current := h.current
  suspended := h.suspended
  nodup := h.nodup
  withdrawn := h.withdrawn

lemma Conserved.pop {pending : List ℕ} (h : L.Conserved []) (hp : L.pending = n :: pending) :
    ({ L with pending := pending } : Ledger).Conserved [n] where
  perm := by simpa [hp] using h.perm
  current := h.current
  suspended := h.suspended
  nodup := h.nodup
  withdrawn := h.withdrawn

lemma Conserved.start (h : L.Conserved [n]) :
    ({ L with
      current := some n
      history.started := n :: L.history.started } : Ledger).Conserved [] where
  perm := (List.perm_middle).trans h.perm
  current := by
    intro m hm
    cases hm
    have hns : n ∉ L.history.started := fun hm => (h.disjoint hm).1 (by simp)
    exact ⟨by simp, fun hm => hns (h.suspended n hm).1, fun hm => hns (h.withdrawn n hm)⟩
  suspended m hm := ⟨mem_cons_of_mem _ (h.suspended m hm).1, (h.suspended m hm).2⟩
  nodup := h.nodup
  withdrawn m hm := mem_cons_of_mem _ (h.withdrawn m hm)

section
variable (h : L.Conserved held)
include h

lemma Conserved.clear :
    ({ L with
      pending := []
      suspended := []
      history.dropped := L.pending ++ L.history.dropped
      history.withdrawn := L.suspended ++ L.history.withdrawn } : Ledger).Conserved held where
  perm := by
    refine List.Perm.trans (List.Perm.append_left held ?_) h.perm
    rw [nil_append, ← append_assoc, ← append_assoc]
    exact perm_append_comm.append_right _
  current m hm := by
    obtain ⟨h₁, h₂, h₃⟩ := h.current m hm
    exact ⟨h₁, by simp, by simp [h₂, h₃]⟩
  suspended := by simp
  nodup := by simp
  withdrawn m hm := (mem_append.mp hm).elim (fun hm => (h.suspended m hm).1) (h.withdrawn m)

lemma Conserved.finish : ({ L with current := none } : Ledger).Conserved held where
  perm := h.perm
  current := by simp
  suspended := h.suspended
  nodup := h.nodup
  withdrawn := h.withdrawn

lemma Conserved.withdrawCurrent (hc : L.current = some n) :
    ({ L with
      current := none
      history.withdrawn := n :: L.history.withdrawn } : Ledger).Conserved held where
  perm := h.perm
  current := by simp
  suspended m hm := by
    refine ⟨(h.suspended m hm).1, ?_⟩
    intro hcase
    rcases hcase with _ | ⟨_, hw⟩
    · exact (h.current n hc).2.1 hm
    · exact (h.suspended m hm).2 hw
  nodup := h.nodup
  withdrawn m hm := by
    rcases mem_cons.mp hm with rfl | hw
    · exact (h.current m hc).1
    · exact h.withdrawn m hw

lemma Conserved.withdrawSuspended {suspended : List ℕ} (hs : L.suspended.Perm (n :: suspended)) :
    ({ L with
      suspended := suspended
      history.withdrawn := n :: L.history.withdrawn } : Ledger).Conserved held := by
  have hmem : ∀ {m}, m ∈ suspended → m ∈ L.suspended := fun hm => hs.mem_iff.mpr (by simp [hm])
  have hn := h.suspended n (hs.mem_iff.mpr (by simp))
  have hnd := nodup_cons.mp (hs.nodup_iff.mp h.nodup)
  refine ⟨h.perm, fun m hm => ?_, fun m hm => ?_, hnd.2, fun m hm => ?_⟩
  · obtain ⟨h₁, h₂, h₃⟩ := h.current m hm
    refine ⟨h₁, fun hm => h₂ (hmem hm), ?_⟩
    intro hcase
    rcases hcase with _ | ⟨_, hw⟩
    · exact h₂ (hs.mem_iff.mpr (by simp))
    · exact h₃ hw
  · refine ⟨(h.suspended m (hmem hm)).1, ?_⟩
    intro hcase
    rcases hcase with _ | ⟨_, hw⟩
    · exact hnd.1 hm
    · exact (h.suspended m (hmem hm)).2 hw
  · rcases mem_cons.mp hm with rfl | hw
    · exact hn.1
    · exact h.withdrawn m hw

lemma Conserved.suspend {suspended : List ℕ} (hc : L.current = some n)
    (hs : suspended.Sublist L.suspended) :
    ({ L with
      current := none
      suspended := n :: suspended } : Ledger).Conserved held := by
  obtain ⟨hn, hns, hnw⟩ := h.current n hc
  refine ⟨h.perm, by simp, fun m hm => ?_, ?_, h.withdrawn⟩
  · rcases mem_cons.mp hm with rfl | hm
    · exact ⟨hn, hnw⟩
    · exact h.suspended m (hs.subset hm)
  · exact nodup_cons.mpr ⟨fun hm => hns (hs.subset hm), h.nodup.sublist hs⟩

end
end Ledger

namespace BehaviorArbiter
variable {τ ω : Type} (api : TaskApi τ ω)

def ledger (s : BehaviorArbiter τ ω) : Ledger where
  pending := tickets s.pendingBehaviors.toList
  current := s.currentBehavior.map (·.ticket)
  suspended := s.suspendedTickets
  history := s.history

/-- Every accepted request has exactly one fate, throughout every run whose
steps meet `G`, whatever the tasks do. -/
def NothingLost (G : BehaviorArbiter τ ω → Label τ ω → Prop) : Prop :=
  ∀ w₀ ls s, Run (next api) G (make w₀) ls s →
    ∀ n < s.history.accepted, ∃! f, s.ledger.HasFate n f

def HeadPreempts (s : BehaviorArbiter τ ω) : Prop :=
  ∀ current r q, s.currentBehavior = some current →
    (api.getStatus current.task s.world).finished = false →
    s.pendingBehaviors.pop = some (r, q) →
    shouldPreempt r current = true ∧ StopsFor api s r

/-- A tick is taken only when paused, with a critical alarm, or when the head of the queue preempts.
-/
def KeepsCandidate (s : BehaviorArbiter τ ω) : Label τ ω → Prop
  | .tick alarms => s.paused = true ∨ (alarms.hasCriticalAlarm = true ∧ s.currentMode ≠ .fault) ∨
      HeadPreempts api s
  | _ => True

lemma suspendedTickets_erase {s : BehaviorArbiter τ ω} {id : String} {b : Accepted τ}
    (h : s.suspendedBehaviors.lookup id = some b) :
    s.suspendedTickets.Perm
      (b.ticket :: (s.suspendedBehaviors.erase id).entries.map (·.2.ticket)) :=
  (perm_cons_erase h).map fun e : (_ : String) × Accepted τ => e.2.ticket

section
variable {api} {s s' : BehaviorArbiter τ ω} {alarms : Alarms} {r current : Accepted τ}
  {q : BehaviorPriorityQueue τ} {held : List ℕ} {l : Label τ ω}

lemma conserved_pop (h : s.ledger.Conserved []) (hq : s.pendingBehaviors.pop = some (r, q)) :
    ({ s with pendingBehaviors := q } : BehaviorArbiter τ ω).ledger.Conserved [r.ticket] := by
  refine Ledger.Conserved.pop h ?_
  simp [ledger, tickets, BehaviorPriorityQueue.toList_pop hq]

lemma conserved_suspend (h : s.ledger.Conserved held) (hc : s.currentBehavior = some current) :
    ({ s with
      suspendedBehaviors := s.suspendedBehaviors.insert current.behaviorId current
      currentBehavior := none } : BehaviorArbiter τ ω).ledger.Conserved held := by
  exact Ledger.Conserved.suspend h (by simp [ledger, hc]) ((kerase_sublist _ _).map _)

lemma Outcome.conserved (h : Outcome api s s') (hs : s.ledger.Conserved [])
    (hhead : HeadPreempts api s) : s'.ledger.Conserved [] := by
  cases h with
  | idle => exact hs.finish
  | next r q _ hpop =>
    rw [after_startTask]
    exact (conserved_pop hs hpop).finish.start
  | safeMode => exact hs.finish
  | continued => exact hs
  | dropped current r q hbusy hpop hp =>
    -- The candidate is lost here, but it would have preempted.
    have hpreem := (hhead current r q hbusy.1 hbusy.2 hpop).1
    rw [hp] at hpreem
    cases hpreem
  | failed current r q e hbusy hpop _ he =>
    obtain ⟨b, hb, hok⟩ := (hhead current r q hbusy.1 hbusy.2 hpop).2
    cases hbusy.1.symm.trans hb
    rw [he] at hok
    cases hok
  | stopped current r q _ hpop =>
    rw [after_startTask]
    exact (conserved_pop hs hpop).finish.clear.start
  | suspended current r q hbusy hpop =>
    rw [after_startTask]
    exact (conserved_suspend (conserved_pop hs hpop) hbusy.1).start

lemma Checked.conserved {t : BehaviorArbiter τ ω} (h : Checked alarms s t)
    (hs : s.ledger.Conserved []) : t.ledger.Conserved [] := by
  cases h with
  | warned _ _ hwar => cases hwar <;> exact hs
  | faulted => exact hs.clear

lemma headPreempts_of_empty (h : s.pendingBehaviors = .empty) : HeadPreempts api s := by
  intro current r q _ _ hq
  rw [h] at hq
  cases hq

lemma HeadPreempts.congr (h : HeadPreempts api s)
    (hc : s'.currentBehavior = s.currentBehavior) (hw : s'.world = s.world)
    (hp : s'.pendingBehaviors = s.pendingBehaviors) : HeadPreempts api s' := by
  simp only [HeadPreempts, StopsFor, hc, hw, hp]
  exact h

lemma TickOutcome.conserved (h : TickOutcome api alarms s s') (hs : s.ledger.Conserved [])
    (hg : KeepsCandidate api s (.tick alarms)) : s'.ledger.Conserved [] := by
  cases h with
  | interrupted _ _ _ hs' =>
    subst hs'
    exact hs
  | waited hchk => exact hchk.conserved hs
  | arbitrated t hchk hrun h =>
    refine h.conserved (hchk.conserved hs) ?_
    cases hchk with
    | faulted => exact headPreempts_of_empty rfl
    | warned _ hquiet hwar =>
      obtain ⟨-, hpend, hcur, hwor, -, hpau⟩ := hwar.keeps
      rcases hg with hp | ⟨hcrit, hflt⟩ | hhead
      · rw [hpau, hp] at hrun
        cases hrun
      · rw [hcrit] at hquiet
        exact absurd hquiet (by simp [hflt])
      · exact hhead.congr hcur hwor hpend

lemma conserved_next (h : s.ledger.Conserved []) (hg : KeepsCandidate api s l)
    (hn : next api s l = some s') : s'.ledger.Conserved [] := by
  cases outcome_next hn with
  | ticked alarms _ htick => exact htick.conserved h hg
  | accepted request q hpush => exact h.accept ((BehaviorPriorityQueue.toList_push hpush).map _)
  | faulted => exact h.clear
  | cleared => exact h.clear
  | withdrawn b hc => exact h.withdrawCurrent (by simp [ledger, hc])
  | erased id b _ hlk => exact h.withdrawSuspended (suspendedTickets_erase hlk)
  | rejected | called | paused | resumed | moved => exact h

end

lemma conserved_make (w₀ : ω) : (make w₀ : BehaviorArbiter τ ω).ledger.Conserved [] := by
  refine ⟨by simp [ledger, make, tickets], ?_, ?_, ?_, ?_⟩ <;>
    simp [ledger, make, suspendedTickets]

theorem nothingLost_of_keepsCandidate : NothingLost api (KeepsCandidate api) := by
  intro w₀ ls s hrun n hn
  have hc : s.ledger.Conserved [] :=
    hrun.invariant (fun s => s.ledger.Conserved []) (conserved_make w₀)
      fun _ _ _ h hg hnext => conserved_next h hg hnext
  exact hc.existsUnique_fate hn

def endlessTasks : TaskApi Unit Unit where
  getStatus _ _ := .running
  start _ w := (none, w)
  stop _ w := (none, w)
  pause _ w := (none, w)
  resume _ w := (none, w)

def normalRequest (behaviorId : String) : BehaviorRequest Unit :=
  ⟨behaviorId, .normalTask, (), true⟩

/-- The second tick takes the second request from the queue and drops it. -/
def droppingRun : List (Label Unit Unit) :=
  [.requestBehavior (normalRequest "first"), .tick ⟨false, false⟩,
    .requestBehavior (normalRequest "second"), .tick ⟨false, false⟩]

theorem not_nothingLost : ¬ NothingLost endlessTasks (fun _ _ => True) := by
  intro h
  have hrun : ∃ s, exec (next endlessTasks) (fun _ _ => true) (make ()) droppingRun = some s ∧
      s.ledger = ⟨[], some 0, [], ⟨2, [0], [], []⟩⟩ := ⟨_, rfl, rfl⟩
  obtain ⟨s, hs, hled⟩ := hrun
  have hacc : s.history.accepted = 2 := congrArg (fun L => L.history.accepted) hled
  obtain ⟨f, hf, -⟩ := h () droppingRun s (Run.of_exec (by simp) hs) 1 (by simp [hacc])
  rw [hled] at hf
  cases f <;> simp [Ledger.HasFate] at hf

end BehaviorArbiter
end Mxrc.Control
