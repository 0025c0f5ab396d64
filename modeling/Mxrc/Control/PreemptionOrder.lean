import Mxrc.Control.CancelBehavior
import Mxrc.Control.CriticalAlarm

/-!
# The order of preemption

A tick takes the head of the order of priorities and arrivals, so what is left
does not preempt what is current afterwards, unless the call that stops the
preempted task throws: the head is then gone and the task still current.
-/

namespace Mxrc.Control
open Mxrc.Lib Mxrc.Robot List

namespace BehaviorPriorityQueue
variable {τ : Type} {q q' : BehaviorPriorityQueue τ} {r r' : Accepted τ} {n n' : ℕ}
  {priority : Priority} {l : List (Accepted τ)}

def Before (r r' : Accepted τ) : Prop :=
  r.priority < r'.priority ∨ r.priority = r'.priority ∧ r.ticket < r'.ticket

lemma Before.priority_le (h : Before r r') : r.priority.toNat ≤ r'.priority.toNat := by
  rcases h with h | ⟨h, -⟩
  · exact Nat.le_of_lt h
  · exact Nat.le_of_eq (congrArg Priority.toNat h)

structure Level (priority : Priority) (n : ℕ) (l : List (Accepted τ)) : Prop where
  mem : ∀ r ∈ l, r.priority = priority ∧ r.ticket < n
  sorted : l.Pairwise (fun r r' => r.ticket < r'.ticket)

structure Ordered (n : ℕ) (q : BehaviorPriorityQueue τ) : Prop where
  emergencyStop : Level .emergencyStop n q.emergencyStop
  safetyIssue : Level .safetyIssue n q.safetyIssue
  urgentTask : Level .urgentTask n q.urgentTask
  normalTask : Level .normalTask n q.normalTask
  maintenance : Level .maintenance n q.maintenance

lemma Level.nil : Level priority n ([] : List (Accepted τ)) :=
  ⟨fun _ hr => absurd hr not_mem_nil, .nil⟩

lemma Level.tail (h : Level priority n (r :: l)) : Level priority n l :=
  ⟨fun r' hr' => h.mem r' (mem_cons_of_mem r hr'), h.sorted.of_cons⟩

lemma Level.mono (h : Level priority n l) (hn : n ≤ n') : Level priority n' l :=
  ⟨fun r hr => ⟨(h.mem r hr).1, Nat.lt_of_lt_of_le (h.mem r hr).2 hn⟩, h.sorted⟩

lemma Level.snoc (h : Level priority n l) (hr : r.priority = priority) (htic : r.ticket = n) :
    Level priority (n + 1) (l ++ [r]) := by
  constructor
  · intro r' hr'
    rcases mem_append.mp hr' with hr' | hr'
    · exact (h.mono (Nat.le_succ n)).mem r' hr'
    · cases mem_singleton.mp hr'
      exact ⟨hr, by omega⟩
  · refine List.pairwise_append.mpr ⟨h.sorted, pairwise_singleton _ _, ?_⟩
    intro r' hr' r'' hr''
    cases mem_singleton.mp hr''
    have hlt := (h.mem r' hr').2
    omega

lemma ordered_empty (n : ℕ) : Ordered n (empty : BehaviorPriorityQueue τ) :=
  ⟨.nil, .nil, .nil, .nil, .nil⟩

lemma Ordered.mono (h : Ordered n q) (hn : n ≤ n') : Ordered n' q :=
  ⟨h.emergencyStop.mono hn, h.safetyIssue.mono hn, h.urgentTask.mono hn, h.normalTask.mono hn,
    h.maintenance.mono hn⟩

lemma Ordered.push (h : Ordered n q) (htic : r.ticket = n) (hpush : q.push r = some q') :
    Ordered (n + 1) q' := by
  have hmono := h.mono (Nat.le_succ n)
  rw [BehaviorPriorityQueue.push] at hpush
  split at hpush <;> cases hpush
  case h_1 hr => exact { hmono with emergencyStop := h.emergencyStop.snoc hr htic }
  case h_2 hr => exact { hmono with safetyIssue := h.safetyIssue.snoc hr htic }
  case h_3 hr => exact { hmono with urgentTask := h.urgentTask.snoc hr htic }
  case h_4 hr => exact { hmono with normalTask := h.normalTask.snoc hr htic }
  case h_5 hr => exact { hmono with maintenance := h.maintenance.snoc hr htic }

lemma Ordered.pop (h : Ordered n q) (hpop : q.pop = some (r, q')) : Ordered n q' := by
  obtain ⟨es, si, ut, nt, mt⟩ := q
  rw [BehaviorPriorityQueue.pop] at hpop
  repeat' split at hpop
  all_goals cases hpop
  all_goals simp_all only
  · exact { h with emergencyStop := h.emergencyStop.tail }
  · exact { h with safetyIssue := h.safetyIssue.tail }
  · exact { h with urgentTask := h.urgentTask.tail }
  · exact { h with normalTask := h.normalTask.tail }
  · exact { h with maintenance := h.maintenance.tail }

structure Below (priority : Priority) (l : List (Accepted τ)) : Prop where
  pairwise : l.Pairwise Before
  lower : ∀ r ∈ l, priority < r.priority

lemma Level.pairwise_append {l' : List (Accepted τ)} (h : Level priority n l)
    (h' : Below priority l') : (l ++ l').Pairwise Before := by
  refine List.pairwise_append.mpr ⟨h.sorted.imp_of_mem ?_, h'.pairwise, ?_⟩
  · intro r r' hr hr' hlt
    exact .inr ⟨(h.mem r hr).1.trans (h.mem r' hr').1.symm, hlt⟩
  · intro r hr r' hr'
    left
    rw [(h.mem r hr).1]
    exact h'.lower r' hr'

lemma Level.below {l' : List (Accepted τ)} (higher : Priority) (h : Level priority n l)
    (h' : Below priority l') (hlt : higher < priority) : Below higher (l ++ l') := by
  refine ⟨h.pairwise_append h', fun r hr => ?_⟩
  rcases mem_append.mp hr with hr | hr
  · rw [(h.mem r hr).1]
    exact hlt
  · exact Nat.lt_trans hlt (h'.lower r hr)

lemma Ordered.pairwise (h : Ordered n q) : q.toList.Pairwise Before := by
  have hnil : Below .maintenance ([] : List (Accepted τ)) :=
    ⟨.nil, fun _ hr => absurd hr not_mem_nil⟩
  have hmain := h.maintenance.below .normalTask hnil (by decide)
  have hnor := h.normalTask.below .urgentTask hmain (by decide)
  have hurg := h.urgentTask.below .safetyIssue hnor (by decide)
  have hsaf := h.safetyIssue.below .emergencyStop hurg (by decide)
  have hall := h.emergencyStop.pairwise_append hsaf
  rwa [append_nil] at hall

lemma Ordered.ticket_lt (h : Ordered n q) (hr : r ∈ q.toList) : r.ticket < n := by
  simp only [toList, mem_append] at hr
  rcases hr with hr | hr | hr | hr | hr
  · exact (h.emergencyStop.mem r hr).2
  · exact (h.safetyIssue.mem r hr).2
  · exact (h.urgentTask.mem r hr).2
  · exact (h.normalTask.mem r hr).2
  · exact (h.maintenance.mem r hr).2

lemma Ordered.before_of_pop (h : Ordered n q) (hpop : q.pop = some (r, q'))
    (hr' : r' ∈ q'.toList) : Before r r' := by
  have hpair := h.pairwise
  rw [toList_pop hpop] at hpair
  exact rel_of_pairwise_cons hpair hr'

end BehaviorPriorityQueue

namespace BehaviorArbiter
open BehaviorPriorityQueue
variable {τ ω : Type} (api : TaskApi τ ω)

def Settled (s : BehaviorArbiter τ ω) : Prop :=
  ∀ b, s.currentBehavior = some b → ∀ r ∈ s.pendingBehaviors.toList, shouldPreempt r b = false

def Settles (s : BehaviorArbiter τ ω) : Label τ ω → Prop
  | .tick alarms => s.paused = false → alarms = ⟨false, false⟩ →
      Settled (after (tick api alarms) s)
  | _ => True

def StartsEarliest (s : BehaviorArbiter τ ω) (l : Label τ ω) : Prop :=
  ∀ s' b, next api s l = some s' → Starts s s' b →
    ∀ r ∈ s'.pendingBehaviors.toList, r.priority = b.priority → b.ticket < r.ticket

def StartsInOrder (w₀ : ω) (ls : List (Label τ ω)) : Prop :=
  ∀ ls₁ l ls₂ l' ls₃, ls = ls₁ ++ l :: (ls₂ ++ l' :: ls₃) →
    ∀ s s' t t' b b', Run (next api) (fun _ _ => True) (make w₀) ls₁ s → next api s l = some s' →
      Run (next api) (fun _ _ => True) s' ls₂ t → next api t l' = some t' →
      Starts s s' b → Starts t t' b' → b.priority = b'.priority → b.ticket < b'.ticket

structure PreemptsInOrder (w₀ : ω) (ls : List (Label τ ω)) : Prop where
  settles : EveryStep (next api) (Settles api) (make w₀) ls
  earliest : EveryStep (next api) (StartsEarliest api) (make w₀) ls
  inOrder : StartsInOrder api w₀ ls

/-- If the stop call of a preemption throws, the next request in the queue does not preempt. -/
def FailsLast (s : BehaviorArbiter τ ω) : Prop :=
  ∀ current r q r' q', Busy api s current → s.pendingBehaviors.pop = some (r, q) →
    shouldPreempt r current = true → ¬ StopsFor api s r → q.pop = some (r', q') →
    shouldPreempt r' current = false

def FailsLastAt (s : BehaviorArbiter τ ω) : Label τ ω → Prop
  | .tick alarms => s.paused = false → alarms = ⟨false, false⟩ → FailsLast api s
  | _ => True

section
variable {api} {s s' t : BehaviorArbiter τ ω} {l : Label τ ω} {b r r' current : Accepted τ}
  {q : BehaviorPriorityQueue τ} {n : ℕ} {alarms : Alarms}

lemma not_shouldPreempt_of_before (h : Before r r') : shouldPreempt r' r = false := by
  have hnot : ¬ r'.priority < r.priority := Nat.not_lt.mpr h.priority_le
  simp [shouldPreempt, hnot]

lemma shouldPreempt_of_before (h : Before r r') (hp : shouldPreempt r' current = true) :
    shouldPreempt r current = true := by
  rw [shouldPreempt, Bool.and_eq_true, decide_eq_true_eq, canPreempt, decide_eq_true_eq] at hp ⊢
  exact ⟨Nat.lt_of_le_of_lt h.priority_le hp.1, Nat.le_trans h.priority_le hp.2⟩

lemma not_shouldPreempt_of_head (ho : Ordered n q)
    (hhead : ∀ r q', q.pop = some (r, q') → shouldPreempt r current = false)
    (hr : r ∈ q.toList) : shouldPreempt r current = false := by
  cases hpop : q.pop with
  | none =>
    rw [pop_eq_none_iff.mp hpop] at hr
    cases hr
  | some p =>
    obtain ⟨first, q'⟩ := p
    rw [toList_pop hpop] at hr
    rcases mem_cons.mp hr with rfl | hr
    · exact hhead r q' hpop
    · by_contra hp
      rw [Bool.not_eq_false] at hp
      have hfir := shouldPreempt_of_before (ho.before_of_pop hpop hr) hp
      rw [hhead first q' hpop] at hfir
      cases hfir

lemma failsLast_of_not_busy (h : ∀ current, ¬ Busy api s current) : FailsLast api s :=
  fun current _ _ _ _ hbusy => absurd hbusy (h current)

lemma settled_of_pop (ho : Ordered n s.pendingBehaviors)
    (hpop : s.pendingBehaviors.pop = some (r, s'.pendingBehaviors))
    (hc : s'.currentBehavior = some r) : Settled s' := by
  intro b hb r' hr'
  cases hc.symm.trans hb
  exact not_shouldPreempt_of_before (ho.before_of_pop hpop hr')

lemma settled_of_none (h : s.currentBehavior = none) : Settled s := by
  intro b hb
  rw [h] at hb
  cases hb

lemma settled_of_empty (h : s.pendingBehaviors = .empty) : Settled s := by
  intro b _ r hr
  rw [h] at hr
  cases hr

lemma Outcome.settled_iff (h : Outcome api s s') (ho : Ordered n s.pendingBehaviors) :
    Settled s' ↔ FailsLast api s := by
  cases h with
  | idle hfree =>
    exact iff_of_true (settled_of_none rfl) (failsLast_of_not_busy fun _ => hfree.not_busy)
  | next r q hfree hpop =>
    rw [after_startTask]
    exact iff_of_true (settled_of_pop ho hpop rfl) (failsLast_of_not_busy fun _ => hfree.not_busy)
  | safeMode current hc hf =>
    refine iff_of_true (settled_of_none rfl) (failsLast_of_not_busy fun b hbusy => ?_)
    cases hc.symm.trans hbusy.1
    rw [hbusy.2] at hf
    cases hf
  | continued current hbusy hpop =>
    refine iff_of_true (settled_of_empty (pop_eq_none_iff.mp hpop)) ?_
    intro _ r q _ _ _ hpop'
    rw [hpop] at hpop'
    cases hpop'
  | dropped current r q hbusy hpop hp =>
    refine iff_of_true ?_ ?_
    · intro b hb r' hr'
      cases hbusy.1.symm.trans hb
      refine not_shouldPreempt_of_head ho (fun first q' hpop' => ?_) (r := r') ?_
      · cases hpop.symm.trans hpop'
        exact hp
      · rw [toList_pop hpop]
        exact mem_cons_of_mem r hr'
    · intro b first q' _ _ hbusy' hpop' hp'
      cases hbusy.1.symm.trans hbusy'.1
      cases hpop.symm.trans hpop'
      rw [hp] at hp'
      cases hp'
  | failed current r q e hbusy hpop hp he =>
    constructor
    · intro hset b first q' r' q'' hbusy' hpop' _ _ hnext
      cases hbusy.1.symm.trans hbusy'.1
      cases hpop.symm.trans hpop'
      refine hset current hbusy.1 r' ?_
      rw [toList_pop hnext]
      exact mem_cons_self
    · intro hfls b hb r' hr'
      cases hbusy.1.symm.trans hb
      have hstp : ¬ StopsFor api s r := by
        rintro ⟨b, hb, hok⟩
        cases hbusy.1.symm.trans hb
        rw [he] at hok
        cases hok
      exact not_shouldPreempt_of_head (ho.pop hpop)
        (fun first q' hnext => hfls current r q first q' hbusy hpop hp hstp hnext) hr'
  | stopped current r q hbusy hpop hp hr hok =>
    rw [after_startTask]
    refine iff_of_true (settled_of_empty rfl) ?_
    intro b first q' _ _ hbusy' hpop' _ hstp
    cases hpop.symm.trans hpop'
    exact absurd (stopsFor_of_stop hbusy hr hok) hstp
  | suspended current r q hbusy hpop hp hr hok =>
    rw [after_startTask]
    refine iff_of_true (settled_of_pop ho hpop rfl) ?_
    intro b first q' _ _ hbusy' hpop' _ hstp
    cases hpop.symm.trans hpop'
    exact absurd (stopsFor_of_pause hbusy hr hok) hstp

lemma settles_iff (ho : Ordered n s.pendingBehaviors) :
    Settles api s l ↔ FailsLastAt api s l := by
  cases l with
  | tick alarms =>
    refine forall_congr' fun hpau => forall_congr' fun halar => ?_
    subst halar
    exact (outcome_of_quiet hpau).settled_iff ho
  | _ => exact Iff.rfl

def InOrder (s : BehaviorArbiter τ ω) : Prop := Ordered s.history.accepted s.pendingBehaviors

lemma Outcome.inOrder (h : Outcome api s s') (ho : InOrder s) : InOrder s' := by
  cases h with
  | idle => exact ho
  | next r q _ hpop =>
    rw [after_startTask]
    exact ho.pop hpop
  | safeMode => exact ho
  | continued => exact ho
  | dropped _ _ _ _ hpop => exact ho.pop hpop
  | failed _ _ _ _ _ hpop => exact ho.pop hpop
  | stopped =>
    rw [after_startTask]
    exact ordered_empty _
  | suspended _ r q _ hpop =>
    rw [after_startTask]
    exact ho.pop hpop

lemma Checked.inOrder (h : Checked alarms s t) (ho : InOrder s) : InOrder t := by
  cases h with
  | warned _ _ hwar =>
    obtain ⟨-, hpend, -, -, hhis, -⟩ := hwar.keeps
    rw [InOrder, hpend, hhis]
    exact ho
  | faulted => exact ordered_empty _

lemma inOrder_next (hn : next api s l = some s') (ho : InOrder s) : InOrder s' := by
  cases outcome_next hn with
  | ticked _ _ h =>
    cases h with
    | interrupted _ _ _ hs' =>
      rw [hs']
      exact ho
    | waited hchk => exact hchk.inOrder ho
    | arbitrated t hchk _ h => exact h.inOrder (hchk.inOrder ho)
  | rejected => exact ho
  | accepted request q hpush => exact ho.push rfl hpush
  | called => exact ho
  | paused => exact ho
  | resumed => exact ho
  | moved => exact ho
  | faulted => exact ordered_empty _
  | cleared => exact ordered_empty _
  | withdrawn => exact ho
  | erased => exact ho

lemma Outcome.accepted (h : Outcome api s s') : s'.history.accepted = s.history.accepted := by
  cases h <;> simp only [after_startTask, enterFault]

lemma Checked.accepted (h : Checked alarms s t) : t.history.accepted = s.history.accepted := by
  cases h with
  | warned _ _ hwar => rw [hwar.keeps.2.2.2.2.1]
  | faulted => rfl

lemma accepted_next (hn : next api s l = some s') :
    s.history.accepted ≤ s'.history.accepted := by
  cases outcome_next hn with
  | ticked _ _ h =>
    cases h with
    | interrupted _ _ _ hs' => rw [hs']
    | waited hchk => exact hchk.accepted.ge
    | arbitrated t hchk _ h => exact (h.accepted.trans hchk.accepted).ge
  | accepted => exact Nat.le_succ _
  | _ => exact le_rfl

lemma startsEarliest (ho : InOrder s) : StartsEarliest api s l := by
  intro s' b hn hb r hr hprior
  obtain ⟨q, hpop, hq | hemp⟩ := pop_of_starts hn hb
  · rw [hq] at hr
    rcases ho.before_of_pop hpop hr with hlt | ⟨-, hlt⟩
    · rw [hprior] at hlt
      exact absurd hlt (Nat.lt_irrefl _)
    · exact hlt
  · rw [hemp] at hr
    cases hr

def Ahead (b : Accepted τ) (s : BehaviorArbiter τ ω) : Prop :=
  b.ticket < s.history.accepted ∧
    ∀ r ∈ s.pendingBehaviors.toList, r.priority = b.priority → b.ticket < r.ticket

lemma ahead_of_starts (ho : InOrder s) (hn : next api s l = some s') (hb : Starts s s' b) :
    Ahead b s' :=
  ⟨Nat.lt_of_lt_of_le (ho.ticket_lt (mem_pending_of_starts hn hb)) (accepted_next hn),
    startsEarliest ho s' b hn hb⟩

lemma ahead_next (h : Ahead b s) (hn : next api s l = some s') : Ahead b s' := by
  refine ⟨Nat.lt_of_lt_of_le h.1 (accepted_next hn), fun r hr hprior => ?_⟩
  rcases pending_or_requested hn hr with hr | ⟨request, -, rfl⟩
  · exact h.2 r hr hprior
  · exact h.1

end

lemma inOrder_make (w₀ : ω) : InOrder (make w₀ : BehaviorArbiter τ ω) := ordered_empty 0

lemma inOrder_of_run {w₀ : ω} {ls : List (Label τ ω)} {s : BehaviorArbiter τ ω}
    (h : Run (next api) (fun _ _ => True) (make w₀) ls s) : InOrder s :=
  h.invariant InOrder (inOrder_make w₀) fun _ _ _ ho _ hn => inOrder_next hn ho

lemma startsInOrder (w₀ : ω) (ls : List (Label τ ω)) : StartsInOrder api w₀ ls := by
  intro ls₁ l ls₂ l' ls₃ _ s s' t t' b b' hrun hn hrun' hn' hb hb' hprior
  have hahead : Ahead b t :=
    hrun'.invariant (Ahead b) (ahead_of_starts (inOrder_of_run api hrun) hn hb)
      fun _ _ _ h _ hn => ahead_next h hn
  exact hahead.2 b' (mem_pending_of_starts hn' hb') hprior.symm

theorem preemptsInOrder_iff (w₀ : ω) (ls : List (Label τ ω)) :
    PreemptsInOrder api w₀ ls ↔ EveryStep (next api) (FailsLastAt api) (make w₀) ls := by
  have hsett : EveryStep (next api) (Settles api) (make w₀) ls ↔
      EveryStep (next api) (FailsLastAt api) (make w₀) ls :=
    everyStep_congr (inOrder_make w₀) fun s l s' ho hn =>
      ⟨settles_iff ho, fun _ => inOrder_next hn ho⟩
  constructor
  · intro h
    exact hsett.mp h.settles
  · intro h
    refine ⟨hsett.mpr h, fun ls₁ l ls₂ s s' _ hrun _ => ?_, startsInOrder api w₀ ls⟩
    exact startsEarliest (inOrder_of_run api hrun)

def urgentRequest (behaviorId : String) (task : ℕ) : BehaviorRequest ℕ :=
  ⟨behaviorId, .urgentTask, task, true⟩

/-- The calls that start the transport and pause it for the first of two urgent requests throw. The
second stays in the queue. -/
theorem not_preemptsInOrder :
    ¬ ∀ (w₀ : PalletTransportTask.Objects) (ls : List (Label ℕ PalletTransportTask.Objects)),
      PreemptsInOrder PalletTransportTask.api w₀ ls := by
  intro hall
  have hexec : (exec (next PalletTransportTask.api) (fun _ _ => true)
      (make (Function.update idleTasks 0 ⟨"pallet", .paused⟩))
      [.requestBehavior transport, .tick ⟨false, false⟩,
        .requestBehavior (urgentRequest "inspect" 1),
        .requestBehavior (urgentRequest "retreat" 2)]).map (fun s =>
        (s.paused, (after (tick PalletTransportTask.api ⟨false, false⟩) s).currentBehavior,
          (after (tick PalletTransportTask.api ⟨false, false⟩) s).pendingBehaviors.toList)) =
      some (false, some ⟨transport, 0⟩, [⟨urgentRequest "retreat" 2, 2⟩]) := by decide +kernel
  obtain ⟨s, hrun, hend⟩ := exists_run_of_exec (fun _ _ _ => trivial) hexec
  simp only [Prod.mk.injEq] at hend
  obtain ⟨hpau, hcur, hpend⟩ := hend
  have hset := (hall _ _).settles _ (.tick ⟨false, false⟩) [] s _ rfl hrun rfl hpau rfl
  have hfal := hset _ hcur ⟨urgentRequest "retreat" 2, 2⟩ (by rw [hpend]; exact mem_cons_self)
  revert hfal
  decide

end BehaviorArbiter
end Mxrc.Control
