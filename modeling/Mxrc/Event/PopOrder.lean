import Mxrc.Event.Fates

/-!
# The priority queue as a sorted multiset

When neither TTLs nor coalescing keys are used the queue is a multiset `waiting`
of events from which `pop` takes a least one in the order (priority, timestamp,
sequence number). The heap and the size counter refine it over every run.
-/

namespace Mxrc.Event
open Mxrc.Lib Multiset

namespace PriorityQueue
variable {π : Type}

def drain : ℕ → (ℕ → ℕ → Int64) → PriorityQueue π → List (PrioritizedEvent π) × PriorityQueue π
  | 0, _, q => ([], q)
  | n + 1, now, q =>
    match q.pop (now 0) with
    | (none, q) => ([], q)
    | (some event, q) =>
      let (events, q) := drain n (fun i => now (i + 1)) q
      (event :: events, q)

def Plain (event : PrioritizedEvent π) : Prop := event.ttl = none ∧ event.coalescingKey = none

instance (event : PrioritizedEvent π) : Decidable (Plain event) :=
  inferInstanceAs (Decidable (_ ∧ _))

structure PlainQueue (q : PriorityQueue π) : Prop where
  plain : ∀ event ∈ q.queue.elems, Plain event
  size : q.size = q.queue.elems.card

section
variable {q : PriorityQueue π} (now : ℕ → Int64) {event : PrioritizedEvent π}

lemma PlainQueue.takeTop (h : PlainQueue q) (htop : q.queue.top? = some event) :
    PlainQueue (q.takeTop.deliver event) := by
  have hlms := BinaryHeap.elems_of_top? htop
  constructor
  · intro e he
    exact h.plain e (BinaryHeap.pop_subset htop he)
  · have hsize := h.size
    rw [hlms, card_cons] at hsize
    change q.size - 1 = _
    rw [hsize]
    rfl

lemma PlainQueue.pop_eq (h : PlainQueue q) :
    q.pop now = match q.queue.top? with
      | none => (none, q)
      | some event => (some event, q.takeTop.deliver event) := by
  have hpln : ∀ event, q.queue.top? = some event → Plain event := fun event htop =>
    h.plain event (BinaryHeap.mem_of_top? htop)
  have hrule := pop_rule (I := fun q' => q' = q)
    (Q := fun r q' => (r, q') = match q.queue.top? with
      | none => (none, q)
      | some event => (some event, q.takeTop.deliver event))
    (q := q) ?_ ?_ ?_ ?_ rfl now
  · exact hrule
  · intro _ heq hemp
    subst heq
    rw [BinaryHeap.top?_eq_none.mpr hemp]
  · intro _ event currentNs heq htop hexp
    subst heq
    simp [PrioritizedEvent.isExpired_of_ttl_eq_none (hpln event htop).1] at hexp
  · intro _ event heq htop hsup
    subst heq
    simp [superseded, (hpln event htop).2] at hsup
  · intro _ event heq htop _
    subst heq
    rw [htop]

lemma PlainQueue.pop_eq_none_iff (h : PlainQueue q) :
    (q.pop now).1 = none ↔ q.queue.elems = 0 := by
  rw [h.pop_eq, ← BinaryHeap.top?_eq_none]
  cases q.queue.top? <;> simp

lemma PlainQueue.pop_some (h : PlainQueue q) (hpop : (q.pop now).1 = some event) :
    q.queue.elems = event ::ₘ (q.pop now).2.queue.elems ∧
      (∀ e ∈ q.queue.elems, event.rank ≤ e.rank) ∧ PlainQueue (q.pop now).2 := by
  rw [h.pop_eq] at hpop ⊢
  cases htop : q.queue.top? with
  | none => simp [htop] at hpop
  | some top =>
    simp only [htop, Option.some.injEq] at hpop
    subst hpop
    exact ⟨BinaryHeap.elems_of_top? htop, fun e he => rank_top_le htop he, h.takeTop htop⟩

end

lemma PlainQueue.drain_spec {q : PriorityQueue π} (h : PlainQueue q) {n : ℕ} (hn : q.size < n)
    (now : ℕ → ℕ → Int64) :
    ((drain n now q).1 : Multiset _) = q.queue.elems ∧
      (drain n now q).1.Pairwise (fun e f => e.rank ≤ f.rank) ∧
      (drain n now q).2.queue.elems = 0 := by
  induction n generalizing q now with
  | zero => omega
  | succ n ih =>
    cases hpop : (q.pop (now 0)).1 with
    | none =>
      have hemp := (h.pop_eq_none_iff (now 0)).mp hpop
      simp [drain, pop_of_empty hemp, hemp]
    | some event =>
      obtain ⟨hlms, hlst, hpln⟩ := h.pop_some (now 0) hpop
      have hdrn : drain (n + 1) now q =
          (event :: (drain n (fun i => now (i + 1)) (q.pop (now 0)).2).1,
            (drain n (fun i => now (i + 1)) (q.pop (now 0)).2).2) := by
        rw [drain]
        split
        · simp_all
        · simp_all
      have hsize : (q.pop (now 0)).2.size < n := by
        have hq := h.size
        rw [hlms, card_cons, ← hpln.size] at hq
        omega
      obtain ⟨hall, hsrt, hemp⟩ := ih hpln hsize fun i => now (i + 1)
      rw [hdrn]
      refine ⟨?_, List.pairwise_cons.mpr ⟨fun f hf => hlst f ?_, hsrt⟩, hemp⟩
      · rw [hlms, ← hall, cons_coe]
      · rw [hlms, ← hall]
        exact mem_cons_of_mem hf

namespace Trace

structure Sorted (s : Trace π) (waiting : Multiset (PrioritizedEvent π)) : Prop where
  conserved : (s.accepted : Multiset (PrioritizedEvent π)) = s.popped + waiting
  size : s.popped.length + s.queue.size = s.accepted.length
  pop_none : ∀ now, (s.queue.pop now).1 = none ↔ waiting = 0
  pop_least : ∀ now event, (s.queue.pop now).1 = some event →
    event ∈ waiting ∧ ∀ e ∈ waiting, event.rank ≤ e.rank
  drain_sorted : (waiting.map PrioritizedEvent.rank).Nodup → ∀ n > s.queue.size, ∀ now,
    ((drain n now s.queue).1 : Multiset (PrioritizedEvent π)) = waiting ∧
      (drain n now s.queue).1.Pairwise (fun e f => e.rank < f.rank) ∧
      ∀ now', ((drain n now s.queue).2.pop now').1 = none

def PlainOp (_ : Trace π) : Op π → Prop
  | .push event => Plain event
  | .pop _ => True

instance (s : Trace π) (op : Op π) : Decidable (PlainOp s op) :=
  match op with
  | .push event => inferInstanceAs (Decidable (Plain event))
  | .pop _ => .isTrue trivial

structure PlainTrace (s : Trace π) : Prop where
  queue : PlainQueue s.queue
  conserved : (s.accepted : Multiset (PrioritizedEvent π)) = s.popped + s.queue.queue.elems

variable {s : Trace π}

lemma PlainTrace.push (h : PlainTrace s) {event : PrioritizedEvent π} (hev : Plain event) :
    PlainTrace (s.push event) := by
  rw [push_eq_ite]
  split_ifs
  · exact ⟨⟨h.queue.plain, h.queue.size⟩, h.conserved⟩
  · refine ⟨⟨?_, ?_⟩, ?_⟩ <;> simp only [elems_enqueue]
    · intro e he
      rcases mem_cons.mp he with rfl | he
      · exact hev
      · exact h.queue.plain e he
    · rw [(queue_enqueue _ _).2, card_cons, h.queue.size]
    · rw [← coe_add, h.conserved, coe_singleton, add_assoc,
        add_comm s.queue.queue.elems, singleton_add]

lemma PlainTrace.pop (h : PlainTrace s) (now : ℕ → Int64) : PlainTrace (s.pop now) := by
  cases hpop : (s.queue.pop now).1 with
  | none =>
    have hemp := (h.queue.pop_eq_none_iff now).mp hpop
    refine ⟨?_, ?_⟩ <;> simp only [Trace.pop, pop_of_empty hemp]
    · exact h.queue
    · simpa using h.conserved
  | some event =>
    obtain ⟨hlms, -, hpln⟩ := h.queue.pop_some now hpop
    refine ⟨hpln, ?_⟩
    simp only [Trace.pop, hpop, Option.toList_some]
    rw [h.conserved, hlms, ← coe_add, coe_singleton, add_assoc, singleton_add]

lemma plainTrace_of_run {capacity dropThreshold80 dropThreshold90 : ℕ} {ops : List (Op π)}
    (h : Run next PlainOp (start capacity dropThreshold80 dropThreshold90) ops s) :
    PlainTrace s := by
  refine h.invariant PlainTrace ⟨⟨by simp [start, make, BinaryHeap.empty, BinaryHeap.elems], rfl⟩,
    rfl⟩ ?_
  intro s op s' hs hop hn
  cases op with
  | push event =>
    cases hn
    exact hs.push hop
  | pop now =>
    cases hn
    exact hs.pop now

theorem sorted_of_run {capacity dropThreshold80 dropThreshold90 : ℕ} {ops : List (Op π)}
    {s : Trace π}
    (h : Run next PlainOp (start capacity dropThreshold80 dropThreshold90) ops s) :
    ∃ waiting, Sorted s waiting := by
  obtain ⟨hqu, hcon⟩ := plainTrace_of_run h
  refine ⟨s.queue.queue.elems, hcon, ?_, hqu.pop_eq_none_iff, ?_, ?_⟩
  · have hcard := congrArg Multiset.card hcon
    rw [card_add, coe_card, coe_card, ← hqu.size] at hcard
    exact hcard.symm
  · intro now event hpop
    obtain ⟨hlms, hlst, -⟩ := hqu.pop_some now hpop
    exact ⟨hlms ▸ mem_cons_self _ _, hlst⟩
  · intro hdis n hn now
    obtain ⟨hall, hsrt, hemp⟩ := hqu.drain_spec hn now
    refine ⟨hall, ?_, fun now' => by rw [pop_of_empty hemp]⟩
    rw [← hall, map_coe, coe_nodup, List.Nodup, List.pairwise_map] at hdis
    exact (hsrt.and hdis).imp fun hrank => lt_of_le_of_ne hrank.1 hrank.2

theorem sorted_of_overtaking :
    let low : PrioritizedEvent ℕ := .makePrioritizedEvent "sensor.temp" .low 20 1 5
    let refused : PrioritizedEvent ℕ := .makePrioritizedEvent "sensor.temp" .low 21 2 6
    let critical : PrioritizedEvent ℕ := .makePrioritizedEvent "system.stop" .critical 0 3 7
    ∃ s : Trace ℕ,
      exec next (fun s op => PlainOp s op) (start 1 1 1)
        [.push low, .push refused, .push critical, .pop fun _ => 8] = some s ∧
      s.popped = [critical] ∧ s.accepted = [low, critical] ∧ ∃ waiting, Sorted s waiting := by
  intro low refused critical
  have hrun : ∃ s : Trace ℕ, exec next (fun s op => PlainOp s op) (start 1 1 1)
      [.push low, .push refused, .push critical, .pop fun _ => 8] = some s ∧
      s.popped = [critical] ∧ s.accepted = [low, critical] :=
    ⟨_, rfl, by decide, by decide⟩
  obtain ⟨s, hs, hpopp, hacc⟩ := hrun
  have hsrt := sorted_of_run (Run.of_exec (fun _ _ => of_decide_eq_true) hs)
  exact ⟨s, hs, hpopp, hacc, hsrt⟩

end Trace
end PriorityQueue
end Mxrc.Event
