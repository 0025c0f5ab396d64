import Mxrc.Event.Expiry

/-!
# The account of the events

`push` counts the event on record for its coalescing key as coalesced before it
is known what becomes of it. The ledger keeps the events that were counted as
coalesced and counts the second entries.
-/

namespace Mxrc.Event
open Mxrc.Lib List Option Multiset

def PriorityQueueMetrics.counted (m : PriorityQueueMetrics) : ℕ :=
  m.eventsPopped + m.eventsExpired + m.eventsCoalesced

lemma PriorityQueueMetrics.counted_updatePushMetrics (m : PriorityQueueMetrics)
    (priority : EventPriority) (dropped : Bool) :
    (m.updatePushMetrics priority dropped).counted = m.counted := by
  cases dropped <;> cases priority <;> rfl

namespace PriorityQueue
variable {π : Type}

def onRecord (q : PriorityQueue π) (event : PrioritizedEvent π) : Option UInt64 :=
  event.coalescingKey.bind fun key => q.coalescingLatestSeq.lookup key

lemma counted_enqueue (q : PriorityQueue π) (event : PrioritizedEvent π) :
    (q.enqueue event).metrics.counted =
      q.metrics.counted + (q.onRecord event).toList.length := by
  rw [enqueue]
  dsimp only
  rw [PriorityQueueMetrics.counted_updatePushMetrics, track, onRecord]
  cases event.coalescingKey with
  | none => rfl
  | some key =>
    cases h : q.coalescingLatestSeq.lookup key <;>
      simp [h, PriorityQueueMetrics.counted, add_assoc]

structure Ledger (π : Type) where
  trace : Trace π
  replaced : List UInt64
  recounted : ℕ

namespace Ledger

def start (capacity dropThreshold80 dropThreshold90 : ℕ) : Ledger π :=
  ⟨.start capacity dropThreshold80 dropThreshold90, [], 0⟩

def alreadyCounted (q : PriorityQueue π) (event : PrioritizedEvent π) : ℕ :=
  if (q.onRecord event).any (· ∉ q.queue.elems.map (·.sequenceNum)) then 1 else 0

def countedAgain (replaced : List UInt64) (rounds : List (PrioritizedEvent π × Fate)) : ℕ :=
  rounds.countP fun r => r.2 ≠ .superseded ∧ r.1.sequenceNum ∈ replaced

def push (l : Ledger π) (event : PrioritizedEvent π) : Ledger π :=
  if l.trace.queue.shouldDrop event.priority then { l with trace := l.trace.push event }
  else
    { trace := l.trace.push event
      replaced := (l.trace.queue.onRecord event).toList ++ l.replaced
      recounted := l.recounted + alreadyCounted l.trace.queue event }

def pop (l : Ledger π) (now : ℕ → Int64) : Ledger π :=
  { l with
    trace := l.trace.pop now
    recounted := l.recounted + countedAgain l.replaced (l.trace.queue.fates now) }

def next (l : Ledger π) : Op π → Option (Ledger π)
  | .push event => some (l.push event)
  | .pop now => some (l.pop now)

def Fresh (l : Ledger π) (op : Op π) : Prop := l.trace.Fresh op

instance (l : Ledger π) (op : Op π) : Decidable (Fresh l op) :=
  inferInstanceAs (Decidable (l.trace.Fresh op))

/-- An empty queue has delivered, discarded or coalesced what it accepted. -/
def Accounts (l : Ledger π) : Prop :=
  l.trace.queue.queue.elems = 0 → l.trace.accepted.length =
    l.trace.queue.metrics.eventsPopped + l.trace.queue.metrics.eventsExpired +
      l.trace.queue.metrics.eventsCoalesced

end Ledger

/-- The numbers in `replaced` have been counted as coalesced. An event that has not, and is still
in the queue, is on record for its key. -/
structure Recorded (accepted : List (PrioritizedEvent π)) (replaced : List UInt64)
    (q : PriorityQueue π) : Prop extends Conserves accepted [] q where
  known : ∀ n ∈ replaced, n ∈ accepted.map (·.sequenceNum)
  record : ∀ key n, q.coalescingLatestSeq.lookup key = some n →
    n ∉ replaced ∧ ∃ e ∈ accepted, e.sequenceNum = n ∧ e.coalescingKey = some key
  current : ∀ e ∈ q.queue.elems, e.sequenceNum ∉ replaced → ∀ key, e.coalescingKey = some key →
    q.coalescingLatestSeq.lookup key = some e.sequenceNum

section
variable {accepted : List (PrioritizedEvent π)} {replaced : List UInt64}
  {q : PriorityQueue π} {e event : PrioritizedEvent π}

section
variable (h : Recorded accepted replaced q)
include h

lemma Recorded.congr {q' : PriorityQueue π} (hqu : q'.queue = q.queue)
    (hmap : q'.coalescingLatestSeq = q.coalescingLatestSeq) :
    Recorded accepted replaced q' where
  toConserves := ⟨h.distinct, hqu ▸ h.kept⟩
  known := h.known
  record := hmap ▸ h.record
  current := hqu ▸ hmap ▸ h.current

lemma Recorded.takeTop (htop : q.queue.top? = some event) :
    Recorded accepted replaced q.takeTop where
  toConserves := h.toConserves.skip htop
  known := h.known
  record := h.record
  current e he := h.current e (BinaryHeap.pop_subset htop he)

lemma Recorded.mem_replaced_of_superseded (htop : q.queue.top? = some event)
    (hsup : q.superseded event = true) : event.sequenceNum ∈ replaced := by
  by_contra hnot
  cases hkey : event.coalescingKey with
  | none => simp [superseded, hkey] at hsup
  | some key =>
    have hrcd := h.current event (BinaryHeap.mem_of_top? htop) hnot key hkey
    simp [superseded, hkey, hrcd] at hsup

lemma Recorded.deliver (htop : q.queue.top? = some event) (hsup : q.superseded event = false) :
    Recorded accepted replaced (q.takeTop.deliver event) := by
  have htake := h.takeTop htop
  constructor
  case toConserves => exact ⟨h.distinct, htake.kept⟩
  case known => exact h.known
  case record =>
    intro key n hlk
    by_cases hkey : event.coalescingKey = some key
    · simp [PriorityQueue.deliver, hkey] at hlk
    · rw [lookup_deliver hkey] at hlk
      exact h.record key n hlk
  case current =>
    intro e he hnot key hkey
    have hrcd := htake.current e he hnot key hkey
    have hoth : event.coalescingKey ≠ some key := by
      intro hev
      have hseq : e.sequenceNum = event.sequenceNum := by
        rw [superseded_eq_false_iff hev] at hsup
        have hlk : q.coalescingLatestSeq.lookup key = some e.sequenceNum := hrcd
        simpa [hlk] using hsup
      have hnd := h.distinct_queue
      rw [BinaryHeap.elems_of_top? htop, Multiset.map_cons, Multiset.nodup_cons] at hnd
      exact hnd.1 (hseq ▸ Multiset.mem_map_of_mem _ he)
    rw [lookup_deliver hoth]
    exact hrcd

end

lemma onRecord_eq_some {n : UInt64} : q.onRecord event = some n ↔
    ∃ key, event.coalescingKey = some key ∧ q.coalescingLatestSeq.lookup key = some n := by
  rw [onRecord, bind_eq_some_iff]

lemma Recorded.mem_of_onRecord (h : Recorded accepted replaced q) {n : UInt64}
    (hn : q.onRecord event = some n) :
    n ∉ replaced ∧ ∃ e ∈ accepted, e.sequenceNum = n ∧ e.coalescingKey = event.coalescingKey := by
  obtain ⟨key, hkey, hlk⟩ := onRecord_eq_some.mp hn
  obtain ⟨hnot, e, he, hseq, hekey⟩ := h.record key n hlk
  exact ⟨hnot, e, he, hseq, hekey.trans hkey.symm⟩

lemma Recorded.known_onRecord (h : Recorded accepted replaced q) (event : PrioritizedEvent π) :
    ∀ n ∈ (q.onRecord event).toList ++ replaced, n ∈ accepted.map (·.sequenceNum) := by
  intro n hn
  rcases mem_append.mp hn with hn | hn
  · obtain ⟨-, e, he, hseq, -⟩ := h.mem_of_onRecord (Option.mem_toList.mp hn)
    exact hseq ▸ List.mem_map_of_mem he
  · exact h.known n hn

lemma Recorded.enqueue (h : Recorded accepted replaced q)
    (hfr : event.sequenceNum ∉ accepted.map (·.sequenceNum)) :
    Recorded (accepted ++ [event]) ((q.onRecord event).toList ++ replaced) (q.enqueue event) := by
  have hlk : ∀ key, (q.enqueue event).coalescingLatestSeq.lookup key =
      if event.coalescingKey = some key then some event.sequenceNum
      else q.coalescingLatestSeq.lookup key := fun key => lookup_track
  have hmem : ∀ n, n ∈ (q.onRecord event).toList ++ replaced ↔
      q.onRecord event = some n ∨ n ∈ replaced := by
    simp
  have hknw := h.known_onRecord event
  constructor
  case toConserves => exact h.toConserves.enqueue hfr
  case known =>
    intro n hn
    rw [map_append]
    exact mem_append_left _ (hknw n hn)
  case record =>
    intro key n hn
    rw [hlk] at hn
    split_ifs at hn with hkey
    · cases hn
      exact ⟨fun hmem' => hfr (hknw _ hmem'), event, by simp, rfl, hkey⟩
    · obtain ⟨hnot, e, he, hseq, hekey⟩ := h.record key n hn
      refine ⟨fun hmem' => ?_, e, mem_append_left _ he, hseq, hekey⟩
      rcases (hmem n).mp hmem' with hhit | hold
      · -- a number is on record for one key only
        obtain ⟨-, e', he', hseq', hekey'⟩ := h.mem_of_onRecord hhit
        cases h.eq_of_sequenceNum he he' (hseq.trans hseq'.symm)
        exact hkey (hekey'.symm.trans hekey)
      · exact hnot hold
  case current =>
    intro e he hnot key hkey
    rw [hmem, not_or] at hnot
    rw [elems_enqueue, Multiset.mem_cons] at he
    rw [hlk]
    rcases he with rfl | he
    · rw [if_pos hkey]
    · have hrcd := h.current e he hnot.2 key hkey
      rw [if_neg, hrcd]
      intro hev
      exact hnot.1 (onRecord_eq_some.mpr ⟨key, hev, hrcd⟩)

end

def uncounted (replaced : List UInt64) (events : Multiset (PrioritizedEvent π)) : ℕ :=
  events.countP fun e => e.sequenceNum ∉ replaced

lemma uncounted_cons (replaced : List UInt64) (event : PrioritizedEvent π)
    (events : Multiset (PrioritizedEvent π)) :
    uncounted replaced (event ::ₘ events) =
      uncounted replaced events + if event.sequenceNum ∈ replaced then 0 else 1 := by
  rw [uncounted, Multiset.countP_cons, ite_not]
  rfl

lemma uncounted_replace {events : Multiset (PrioritizedEvent π)} {replaced : List UInt64}
    {n : UInt64} (hdis : (events.map (·.sequenceNum)).Nodup) (hn : n ∉ replaced) :
    uncounted (n :: replaced) events + (if n ∈ events.map (·.sequenceNum) then 1 else 0) =
      uncounted replaced events := by
  induction events using Multiset.induction with
  | empty => rfl
  | cons e events ih =>
    rw [Multiset.map_cons, Multiset.nodup_cons] at hdis
    have ih := ih hdis.2
    rw [uncounted_cons, uncounted_cons, Multiset.map_cons]
    by_cases he : e.sequenceNum = n
    · subst he
      rw [if_neg hdis.1, add_zero] at ih
      rw [ih, if_pos List.mem_cons_self, if_pos (Multiset.mem_cons_self _ _), if_neg hn, add_zero]
    · have hmem : n ∈ e.sequenceNum ::ₘ events.map (·.sequenceNum) ↔
          n ∈ events.map (·.sequenceNum) := by simp [Ne.symm he]
      have hkeep : e.sequenceNum ∈ n :: replaced ↔ e.sequenceNum ∈ replaced := by simp [he]
      simp only [hmem, hkeep]
      omega

structure Balance (accepted : List (PrioritizedEvent π)) (replaced : List UInt64) (recounted : ℕ)
    (q : PriorityQueue π) : Prop extends Recorded accepted replaced q where
  balance : q.metrics.counted + uncounted replaced q.queue.elems = accepted.length + recounted

section
variable {accepted : List (PrioritizedEvent π)} {replaced : List UInt64} {recounted : ℕ}
  {q q' : PriorityQueue π} {event : PrioritizedEvent π}

lemma balance_make (capacity dropThreshold80 dropThreshold90 : ℕ) :
    Balance [] [] 0 (make capacity dropThreshold80 dropThreshold90 : PriorityQueue π) where
  toConserves := ⟨List.nodup_nil, le_rfl⟩
  known := by simp
  record _ _ h := by cases h
  current _ h := by cases h
  balance := rfl

section
variable (h : Balance accepted replaced recounted q) (htop : q.queue.top? = some event)
include h htop

lemma Balance.takeTop :
    q.metrics.counted + uncounted replaced q.queue.pop.elems +
      (if event.sequenceNum ∈ replaced then 0 else 1) = accepted.length + recounted := by
  rw [← h.balance, BinaryHeap.elems_of_top? htop, uncounted_cons, add_assoc]

lemma Balance.counted_top (hrecor : Recorded accepted replaced q')
    (hqu : q'.queue = q.queue.pop) (hcntd : q'.metrics.counted = q.metrics.counted + 1) :
    Balance accepted replaced
      (recounted + if event.sequenceNum ∈ replaced then 1 else 0) q' where
  toRecorded := hrecor
  balance := by
    have htake := h.takeTop htop
    rw [hcntd, hqu]
    split_ifs at htake ⊢ <;> omega

lemma Balance.expire :
    Balance accepted replaced
      (recounted + if event.sequenceNum ∈ replaced then 1 else 0) q.takeTop.expire := by
  refine h.counted_top htop ((h.toRecorded.takeTop htop).congr rfl rfl) rfl ?_
  simp [PriorityQueueMetrics.counted, PriorityQueue.takeTop, PriorityQueue.expire]
  omega

lemma Balance.skip (hsup : q.superseded event = true) :
    Balance accepted replaced recounted q.takeTop where
  toRecorded := h.toRecorded.takeTop htop
  balance := by
    have htake := h.takeTop htop
    rw [if_pos (h.mem_replaced_of_superseded htop hsup)] at htake
    exact htake

lemma Balance.deliver (hsup : q.superseded event = false) :
    Balance accepted replaced
      (recounted + if event.sequenceNum ∈ replaced then 1 else 0) (q.takeTop.deliver event) := by
  refine h.counted_top htop (h.toRecorded.deliver htop hsup) rfl ?_
  simp [PriorityQueueMetrics.counted, PriorityQueue.takeTop, PriorityQueue.deliver]
  omega

end

lemma countedAgain_append (rounds : List (PrioritizedEvent π × Fate)) (fate : Fate) :
    Ledger.countedAgain replaced (rounds ++ [(event, fate)]) =
      Ledger.countedAgain replaced rounds +
        if fate ≠ .superseded ∧ event.sequenceNum ∈ replaced then 1 else 0 := by
  simp [Ledger.countedAgain, countP_append, List.countP_cons]

section
variable (h : Balance accepted replaced recounted q)
include h

lemma Balance.pop (now : ℕ → Int64) :
    Balance accepted replaced (recounted + Ledger.countedAgain replaced (q.fates now))
      (q.pop now).2 := by
  refine fates_rule now
    (I := fun rounds => Balance accepted replaced (recounted + Ledger.countedAgain replaced rounds))
    (Q := fun _ rounds =>
      Balance accepted replaced (recounted + Ledger.countedAgain replaced rounds))
    ?_ ?_ ?_ ?_ h
  · exact fun rounds q hq _ => hq
  · intro rounds q event hq htop _
    rw [countedAgain_append, ← add_assoc]
    simpa using hq.expire htop
  · intro rounds q event hq htop _ hsup
    rw [countedAgain_append]
    simpa using hq.skip htop hsup
  · intro rounds q event hq htop _ hsup
    rw [countedAgain_append, ← add_assoc]
    simpa using hq.deliver htop hsup

lemma Balance.enqueue (hfr : event.sequenceNum ∉ accepted.map (·.sequenceNum)) :
    Balance (accepted ++ [event]) ((q.onRecord event).toList ++ replaced)
      (recounted + Ledger.alreadyCounted q event) (q.enqueue event) where
  toRecorded := h.toRecorded.enqueue hfr
  balance := by
    have hev : event.sequenceNum ∉ (q.onRecord event).toList ++ replaced :=
      fun hmem => hfr (h.known_onRecord event _ hmem)
    have hbal := h.balance
    rw [counted_enqueue, elems_enqueue, uncounted_cons, if_neg hev, length_append,
      length_singleton, Ledger.alreadyCounted]
    cases hn : q.onRecord event with
    | none =>
      simp only [toList_none, length_nil, nil_append, any_none, Bool.false_eq_true, if_false]
      omega
    | some n =>
      have hrep := uncounted_replace h.distinct_queue (h.mem_of_onRecord hn).1
      simp only [toList_some, length_singleton, singleton_append, any_some, decide_eq_true_eq]
      split_ifs at hrep ⊢ <;> omega

lemma Balance.refuse (priority : EventPriority) :
    Balance accepted replaced recounted (q.refuse priority) where
  toRecorded := h.toRecorded.congr rfl rfl
  balance := by
    rw [PriorityQueue.refuse, PriorityQueueMetrics.counted_updatePushMetrics]
    exact h.balance

end
end

namespace Ledger

lemma balance_next {l l' : Ledger π} {op : Op π}
    (h : Balance l.trace.accepted l.replaced l.recounted l.trace.queue) (hop : Fresh l op)
    (hn : next l op = some l') :
    Balance l'.trace.accepted l'.replaced l'.recounted l'.trace.queue := by
  cases op with
  | push event =>
    cases hn
    rw [Ledger.push, Trace.push, push_eq]
    split_ifs with hdrop
    · exact h.refuse event.priority
    · exact h.enqueue hop
  | pop now =>
    cases hn
    exact h.pop now

def plainEvent : PrioritizedEvent Unit := ⟨"status", .normal, (), 0, 1, none, some "status"⟩

def urgentEvent : PrioritizedEvent Unit := ⟨"status", .high, (), 0, 2, none, some "status"⟩

end Ledger
end PriorityQueue
end Mxrc.Event
