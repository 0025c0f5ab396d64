import Mxrc.Lib.BinaryHeap
import Mxrc.Lib.Runs

/-!
# The event priority queue

The top comes first in the order (priority, timestamp, sequence number). `pop`
removes tops until one is neither expired nor superseded; every removal that
finds a TTL reads the clock. Callers are taken one at a time. The floating-point
thresholds and the payload type are parameters.
-/

namespace Mxrc.Event
open Mxrc.Lib

inductive EventPriority
  | critical
  | high
  | normal
  | low
deriving DecidableEq

def EventPriority.toNat : EventPriority → ℕ
  | .critical => 0
  | .high => 1
  | .normal => 2
  | .low => 3

lemma EventPriority.toNat_injective : Function.Injective toNat := by
  intro p p' h
  cases p <;> cases p' <;> first | rfl | cases h

structure PrioritizedEvent (π : Type) where
  type : String
  priority : EventPriority
  payload : π
  timestampNs : UInt64
  sequenceNum : UInt64
  ttl : Option Int64
  coalescingKey : Option String
deriving DecidableEq

namespace PrioritizedEvent
variable {π : Type}

/-- The subtraction, the division and the comparison are those of unsigned 64-bit numbers. -/
def isExpired (e : PrioritizedEvent π) (currentNs : Int64) : Bool :=
  match e.ttl with
  | none => false
  | some ttl => ttl.toUInt64 < (currentNs.toUInt64 - e.timestampNs) / 1000000

lemma isExpired_of_ttl_eq_none {e : PrioritizedEvent π} (h : e.ttl = none) (currentNs : Int64) :
    e.isExpired currentNs = false := by
  simp [isExpired, h]

def makePrioritizedEvent (type : String) (priority : EventPriority) (payload : π)
    (sequenceNum : UInt64) (nowNs : Int64) : PrioritizedEvent π :=
  ⟨type, priority, payload, nowNs.toUInt64, sequenceNum, none, none⟩

def lt (a b : PrioritizedEvent π) : Bool :=
  if a.priority ≠ b.priority then b.priority.toNat < a.priority.toNat
  else if a.timestampNs ≠ b.timestampNs then b.timestampNs < a.timestampNs
  else b.sequenceNum < a.sequenceNum

def rank (e : PrioritizedEvent π) : ℕ ×ₗ ℕ ×ₗ ℕ :=
  toLex (e.priority.toNat, toLex (e.timestampNs.toNat, e.sequenceNum.toNat))

lemma lt_iff (a b : PrioritizedEvent π) : a.lt b = true ↔ b.rank < a.rank := by
  have hp : b.priority.toNat = a.priority.toNat ↔ a.priority = b.priority :=
    ⟨fun h => (EventPriority.toNat_injective h).symm, fun h => by rw [h]⟩
  have ht : b.timestampNs.toNat = a.timestampNs.toNat ↔ a.timestampNs = b.timestampNs :=
    ⟨fun h => (UInt64.toNat_inj.mp h).symm, fun h => by rw [h]⟩
  simp only [rank, Prod.Lex.toLex_lt_toLex, hp, ht, ← UInt64.lt_iff_toNat_lt]
  rw [lt]
  split_ifs with hprio htime
  · simp [hprio]
  · simp_all
  · simp_all

instance : Std.Asymm (fun a b : PrioritizedEvent π => a.lt b = true) where
  asymm a b := by
    simp only [lt_iff]
    exact lt_asymm

instance : IsOrderConnected (PrioritizedEvent π) (fun a b => a.lt b = true) where
  conn a b c := by
    simp only [lt_iff]
    exact fun h => (lt_or_ge b.rank a.rank).imp_right fun hab => h.trans_le hab

lemma sequenceNum_eq_of_rank_eq {a b : PrioritizedEvent π} (h : a.rank = b.rank) :
    a.sequenceNum = b.sequenceNum := by
  have hseq : a.sequenceNum.toNat = b.sequenceNum.toNat :=
    congrArg (fun r => (ofLex (ofLex r).2).2) h
  exact UInt64.toNat_inj.mp hseq

end PrioritizedEvent

structure PriorityQueueMetrics where
  criticalEventsPushed : ℕ := 0
  highEventsPushed : ℕ := 0
  normalEventsPushed : ℕ := 0
  lowEventsPushed : ℕ := 0
  criticalEventsDropped : ℕ := 0
  highEventsDropped : ℕ := 0
  normalEventsDropped : ℕ := 0
  lowEventsDropped : ℕ := 0
  eventsPopped : ℕ := 0
  eventsExpired : ℕ := 0
  eventsCoalesced : ℕ := 0
  currentSize : ℕ := 0
  peakSize : ℕ := 0
deriving DecidableEq

def PriorityQueueMetrics.updatePushMetrics (m : PriorityQueueMetrics) (priority : EventPriority)
    (dropped : Bool) : PriorityQueueMetrics :=
  if dropped then
    match priority with
    | .critical => { m with criticalEventsDropped := m.criticalEventsDropped + 1 }
    | .high => { m with highEventsDropped := m.highEventsDropped + 1 }
    | .normal => { m with normalEventsDropped := m.normalEventsDropped + 1 }
    | .low => { m with lowEventsDropped := m.lowEventsDropped + 1 }
  else
    match priority with
    | .critical => { m with criticalEventsPushed := m.criticalEventsPushed + 1 }
    | .high => { m with highEventsPushed := m.highEventsPushed + 1 }
    | .normal => { m with normalEventsPushed := m.normalEventsPushed + 1 }
    | .low => { m with lowEventsPushed := m.lowEventsPushed + 1 }

structure PriorityQueue (π : Type) where
  capacity : ℕ
  dropThreshold80 : ℕ
  dropThreshold90 : ℕ
  queue : BinaryHeap (@PrioritizedEvent.lt π)
  size : ℕ
  coalescingLatestSeq : AList (fun _ : String => UInt64)
  metrics : PriorityQueueMetrics

namespace PriorityQueue
variable {π : Type}

def make (capacity dropThreshold80 dropThreshold90 : ℕ) : PriorityQueue π :=
  ⟨capacity, dropThreshold80, dropThreshold90, .empty, 0, ∅, {}⟩

def shouldDrop (q : PriorityQueue π) (priority : EventPriority) : Bool :=
  if priority = .critical then false
  else if q.size < q.dropThreshold80 then false
  else if q.size < q.dropThreshold90 then priority = .low
  else if q.size < q.capacity then priority = .low || priority = .normal
  else priority = .low || priority = .normal || priority = .high

def track (q : PriorityQueue π) (event : PrioritizedEvent π) : PriorityQueue π :=
  match event.coalescingKey with
  | none => q
  | some key =>
    { q with
      coalescingLatestSeq := q.coalescingLatestSeq.insert key event.sequenceNum
      metrics := { q.metrics with
        eventsCoalesced := q.metrics.eventsCoalesced +
          if (q.coalescingLatestSeq.lookup key).isSome then 1 else 0 } }

def push (q : PriorityQueue π) (event : PrioritizedEvent π) : Bool × PriorityQueue π :=
  if q.shouldDrop event.priority then
    (false, { q with metrics := q.metrics.updatePushMetrics event.priority true })
  else
    let q := q.track event
    let newSize := q.size + 1
    let metrics := { q.metrics with
      currentSize := newSize, peakSize := max q.metrics.peakSize newSize }
    (true, { q with
      queue := q.queue.push event
      size := newSize
      metrics := metrics.updatePushMetrics event.priority false })

def refuse (q : PriorityQueue π) (priority : EventPriority) : PriorityQueue π :=
  { q with metrics := q.metrics.updatePushMetrics priority true }

def enqueue (q : PriorityQueue π) (event : PrioritizedEvent π) : PriorityQueue π :=
  let q := q.track event
  let newSize := q.size + 1
  let metrics := { q.metrics with
    currentSize := newSize, peakSize := max q.metrics.peakSize newSize }
  { q with
    queue := q.queue.push event
    size := newSize
    metrics := metrics.updatePushMetrics event.priority false }

section
variable (q : PriorityQueue π) (event : PrioritizedEvent π)
include q event

lemma queue_enqueue :
    (q.enqueue event).queue = q.queue.push event ∧ (q.enqueue event).size = q.size + 1 := by
  rw [enqueue, track]
  split <;> exact ⟨rfl, rfl⟩

lemma elems_enqueue : (q.enqueue event).queue.elems = event ::ₘ q.queue.elems := by
  rw [(queue_enqueue q event).1, BinaryHeap.elems_push]

lemma push_eq :
    q.push event = if q.shouldDrop event.priority then (false, q.refuse event.priority)
      else (true, q.enqueue event) := rfl

end

def takeTop (q : PriorityQueue π) : PriorityQueue π :=
  { q with
    queue := q.queue.pop
    size := q.size - 1
    metrics := { q.metrics with currentSize := q.size - 1 } }

def expire (q : PriorityQueue π) : PriorityQueue π :=
  { q with metrics := { q.metrics with eventsExpired := q.metrics.eventsExpired + 1 } }

def superseded (q : PriorityQueue π) (event : PrioritizedEvent π) : Bool :=
  match event.coalescingKey with
  | none => false
  | some key => (q.coalescingLatestSeq.lookup key).any (· ≠ event.sequenceNum)

def deliver (q : PriorityQueue π) (event : PrioritizedEvent π) : PriorityQueue π :=
  { q with
    coalescingLatestSeq := match event.coalescingKey with
      | none => q.coalescingLatestSeq
      | some key => q.coalescingLatestSeq.erase key
    metrics := { q.metrics with eventsPopped := q.metrics.eventsPopped + 1 } }

/-- The loop of `pop`; `now i` is the clock in its `i`-th round. -/
def popLoop : ℕ → (ℕ → Int64) → PriorityQueue π → Option (PrioritizedEvent π) × PriorityQueue π
  | 0, _, q => (none, q)
  | fuel + 1, now, q =>
    match q.queue.top? with
    | none => (none, q)
    | some event =>
      let q := q.takeTop
      if event.isExpired (now 0) then popLoop fuel (fun i => now (i + 1)) q.expire
      else if q.superseded event then popLoop fuel (fun i => now (i + 1)) q
      else (some event, q.deliver event)

/-- Every round removes one event, so there are no more rounds than events. -/
def pop (q : PriorityQueue π) (now : ℕ → Int64) : Option (PrioritizedEvent π) × PriorityQueue π :=
  popLoop q.queue.elems.card now q

lemma rank_top_le {q : PriorityQueue π} {event e : PrioritizedEvent π}
    (htop : q.queue.top? = some event) (he : e ∈ q.queue.elems) : event.rank ≤ e.rank := by
  have hmax := BinaryHeap.top?_max htop e he
  rw [← Bool.not_eq_true, PrioritizedEvent.lt_iff] at hmax
  exact le_of_not_gt hmax

lemma pop_of_empty {q : PriorityQueue π} (h : q.queue.elems = 0) (now : ℕ → Int64) :
    q.pop now = (none, q) := by
  rw [pop, h]
  rfl

/-- `accepted` and `popped` list the events that `push` took and those that `pop` returned, in the
order of the calls. -/
structure Trace (π : Type) where
  queue : PriorityQueue π
  accepted : List (PrioritizedEvent π)
  popped : List (PrioritizedEvent π)

inductive Op (π : Type)
  | push (event : PrioritizedEvent π)
  | pop (now : ℕ → Int64)

namespace Trace

def start (capacity dropThreshold80 dropThreshold90 : ℕ) : Trace π :=
  ⟨make capacity dropThreshold80 dropThreshold90, [], []⟩

def push (s : Trace π) (event : PrioritizedEvent π) : Trace π :=
  let (ok, queue) := s.queue.push event
  { s with queue, accepted := if ok then s.accepted ++ [event] else s.accepted }

def pop (s : Trace π) (now : ℕ → Int64) : Trace π :=
  let (event, queue) := s.queue.pop now
  { s with queue, popped := s.popped ++ event.toList }

def next (s : Trace π) : Op π → Option (Trace π)
  | .push event => some (s.push event)
  | .pop now => some (s.pop now)

lemma push_eq_ite (s : Trace π) (event : PrioritizedEvent π) :
    s.push event = if s.queue.shouldDrop event.priority then
      { s with queue := s.queue.refuse event.priority }
    else { s with queue := s.queue.enqueue event, accepted := s.accepted ++ [event] } := by
  rw [Trace.push, PriorityQueue.push_eq]
  split_ifs <;> rfl

end Trace
end PriorityQueue
end Mxrc.Event
