import Mxrc.Event.Backpressure
import Mxrc.Lib.Maps

/-!
# The event priority queue under concurrency

Any number of producers push while one consumer pops. `push` reads `size_`
before it takes the mutex and adds to it after the release; `pop` holds the
mutex throughout. The access to the heap under the mutex and each access to
`size_` are steps. `size` wraps at `2 ^ 64`.
-/

namespace Mxrc.Event
open Mxrc.Lib Function

inductive PushPhase (π : Type)
  | idle
  | load (event : PrioritizedEvent π)
  | refuse (event : PrioritizedEvent π)
  | insert (event : PrioritizedEvent π)
  | count (event : PrioritizedEvent π)
deriving DecidableEq

inductive PopPhase (π : Type)
  | idle
  | test
  | count (event : PrioritizedEvent π)
  | check (event : PrioritizedEvent π)

structure ConcurrentQueue (ι π : Type) where
  queue : PriorityQueue π
  producers : ι → PushPhase π
  consumer : PopPhase π

namespace PriorityQueue
variable {π : Type}

def insert (q : PriorityQueue π) (event : PrioritizedEvent π) : PriorityQueue π :=
  { q.track event with queue := (q.track event).queue.push event }

def countUp (q : PriorityQueue π) (priority : EventPriority) : PriorityQueue π :=
  let newSize := (q.size + 1) % 2 ^ 64
  let metrics := { q.metrics with
    currentSize := newSize, peakSize := max q.metrics.peakSize newSize }
  { q with size := newSize, metrics := metrics.updatePushMetrics priority false }

def countDown (q : PriorityQueue π) : PriorityQueue π :=
  let newSize := if q.size = 0 then 2 ^ 64 - 1 else q.size - 1
  { q with size := newSize, metrics := { q.metrics with currentSize := newSize } }

end PriorityQueue

namespace ConcurrentQueue
variable {ι π : Type}

def start (ι : Type) (capacity : ℕ) : ConcurrentQueue ι π :=
  ⟨.ofCapacity capacity, fun _ => .idle, .idle⟩

section
variable [DecidableEq ι]

def goto (s : ConcurrentQueue ι π) (p : ι) (phase : PushPhase π) : ConcurrentQueue ι π :=
  { s with producers := Function.update s.producers p phase }

def push (s : ConcurrentQueue ι π) (p : ι) (event : PrioritizedEvent π) :
    Option (ConcurrentQueue ι π) :=
  match s.producers p with
  | .idle => some (s.goto p (.load event))
  | _ => none

def produce (s : ConcurrentQueue ι π) (p : ι) : Option (ConcurrentQueue ι π) :=
  match s.producers p with
  | .idle => none
  | .load event =>
    some (s.goto p (if s.queue.shouldDrop event.priority then .refuse event else .insert event))
  | .refuse event => some { s.goto p .idle with queue := s.queue.refuse event.priority }
  | .insert event =>
    -- `pop` holds the mutex unless the consumer is idle
    match s.consumer with
    | .idle => some { s.goto p (.count event) with queue := s.queue.insert event }
    | _ => none
  | .count event => some { s.goto p .idle with queue := s.queue.countUp event.priority }

def pop (s : ConcurrentQueue ι π) : Option (ConcurrentQueue ι π) :=
  match s.consumer with
  | .idle => some { s with consumer := .test }
  | _ => none

def consume (s : ConcurrentQueue ι π) (now : Int64) : Option (ConcurrentQueue ι π) :=
  match s.consumer with
  | .idle => none
  | .test =>
    match s.queue.queue.top? with
    | none => some { s with consumer := .idle }
    | some event =>
      some { s with
        queue := { s.queue with queue := s.queue.queue.pop }
        consumer := .count event }
  | .count event => some { s with queue := s.queue.countDown, consumer := .check event }
  | .check event =>
    if event.isExpired now then some { s with queue := s.queue.expire, consumer := .test }
    else if s.queue.superseded event then some { s with consumer := .test }
    else some { s with queue := s.queue.deliver event, consumer := .idle }

inductive Label (ι π : Type)
  | push (p : ι) (event : PrioritizedEvent π)
  | produce (p : ι)
  | pop
  | consume (now : Int64)

def next (s : ConcurrentQueue ι π) : Label ι π → Option (ConcurrentQueue ι π)
  | .push p event => s.push p event
  | .produce p => s.produce p
  | .pop => s.pop
  | .consume now => s.consume now

end
end ConcurrentQueue

def PushPhase.active {π : Type} : PushPhase π → ℕ
  | .idle => 0
  | _ => 1

def PopPhase.active {π : Type} : PopPhase π → ℕ
  | .idle => 0
  | _ => 1

/-- One for a push whose event is in the heap and not yet in `size_`. -/
def PushPhase.uncounted {π : Type} : PushPhase π → ℕ
  | .count _ => 1
  | _ => 0

/-- One for a pop whose event has left the heap and is still in `size_`. -/
def PopPhase.uncounted {π : Type} : PopPhase π → ℕ
  | .count _ => 1
  | _ => 0

namespace ConcurrentQueue
variable {ι π : Type}

def held (s : ConcurrentQueue ι π) : ℕ := s.queue.queue.elems.card

section
variable [Fintype ι]

def inProgress (s : ConcurrentQueue ι π) : ℕ := ∑ p, (s.producers p).active + s.consumer.active

def uncounted (s : ConcurrentQueue ι π) : ℕ := ∑ p, (s.producers p).uncounted

variable [DecidableEq ι]

/-- A dropped event met, at some moment of its push, a heap that was full up to the pushes and pops
in progress. -/
def DropsOnlyWhenFull (ι π : Type) [Fintype ι] [DecidableEq ι]
    (G : ConcurrentQueue ι π → Label ι π → Prop) : Prop :=
  ∀ capacity ls s p event, Run next G (start ι capacity) ls s → s.producers p = .refuse event →
    ∃ ls₁ ls₂ s₁, ls = ls₁ ++ ls₂ ∧ Run next G (start ι capacity) ls₁ s₁ ∧ Run next G s₁ ls₂ s ∧
      (∀ event', .push p event' ∉ ls₂) ∧
      (s₁.producers p = .load event ∨ s₁.producers p = .refuse event) ∧
      ∃ n ∈ s₁.queue.limit event.priority, n ≤ s₁.held + s₁.inProgress

/-- Where `size_` is read, the events that are still to be added to it are in the heap or with the
consumer. -/
def NotOvertaken (s : ConcurrentQueue ι π) : Label ι π → Prop
  | .produce p => ∀ event, s.producers p = .load event →
      s.uncounted ≤ s.held + s.consumer.uncounted
  | _ => True

end

structure Balanced [Fintype ι] (s : ConcurrentQueue ι π) : Prop where
  graded : s.queue.Graded
  wraps : s.queue.size < 2 ^ 64
  balance : (s.queue.size + s.uncounted) % 2 ^ 64 = (s.held + s.consumer.uncounted) % 2 ^ 64

section
variable {s s' : ConcurrentQueue ι π}

lemma producers_consume {now : Int64} (hn : s.consume now = some s') :
    s'.producers = s.producers := by
  unfold ConcurrentQueue.consume at hn
  split at hn
  case h_1 => cases hn
  case h_2 => split at hn <;> cases hn <;> rfl
  case h_3 => cases hn; rfl
  case h_4 => split_ifs at hn <;> cases hn <;> rfl

lemma producers_pop (hn : s.pop = some s') : s'.producers = s.producers := by
  unfold ConcurrentQueue.pop at hn
  split at hn <;> cases hn
  rfl

end

section
variable [Fintype ι] {s s' : ConcurrentQueue ι π} {p : ι} {event : PrioritizedEvent π}

lemma balanced_start (capacity : ℕ) : Balanced (start ι capacity : ConcurrentQueue ι π) where
  graded := PriorityQueue.graded_ofCapacity capacity
  wraps := by
    change 0 < 2 ^ 64
    norm_num
  balance := by
    have hzero : (start ι capacity : ConcurrentQueue ι π).uncounted = 0 := Finset.sum_const_zero
    rw [hzero]
    rfl

lemma Balanced.full (h : Balanced s)
    (hord : s.uncounted ≤ s.held + s.consumer.uncounted)
    (hdrop : s.queue.shouldDrop event.priority = true) :
    ∃ n ∈ s.queue.limit event.priority, n ≤ s.held + s.consumer.uncounted := by
  obtain ⟨n, hn, hle⟩ := (h.graded.shouldDrop_iff event.priority).mp hdrop
  refine ⟨n, hn, hle.trans ?_⟩
  have hwrp := h.wraps
  have hbal := h.balance
  omega

lemma uncounted_le_active (phase : PopPhase π) : phase.uncounted ≤ phase.active := by
  cases phase <;> simp [PopPhase.uncounted, PopPhase.active]

lemma Balanced.consume {now : Int64} (h : Balanced s) (hn : s.consume now = some s') :
    Balanced s' := by
  obtain ⟨hgrad, hwrp, hbal⟩ := h
  unfold ConcurrentQueue.consume at hn
  split at hn
  · cases hn
  · rename_i hph
    rw [hph] at hbal
    split at hn
    · cases hn
      exact ⟨hgrad, hwrp, hbal⟩
    · rename_i event htop
      cases hn
      refine ⟨hgrad.congr rfl, hwrp, ?_⟩
      rw [held, BinaryHeap.elems_of_top? htop, Multiset.card_cons] at hbal
      exact hbal
  · rename_i event hph
    rw [hph] at hbal
    cases hn
    have hsize : s.queue.countDown.size = if s.queue.size = 0 then 2 ^ 64 - 1
      else s.queue.size - 1 := rfl
    constructor
    · exact hgrad.congr rfl
    · rw [hsize]
      split_ifs <;> omega
    · change (s.queue.countDown.size + s.uncounted) % _ = (s.held + 0) % _
      rw [hsize]
      simp only [PopPhase.uncounted] at hbal
      split_ifs <;> omega
  · rename_i event hph
    rw [hph] at hbal
    split_ifs at hn
    · cases hn
      exact ⟨hgrad.congr rfl, hwrp, hbal⟩
    · cases hn
      exact ⟨hgrad, hwrp, hbal⟩
    · cases hn
      exact ⟨hgrad.congr rfl, hwrp, hbal⟩

variable [DecidableEq ι]

lemma uncounted_goto (s : ConcurrentQueue ι π) (p : ι) (phase : PushPhase π) :
    (s.goto p phase).uncounted + (s.producers p).uncounted = s.uncounted + phase.uncounted :=
  sum_update PushPhase.uncounted s.producers p phase

lemma insert_eq (q : PriorityQueue π) (event : PrioritizedEvent π) :
    (q.insert event).limit = q.limit ∧ (q.insert event).size = q.size ∧
      (q.insert event).queue.elems = event ::ₘ q.queue.elems := by
  rw [PriorityQueue.insert, BinaryHeap.elems_push, PriorityQueue.track]
  split <;> exact ⟨rfl, rfl, rfl⟩

lemma Balanced.produce (h : Balanced s) (hn : s.produce p = some s') : Balanced s' := by
  obtain ⟨hgrad, hwrp, hbal⟩ := h
  unfold ConcurrentQueue.produce at hn
  split at hn
  · cases hn
  · rename_i event hph
    cases hn
    have hcnt := uncounted_goto s p
      (if s.queue.shouldDrop event.priority then .refuse event else .insert event)
    rw [hph, apply_ite PushPhase.uncounted] at hcnt
    simp only [PushPhase.uncounted, ite_self, add_zero] at hcnt
    refine ⟨hgrad, hwrp, ?_⟩
    rw [hcnt]
    exact hbal
  · rename_i event hph
    cases hn
    have hcnt := uncounted_goto s p .idle
    rw [hph] at hcnt
    refine ⟨hgrad.congr rfl, hwrp, ?_⟩
    change (s.queue.size + (s.goto p .idle).uncounted) % _ = _
    rw [Nat.add_right_cancel hcnt]
    exact hbal
  · rename_i event hph
    split at hn
    · rename_i hcon
      cases hn
      have hcnt := uncounted_goto s p (.count event)
      rw [hph] at hcnt
      obtain ⟨hlim, hsize, hlms⟩ := insert_eq s.queue event
      refine ⟨hgrad.congr hlim, hsize ▸ hwrp, ?_⟩
      change ((s.queue.insert event).size + (s.goto p (.count event)).uncounted) % _ =
        ((s.queue.insert event).queue.elems.card + s.consumer.uncounted) % _
      rw [hsize, hlms, Multiset.card_cons]
      simp only [PushPhase.uncounted, held] at hcnt hbal
      omega
    · cases hn
  · rename_i event hph
    cases hn
    have hcnt := uncounted_goto s p .idle
    rw [hph] at hcnt
    refine ⟨hgrad.congr rfl, Nat.mod_lt _ (by norm_num), ?_⟩
    change ((s.queue.size + 1) % _ + (s.goto p .idle).uncounted) % _ =
      (s.held + s.consumer.uncounted) % _
    simp only [PushPhase.uncounted] at hcnt
    omega

lemma Balanced.next {l : Label ι π} (h : Balanced s) (hn : next s l = some s') :
    Balanced s' := by
  cases l with
  | push p event =>
    change s.push p event = some s' at hn
    unfold push at hn
    split at hn
    · rename_i hph
      cases hn
      have hcnt := uncounted_goto s p (.load event)
      rw [hph] at hcnt
      refine ⟨h.graded, h.wraps, ?_⟩
      rw [Nat.add_right_cancel hcnt]
      exact h.balance
    · cases hn
  | produce p => exact h.produce hn
  | pop =>
    change s.pop = some s' at hn
    unfold pop at hn
    split at hn
    · rename_i hph
      have hbal := h.balance
      rw [hph] at hbal
      cases hn
      exact ⟨h.graded, h.wraps, hbal⟩
    · cases hn
  | consume now => exact h.consume hn

end

section
variable [DecidableEq ι] {s s' : ConcurrentQueue ι π} {p : ι} {event : PrioritizedEvent π}

lemma producers_push (hn : s.push p event = some s') :
    s.producers p = .idle ∧ s'.producers = Function.update s.producers p (.load event) := by
  unfold ConcurrentQueue.push at hn
  split at hn
  · rename_i hph
    cases hn
    exact ⟨hph, rfl⟩
  · cases hn

lemma producers_produce (event : PrioritizedEvent π) (hn : s.produce p = some s') :
    ∃ phase, s'.producers = Function.update s.producers p phase ∧
      (phase = .refuse event →
        s.producers p = .load event ∧ s.queue.shouldDrop event.priority = true) := by
  unfold ConcurrentQueue.produce at hn
  split at hn
  · cases hn
  · rename_i event' hph
    cases hn
    refine ⟨_, rfl, fun heq => ?_⟩
    split_ifs at heq with hdrop
    cases heq
    exact ⟨hph, hdrop⟩
  · cases hn
    exact ⟨_, rfl, fun heq => by cases heq⟩
  · split at hn
    · cases hn
      exact ⟨_, rfl, fun heq => by cases heq⟩
    · cases hn
  · cases hn
    exact ⟨_, rfl, fun heq => by cases heq⟩

lemma refuse_cases {l : Label ι π} (hn : ConcurrentQueue.next s l = some s')
    (hph : s'.producers p = .refuse event) :
    s.producers p = .refuse event ∧ (∀ event', l ≠ .push p event') ∨
    s.producers p = .load event ∧ l = .produce p ∧
      s.queue.shouldDrop event.priority = true := by
  cases l with
  | push p' event' =>
    obtain ⟨hidle, hprod⟩ := producers_push hn
    rw [hprod] at hph
    by_cases hp : p = p'
    · subst hp
      rw [update_self] at hph
      cases hph
    · rw [update_of_ne hp] at hph
      refine Or.inl ⟨hph, fun event'' heq => ?_⟩
      cases heq
      exact hp rfl
  | produce p' =>
    obtain ⟨phase, hprod, href⟩ := producers_produce event hn
    rw [hprod] at hph
    by_cases hp : p = p'
    · subst hp
      rw [update_self] at hph
      obtain ⟨hload, hdrop⟩ := href hph
      exact Or.inr ⟨hload, rfl, hdrop⟩
    · rw [update_of_ne hp] at hph
      exact Or.inl ⟨hph, fun event'' heq => by cases heq⟩
  | pop =>
    rw [producers_pop hn] at hph
    exact Or.inl ⟨hph, fun event'' heq => by cases heq⟩
  | consume now =>
    rw [producers_consume hn] at hph
    exact Or.inl ⟨hph, fun event'' heq => by cases heq⟩

end

theorem dropsOnlyWhenFull_of_notOvertaken (ι π : Type) [Fintype ι] [DecidableEq ι] :
    DropsOnlyWhenFull ι π NotOvertaken := by
  intro capacity ls s p event hrun
  induction hrun with
  | nil => exact fun hph => by cases hph
  | snoc hrun hg hn ih =>
    rename_i ls s l s'
    intro hph
    rcases refuse_cases hn hph with ⟨hbef, hl⟩ | ⟨hload, rfl, hdrop⟩
    · obtain ⟨ls₁, ls₂, s₁, rfl, h₁, h₂, hcall, hpus, hfull⟩ := ih hbef
      refine ⟨ls₁, ls₂ ++ [l], s₁, by simp, h₁, h₂.snoc hg hn, ?_, hpus, hfull⟩
      intro event' hmem
      rcases List.mem_append.mp hmem with hmem | hmem
      · exact hcall event' hmem
      · exact hl event' (List.mem_singleton.mp hmem).symm
    · -- the moment is that of the load
      have hs : Balanced s := hrun.invariant Balanced (balanced_start capacity)
        fun s l s' hs _ hn => hs.next hn
      obtain ⟨n, hn', hle⟩ := hs.full (hg event hload) hdrop
      refine ⟨ls, [.produce p], s, rfl, hrun, Run.single hg hn, by simp, Or.inl hload, n, hn', ?_⟩
      have hactv := uncounted_le_active s.consumer
      rw [inProgress]
      omega

def statusEvent : PrioritizedEvent Unit := ⟨"status", .high, (), 0, 0, none, none⟩

/-- Producer `false` has not counted its event when the consumer subtracts it. Producer `true` then
reads `2 ^ 64 - 1`. -/
def overtaking : List (Label Bool Unit) :=
  [.push false statusEvent, .produce false, .produce false, .pop, .consume 0, .consume 0,
    .consume 0, .push true statusEvent, .produce true]

theorem not_dropsOnlyWhenFull : ¬ ∀ (ι π : Type) [Fintype ι] [DecidableEq ι],
    DropsOnlyWhenFull ι π fun _ _ => True := by
  intro h
  have hmomen : ∀ k ≤ 9, (exec next (fun _ _ => true) (start Bool 10) (overtaking.take k)).map
      (fun s => (s.queue.limit .high, decide (s.held + s.inProgress < 10))) =
        some (some 10, true) := by
    decide +kernel
  have hlast : (exec next (fun _ _ => true) (start Bool 10) overtaking).map
      (fun s => s.producers true) = some (.refuse statusEvent) := by
    decide +kernel
  obtain ⟨s, hrun, hph⟩ := exists_run_of_exec (fun _ _ _ => trivial) hlast
  obtain ⟨ls₁, ls₂, s₁, hls, h₁, -, -, -, n, hn, hle⟩ := h Bool Unit 10 overtaking s true
    statusEvent hrun hph
  -- `s₁` is one of the ten states of the run
  have hlen : ls₁.length ≤ 9 := by
    have hboth := congrArg List.length hls
    rw [List.length_append] at hboth
    have hnine : overtaking.length = 9 := rfl
    omega
  have hmom := hmomen ls₁.length hlen
  rw [hls, List.take_left] at hmom
  obtain ⟨s₂, hs₂, hval⟩ := Option.map_eq_some_iff.mp hmom
  cases h₁.deterministic (Run.of_exec (G := fun _ _ => True) (fun _ _ _ => trivial) hs₂)
  simp only [Prod.mk.injEq, decide_eq_true_eq] at hval
  obtain ⟨hlim, hlt⟩ := hval
  cases hlim.symm.trans hn
  omega

end ConcurrentQueue
end Mxrc.Event
