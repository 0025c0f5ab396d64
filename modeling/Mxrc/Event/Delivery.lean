import Mxrc.Event.EventBus
import Mxrc.Event.PopOrder

/-!
# Delivery of published events

The bus publishes everything with normal priority, without TTL and coalescing
key. If the clock of the publishers does not go back, the queue is first-in
first-out. The order needs clock readings after the epoch and sequence numbers
that have not wrapped.
-/

namespace Mxrc.Event
open Mxrc.Lib List Multiset

namespace PriorityQueue
variable {π : Type}

structure Fifo (waiting : List (PrioritizedEvent π)) (q : PriorityQueue π) : Prop where
  plain : PlainQueue q
  elems : q.queue.elems = waiting
  sorted : waiting.Pairwise (fun e f => e.rank < f.rank)

section
variable {q : PriorityQueue π} {waiting : List (PrioritizedEvent π)} {event : PrioritizedEvent π}
  {now : ℕ → Int64}

lemma Fifo.pop_none (h : Fifo waiting q) (hpop : (q.pop now).1 = none) :
    waiting = [] ∧ (q.pop now).2 = q := by
  have hemp := (h.plain.pop_eq_none_iff now).mp hpop
  refine ⟨coe_eq_zero _ |>.mp (h.elems ▸ hemp), ?_⟩
  rw [pop_of_empty hemp]

lemma Fifo.pop_some (h : Fifo waiting q) (hpop : (q.pop now).1 = some event) :
    ∃ rest, waiting = event :: rest ∧ Fifo rest (q.pop now).2 := by
  obtain ⟨hlms, hlst, hpln⟩ := h.plain.pop_some now hpop
  have hmem : event ∈ waiting := by
    rw [← mem_coe, ← h.elems, hlms]
    exact Multiset.mem_cons_self _ _
  cases hwait : waiting with
  | nil => simp [hwait] at hmem
  | cons first rest =>
    have hsrt := hwait ▸ h.sorted
    have hfir : first = event := by
      by_contra hne
      have hlat : event ∈ rest :=
        (List.mem_cons.mp (hwait ▸ hmem)).resolve_left (Ne.symm hne)
      have hlt := rel_of_pairwise_cons hsrt hlat
      have hle := hlst first (by rw [h.elems, hwait]; simp)
      exact absurd hle (not_le_of_gt hlt)
    subst hfir
    refine ⟨rest, rfl, hpln, ?_, hsrt.of_cons⟩
    have hcons := h.elems
    rw [hlms, hwait, ← cons_coe] at hcons
    exact (Multiset.cons_inj_right first).mp hcons

lemma size_enqueue : (q.enqueue event).size = q.size + 1 := by
  have htrc : (q.track event).size = q.size := by
    rw [track]
    split <;> rfl
  simp [enqueue, htrc]

lemma Fifo.enqueue (h : Fifo waiting q) (hev : Plain event)
    (hlast : ∀ e ∈ waiting, e.rank < event.rank) : Fifo (waiting ++ [event]) (q.enqueue event) where
  plain := by
    constructor
    · intro e he
      rw [elems_enqueue] at he
      rcases Multiset.mem_cons.mp he with rfl | he
      · exact hev
      · exact h.plain.plain e he
    · rw [elems_enqueue, size_enqueue, card_cons, h.plain.size]
  elems := by
    rw [elems_enqueue, h.elems, ← coe_add, coe_singleton, add_comm, singleton_add]
  sorted := by
    refine List.pairwise_append.mpr ⟨h.sorted, pairwise_singleton _ _, ?_⟩
    intro e he f hf
    cases List.mem_singleton.mp hf
    exact hlast e he

lemma Fifo.refuse (h : Fifo waiting q) (priority : EventPriority) :
    Fifo waiting (q.refuse priority) :=
  ⟨⟨h.plain.plain, h.plain.size⟩, h.elems, h.sorted⟩

lemma fifo_make (capacity dropThreshold80 dropThreshold90 : ℕ) :
    Fifo [] (make capacity dropThreshold80 dropThreshold90 : PriorityQueue π) :=
  ⟨⟨by simp [make, BinaryHeap.empty, BinaryHeap.elems], rfl⟩, rfl, List.Pairwise.nil⟩

end
end PriorityQueue

lemma toNat_toUInt64_of_nonneg {t : Int64} (h : 0 ≤ t) : (t.toUInt64.toNat : ℤ) = t.toInt := by
  have hlt := t.toBitVec.isLt
  rw [Int64.le_iff_toInt_le, ← Int64.toInt_toBitVec t, BitVec.toInt_eq_toNat_bmod] at h
  rw [← Int64.toInt_toBitVec, BitVec.toInt_eq_toNat_bmod]
  change (t.toBitVec.toNat : ℤ) = _
  simp only [Int64.toInt_zero, Int.bmod, Nat.reducePow] at h ⊢
  omega

lemma toNat_toUInt64_mono {t t' : Int64} (h0 : 0 ≤ t) (h : t ≤ t') :
    t.toUInt64.toNat ≤ t'.toUInt64.toNat := by
  have h0' : 0 ≤ t' := Int64.le_trans h0 h
  have ht := toNat_toUInt64_of_nonneg h0
  have ht' := toNat_toUInt64_of_nonneg h0'
  rw [Int64.le_iff_toInt_le] at h
  omega

/-- Each subscription outside of `rest` was visited, and exactly those whose filter accepted were
called. -/
structure Dispatch.Faithful {ε : Type} (d : Dispatch ε) (rest : List SubscriptionId) : Prop where
  nodup : d.snapshot.Nodup
  visited : d.visited.map Prod.fst ++ rest = d.snapshot
  calls : d.calls = (d.visited.filter (·.2 = .accepts)).map Prod.fst

namespace EventBus
variable {ε : Type}

def taken (s : EventBus ε) : List ε := s.dispatches.map (·.event) ++ s.inHand

structure Stamped (counter : ℕ) (reading : Option Int64) (e : PrioritizedEvent (Payload ε))
    (event : ε) : Prop where
  plain : PriorityQueue.Plain e
  priority : e.priority = .normal
  payload : e.payload.event? = some event
  sequenceNum : e.sequenceNum.toNat < counter
  timestamp : ∃ t, reading = some t ∧ 0 ≤ t ∧ e.timestampNs.toNat ≤ t.toUInt64.toNat

structure Ordered (s : EventBus ε) (waiting : List (PrioritizedEvent (Payload ε))) : Prop where
  fifo : PriorityQueue.Fifo waiting s.eventQueue
  accepted : s.accepted = s.taken ++ waiting.filterMap (·.payload.event?)
  returned : s.accepted = s.published ++ s.returning
  stamped : ∀ e ∈ waiting, ∃ event, Stamped s.sequenceCounter s.lastReading e event
  pending : ∀ event e, s.publisher = .stamped event e ∨ s.publisher = .admitted event e →
    Stamped s.sequenceCounter s.lastReading e event ∧ ∀ f ∈ waiting, f.rank < e.rank

section
variable {s s' : EventBus ε} {waiting : List (PrioritizedEvent (Payload ε))} {nowNs : Int64}
  {getTypeName : ε → String}

lemma Ordered.congr (h : Ordered s waiting) (hqu : s'.eventQueue = s.eventQueue)
    (hpub : s'.publisher = s.publisher) (hcoun : s'.sequenceCounter = s.sequenceCounter)
    (hread : s'.lastReading = s.lastReading) (hacc : s'.accepted = s.accepted)
    (hpubl : s'.published = s.published) (htak : s'.taken = s.taken) :
    Ordered s' waiting := by
  refine ⟨hqu ▸ h.fifo, hacc ▸ htak ▸ h.accepted, ?_, ?_, ?_⟩
  · rw [hacc, hpubl, returning, hpub]
    exact h.returned
  · rw [hcoun, hread]
    exact h.stamped
  · rw [hpub, hcoun, hread]
    exact h.pending

lemma Stamped.rank_lt {counter : ℕ} {reading : Option Int64} {e : PrioritizedEvent (Payload ε)}
    {event : ε} (h : Stamped counter reading e event) (hclc : ∀ t ∈ reading, t ≤ nowNs)
    (hcoun : counter < 2 ^ 64) (type : String) (payload : Payload ε) :
    e.rank < (PrioritizedEvent.makePrioritizedEvent type .normal payload
      (UInt64.ofNat counter) nowNs).rank := by
  obtain ⟨t, ht, hnon, hle⟩ := h.timestamp
  have htime : e.timestampNs.toNat ≤ nowNs.toUInt64.toNat :=
    hle.trans (toNat_toUInt64_mono hnon (hclc t ht))
  have hseq : (UInt64.ofNat counter).toNat = counter := by
    rw [UInt64.toNat_ofNat', Nat.mod_eq_of_lt hcoun]
  simp only [PrioritizedEvent.rank, PrioritizedEvent.makePrioritizedEvent, h.priority,
    Prod.Lex.toLex_lt_toLex, hseq, lt_irrefl, false_or, true_and]
  have hnum := h.sequenceNum
  omega

lemma publish_none (hn : s.publish getTypeName none nowNs = some s') : s' = s := by
  unfold EventBus.publish at hn
  split at hn
  · exact (Option.some.inj hn).symm
  · rename_i hnone
    cases hnone
  · cases hn

lemma Ordered.publish {event : ε} (h : Ordered s waiting)
    (hclc : ∀ t ∈ s.lastReading, t ≤ nowNs) (hnon : 0 ≤ nowNs)
    (hcoun : s.sequenceCounter < 2 ^ 64)
    (hn : s.publish getTypeName (some event) nowNs = some s') : Ordered s' waiting := by
  unfold EventBus.publish at hn
  split at hn
  · rename_i hnone
    cases hnone
  · rename_i event hidle _
    cases hn
    have hret := h.returned
    rw [returning, hidle] at hret
    refine ⟨h.fifo, h.accepted, hret, ?_, ?_⟩
    · intro e he
      obtain ⟨event, hev⟩ := h.stamped e he
      obtain ⟨t, ht, hnon', hle⟩ := hev.timestamp
      exact ⟨event, hev.plain, hev.priority, hev.payload,
        Nat.lt_succ_of_lt hev.sequenceNum, nowNs, rfl, hnon,
        hle.trans (toNat_toUInt64_mono hnon' (hclc t ht))⟩
    · intro event' e hpend
      simp only [PublishPhase.stamped.injEq, reduceCtorEq, or_false] at hpend
      obtain ⟨rfl, rfl⟩ := hpend
      refine ⟨⟨⟨rfl, rfl⟩, rfl, rfl, ?_, nowNs, rfl, hnon, le_rfl⟩, ?_⟩
      · change (UInt64.ofNat s.sequenceCounter).toNat < s.sequenceCounter + 1
        rw [UInt64.toNat_ofNat', Nat.mod_eq_of_lt hcoun]
        exact Nat.lt_succ_self _
      · intro f hf
        obtain ⟨_, hev⟩ := h.stamped f hf
        exact hev.rank_lt hclc hcoun _ _
  · cases hn

lemma Ordered.publishStep (h : Ordered s waiting) (hn : s.publishStep = some s') :
    ∃ waiting, Ordered s' waiting := by
  have hret := h.returned
  unfold EventBus.publishStep at hn
  split at hn
  · cases hn
  · rename_i event e hpub
    rw [returning, hpub] at hret
    have hpend := h.pending event e (Or.inl hpub)
    split_ifs at hn
    · cases hn
      exact ⟨waiting, h.fifo.refuse _, h.accepted, hret, h.stamped, by simp⟩
    · cases hn
      refine ⟨waiting, h.fifo, h.accepted, hret, h.stamped, ?_⟩
      intro event' e' hph
      simp only [reduceCtorEq, PublishPhase.admitted.injEq, false_or] at hph
      obtain ⟨rfl, rfl⟩ := hph
      exact hpend
  · rename_i event e hpub
    rw [returning, hpub, append_nil] at hret
    obtain ⟨hstam, hlast⟩ := h.pending event e (Or.inr hpub)
    cases hn
    refine ⟨waiting ++ [e], h.fifo.enqueue hstam.plain hlast, ?_, ?_, ?_, by simp⟩
    · change s.accepted ++ [event] = s.taken ++ _
      rw [filterMap_append, ← append_assoc, ← h.accepted]
      simp [hstam.payload]
    · change s.accepted ++ [event] = s.published ++ [event]
      rw [hret]
    · intro f hf
      rcases mem_append.mp hf with hf | hf
      · exact h.stamped f hf
      · cases List.mem_singleton.mp hf
        exact ⟨event, hstam⟩
  · rename_i event hpub
    rw [returning, hpub] at hret
    cases hn
    exact ⟨waiting, h.fifo, h.accepted, by simpa [returning] using hret, h.stamped, by simp⟩

lemma Ordered.pop (h : Ordered s waiting) {now : ℕ → Int64} (hn : s.pop now = some s') :
    ∃ waiting, Ordered s' waiting := by
  unfold EventBus.pop at hn
  split at hn
  · rename_i draining hthr
    have htak : s.taken = s.dispatches.map (·.event) := by
      simp [taken, inHand, hthr]
    have hacc := h.accepted
    rw [htak] at hacc
    split at hn
    · rename_i q hpop
      obtain ⟨rfl, hq⟩ := h.fifo.pop_none (congrArg Prod.fst hpop)
      rw [hpop] at hq
      cases hq
      cases hn
      refine ⟨[], h.congr rfl rfl rfl rfl rfl rfl ?_⟩
      cases draining <;> simp [taken, inHand, hthr]
    · rename_i e q hpop
      obtain ⟨rest, rfl, hfifo⟩ := h.fifo.pop_some (congrArg Prod.fst hpop)
      obtain ⟨event, hev⟩ := h.stamped e (List.mem_cons_self ..)
      rw [hpop] at hfifo
      rw [hev.payload] at hn
      cases hn
      refine ⟨rest, hfifo, ?_, h.returned, fun f hf => h.stamped f (List.mem_cons_of_mem _ hf),
        fun event' e' hpend => ?_⟩
      · simpa [taken, inHand, hev.payload] using hacc
      · obtain ⟨hstam, hlast⟩ := h.pending event' e' hpend
        exact ⟨hstam, fun f hf => hlast f (List.mem_cons_of_mem _ hf)⟩
  · cases hn

end

inductive PhaseStep (running : Bool) (subscriptions : List SubscriptionId) :
    DispatchPhase ε → DispatchPhase ε → List (Dispatch ε) → Prop
  | loopTest : PhaseStep running subscriptions .loopTest (.popping (!running)) []
  | snapshot {draining event order} (h : order.Perm subscriptions) :
      PhaseStep running subscriptions (.dispatching draining event)
        (.visiting draining { event, snapshot := order } order) []
  | call {draining d sub rest} :
      PhaseStep running subscriptions (.visiting draining d (sub :: rest))
        (.calling draining { d with
          visited := d.visited ++ [(sub, .accepts)], calls := d.calls ++ [sub] } rest) []
  | skip {draining d sub rest} (result : FilterResult) (h : result ≠ .accepts) :
      PhaseStep running subscriptions (.visiting draining d (sub :: rest))
        (.visiting draining { d with visited := d.visited ++ [(sub, result)] } rest) []
  | callback {draining d rest} :
      PhaseStep running subscriptions (.calling draining d rest) (.visiting draining d rest) []
  | dispatched {draining d} :
      PhaseStep running subscriptions (.visiting draining d []) (nextRound draining) [d]

def current (s : EventBus ε) : Option (Dispatch ε × List SubscriptionId) :=
  match s.dispatchThread with
  | some (.visiting _ d rest) => some (d, rest)
  | some (.calling _ d rest) => some (d, rest)
  | _ => none

structure Quiet (s s' : EventBus ε) : Prop where
  dispatches : s'.dispatches = s.dispatches
  current : s'.current = s.current ∨ s'.current = none
  subscriptions : s.subscriptions.Nodup → s'.subscriptions.Nodup

structure Dispatches (s s' : EventBus ε) (phase phase' : DispatchPhase ε)
    (done : List (Dispatch ε)) : Prop where
  before : s.dispatchThread = some phase
  after : s' = { s with dispatchThread := some phase', dispatches := s.dispatches ++ done }
  step : PhaseStep s.running s.subscriptions phase phase' done

section
variable {getTypeName : ε → String} {s s' : EventBus ε} {op : Op ε} {done : List (Dispatch ε)}

lemma quiet_refl (s : EventBus ε) : Quiet s s := ⟨rfl, Or.inl rfl, id⟩

lemma quiet_publish {event : Option ε} {nowNs : Int64}
    (hn : s.publish getTypeName event nowNs = some s') : Quiet s s' := by
  unfold publish at hn
  split at hn <;> cases hn
  · exact quiet_refl s
  · exact ⟨rfl, Or.inl rfl, id⟩

lemma quiet_publishStep (hn : s.publishStep = some s') : Quiet s s' := by
  unfold publishStep at hn
  split at hn
  · cases hn
  · split_ifs at hn <;> cases hn <;> exact ⟨rfl, Or.inl rfl, id⟩
  · cases hn
    exact ⟨rfl, Or.inl rfl, id⟩
  · cases hn
    exact ⟨rfl, Or.inl rfl, id⟩

lemma quiet_subscribe (s : EventBus ε) (hasCallback : Bool) (digits : List (Fin 16)) :
    Quiet s (s.subscribe hasCallback digits) := by
  rw [subscribe]
  split_ifs
  · exact ⟨rfl, Or.inl rfl, List.Nodup.insert⟩
  · exact quiet_refl s

lemma quiet_unsubscribe (s : EventBus ε) (subscriptionId : SubscriptionId) :
    Quiet s (s.unsubscribe subscriptionId) :=
  ⟨rfl, Or.inl rfl, fun h => h.erase subscriptionId⟩

lemma quiet_start (hn : s.start = some s') : Quiet s s' := by
  unfold start at hn
  split at hn
  · cases hn
    split_ifs
    · exact quiet_refl s
    · exact ⟨rfl, Or.inl rfl, id⟩
  · cases hn

lemma quiet_stop (hn : s.stop = some s') : Quiet s s' := by
  unfold stop at hn
  split at hn
  · cases hn
    split_ifs
    · exact ⟨rfl, Or.inl rfl, id⟩
    · exact quiet_refl s
  · cases hn

lemma quiet_ownerStep (hn : s.ownerStep = some s') : Quiet s s' := by
  unfold ownerStep at hn
  split at hn
  · cases hn
    exact ⟨rfl, Or.inr rfl, id⟩
  · cases hn
    exact ⟨rfl, Or.inl rfl, id⟩
  · cases hn
    exact ⟨rfl, Or.inr rfl, id⟩
  · cases hn

lemma quiet_pop {now : ℕ → Int64} (hn : s.pop now = some s') : Quiet s s' := by
  unfold pop at hn
  split at hn
  · rename_i draining _
    split at hn
    · cases hn
      exact ⟨rfl, Or.inr (by cases draining <;> rfl), id⟩
    · split at hn
      · cases hn
        exact ⟨rfl, Or.inr rfl, id⟩
      · cases hn
        exact ⟨rfl, Or.inr (by cases draining <;> rfl), id⟩
  · cases hn

lemma dispatches_filter {result : FilterResult} (hn : s.filter result = some s') :
    ∃ phase phase' done, Dispatches s s' phase phase' done := by
  unfold filter at hn
  split at hn
  · rename_i hthr
    cases result with
    | accepts =>
      cases hn
      exact ⟨_, _, [], hthr, by simp, .call⟩
    | rejects =>
      cases hn
      refine ⟨_, _, [], hthr, ?_, .skip .rejects (by decide)⟩
      simp
    | throws =>
      cases hn
      refine ⟨_, _, [], hthr, ?_, .skip .throws (by decide)⟩
      simp
  · cases hn

lemma dispatches_callback {result : CallbackResult} (hn : s.callback result = some s') :
    ∃ phase phase' done, Dispatches s s' phase phase' done := by
  unfold callback at hn
  split at hn
  · rename_i hthr
    cases result with
    | returns
    | throws =>
      cases hn
      exact ⟨_, _, [], hthr, by simp, .callback⟩
  · cases hn

lemma dispatches_loopTest (hn : s.loopTest = some s') :
    ∃ phase phase' done, Dispatches s s' phase phase' done := by
  unfold loopTest at hn
  split at hn
  · rename_i hthr
    cases hn
    exact ⟨_, _, [], hthr, by simp, .loopTest⟩
  · cases hn

lemma dispatches_snapshot {order : List SubscriptionId} (hn : s.snapshot order = some s') :
    ∃ phase phase' done, Dispatches s s' phase phase' done := by
  unfold snapshot at hn
  split at hn
  · rename_i hthr
    split_ifs at hn with hrdr
    cases hn
    exact ⟨_, _, [], hthr, by simp, .snapshot hrdr⟩
  · cases hn

lemma dispatches_dispatched (hn : s.dispatched = some s') :
    ∃ phase phase' done, Dispatches s s' phase phase' done := by
  unfold dispatched at hn
  split at hn
  · rename_i d hthr
    cases hn
    exact ⟨_, _, [d], hthr, rfl, .dispatched⟩
  · cases hn

lemma next_cases (hn : next getTypeName s op = some s') :
    Quiet s s' ∨ ∃ phase phase' done, Dispatches s s' phase phase' done := by
  cases op with
  | publish event nowNs => exact Or.inl (quiet_publish hn)
  | publishStep => exact Or.inl (quiet_publishStep hn)
  | subscribe hasCallback digits =>
    cases hn
    exact Or.inl (quiet_subscribe s hasCallback digits)
  | unsubscribe subscriptionId =>
    cases hn
    exact Or.inl (quiet_unsubscribe s subscriptionId)
  | start => exact Or.inl (quiet_start hn)
  | stop => exact Or.inl (quiet_stop hn)
  | ownerStep => exact Or.inl (quiet_ownerStep hn)
  | pop now => exact Or.inl (quiet_pop hn)
  | loopTest => exact Or.inr (dispatches_loopTest hn)
  | snapshot order => exact Or.inr (dispatches_snapshot hn)
  | filter result => exact Or.inr (dispatches_filter hn)
  | callback result => exact Or.inr (dispatches_callback hn)
  | dispatched => exact Or.inr (dispatches_dispatched hn)

lemma Dispatches.taken {phase phase' : DispatchPhase ε} (h : Dispatches s s' phase phase' done) :
    s'.taken = s.taken := by
  obtain ⟨hthr, rfl, hstep⟩ := h
  cases hstep with
  | dispatched =>
    rename_i draining d
    cases draining <;> simp [EventBus.taken, inHand, nextRound, hthr]
  | _ => simp [EventBus.taken, inHand, hthr]

lemma Ordered.dispatches {waiting : List (PrioritizedEvent (Payload ε))}
    {phase phase' : DispatchPhase ε} (h : Ordered s waiting)
    (hstep : Dispatches s s' phase phase' done) : Ordered s' waiting := by
  have htak := hstep.taken
  obtain ⟨-, rfl, -⟩ := hstep
  exact h.congr rfl rfl rfl rfl rfl rfl htak

end

structure Attentive (s : EventBus ε) : Prop where
  subscriptions : s.subscriptions.Nodup
  finished : ∀ d ∈ s.dispatches, d.Faithful []
  inProgress : ∀ d rest, s.current = some (d, rest) → d.Faithful rest

lemma Attentive.quiet {s s' : EventBus ε} (h : Attentive s) (hstep : Quiet s s') :
    Attentive s' := by
  refine ⟨hstep.subscriptions h.subscriptions, hstep.dispatches ▸ h.finished, ?_⟩
  intro d rest hcur
  rcases hstep.current with hsame | hnone
  · exact h.inProgress d rest (hsame ▸ hcur)
  · simp [hnone] at hcur

lemma Attentive.dispatches {s s' : EventBus ε} {phase phase' : DispatchPhase ε}
    {done : List (Dispatch ε)} (h : Attentive s) (hstep : Dispatches s s' phase phase' done) :
    Attentive s' := by
  obtain ⟨hthr, rfl, hstep⟩ := hstep
  have hcur := h.inProgress
  rw [current, hthr] at hcur
  cases hstep with
  | loopTest => exact ⟨h.subscriptions, by simpa using h.finished, by simp [current]⟩
  | snapshot hrdr =>
    refine ⟨h.subscriptions, by simpa using h.finished, ?_⟩
    intro d rest heq
    cases heq
    exact ⟨hrdr.nodup_iff.mpr h.subscriptions, rfl, rfl⟩
  | call =>
    obtain ⟨hnd, hvis, hcal⟩ := hcur _ _ rfl
    refine ⟨h.subscriptions, by simpa using h.finished, ?_⟩
    intro d rest heq
    cases heq
    exact ⟨hnd, by simpa using hvis, by simp [hcal]⟩
  | skip result hres =>
    obtain ⟨hnd, hvis, hcal⟩ := hcur _ _ rfl
    refine ⟨h.subscriptions, by simpa using h.finished, ?_⟩
    intro d rest heq
    cases heq
    exact ⟨hnd, by simpa using hvis, by simp [hcal, hres]⟩
  | callback =>
    refine ⟨h.subscriptions, by simpa using h.finished, ?_⟩
    intro d rest heq
    cases heq
    exact hcur _ _ rfl
  | dispatched =>
    rename_i draining d
    refine ⟨h.subscriptions, ?_, by cases draining <;> simp [current, nextRound]⟩
    intro d' hd'
    rcases mem_append.mp hd' with hd' | hd'
    · exact h.finished d' hd'
    · cases List.mem_singleton.mp hd'
      exact hcur _ _ rfl

def SnapshotTaken (getTypeName : ε → String) (s₀ : EventBus ε) (ops : List (Op ε)) (event : ε)
    (snapshot : List SubscriptionId) : Prop :=
  ∃ ops₁ s₁, ops₁ <+: ops ∧ Run (next getTypeName) (fun _ _ => True) s₀ ops₁ s₁ ∧
    (∃ draining, s₁.dispatchThread = some (.dispatching draining event)) ∧
    snapshot.Perm s₁.subscriptions

structure Recorded (getTypeName : ε → String) (s₀ : EventBus ε) (ops : List (Op ε))
    (s : EventBus ε) : Prop where
  run : Run (next getTypeName) (fun _ _ => True) s₀ ops s
  finished : ∀ d ∈ s.dispatches, SnapshotTaken getTypeName s₀ ops d.event d.snapshot
  inProgress : ∀ d rest, s.current = some (d, rest) →
    SnapshotTaken getTypeName s₀ ops d.event d.snapshot

section
variable {getTypeName : ε → String} {s₀ s s' : EventBus ε} {ops : List (Op ε)} {op : Op ε}

lemma SnapshotTaken.append {event : ε} {snapshot : List SubscriptionId}
    (h : SnapshotTaken getTypeName s₀ ops event snapshot) (op : Op ε) :
    SnapshotTaken getTypeName s₀ (ops ++ [op]) event snapshot := by
  obtain ⟨ops₁, s₁, hpref, hrest⟩ := h
  exact ⟨ops₁, s₁, hpref.trans (prefix_append _ _), hrest⟩

lemma recorded_next (h : Recorded getTypeName s₀ ops s) (hn : next getTypeName s op = some s') :
    Recorded getTypeName s₀ (ops ++ [op]) s' := by
  have hfin : ∀ d ∈ s.dispatches,
      SnapshotTaken getTypeName s₀ (ops ++ [op]) d.event d.snapshot :=
    fun d hd => (h.finished d hd).append op
  have hinProgress : ∀ d rest, s.current = some (d, rest) →
      SnapshotTaken getTypeName s₀ (ops ++ [op]) d.event d.snapshot :=
    fun d rest hd => (h.inProgress d rest hd).append op
  have hrun := h.run.snoc trivial hn
  rcases next_cases hn with hquiet | ⟨phase, phase', done, hthr, rfl, hstep⟩
  · refine ⟨hrun, hquiet.dispatches ▸ hfin, fun d rest hcur => ?_⟩
    rcases hquiet.current with hsame | hnone
    · exact hinProgress d rest (hsame ▸ hcur)
    · simp [hnone] at hcur
  · rw [current, hthr] at hinProgress
    cases hstep with
    | loopTest => exact ⟨hrun, by simpa using hfin, by simp [current]⟩
    | snapshot hrdr =>
      refine ⟨hrun, by simpa using hfin, fun d rest heq => ?_⟩
      cases heq
      exact ⟨ops, s, prefix_append _ _, h.run, ⟨_, hthr⟩, hrdr⟩
    | dispatched =>
      rename_i draining d
      refine ⟨hrun, fun d' hd' => ?_, by cases draining <;> simp [current, nextRound]⟩
      rcases mem_append.mp hd' with hd' | hd'
      · exact hfin d' hd'
      · cases List.mem_singleton.mp hd'
        exact hinProgress _ _ rfl
    | _ =>
      have hbef := hinProgress _ _ rfl
      refine ⟨hrun, by simpa using hfin, fun d rest heq => ?_⟩
      cases heq
      exact hbef

end

def NonDecreasing (s : EventBus ε) : Op ε → Prop
  | .publish (some _) nowNs => ∀ t ∈ s.lastReading, t ≤ nowNs
  | _ => True

def Roomy (s : EventBus ε) : Op ε → Prop
  | .publish (some _) _ => 10 * s.eventQueue.queue.elems.card < 9 * s.eventQueue.capacity
  | _ => True

/-- The clock is not before the epoch, and the sequence numbers have not wrapped around. -/
def InRange (s : EventBus ε) : Op ε → Prop
  | .publish (some _) nowNs => 0 ≤ nowNs ∧ s.sequenceCounter < 2 ^ 64
  | _ => True

instance (s : EventBus ε) (op : Op ε) : Decidable (NonDecreasing s op) :=
  match op with
  | .publish (some _) _ => Option.decidableForallMem s.lastReading
  | .publish none _ | .publishStep | .subscribe _ _ | .unsubscribe _ | .start | .stop
  | .ownerStep | .loopTest | .pop _ | .snapshot _ | .filter _ | .callback _ | .dispatched =>
    .isTrue trivial

instance (s : EventBus ε) (op : Op ε) : Decidable (Roomy s op) :=
  match op with
  | .publish (some _) _ => inferInstanceAs (Decidable (_ < _))
  | .publish none _ | .publishStep | .subscribe _ _ | .unsubscribe _ | .start | .stop
  | .ownerStep | .loopTest | .pop _ | .snapshot _ | .filter _ | .callback _ | .dispatched =>
    .isTrue trivial

instance (s : EventBus ε) (op : Op ε) : Decidable (InRange s op) :=
  match op with
  | .publish (some _) nowNs => inferInstanceAs (Decidable (0 ≤ nowNs ∧ _ < _))
  | .publish none _ | .publishStep | .subscribe _ _ | .unsubscribe _ | .start | .stop
  | .ownerStep | .loopTest | .pop _ | .snapshot _ | .filter _ | .callback _ | .dispatched =>
    .isTrue trivial

/-- What `publish` accepted is what was dispatched, the event in hand and the queue; every dispatch
called the subscriptions whose filter accepted, once each. -/
structure Delivered (getTypeName : ε → String) (s₀ : EventBus ε) (ops : List (Op ε))
    (s : EventBus ε) : Prop where
  returned : s.accepted = s.published ++ s.returning
  inOrder : ∃ waiting : List ε,
    s.accepted = s.dispatches.map (·.event) ++ s.inHand ++ waiting ∧
    ((waiting.map some : List (Option ε)) : Multiset (Option ε)) =
      s.eventQueue.queue.elems.map (·.payload.event?)
  calls : ∀ d ∈ s.dispatches, d.Faithful []
  snapshots : ∀ d ∈ s.dispatches, SnapshotTaken getTypeName s₀ ops d.event d.snapshot

def Delivers (ε : Type) (G : EventBus ε → Op ε → Prop) : Prop :=
  ∀ (getTypeName : ε → String) capacity dropThreshold80 dropThreshold90 ops s,
    Run (next getTypeName) G (make capacity dropThreshold80 dropThreshold90) ops s →
    Delivered getTypeName (make capacity dropThreshold80 dropThreshold90) ops s

section
variable {getTypeName : ε → String} {s s' : EventBus ε} {op : Op ε}
  {waiting : List (PrioritizedEvent (Payload ε))}

lemma Ordered.ownerStep (h : Ordered s waiting) (hn : s.ownerStep = some s') :
    Ordered s' waiting := by
  unfold EventBus.ownerStep at hn
  split at hn
  all_goals cases hn
  all_goals
    refine h.congr rfl rfl rfl rfl rfl rfl ?_
    simp_all [taken, inHand]

lemma ordered_next (h : Ordered s waiting) (hop : NonDecreasing s op ∧ InRange s op)
    (hn : next getTypeName s op = some s') : ∃ waiting, Ordered s' waiting := by
  have hthr : (∃ phase phase' done, Dispatches s s' phase phase' done) →
      ∃ waiting, Ordered s' waiting := by
    intro hstep
    obtain ⟨phase, phase', done, hstep⟩ := hstep
    exact ⟨waiting, h.dispatches hstep⟩
  cases op with
  | publish event nowNs =>
    cases event with
    | none => exact ⟨waiting, publish_none hn ▸ h⟩
    | some event => exact ⟨waiting, h.publish hop.1 hop.2.1 hop.2.2 hn⟩
  | publishStep => exact h.publishStep hn
  | subscribe hasCallback digits =>
    cases hn
    rw [subscribe]
    split_ifs
    · exact ⟨waiting, h.congr rfl rfl rfl rfl rfl rfl rfl⟩
    · exact ⟨waiting, h⟩
  | unsubscribe subscriptionId =>
    cases hn
    exact ⟨waiting, h.congr rfl rfl rfl rfl rfl rfl rfl⟩
  | start =>
    change s.start = some s' at hn
    unfold start at hn
    split at hn <;> cases hn
    split_ifs
    · exact ⟨waiting, h⟩
    · exact ⟨waiting, h.congr rfl rfl rfl rfl rfl rfl rfl⟩
  | stop =>
    change s.stop = some s' at hn
    unfold stop at hn
    split at hn <;> cases hn
    split_ifs
    · exact ⟨waiting, h.congr rfl rfl rfl rfl rfl rfl rfl⟩
    · exact ⟨waiting, h⟩
  | ownerStep => exact ⟨waiting, h.ownerStep hn⟩
  | pop now => exact h.pop hn
  | loopTest => exact hthr (dispatches_loopTest hn)
  | snapshot order => exact hthr (dispatches_snapshot hn)
  | filter result => exact hthr (dispatches_filter hn)
  | callback result => exact hthr (dispatches_callback hn)
  | dispatched => exact hthr (dispatches_dispatched hn)

lemma attentive_next (h : Attentive s) (hn : next getTypeName s op = some s') :
    Attentive s' := by
  rcases next_cases hn with hquiet | ⟨phase, phase', done, hstep⟩
  · exact h.quiet hquiet
  · exact h.dispatches hstep

lemma Ordered.inOrder (h : Ordered s waiting) : ∃ waiting : List ε,
    s.accepted = s.dispatches.map (·.event) ++ s.inHand ++ waiting ∧
    ((waiting.map some : List (Option ε)) : Multiset (Option ε)) =
      s.eventQueue.queue.elems.map (·.payload.event?) := by
  refine ⟨waiting.filterMap fun e : PrioritizedEvent (Payload ε) => e.payload.event?,
    h.accepted, ?_⟩
  have hmap : (waiting.filterMap (·.payload.event?)).map some = waiting.map (·.payload.event?) := by
    have hstam := h.stamped
    clear h
    induction waiting with
    | nil => rfl
    | cons e rest ih =>
      obtain ⟨event, hev⟩ := hstam e (List.mem_cons_self ..)
      have hrest := ih fun f hf => hstam f (List.mem_cons_of_mem _ hf)
      simp only [List.filterMap_cons, hev.payload, List.map_cons, hrest]
  rw [hmap, h.fifo.elems, map_coe]

end

theorem delivers_of_inRange (ε : Type) :
    Delivers ε fun s op => NonDecreasing s op ∧ InRange s op := by
  intro getTypeName capacity dropThreshold80 dropThreshold90 ops s hrun
  have hord : ∃ waiting, Ordered s waiting := by
    refine hrun.invariant (fun s => ∃ waiting, Ordered s waiting)
      ⟨[], PriorityQueue.fifo_make _ _ _, rfl, rfl, by simp, by simp [make]⟩ ?_
    intro s op s' hs hop hn
    obtain ⟨waiting, hs⟩ := hs
    exact ordered_next hs hop hn
  have hatt : Attentive s :=
    hrun.invariant Attentive ⟨nodup_nil, by simp [make], by simp [make, current]⟩
      fun s op s' hs _ hn => attentive_next hs hn
  have hrec := hrun.invariant_history
    (Recorded getTypeName (make capacity dropThreshold80 dropThreshold90))
    ⟨.nil, by simp [make], by simp [make, current]⟩ fun ls s op s' hs _ hn => recorded_next hs hn
  obtain ⟨waiting, hord⟩ := hord
  exact ⟨hord.returned, hord.inOrder, hatt.finished, hrec.finished⟩

/-- A filter throws, a callback throws, and an event published after `stop` stays in the queue. -/
theorem delivered_despite_exceptions :
    let ops : List (Op ℕ) :=
      [.subscribe true [1], .subscribe true [2], .subscribe true [3], .start, .ownerStep,
        .publish (some 7) 5, .publishStep, .publishStep, .publishStep, .loopTest, .pop fun _ => 6,
        .snapshot ["sub_1_2", "sub_0_1", "sub_2_3"], .filter .throws, .filter .accepts,
        .callback .throws, .filter .accepts, .callback .returns, .dispatched, .stop, .loopTest,
        .pop fun _ => 6, .ownerStep, .publish (some 8) 9, .publishStep, .publishStep, .publishStep]
    ∃ s, Delivered (fun _ => "robot.pose") (make 10 8 9) ops s ∧ s.published = [7, 8] ∧
      s.dispatches.map (fun d => (d.event, d.calls)) = [(7, ["sub_0_1", "sub_2_3"])] := by
  intro ops
  have hexec : (exec (next fun _ => "robot.pose") (fun s op => NonDecreasing s op ∧ InRange s op)
      (make 10 8 9) ops).map
        (fun s => (s.published, s.dispatches.map fun d => (d.event, d.calls))) =
      some ([7, 8], [(7, ["sub_0_1", "sub_2_3"])]) := by decide +kernel
  obtain ⟨s, hrun, hlog⟩ := exists_run_of_exec (fun _ _ => of_decide_eq_true) hexec
  exact ⟨s, delivers_of_inRange ℕ _ 10 8 9 _ s hrun, congrArg Prod.fst hlog, congrArg Prod.snd hlog⟩

/-- A clock one nanosecond before the epoch gives the largest timestamp, and the second event
overtakes the first. -/
theorem not_delivers : ¬ ∀ ε : Type, Delivers ε fun s op => NonDecreasing s op ∧ Roomy s op := by
  intro h
  have hexec : (exec (next fun _ : ℕ => "robot.pose") (fun s op => NonDecreasing s op ∧ Roomy s op)
      (make 10 8 9)
      [.publish (some 1) (-1), .publishStep, .publishStep, .publishStep, .publish (some 2) 0,
        .publishStep, .publishStep, .publishStep, .start, .ownerStep, .loopTest,
        .pop fun _ => 1]).map (fun s => (s.accepted, s.taken)) = some ([1, 2], [2]) := by
    decide +kernel
  obtain ⟨s, hrun, hlog⟩ := exists_run_of_exec (fun _ _ => of_decide_eq_true) hexec
  obtain ⟨waiting, hwait, -⟩ := (h ℕ _ 10 8 9 _ s hrun).inOrder
  have hacc : s.accepted = [1, 2] := congrArg Prod.fst hlog
  have htak : s.taken = [2] := congrArg Prod.snd hlog
  rw [taken] at htak
  simp [hacc, htak] at hwait

end EventBus
end Mxrc.Event
