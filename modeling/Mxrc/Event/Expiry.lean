import Mxrc.Event.Coalescing

/-!
# Coalescing and expiry

An expired event is thrown away before its coalescing key is looked at, and the
record of the key stays: older events are then skipped in favour of an event
that nobody receives. An event counts as unexpired if it has not expired in its
round of a full drain.
-/

namespace Mxrc.Event
open Mxrc.Lib List Multiset

namespace PriorityQueue
variable {π : Type}

def drainFrom : ℕ → (ℕ → Int64) → PriorityQueue π → List (PrioritizedEvent π)
  | 0, _, _ => []
  | n + 1, clock, q =>
    match q.pop clock with
    | (none, _) => []
    | (some event, q') =>
      let rounds := q.queue.elems.card - q'.queue.elems.card
      event :: drainFrom n (fun i => clock (i + rounds)) q'

def fullDrain (q : PriorityQueue π) (clock : ℕ → Int64) : List (PrioritizedEvent π) :=
  drainFrom (q.queue.elems.card + 1) clock q

variable {q : PriorityQueue π}

lemma card_takeTop {event : PrioritizedEvent π} (htop : q.queue.top? = some event) :
    q.takeTop.queue.elems.card + 1 = q.queue.elems.card := by
  rw [BinaryHeap.elems_of_top? htop, card_cons]
  rfl

lemma fullDrain_rule (clock : ℕ → Int64)
    {I : ℕ → List (PrioritizedEvent π) → PriorityQueue π → Prop}
    (hexpd : ∀ i out q event, I i out q → q.queue.top? = some event →
      event.isExpired (clock i) = true → I (i + 1) out q.takeTop.expire)
    (hsuper : ∀ i out q event, I i out q → q.queue.top? = some event →
      event.isExpired (clock i) = false → q.superseded event = true → I (i + 1) out q.takeTop)
    (hdel : ∀ i out q event, I i out q → q.queue.top? = some event →
      event.isExpired (clock i) = false → q.superseded event = false →
      I (i + 1) (out ++ [event]) (q.takeTop.deliver event)) (hq : I 0 [] q) :
    ∃ i q', q'.queue.elems = 0 ∧ I i (q.fullDrain clock) q' := by
  have hloop : ∀ n i out q, I i out q → q.queue.elems.card < n →
      ∃ j q', q'.queue.elems = 0 ∧ I j (out ++ drainFrom n (fun k => clock (k + i)) q) q' := by
    intro n
    induction n with
    | zero => exact fun i out q _ hcard => absurd hcard (Nat.not_lt_zero _)
    | succ n ih =>
      intro i out q hq hcard
      have hpop := pop_rule_at (fun k => clock (k + i))
        (I := fun j q' => j + q'.queue.elems.card = q.queue.elems.card ∧ I (j + i) out q')
        (Q := fun r j q' => j + q'.queue.elems.card = q.queue.elems.card ∧
          (r = none → q'.queue.elems = 0 ∧ I (j + i) out q') ∧
          ∀ event, r = some event → 0 < j ∧ I (j + i) (out ++ [event]) q')
        ?_ ?_ ?_ ?_ (q := q) ⟨Nat.zero_add _, (Nat.zero_add i).symm ▸ hq⟩
      · obtain ⟨j, hj, hnone, hsome⟩ := hpop
        rw [drainFrom]
        cases hr : q.pop (fun k => clock (k + i)) with
        | mk r q' =>
          rw [hr] at hj hnone hsome
          cases r with
          | none =>
            obtain ⟨hemp, hI⟩ := hnone rfl
            exact ⟨j + i, q', hemp, by simpa using hI⟩
          | some event =>
            obtain ⟨hpos, hI⟩ := hsome event rfl
            dsimp only at hj ⊢
            have hroun : q.queue.elems.card - q'.queue.elems.card = j := by omega
            obtain ⟨k, q'', hemp, hI'⟩ := ih (j + i) (out ++ [event]) q' hI (by omega)
            refine ⟨k, q'', hemp, ?_⟩
            simp only [hroun, add_assoc, append_assoc, singleton_append] at hI' ⊢
            exact hI'
      · intro j q' hI hemp
        exact ⟨hI.1, fun _ => ⟨hemp, hI.2⟩, fun _ h => by cases h⟩
      · intro j q' event hI htop hexp
        have hcard' := card_takeTop htop
        refine ⟨?_, Nat.add_right_comm j 1 i ▸ hexpd _ _ _ event hI.2 htop hexp⟩
        change j + 1 + q'.takeTop.queue.elems.card = _
        omega
      · intro j q' event hI htop hexp hsup
        have hcard' := card_takeTop htop
        exact ⟨by omega, Nat.add_right_comm j 1 i ▸ hsuper _ _ _ event hI.2 htop hexp hsup⟩
      · intro j q' event hI htop hexp hsup
        have hcard' := card_takeTop htop
        refine ⟨?_, (fun h => by cases h), fun event' h => ⟨Nat.succ_pos j, ?_⟩⟩
        · change j + 1 + q'.takeTop.queue.elems.card = _
          omega
        · cases h
          exact Nat.add_right_comm j 1 i ▸ hdel _ _ _ event hI.2 htop hexp hsup
  exact hloop _ 0 [] q hq (Nat.lt_succ_self _)

def turn (q : PriorityQueue π) (e : PrioritizedEvent π) : ℕ :=
  q.queue.elems.countP fun f => e.lt f = true

def Unexpired (q : PriorityQueue π) (clock : ℕ → Int64) (e : PrioritizedEvent π) : Prop :=
  e ∈ q.queue.elems ∧ e.isExpired (clock (q.turn e)) = false

section
variable {q : PriorityQueue π} {e event : PrioritizedEvent π}

lemma turn_top (htop : q.queue.top? = some event) : q.turn event = 0 := by
  refine Multiset.countP_eq_zero.mpr fun f hf hlt => ?_
  rw [PrioritizedEvent.lt_iff] at hlt
  exact absurd (rank_top_le htop hf) (not_le_of_gt hlt)

section
variable (hdis : (q.queue.elems.map (·.sequenceNum)).Nodup) (htop : q.queue.top? = some event)
include hdis htop

lemma turn_takeTop (he : e ∈ q.takeTop.queue.elems) : q.turn e = q.takeTop.turn e + 1 := by
  have hlms : q.queue.elems = event ::ₘ q.takeTop.queue.elems := BinaryHeap.elems_of_top? htop
  have hne : event.rank ≠ e.rank := by
    intro hrank
    rw [hlms, Multiset.map_cons, Multiset.nodup_cons] at hdis
    rw [PrioritizedEvent.sequenceNum_eq_of_rank_eq hrank] at hdis
    exact hdis.1 (Multiset.mem_map_of_mem _ he)
  have hle : event.rank ≤ e.rank := rank_top_le htop (BinaryHeap.pop_subset htop he)
  have hlt : e.lt event = true := (PrioritizedEvent.lt_iff e event).mpr (lt_of_le_of_ne hle hne)
  rw [turn, turn, hlms]
  exact Multiset.countP_cons_of_pos (p := fun f => e.lt f = true) _ hlt

lemma distinct_takeTop : (q.takeTop.queue.elems.map (·.sequenceNum)).Nodup := by
  have hlms : q.queue.elems = event ::ₘ q.takeTop.queue.elems := BinaryHeap.elems_of_top? htop
  rw [hlms, Multiset.map_cons, Multiset.nodup_cons] at hdis
  exact hdis.2

end

variable {clock : ℕ → Int64} {i : ℕ}

lemma unexpired_takeTop_iff (hdis : (q.queue.elems.map (·.sequenceNum)).Nodup)
    (htop : q.queue.top? = some event) (he : e ∈ q.takeTop.queue.elems) :
    Unexpired q.takeTop (fun k => clock (k + (i + 1))) e ↔
      Unexpired q (fun k => clock (k + i)) e := by
  have hmem : e ∈ q.queue.elems := BinaryHeap.pop_subset htop he
  simp only [Unexpired, he, hmem, turn_takeTop hdis htop he, true_and, add_assoc, add_comm 1 i]

lemma Unexpired.takeTop (he : Unexpired q (fun k => clock (k + i)) e)
    (hdis : (q.queue.elems.map (·.sequenceNum)).Nodup)
    (htop : q.queue.top? = some event) (hne : e ≠ event) :
    Unexpired q.takeTop (fun k => clock (k + (i + 1))) e :=
  (unexpired_takeTop_iff hdis htop (BinaryHeap.mem_pop_of_ne htop he.1 hne)).mpr he

lemma unexpired_top_iff (htop : q.queue.top? = some event) :
    Unexpired q (fun k => clock (k + i)) event ↔ event.isExpired (clock i) = false := by
  simp [Unexpired, turn_top htop, BinaryHeap.mem_of_top? htop]

lemma superseded_eq_false_iff {key : String} (hkey : e.coalescingKey = some key) :
    q.superseded e = false ↔ q.coalescingLatestSeq.lookup key = none ∨
      q.coalescingLatestSeq.lookup key = some e.sequenceNum := by
  simp only [superseded, hkey]
  cases q.coalescingLatestSeq.lookup key <;> simp

lemma superseded_deliver (hsup : q.superseded e = false) :
    (q.takeTop.deliver event).superseded e = false := by
  cases hkey : e.coalescingKey with
  | none => simp [superseded, hkey]
  | some key =>
    rw [superseded_eq_false_iff hkey] at hsup ⊢
    by_cases hev : event.coalescingKey = some key
    · simp [deliver, hev]
    · rwa [lookup_deliver hev]

end

section
variable {q : PriorityQueue π} {e : PrioritizedEvent π} {clock : ℕ → Int64} {key : String}

lemma mem_fullDrain (hdis : (q.queue.elems.map (·.sequenceNum)).Nodup)
    (he : Unexpired q clock e) (hsup : q.superseded e = false) : e ∈ q.fullDrain clock := by
  have hrule := fullDrain_rule clock
    (I := fun i out q => (q.queue.elems.map (·.sequenceNum)).Nodup ∧
      (e ∈ out ∨ Unexpired q (fun k => clock (k + i)) e ∧ q.superseded e = false))
    (q := q) ?_ ?_ ?_ ⟨hdis, Or.inr ⟨he, hsup⟩⟩
  · obtain ⟨i, q', hemp, -, hout | hwait⟩ := hrule
    · exact hout
    · simp [Unexpired, hemp] at hwait
  · intro i out q event hI htop hexp
    refine ⟨distinct_takeTop hI.1 htop, hI.2.imp_right fun hwait => ?_⟩
    have hne : e ≠ event := by
      intro heq
      subst heq
      simp [(unexpired_top_iff htop).mp hwait.1] at hexp
    exact ⟨hwait.1.takeTop hI.1 htop hne, hwait.2⟩
  · intro i out q event hI htop _ hsup
    refine ⟨distinct_takeTop hI.1 htop, hI.2.imp_right fun hwait => ?_⟩
    have hne : e ≠ event := by
      intro heq
      subst heq
      simp [hwait.2] at hsup
    exact ⟨hwait.1.takeTop hI.1 htop hne, hwait.2⟩
  · intro i out q event hI htop _ _
    refine ⟨distinct_takeTop hI.1 htop, ?_⟩
    rcases hI.2 with hout | hwait
    · exact Or.inl (mem_append_left _ hout)
    · by_cases heq : e = event
      · exact Or.inl (by simp [heq])
      · exact Or.inr ⟨hwait.1.takeTop hI.1 htop heq, superseded_deliver hwait.2⟩

lemma not_mem_fullDrain {n : UInt64} (hdis : (q.queue.elems.map (·.sequenceNum)).Nodup)
    (hrcd : q.coalescingLatestSeq.lookup key = some n)
    (hgone : ∀ e, Unexpired q clock e → e.coalescingKey = some key → e.sequenceNum ≠ n) :
    ∀ e ∈ q.fullDrain clock, e.coalescingKey ≠ some key := by
  have hrule := fullDrain_rule clock
    (I := fun i out q => (q.queue.elems.map (·.sequenceNum)).Nodup ∧
      q.coalescingLatestSeq.lookup key = some n ∧
      (∀ e, Unexpired q (fun k => clock (k + i)) e → e.coalescingKey = some key →
        e.sequenceNum ≠ n) ∧ ∀ e ∈ out, e.coalescingKey ≠ some key)
    (q := q) ?_ ?_ ?_ ⟨hdis, hrcd, hgone, by simp⟩
  · obtain ⟨i, q', -, -, -, -, hout⟩ := hrule
    exact hout
  · intro i out q event hI htop _
    exact ⟨distinct_takeTop hI.1 htop, hI.2.1, fun e he =>
      hI.2.2.1 e ((unexpired_takeTop_iff hI.1 htop he.1).mp he), hI.2.2.2⟩
  · intro i out q event hI htop _ _
    exact ⟨distinct_takeTop hI.1 htop, hI.2.1, fun e he =>
      hI.2.2.1 e ((unexpired_takeTop_iff hI.1 htop he.1).mp he), hI.2.2.2⟩
  · intro i out q event ⟨hdis, hrcd, hgone, hout⟩ htop hexp hsup
    have hkey : event.coalescingKey ≠ some key := by
      intro hkey
      rw [superseded_eq_false_iff hkey, hrcd] at hsup
      have hseq : n = event.sequenceNum := by simpa using hsup
      exact hgone event ((unexpired_top_iff htop).mpr hexp) hkey hseq.symm
    refine ⟨distinct_takeTop hdis htop, (lookup_deliver hkey).trans hrcd, fun e he =>
      hgone e ((unexpired_takeTop_iff hdis htop he.1).mp he), fun e he => ?_⟩
    rcases mem_append.mp he with he | he
    · exact hout e he
    · cases List.mem_singleton.mp he
      exact hkey

end

def lastAccepted (accepted : List (PrioritizedEvent π)) (key : String) :
    Option (PrioritizedEvent π) :=
  (accepted.filter fun e => e.coalescingKey = some key).getLast?

variable {accepted : List (PrioritizedEvent π)} {m : PrioritizedEvent π}

lemma eq_or_pushedBefore_getLast {p : PrioritizedEvent π → Bool} {e : PrioritizedEvent π}
    (hm : (accepted.filter p).getLast? = some m) (he : e ∈ accepted) (hp : p e = true) :
    e = m ∨ PushedBefore accepted e m := by
  obtain ⟨l, hl⟩ := getLast?_eq_some_iff.mp hm
  have hmem : e ∈ accepted.filter p := List.mem_filter.mpr ⟨he, hp⟩
  rw [hl, mem_append, List.mem_singleton] at hmem
  rcases hmem with hmem | hmem
  · have hsub : [e, m].Sublist (accepted.filter p) :=
      hl ▸ (singleton_sublist.mpr hmem).append (List.Sublist.refl [m])
    exact Or.inr (hsub.trans filter_sublist)
  · exact Or.inl hmem

lemma lastAccepted_append (accepted : List (PrioritizedEvent π)) (event : PrioritizedEvent π)
    (key : String) : lastAccepted (accepted ++ [event]) key =
      if event.coalescingKey = some key then some event else lastAccepted accepted key := by
  by_cases hkey : event.coalescingKey = some key <;> simp [lastAccepted, hkey]

lemma lastAccepted_spec {key : String} (h : lastAccepted accepted key = some m) :
    m ∈ accepted ∧ m.coalescingKey = some key := by
  simpa using List.mem_filter.mp (mem_of_getLast? h)

structure Tracked (accepted popped : List (PrioritizedEvent π)) (q : PriorityQueue π) : Prop
    extends Conserves accepted popped q where
  onRecord : ∀ key m, lastAccepted accepted key = some m → m ∉ popped →
    q.coalescingLatestSeq.lookup key = some m.sequenceNum
  offRecord : ∀ key m, lastAccepted accepted key = some m → m ∈ popped →
    q.coalescingLatestSeq.lookup key = none

section
variable {accepted popped : List (PrioritizedEvent π)} {q : PriorityQueue π}
  {e event : PrioritizedEvent π}

section
variable (h : Tracked accepted popped q)
include h

lemma Tracked.skip (htop : q.queue.top? = some event) :
    Tracked accepted popped q.takeTop where
  toConserves := h.toConserves.skip htop
  onRecord := h.onRecord
  offRecord := h.offRecord

lemma Tracked.congr {q' : PriorityQueue π} (hqu : q'.queue = q.queue)
    (hmap : q'.coalescingLatestSeq = q.coalescingLatestSeq) :
    Tracked accepted popped q' where
  toConserves := ⟨h.distinct, hqu ▸ h.kept⟩
  onRecord := hmap ▸ h.onRecord
  offRecord := hmap ▸ h.offRecord

lemma Tracked.deliver (htop : q.queue.top? = some event) (hsup : q.superseded event = false) :
    Tracked accepted (popped ++ [event]) (q.takeTop.deliver event) where
  toConserves := h.toConserves.deliver htop
  onRecord key m hm hnot := by
    rw [mem_append, List.mem_singleton, not_or] at hnot
    have hrcd := h.onRecord key m hm hnot.1
    have hkey : event.coalescingKey ≠ some key := by
      intro hkey
      rw [superseded_eq_false_iff hkey, hrcd] at hsup
      have hseq : m.sequenceNum = event.sequenceNum := by simpa using hsup
      exact hnot.2 (h.eq_of_sequenceNum (lastAccepted_spec hm).1
        (h.mem_accepted (BinaryHeap.mem_of_top? htop)) hseq)
    exact (lookup_deliver hkey).trans hrcd
  offRecord key m hm hmem := by
    by_cases hkey : event.coalescingKey = some key
    · simp [PriorityQueue.deliver, hkey]
    · have hne : m ≠ event := fun heq => hkey (heq ▸ (lastAccepted_spec hm).2)
      rw [lookup_deliver hkey]
      exact h.offRecord key m hm ((mem_append.mp hmem).resolve_right (by simpa using hne))

lemma Tracked.pop (now : ℕ → Int64) :
    Tracked accepted (popped ++ (q.pop now).1.toList) (q.pop now).2 := by
  refine pop_rule (I := fun q => Tracked accepted popped q)
    (Q := fun r q => Tracked accepted (popped ++ r.toList) q) ?_ ?_ ?_ ?_ h now
  · intro q hq _
    simpa using hq
  · intro q event _ hq htop _
    exact (hq.skip htop).congr rfl rfl
  · intro q event hq htop _
    exact hq.skip htop
  · intro q event hq htop hsup
    exact hq.deliver htop hsup

lemma Tracked.enqueue (hfr : event.sequenceNum ∉ accepted.map (·.sequenceNum)) :
    Tracked (accepted ++ [event]) popped (q.enqueue event) := by
  have hpopp : event ∉ popped := fun hmem =>
    hfr (List.mem_map_of_mem (h.mem_accepted_of_popped hmem))
  have hmap : (q.enqueue event).coalescingLatestSeq = (q.track event).coalescingLatestSeq := rfl
  constructor
  case toConserves => exact h.toConserves.enqueue hfr
  case onRecord =>
    intro key m hm hnot
    rw [lastAccepted_append] at hm
    rw [hmap, lookup_track]
    split_ifs at hm ⊢ with hkey
    · cases hm
      rfl
    · exact h.onRecord key m hm hnot
  case offRecord =>
    intro key m hm hmem
    rw [lastAccepted_append] at hm
    rw [hmap, lookup_track]
    split_ifs at hm ⊢ with hkey
    · cases hm
      exact absurd hmem hpopp
    · exact h.offRecord key m hm hmem

end
end

namespace Trace
variable {s s' : Trace π}

def Fresh (s : Trace π) : Op π → Prop
  | .push event => event.sequenceNum ∉ s.accepted.map (·.sequenceNum)
  | .pop _ => True

instance (s : Trace π) (op : Op π) : Decidable (Fresh s op) :=
  match op with
  | .push _ => inferInstanceAs (Decidable (¬ _))
  | .pop _ => .isTrue trivial

/-- If an event of the key is unexpired, a full drain returns one that was pushed no earlier than
any of the unexpired ones. -/
def KeepsNewest (s : Trace π) (clock : ℕ → Int64) (key : String) : Prop :=
  (∃ e, Unexpired s.queue clock e ∧ e.coalescingKey = some key) →
    ∃ x ∈ s.queue.fullDrain clock, x.coalescingKey = some key ∧
      ∀ e, Unexpired s.queue clock e → e.coalescingKey = some key →
        e = x ∨ PushedBefore s.accepted e x

lemma tracked_next {op : Op π} (h : Tracked s.accepted s.popped s.queue) (hop : Fresh s op)
    (hn : next s op = some s') : Tracked s'.accepted s'.popped s'.queue := by
  cases op with
  | push event =>
    cases hn
    rw [push_eq_ite]
    split_ifs
    · exact h.congr rfl rfl
    · exact h.enqueue hop
  | pop now =>
    cases hn
    exact h.pop now

lemma tracked_of_run {capacity dropThreshold80 dropThreshold90 : ℕ} {ops : List (Op π)}
    (h : Run next Fresh (start capacity dropThreshold80 dropThreshold90) ops s) :
    Tracked s.accepted s.popped s.queue := by
  have hstr : Tracked [] [] (start capacity dropThreshold80 dropThreshold90 : Trace π).queue :=
    ⟨⟨nodup_nil, le_rfl⟩, by simp [lastAccepted], by simp [lastAccepted]⟩
  exact h.invariant (fun s => Tracked s.accepted s.popped s.queue) hstr
    fun s op s' hs hop hn => tracked_next hs hop hn

section
variable {clock : ℕ → Int64} {key : String} {m : PrioritizedEvent π}

lemma keepsNewest_of_noRecord (h : Tracked s.accepted s.popped s.queue)
    (hnone : s.queue.coalescingLatestSeq.lookup key = none) : KeepsNewest s clock key := by
  classical
  intro hex
  obtain ⟨e, he, hkey⟩ := hex
  let p := fun e : PrioritizedEvent π =>
    decide (Unexpired s.queue clock e ∧ e.coalescingKey = some key)
  cases hx : (s.accepted.filter p).getLast? with
  | none =>
    rw [List.getLast?_eq_none_iff, filter_eq_nil_iff] at hx
    exact absurd (decide_eq_true ⟨he, hkey⟩) (hx e (h.mem_accepted he.1))
  | some x =>
    have hp : Unexpired s.queue clock x ∧ x.coalescingKey = some key := by
      simpa [p] using (List.mem_filter.mp (mem_of_getLast? hx)).2
    have hsup : s.queue.superseded x = false :=
      (superseded_eq_false_iff hp.2).mpr (Or.inl hnone)
    refine ⟨x, mem_fullDrain h.distinct_queue hp.1 hsup, hp.2, fun e he hkey => ?_⟩
    exact eq_or_pushedBefore_getLast hx (h.mem_accepted he.1) (decide_eq_true ⟨he, hkey⟩)

section
variable (h : Tracked s.accepted s.popped s.queue) (hm : lastAccepted s.accepted key = some m)
  (hnot : m ∉ s.popped)
include h hm hnot

lemma keepsNewest_of_unexpired (hunex : Unexpired s.queue clock m) :
    KeepsNewest s clock key := by
  intro _
  have hkey := (lastAccepted_spec hm).2
  have hsup : s.queue.superseded m = false :=
    (superseded_eq_false_iff hkey).mpr (Or.inr (h.onRecord key m hm hnot))
  refine ⟨m, mem_fullDrain h.distinct_queue hunex hsup, hkey, fun e he hkey => ?_⟩
  exact eq_or_pushedBefore_getLast hm (h.mem_accepted he.1) (decide_eq_true hkey)

lemma not_keepsNewest_of_expired (hexpd : ¬ Unexpired s.queue clock m)
    (hex : ∃ e, Unexpired s.queue clock e ∧ e.coalescingKey = some key) :
    ¬ KeepsNewest s clock key := by
  intro hkps
  obtain ⟨x, hx, hkey, -⟩ := hkps hex
  refine not_mem_fullDrain h.distinct_queue (h.onRecord key m hm hnot) ?_ x hx hkey
  intro e he _ hseq
  have heq : e = m := h.eq_of_sequenceNum (h.mem_accepted he.1) (lastAccepted_spec hm).1 hseq
  exact hexpd (heq ▸ he)

end
end

theorem keepsNewest_iff {capacity dropThreshold80 dropThreshold90 : ℕ} {ops : List (Op π)}
    (h : Run next Fresh (start capacity dropThreshold80 dropThreshold90) ops s)
    (clock : ℕ → Int64) (key : String) :
    KeepsNewest s clock key ↔
      (∀ e, Unexpired s.queue clock e → e.coalescingKey ≠ some key) ∨
      ∀ m, lastAccepted s.accepted key = some m → m ∈ s.popped ∨ Unexpired s.queue clock m := by
  have htr := tracked_of_run h
  constructor
  · intro hkps
    by_contra hnot
    push Not at hnot
    obtain ⟨⟨e, he, hkey⟩, m, hm, hpopp, hexpd⟩ := hnot
    exact not_keepsNewest_of_expired htr hm hpopp hexpd ⟨e, he, hkey⟩ hkps
  · intro hcond
    rcases hcond with hnone | hlast
    · intro hex
      obtain ⟨e, he, hkey⟩ := hex
      exact absurd hkey (hnone e he)
    · cases hm : lastAccepted s.accepted key with
      | none =>
        intro hex
        obtain ⟨e, he, hkey⟩ := hex
        rw [lastAccepted, List.getLast?_eq_none_iff, filter_eq_nil_iff] at hm
        exact absurd (decide_eq_true hkey) (hm e (htr.mem_accepted he.1))
      | some m =>
        by_cases hpopp : m ∈ s.popped
        · exact keepsNewest_of_noRecord htr (htr.offRecord key m hm hpopp)
        · exact keepsNewest_of_unexpired htr hm hpopp ((hlast m hm).resolve_left hpopp)

theorem keepsNewest_before_expiry : ∃ (ops : List (Op ℕ)) (s : Trace ℕ),
    Run next Fresh (start 10 8 9) ops s ∧ KeepsNewest s (fun _ => 1000000) "pose" := by
  let old : PrioritizedEvent ℕ := ⟨"robot.pose", .normal, 1, 10, 1, none, some "pose"⟩
  let new : PrioritizedEvent ℕ := ⟨"robot.pose", .normal, 2, 20, 2, some 1, some "pose"⟩
  have hexec : ∃ s, exec next (fun s op => Fresh s op) (start 10 8 9) [.push old, .push new] =
      some s ∧ new ∈ s.queue.queue.elems ∧ lastAccepted s.accepted "pose" = some new ∧
      new.isExpired 1000000 = false := ⟨_, rfl, by decide, by decide, by decide⟩
  obtain ⟨s, hs, hmem, hlast, hexpd⟩ := hexec
  have hrun := Run.of_exec (fun _ _ => of_decide_eq_true) hs
  refine ⟨_, s, hrun, (keepsNewest_iff hrun _ _).mpr (Or.inr fun m hm => ?_)⟩
  cases Option.some.inj (hlast.symm.trans hm)
  exact Or.inr ⟨hmem, hexpd⟩

/-- The older reading never expires, the newer one lives for 1 ms. After 10 ms neither is
returned. -/
theorem not_keepsNewest : ¬ ∀ (π : Type) (capacity dropThreshold80 dropThreshold90 : ℕ)
    (ops : List (Op π)) (s : Trace π),
    Run next Fresh (start capacity dropThreshold80 dropThreshold90) ops s →
    ∀ clock : ℕ → Int64, (∀ i, clock i ≤ clock (i + 1)) → ∀ key, KeepsNewest s clock key := by
  intro h
  let old : PrioritizedEvent ℕ := ⟨"robot.pose", .normal, 1, 10, 1, none, some "pose"⟩
  let new : PrioritizedEvent ℕ := ⟨"robot.pose", .normal, 2, 20, 2, some 1, some "pose"⟩
  have hexec : ∃ s, exec next (fun s op => Fresh s op) (start 10 8 9) [.push old, .push new] =
      some s ∧ old ∈ s.queue.queue.elems ∧ s.queue.fullDrain (fun _ => 10000000) = [] :=
    ⟨_, rfl, by decide, by decide⟩
  obtain ⟨s, hs, hmem, hdrn⟩ := hexec
  have hrun := Run.of_exec (fun _ _ => of_decide_eq_true) hs
  obtain ⟨x, hx, -⟩ := h ℕ 10 8 9 _ s hrun (fun _ => 10000000) (fun _ => by decide) "pose"
    ⟨old, ⟨hmem, rfl⟩, rfl⟩
  simp [hdrn] at hx

end Trace
end PriorityQueue
end Mxrc.Event
