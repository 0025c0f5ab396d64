import Mxrc.Event.Fates

/-!
# Coalescing

`coalescingLatestSeq` has the number of the event of a key that was pushed last,
and the others are skipped. The record is erased when that event is delivered,
so older events still in the heap are returned after it. Sequence numbers are
distinct and there are no TTLs.
-/

namespace Mxrc.Event
open Mxrc.Lib List Multiset

namespace PriorityQueue
variable {π : Type}

def SameKey (e f : PrioritizedEvent π) : Prop :=
  ∃ key, e.coalescingKey = some key ∧ f.coalescingKey = some key

def PushedBefore (accepted : List (PrioritizedEvent π)) (e f : PrioritizedEvent π) : Prop :=
  [e, f].Sublist accepted

variable {accepted : List (PrioritizedEvent π)} {e : PrioritizedEvent π}

lemma PushedBefore.append {f : PrioritizedEvent π} (h : PushedBefore accepted e f)
    (event : PrioritizedEvent π) : PushedBefore (accepted ++ [event]) e f :=
  h.trans (sublist_append_left _ _)

lemma pushedBefore_last (h : e ∈ accepted) (event : PrioritizedEvent π) :
    PushedBefore (accepted ++ [event]) e event :=
  (singleton_sublist.mpr h).append (List.Sublist.refl [event])

lemma PushedBefore.asymm {f : PrioritizedEvent π} (hnd : accepted.Nodup)
    (h : PushedBefore accepted e f) : ¬ PushedBefore accepted f e := by
  induction accepted with
  | nil => cases h
  | cons a l ih =>
    obtain ⟨ha, hl⟩ := List.nodup_cons.mp hnd
    intro h'
    cases h with
    | cons _ h =>
      cases h' with
      | cons _ h' => exact ih hl h h'
      | cons_cons _ h' => exact ha (h.subset (by simp))
    | cons_cons _ h =>
      cases h' with
      | cons _ h' => exact ha (h'.subset (by simp))
      | cons_cons _ h' => exact ha (h.subset (by simp))

def Latest (accepted : List (PrioritizedEvent π)) (q : PriorityQueue π)
    (m : PrioritizedEvent π) : Prop :=
  m ∈ q.queue.elems ∧ ∀ f ∈ q.queue.elems, SameKey f m → f ≠ m → PushedBefore accepted f m

namespace Trace

def Ordinary (s : Trace π) : Op π → Prop
  | .push event => event.ttl = none ∧ event.sequenceNum ∉ s.accepted.map (·.sequenceNum)
  | .pop _ => True

instance (s : Trace π) (op : Op π) : Decidable (Ordinary s op) :=
  match op with
  | .push _ => inferInstanceAs (Decidable (_ ∧ _))
  | .pop _ => .isTrue trivial

/-- At every `pop`, the event of a key that was pushed last is the last of them to come up. -/
def LatestLast (s : Trace π) : Op π → Prop
  | .push _ => True
  | .pop _ => ∀ m, Latest s.accepted s.queue m →
      ∀ e ∈ s.queue.queue.elems, SameKey e m → e.rank ≤ m.rank

/-- Of the events of a key that are in the queue together, only the one pushed last is ever
returned. -/
def OnlyLatest (π : Type) (G : Trace π → Op π → Prop) : Prop :=
  ∀ capacity dropThreshold80 dropThreshold90 ops (s : Trace π),
    Run next (fun s op => Ordinary s op ∧ G s op)
      (start capacity dropThreshold80 dropThreshold90) ops s →
    (∀ e ∈ s.queue.queue.elems, ∀ f ∈ s.queue.queue.elems, SameKey e f →
      PushedBefore s.accepted e f → ∀ ops' s',
        Run next (fun s op => Ordinary s op ∧ G s op) s ops' s' → e ∉ s'.popped) ∧
    s.popped.Pairwise fun e f => SameKey e f → ¬ PushedBefore s.accepted f e

end Trace

structure Conserves (accepted popped : List (PrioritizedEvent π)) (q : PriorityQueue π) :
    Prop where
  distinct : (accepted.map (·.sequenceNum)).Nodup
  kept : popped + q.queue.elems ≤ (accepted : Multiset (PrioritizedEvent π))

section
variable {accepted popped : List (PrioritizedEvent π)} {q : PriorityQueue π}
  {e f event : PrioritizedEvent π}

section
variable (h : Conserves accepted popped q)
include h

lemma Conserves.nodup : accepted.Nodup :=
  h.distinct.of_map _

lemma Conserves.eq_of_sequenceNum (he : e ∈ accepted) (hf : f ∈ accepted)
    (hseq : e.sequenceNum = f.sequenceNum) : e = f :=
  List.inj_on_of_nodup_map h.distinct he hf hseq

lemma Conserves.distinct_queue : (q.queue.elems.map (·.sequenceNum)).Nodup := by
  have hle : q.queue.elems ≤ accepted := (Multiset.le_add_left _ _).trans h.kept
  exact nodup_of_le (map_le_map hle) (coe_nodup.mpr h.distinct)

lemma Conserves.mem_accepted (he : e ∈ q.queue.elems) : e ∈ accepted :=
  mem_coe.mp (mem_of_le h.kept (mem_add.mpr (Or.inr he)))

lemma Conserves.mem_accepted_of_popped (he : e ∈ popped) : e ∈ accepted :=
  mem_coe.mp (mem_of_le h.kept (mem_add.mpr (Or.inl he)))

lemma Conserves.skip (htop : q.queue.top? = some event) :
    Conserves accepted popped q.takeTop where
  distinct := h.distinct
  kept := by
    refine le_trans (add_le_add_right ?_ _) h.kept
    rw [BinaryHeap.elems_of_top? htop]
    exact le_cons_self _ _

lemma Conserves.deliver (htop : q.queue.top? = some event) :
    Conserves accepted (popped ++ [event]) (q.takeTop.deliver event) where
  distinct := h.distinct
  kept := by
    have hkept := h.kept
    rw [BinaryHeap.elems_of_top? htop] at hkept
    rwa [← coe_add, coe_singleton, add_assoc, singleton_add]

lemma Conserves.enqueue (hfr : event.sequenceNum ∉ accepted.map (·.sequenceNum)) :
    Conserves (accepted ++ [event]) popped (q.enqueue event) where
  distinct := by
    rw [map_append]
    exact h.distinct.append (List.nodup_singleton _) (by simpa using hfr)
  kept := by
    rw [elems_enqueue, ← singleton_add, add_left_comm, add_comm, ← coe_add, coe_singleton]
    exact add_le_add_left h.kept _

end
end

/-- Between two rounds of `pop`: the record of a key names its event pushed last, and what was
returned was pushed before everything of its key in the heap. -/
structure Coalesced (accepted popped : List (PrioritizedEvent π)) (q : PriorityQueue π) : Prop
    extends Conserves accepted popped q where
  noTtl : ∀ e ∈ q.queue.elems, e.ttl = none
  recorded : ∀ e ∈ q.queue.elems, ∀ key, e.coalescingKey = some key →
    ∃ m, Latest accepted q m ∧ m.coalescingKey = some key ∧
      q.coalescingLatestSeq.lookup key = some m.sequenceNum
  returned : ∀ e ∈ popped, ∀ f ∈ q.queue.elems, SameKey e f → PushedBefore accepted e f
  ordered : popped.Pairwise fun e f => SameKey e f → PushedBefore accepted e f

section
variable {accepted popped : List (PrioritizedEvent π)} {q : PriorityQueue π}
  {e f m event : PrioritizedEvent π} {key : String}

section
variable (h : Coalesced accepted popped q)
include h

lemma Coalesced.not_popped (he : e ∈ q.queue.elems) : e ∉ popped := by
  intro hpop
  have hnd := nodup_of_le h.kept (coe_nodup.mpr h.nodup)
  exact Multiset.disjoint_left.mp (nodup_add.mp hnd).2.2 hpop he

lemma Coalesced.not_expired (htop : q.queue.top? = some event) (currentNs : Int64) :
    event.isExpired currentNs = false :=
  PrioritizedEvent.isExpired_of_ttl_eq_none (h.noTtl event (BinaryHeap.mem_of_top? htop)) currentNs

lemma Coalesced.latest_of_record (hm : m ∈ q.queue.elems) (hkey : m.coalescingKey = some key)
    (hrcd : q.coalescingLatestSeq.lookup key = some m.sequenceNum) : Latest accepted q m := by
  obtain ⟨m', hlat, -, hrcd'⟩ := h.recorded m hm key hkey
  have hseq := Option.some.inj (hrcd'.symm.trans hrcd)
  have heq := h.eq_of_sequenceNum (h.mem_accepted hlat.1) (h.mem_accepted hm) hseq
  exact heq ▸ hlat

lemma Coalesced.top_recorded (htop : q.queue.top? = some event)
    (hsup : q.superseded event = false) (hkey : event.coalescingKey = some key) :
    q.coalescingLatestSeq.lookup key = some event.sequenceNum := by
  obtain ⟨m, -, -, hrcd⟩ := h.recorded event (BinaryHeap.mem_of_top? htop) key hkey
  simp only [superseded, hkey, hrcd, Option.any_some, decide_eq_false_iff_not, not_not] at hsup
  rw [hrcd, hsup]

end

def RecordLast (q : PriorityQueue π) : Prop :=
  ∀ m ∈ q.queue.elems, ∀ key, m.coalescingKey = some key →
    q.coalescingLatestSeq.lookup key = some m.sequenceNum →
      ∀ e ∈ q.queue.elems, e.coalescingKey = some key → e.rank ≤ m.rank

lemma Coalesced.none_left (h : Coalesced accepted popped q) (hlast : RecordLast q)
    (htop : q.queue.top? = some event) (hsup : q.superseded event = false)
    (hkey : event.coalescingKey = some key) :
    ∀ e ∈ q.queue.pop.elems, e.coalescingKey ≠ some key := by
  intro e he hekey
  have hlms := BinaryHeap.elems_of_top? htop
  have hmem : e ∈ q.queue.elems := BinaryHeap.pop_subset htop he
  have hev := BinaryHeap.mem_of_top? htop
  have hle := hlast event hev key hkey (h.top_recorded htop hsup hkey) e hmem hekey
  have hge : event.rank ≤ e.rank := rank_top_le htop hmem
  have heq : e = event := h.eq_of_sequenceNum (h.mem_accepted hmem) (h.mem_accepted hev)
    (PrioritizedEvent.sequenceNum_eq_of_rank_eq (le_antisymm hle hge))
  have hnd : q.queue.elems.Nodup :=
    nodup_of_le ((Multiset.le_add_left _ _).trans h.kept) (coe_nodup.mpr h.nodup)
  rw [hlms, Multiset.nodup_cons] at hnd
  exact hnd.1 (heq ▸ he)

variable {q' : PriorityQueue π}

lemma Latest.of_subset (h : Latest accepted q m) (hm : m ∈ q'.queue.elems)
    (hsub : q'.queue.elems ⊆ q.queue.elems) : Latest accepted q' m :=
  ⟨hm, fun f hf => h.2 f (hsub hf)⟩

lemma Coalesced.skip (h : Coalesced accepted popped q) (htop : q.queue.top? = some event)
    (hsup : q.superseded event = true) : Coalesced accepted popped q.takeTop where
  noTtl e he := h.noTtl e (BinaryHeap.pop_subset htop he)
  toConserves := h.toConserves.skip htop
  recorded e he key hkey := by
    obtain ⟨m, hlat, hmkey, hrcd⟩ := h.recorded e (BinaryHeap.pop_subset htop he) key hkey
    have hne : m ≠ event := by
      intro heq
      subst heq
      simp [superseded, hmkey, hrcd] at hsup
    exact ⟨m, hlat.of_subset (BinaryHeap.mem_pop_of_ne htop hlat.1 hne)
      (BinaryHeap.pop_subset htop), hmkey, hrcd⟩
  returned e he f hf := h.returned e he f (BinaryHeap.pop_subset htop hf)
  ordered := h.ordered

lemma RecordLast.skip (h : RecordLast q) (htop : q.queue.top? = some event) :
    RecordLast q.takeTop :=
  fun m hm key hkey hrcd e he =>
    h m (BinaryHeap.pop_subset htop hm) key hkey hrcd e (BinaryHeap.pop_subset htop he)

lemma lookup_deliver (hkey : event.coalescingKey ≠ some key) :
    (q.takeTop.deliver event).coalescingLatestSeq.lookup key =
      q.coalescingLatestSeq.lookup key := by
  rw [PriorityQueue.deliver]
  dsimp only
  split
  · rfl
  · rename_i key' hkey'
    exact AList.lookup_erase_ne fun heq => hkey (heq ▸ hkey')

section
variable (h : Coalesced accepted popped q) (hlast : RecordLast q)
include h hlast

lemma Coalesced.deliver (htop : q.queue.top? = some event) (hsup : q.superseded event = false) :
    Coalesced accepted (popped ++ [event]) (q.takeTop.deliver event) where
  noTtl e he := h.noTtl e (BinaryHeap.pop_subset htop he)
  toConserves := h.toConserves.deliver htop
  recorded e he key hkey := by
    obtain ⟨m, hlat, hmkey, hrcd⟩ := h.recorded e (BinaryHeap.pop_subset htop he) key hkey
    have hoth : event.coalescingKey ≠ some key := fun hev =>
      h.none_left hlast htop hsup hev e he hkey
    have hne : m ≠ event := fun heq => hoth (heq ▸ hmkey)
    refine ⟨m, hlat.of_subset (BinaryHeap.mem_pop_of_ne htop hlat.1 hne)
      (BinaryHeap.pop_subset htop), hmkey, ?_⟩
    rwa [lookup_deliver hoth]
  returned e he f hf := by
    intro hsame
    obtain ⟨key, hekey, hfkey⟩ := hsame
    rcases mem_append.mp he with he | he
    · exact h.returned e he f (BinaryHeap.pop_subset htop hf) ⟨key, hekey, hfkey⟩
    · cases List.mem_singleton.mp he
      exact absurd hfkey (h.none_left hlast htop hsup hekey f hf)
  ordered := by
    refine List.pairwise_append.mpr ⟨h.ordered, pairwise_singleton _ _, ?_⟩
    intro e he f hf
    cases List.mem_singleton.mp hf
    exact h.returned e he event (BinaryHeap.mem_of_top? htop)

lemma Coalesced.pop (now : ℕ → Int64) :
    Coalesced accepted (popped ++ (q.pop now).1.toList) (q.pop now).2 := by
  refine pop_rule (I := fun q => Coalesced accepted popped q ∧ RecordLast q)
    (Q := fun r q => Coalesced accepted (popped ++ r.toList) q) ?_ ?_ ?_ ?_ ⟨h, hlast⟩ now
  · intro q hq _
    simpa using hq.1
  · intro q event currentNs hq htop hexp
    simp [hq.1.not_expired htop] at hexp
  · intro q event hq htop hsup
    exact ⟨hq.1.skip htop hsup, hq.2.skip htop⟩
  · intro q event hq htop hsup
    exact hq.1.deliver hq.2 htop hsup

lemma Coalesced.pop_overtaken (hkey : e.coalescingKey = some key)
    (hover : e ∈ q.queue.elems → q.coalescingLatestSeq.lookup key ≠ some e.sequenceNum)
    (now : ℕ → Int64) :
    (q.pop now).1 ≠ some e ∧ (e ∈ (q.pop now).2.queue.elems →
      (q.pop now).2.coalescingLatestSeq.lookup key ≠ some e.sequenceNum) := by
  refine pop_rule (I := fun q => (Coalesced accepted popped q ∧ RecordLast q) ∧
      (e ∈ q.queue.elems → q.coalescingLatestSeq.lookup key ≠ some e.sequenceNum))
    (Q := fun r q => r ≠ some e ∧
      (e ∈ q.queue.elems → q.coalescingLatestSeq.lookup key ≠ some e.sequenceNum))
    ?_ ?_ ?_ ?_ ⟨⟨h, hlast⟩, hover⟩ now
  · intro q hq _
    exact ⟨by simp, hq.2⟩
  · intro q event currentNs hq htop hexp
    simp [hq.1.1.not_expired htop] at hexp
  · intro q event hq htop hsup
    exact ⟨⟨hq.1.1.skip htop hsup, hq.1.2.skip htop⟩,
      fun he => hq.2 (BinaryHeap.pop_subset htop he)⟩
  · intro q event ⟨⟨hq, hq'⟩, hover⟩ htop hsup
    constructor
    · intro heq
      cases heq
      exact hover (BinaryHeap.mem_of_top? htop) (hq.top_recorded htop hsup hkey)
    · intro he
      by_cases hev : event.coalescingKey = some key
      · exact absurd hkey (hq.none_left hq' htop hsup hev e he)
      · rw [lookup_deliver hev]
        exact hover (BinaryHeap.pop_subset htop he)

end

lemma Coalesced.congr (h : Coalesced accepted popped q) (hqu : q'.queue = q.queue)
    (hmap : q'.coalescingLatestSeq = q.coalescingLatestSeq) :
    Coalesced accepted popped q' where
  toConserves := ⟨h.distinct, hqu ▸ h.kept⟩
  noTtl := hqu ▸ h.noTtl
  recorded := by simpa only [Latest, hqu, hmap] using h.recorded
  returned := hqu ▸ h.returned
  ordered := h.ordered

lemma lookup_track :
    (q.track event).coalescingLatestSeq.lookup key =
      if event.coalescingKey = some key then some event.sequenceNum
      else q.coalescingLatestSeq.lookup key := by
  rw [track]
  split
  · rename_i hnone
    simp [hnone]
  · rename_i key' hkey'
    by_cases heq : key' = key
    · subst heq
      simp [hkey']
    · simp [hkey', heq, AList.lookup_insert_ne (Ne.symm heq)]

lemma Coalesced.enqueue (h : Coalesced accepted popped q) (httl : event.ttl = none)
    (hfr : event.sequenceNum ∉ accepted.map (·.sequenceNum)) :
    Coalesced (accepted ++ [event]) popped (q.enqueue event) := by
  have hlms := elems_enqueue q event
  have hlk : ∀ key, (q.enqueue event).coalescingLatestSeq.lookup key =
      if event.coalescingKey = some key then some event.sequenceNum
      else q.coalescingLatestSeq.lookup key := fun key => lookup_track
  constructor
  case noTtl =>
    intro e he
    rcases Multiset.mem_cons.mp (hlms ▸ he) with rfl | he
    · exact httl
    · exact h.noTtl e he
  case toConserves => exact h.toConserves.enqueue hfr
  case recorded =>
    intro e he key hkey
    by_cases hev : event.coalescingKey = some key
    · refine ⟨event, ⟨hlms ▸ Multiset.mem_cons_self _ _, fun f hf _ hne => ?_⟩, hev, ?_⟩
      · have hmem := (Multiset.mem_cons.mp (hlms ▸ hf)).resolve_left hne
        exact pushedBefore_last (h.mem_accepted hmem) event
      · rw [hlk, if_pos hev]
    · have hne : e ≠ event := fun heq => hev (heq ▸ hkey)
      have hold : e ∈ q.queue.elems := (Multiset.mem_cons.mp (hlms ▸ he)).resolve_left hne
      obtain ⟨m, ⟨hm, hlat⟩, hmkey, hrcd⟩ := h.recorded e hold key hkey
      refine ⟨m, ⟨hlms ▸ Multiset.mem_cons_of_mem hm, fun f hf hsame hne => ?_⟩, hmkey, ?_⟩
      · rcases Multiset.mem_cons.mp (hlms ▸ hf) with rfl | hf
        · obtain ⟨key', hfkey, hmkey'⟩ := hsame
          exact absurd (hfkey.trans (hmkey'.symm.trans hmkey)) hev
        · exact (hlat f hf hsame hne).append event
      · rw [hlk, if_neg hev, hrcd]
  case returned =>
    intro e he f hf hsame
    rcases Multiset.mem_cons.mp (hlms ▸ hf) with rfl | hf
    · exact pushedBefore_last (h.mem_accepted_of_popped he) _
    · exact (h.returned e he f hf hsame).append event
  case ordered => exact h.ordered.imp fun hbef hsame => (hbef hsame).append event

end

namespace Trace

lemma coalesced_start (capacity dropThreshold80 dropThreshold90 : ℕ) :
    Coalesced [] [] (start capacity dropThreshold80 dropThreshold90 : Trace π).queue := by
  have hemp : (start capacity dropThreshold80 dropThreshold90 : Trace π).queue.queue.elems = 0 :=
    rfl
  refine ⟨⟨nodup_nil, le_rfl⟩, ?_, ?_, ?_, ?_⟩ <;> simp [hemp]

variable {s s' : Trace π}

lemma recordLast_of_latestLast (h : Coalesced s.accepted s.popped s.queue) {now : ℕ → Int64}
    (hlast : LatestLast s (.pop now)) : RecordLast s.queue := by
  intro m hm key hkey hrcd e he hekey
  exact hlast m (h.latest_of_record hm hkey hrcd) e he ⟨key, hekey, hkey⟩

lemma coalesced_next {op : Op π} (h : Coalesced s.accepted s.popped s.queue)
    (hop : Ordinary s op ∧ LatestLast s op) (hn : next s op = some s') :
    Coalesced s'.accepted s'.popped s'.queue := by
  cases op with
  | push event =>
    cases hn
    rw [push_eq_ite]
    split_ifs
    · exact h.congr rfl rfl
    · exact h.enqueue hop.1.1 hop.1.2
  | pop now =>
    cases hn
    exact h.pop (recordLast_of_latestLast h hop.2) now

structure Overtaken (s : Trace π) (e : PrioritizedEvent π) (key : String) : Prop where
  coalesced : Coalesced s.accepted s.popped s.queue
  accepted : e ∈ s.accepted
  notPopped : e ∉ s.popped
  offRecord : e ∈ s.queue.queue.elems →
    s.queue.coalescingLatestSeq.lookup key ≠ some e.sequenceNum

variable {e : PrioritizedEvent π}

lemma overtaken_of_pushedBefore (h : Coalesced s.accepted s.popped s.queue)
    {f : PrioritizedEvent π} {key : String} (he : e ∈ s.queue.queue.elems)
    (hf : f ∈ s.queue.queue.elems) (hekey : e.coalescingKey = some key)
    (hfkey : f.coalescingKey = some key) (hbef : PushedBefore s.accepted e f) :
    Overtaken s e key := by
  refine ⟨h, h.mem_accepted he, h.not_popped he, fun _ hrcd => ?_⟩
  have hlat := h.latest_of_record he hekey hrcd
  have hne : f ≠ e := by
    intro heq
    subst heq
    exact hbef.asymm h.nodup hbef
  exact hbef.asymm h.nodup (hlat.2 f hf ⟨key, hfkey, hekey⟩ hne)

lemma Overtaken.next {op : Op π} {key : String} (hkey : e.coalescingKey = some key)
    (h : Overtaken s e key) (hop : Ordinary s op ∧ LatestLast s op) (hn : next s op = some s') :
    Overtaken s' e key := by
  have hcoal := coalesced_next h.coalesced hop hn
  cases op with
  | push event =>
    cases hn
    have hseq : event.sequenceNum ≠ e.sequenceNum := by
      intro heq
      exact hop.1.2 (heq ▸ List.mem_map_of_mem h.accepted)
    rw [push_eq_ite] at hcoal ⊢
    split_ifs at hcoal ⊢
    · exact ⟨hcoal, h.accepted, h.notPopped, h.offRecord⟩
    · refine ⟨hcoal, mem_append_left _ h.accepted, h.notPopped, fun he => ?_⟩
      rw [elems_enqueue, Multiset.mem_cons] at he
      have hlk : (s.queue.enqueue event).coalescingLatestSeq.lookup key = _ := lookup_track
      dsimp only
      rw [hlk]
      split_ifs
      · simpa using hseq
      · refine h.offRecord (he.resolve_left fun heq => ?_)
        subst heq
        exact hseq rfl
  | pop now =>
    cases hn
    have hlast := recordLast_of_latestLast h.coalesced hop.2
    obtain ⟨hnot, hoff⟩ := h.coalesced.pop_overtaken hlast hkey h.offRecord now
    refine ⟨hcoal, h.accepted, ?_, hoff⟩
    intro he
    rcases mem_append.mp he with he | he
    · exact h.notPopped he
    · exact hnot (Option.mem_toList.mp he)

theorem onlyLatest_of_latestLast (π : Type) : OnlyLatest π LatestLast := by
  intro capacity dropThreshold80 dropThreshold90 ops s hrun
  have hs : Coalesced s.accepted s.popped s.queue :=
    hrun.invariant (fun s => Coalesced s.accepted s.popped s.queue)
      (coalesced_start capacity dropThreshold80 dropThreshold90)
      fun s op s' hs hop hn => coalesced_next hs hop hn
  constructor
  · intro e he f hf hsame hbef ops' s' hrun'
    obtain ⟨key, hekey, hfkey⟩ := hsame
    have hstr := overtaken_of_pushedBefore hs he hf hekey hfkey hbef
    have hend : Overtaken s' e key :=
      hrun'.invariant (fun s => Overtaken s e key) hstr
        fun s op s' hs hop hn => hs.next hekey hop hn
    exact hend.notPopped
  · exact hs.ordered.imp fun hbef hsame => (hbef hsame).asymm hs.nodup

/-- The later event has the higher priority: it is returned first, and then the older one
that it was to replace. -/
theorem not_onlyLatest : ¬ ∀ π : Type, OnlyLatest π fun _ _ => True := by
  intro h
  let old : PrioritizedEvent ℕ := ⟨"robot.pose", .low, 1, 10, 1, none, some "pose"⟩
  let new : PrioritizedEvent ℕ := ⟨"robot.pose", .high, 2, 20, 2, none, some "pose"⟩
  have hexec : ∃ s, exec next (fun s op => Ordinary s op) (start 10 8 9)
      [.push old, .push new, .pop fun _ => 30, .pop fun _ => 40] = some s ∧
      s.accepted = [old, new] ∧ s.popped = [new, old] :=
    ⟨_, rfl, by decide, by decide⟩
  obtain ⟨s, hs, hacc, hpop⟩ := hexec
  have hrun := Run.of_exec (G := fun s op => Ordinary s op ∧ True)
    (fun _ _ hok => ⟨of_decide_eq_true hok, trivial⟩) hs
  have hpair := (h ℕ 10 8 9 _ s hrun).2
  rw [hpop, hacc] at hpair
  have hnot := rel_of_pairwise_cons hpair (List.mem_singleton_self old)
  exact hnot ⟨"pose", rfl, rfl⟩ (List.Sublist.refl _)

end Trace
end PriorityQueue
end Mxrc.Event
