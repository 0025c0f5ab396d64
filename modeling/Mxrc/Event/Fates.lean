import Mxrc.Event.PriorityQueue
import Mxrc.Lib.Bytes

/-!
# What becomes of the events that `pop` takes up

`fates` lists the rounds of one call of `pop`: the event taken up and whether it
was discarded as expired, skipped as superseded or returned. Round `i` reads the
clock as `now i`. Ages are unsigned.
-/

namespace Mxrc.Event
open Mxrc.Lib List

inductive Fate
  | expired
  | superseded
  | delivered
deriving DecidableEq

namespace PriorityQueue
variable {π : Type}

def fatesLoop : ℕ → (ℕ → Int64) → PriorityQueue π → List (PrioritizedEvent π × Fate)
  | 0, _, _ => []
  | fuel + 1, now, q =>
    match q.queue.top? with
    | none => []
    | some event =>
      let q := q.takeTop
      if event.isExpired (now 0) then
        (event, .expired) :: fatesLoop fuel (fun i => now (i + 1)) q.expire
      else if q.superseded event then
        (event, .superseded) :: fatesLoop fuel (fun i => now (i + 1)) q
      else [(event, .delivered)]

def fates (q : PriorityQueue π) (now : ℕ → Int64) : List (PrioritizedEvent π × Fate) :=
  fatesLoop q.queue.elems.card now q

lemma fates_rule (now : ℕ → Int64)
    {I : List (PrioritizedEvent π × Fate) → PriorityQueue π → Prop}
    {Q : Option (PrioritizedEvent π) → List (PrioritizedEvent π × Fate) → PriorityQueue π → Prop}
    (hemp : ∀ l q, I l q → q.queue.elems = 0 → Q none l q)
    (hexpd : ∀ l q event, I l q → q.queue.top? = some event →
      event.isExpired (now l.length) = true → I (l ++ [(event, .expired)]) q.takeTop.expire)
    (hsuper : ∀ l q event, I l q → q.queue.top? = some event →
      event.isExpired (now l.length) = false → q.superseded event = true →
      I (l ++ [(event, .superseded)]) q.takeTop)
    (hdel : ∀ l q event, I l q → q.queue.top? = some event →
      event.isExpired (now l.length) = false → q.superseded event = false →
      Q (some event) (l ++ [(event, .delivered)]) (q.takeTop.deliver event))
    {q : PriorityQueue π} (hq : I [] q) : Q (q.pop now).1 (q.fates now) (q.pop now).2 := by
  have hloop : ∀ fuel l q, I l q → q.queue.elems.card ≤ fuel →
      Q (popLoop fuel (fun k => now (k + l.length)) q).1
        (l ++ fatesLoop fuel (fun k => now (k + l.length)) q)
        (popLoop fuel (fun k => now (k + l.length)) q).2 := by
    intro fuel
    induction fuel with
    | zero =>
      intro l q hq hcard
      rw [fatesLoop, append_nil]
      exact hemp l q hq (Multiset.card_eq_zero.mp (Nat.le_zero.mp hcard))
    | succ fuel ih =>
      intro l q hq hcard
      cases htop : q.queue.top? with
      | none =>
        simp only [popLoop, fatesLoop, htop, append_nil]
        exact hemp l q hq (BinaryHeap.top?_eq_none.mp htop)
      | some event =>
        have hrest : q.queue.pop.elems.card ≤ fuel := by
          rw [BinaryHeap.elems_of_top? htop, Multiset.card_cons] at hcard
          omega
        have hshf : ∀ fate, (fun k => now (k + 1 + l.length)) =
            fun k => now (k + (l ++ [(event, fate)]).length) := by
          intro fate
          funext k
          rw [length_append, length_singleton]
          congr 1
          omega
        simp only [popLoop, fatesLoop, htop, Nat.zero_add]
        split_ifs with hexp hsup
        · rw [append_cons, hshf .expired]
          exact ih _ _ (hexpd l q event hq htop hexp) hrest
        · rw [append_cons, hshf .superseded]
          exact ih _ _ (hsuper l q event hq htop (Bool.eq_false_of_not_eq_true hexp) hsup) hrest
        · exact hdel l q event hq htop (Bool.eq_false_of_not_eq_true hexp)
            (Bool.eq_false_of_not_eq_true hsup)
  exact hloop _ [] q hq le_rfl

lemma pop_rule_at (now : ℕ → Int64) {I : ℕ → PriorityQueue π → Prop}
    {Q : Option (PrioritizedEvent π) → ℕ → PriorityQueue π → Prop}
    (hemp : ∀ i q, I i q → q.queue.elems = 0 → Q none i q)
    (hexpd : ∀ i q event, I i q → q.queue.top? = some event →
      event.isExpired (now i) = true → I (i + 1) q.takeTop.expire)
    (hsuper : ∀ i q event, I i q → q.queue.top? = some event →
      event.isExpired (now i) = false → q.superseded event = true → I (i + 1) q.takeTop)
    (hdel : ∀ i q event, I i q → q.queue.top? = some event →
      event.isExpired (now i) = false → q.superseded event = false →
      Q (some event) (i + 1) (q.takeTop.deliver event))
    {q : PriorityQueue π} (hq : I 0 q) : ∃ i, Q (q.pop now).1 i (q.pop now).2 := by
  refine ⟨_, fates_rule now (I := fun l q => I l.length q) (Q := fun r l q => Q r l.length q)
    (fun l => hemp l.length) ?_ ?_ ?_ hq⟩
  · intro l q event hq htop hexp
    simpa using hexpd l.length q event hq htop hexp
  · intro l q event hq htop hexp hsup
    simpa using hsuper l.length q event hq htop hexp hsup
  · intro l q event hq htop hexp hsup
    simpa using hdel l.length q event hq htop hexp hsup

lemma pop_rule {I : PriorityQueue π → Prop}
    {Q : Option (PrioritizedEvent π) → PriorityQueue π → Prop}
    (hemp : ∀ q, I q → q.queue.elems = 0 → Q none q)
    (hexpd : ∀ q event currentNs, I q → q.queue.top? = some event →
      event.isExpired currentNs = true → I q.takeTop.expire)
    (hsuper : ∀ q event, I q → q.queue.top? = some event →
      q.superseded event = true → I q.takeTop)
    (hdel : ∀ q event, I q → q.queue.top? = some event →
      q.superseded event = false → Q (some event) (q.takeTop.deliver event))
    {q : PriorityQueue π} (hq : I q) (now : ℕ → Int64) : Q (q.pop now).1 (q.pop now).2 := by
  obtain ⟨-, h⟩ := pop_rule_at now (I := fun _ q => I q) (Q := fun r _ q => Q r q)
    (fun _ q => hemp q) (fun _ q event hq htop hexp => hexpd q event _ hq htop hexp)
    (fun _ q event hq htop _ hsup => hsuper q event hq htop hsup)
    (fun _ q event hq htop _ hsup => hdel q event hq htop hsup) hq
  exact h

def Judged (now : ℕ → Int64) (l : List (PrioritizedEvent π × Fate)) : Prop :=
  ∀ (i : ℕ) (event : PrioritizedEvent π) (fate : Fate), l[i]? = some (event, fate) →
    (fate = .expired ↔ event.isExpired (now i) = true)

lemma Judged.snoc {now : ℕ → Int64} {l : List (PrioritizedEvent π × Fate)} (h : Judged now l)
    {event : PrioritizedEvent π} {fate : Fate}
    (hlast : fate = .expired ↔ event.isExpired (now l.length) = true) :
    Judged now (l ++ [(event, fate)]) := by
  intro i event' fate' hi
  rcases lt_trichotomy i l.length with hlt | rfl | hgt
  · rw [getElem?_append_left hlt] at hi
    exact h i event' fate' hi
  · rw [getElem?_concat_length] at hi
    cases hi
    exact hlast
  · rw [getElem?_eq_none (by simpa using hgt)] at hi
    cases hi

lemma judged_fates (q : PriorityQueue π) (now : ℕ → Int64) : Judged now (q.fates now) := by
  refine fates_rule now (I := fun l _ => Judged now l) (Q := fun _ l _ => Judged now l)
    ?_ ?_ ?_ ?_ (q := q) (by simp [Judged])
  · exact fun l q hl _ => hl
  · exact fun l q event hl _ hexp => hl.snoc (by simp [hexp])
  · exact fun l q event hl _ hexp _ => hl.snoc (by simp [hexp])
  · exact fun l q event hl _ hexp _ => hl.snoc (by simp [hexp])

end PriorityQueue

namespace PrioritizedEvent
variable {π : Type}

def age (e : PrioritizedEvent π) (currentNs : Int64) : ℤ :=
  currentNs.toInt - e.timestampNs.toNat

lemma toNat_sub_timestampNs (e : PrioritizedEvent π) (currentNs : Int64) :
    ((currentNs.toUInt64 - e.timestampNs).toNat : ℤ) = e.age currentNs % 2 ^ 64 := by
  have hclc := toNat_toUInt64_emod currentNs
  have hlt := e.timestampNs.toNat_lt
  rw [UInt64.toNat_sub, age]
  push_cast
  omega

lemma isExpired_iff {e : PrioritizedEvent π} {currentNs ttl : Int64}
    (httl : e.ttl = some ttl) (hpos : 0 ≤ ttl.toInt) :
    e.isExpired currentNs = true ↔ ttl.toInt < e.age currentNs % 2 ^ 64 / 1000000 := by
  have hage := toNat_sub_timestampNs e currentNs
  have httl' : (ttl.toUInt64.toNat : ℤ) = ttl.toInt := by
    rw [Int64.toNat_toUInt64_of_le (Int64.le_iff_toInt_le.mpr hpos)]
    exact Int.toNat_of_nonneg hpos
  rw [isExpired, httl, decide_eq_true_iff, UInt64.lt_iff_toNat_lt, UInt64.toNat_div, ← hage,
    ← httl']
  norm_cast

end PrioritizedEvent

namespace PriorityQueue
variable {π : Type}

/-- What `pop` discards as expired has an age over the integers above its TTL, and a timestamp that
is not in the future. -/
def TtlExact (q : PriorityQueue π) (now : ℕ → Int64) : Prop :=
  ∀ (i : ℕ) (event : PrioritizedEvent π) (ttl : Int64),
    (q.fates now)[i]? = some (event, .expired) → event.ttl = some ttl →
      0 ≤ ttl.toInt → ttl.toInt < event.age (now i) / 1000000 ∧ 0 ≤ event.age (now i)

/-- Where `pop` meets a timestamp in the future, the TTL reaches to the wrapped age. -/
def NoneWraps (q : PriorityQueue π) (now : ℕ → Int64) : Prop :=
  ∀ (i : ℕ) (event : PrioritizedEvent π) (fate : Fate) (ttl : Int64),
    (q.fates now)[i]? = some (event, fate) → event.ttl = some ttl → 0 ≤ ttl.toInt →
      event.age (now i) < 0 → event.age (now i) % 2 ^ 64 / 1000000 ≤ ttl.toInt

theorem ttlExact_iff (q : PriorityQueue π) (now : ℕ → Int64) :
    TtlExact q now ↔ NoneWraps q now := by
  constructor
  · intro h i event fate ttl hi httl hpos hfut
    by_contra hwrap
    have hexpd := (PrioritizedEvent.isExpired_iff httl hpos).mpr (not_le.mp hwrap)
    obtain rfl := (judged_fates q now i event fate hi).mpr hexpd
    exact absurd (h i event ttl hi httl hpos).2 (not_le.mpr hfut)
  · intro h i event ttl hi httl hpos
    have hexpd := (judged_fates q now i event .expired hi).mp rfl
    rw [PrioritizedEvent.isExpired_iff httl hpos] at hexpd
    have hage : 0 ≤ event.age (now i) := by
      by_contra hfut
      exact absurd (h i event .expired ttl hi httl hpos (not_le.mp hfut)) (not_le.mpr hexpd)
    refine ⟨hexpd.trans_le (Int.ediv_le_ediv (by norm_num) ?_), hage⟩
    omega

def aheadOfClock : PrioritizedEvent Unit := ⟨"status", .normal, (), 1, 0, some 1000, none⟩

theorem not_ttlExact : ¬ ∀ (π : Type) (q : PriorityQueue π) now, TtlExact q now := by
  intro h
  have hfat : (((make 10 8 9).push aheadOfClock).2.fates fun _ => 0)[0]? =
      some (aheadOfClock, .expired) := by
    decide +kernel
  have hxct := (h Unit _ _ 0 aheadOfClock 1000 hfat rfl (by decide)).2
  exact absurd hxct (by decide +kernel)

end PriorityQueue
end Mxrc.Event
