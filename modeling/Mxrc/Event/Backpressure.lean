import Mxrc.Event.Fates
import Mxrc.Lib.Binary64

/-!
# Backpressure

Every priority but the highest has a limit: an event is refused when the queue
has at least that many events. The two limits below the capacity are computed in
floating point; the roundings do not change the order of 80%, 90% and 100%.
-/

namespace Mxrc.Event
open Mxrc.Lib Multiset

namespace PriorityQueue
variable {π : Type}

/-- The constructor's `static_cast<size_t>(capacity * fraction)`, with roundings to doubles. -/
def dropThreshold (capacity : ℕ) (fraction : ℚ) : ℕ :=
  ⌊Binary64.nearest (Binary64.nearest capacity * Binary64.nearest fraction)⌋₊

def ofCapacity (capacity : ℕ) : PriorityQueue π :=
  make capacity (dropThreshold capacity 0.8) (dropThreshold capacity 0.9)

section
variable {f g : ℚ}

section
variable (capacity : ℕ) (hf : 0 ≤ f)
include capacity hf

lemma product_le :
    Binary64.nearest (Binary64.nearest capacity * Binary64.nearest f) ≤
      Binary64.nearest capacity * (f * (1 + 1 / 2 ^ 53) ^ 2) := by
  have hc : 0 ≤ Binary64.nearest (capacity : ℚ) := Binary64.nearest_nonneg (Nat.cast_nonneg _)
  calc Binary64.nearest (Binary64.nearest capacity * Binary64.nearest f)
      ≤ Binary64.nearest capacity * Binary64.nearest f * (1 + 1 / 2 ^ 53) :=
        Binary64.nearest_le (mul_nonneg hc (Binary64.nearest_nonneg hf))
    _ ≤ Binary64.nearest capacity * (f * (1 + 1 / 2 ^ 53)) * (1 + 1 / 2 ^ 53) := by
        gcongr
        exact Binary64.nearest_le hf
    _ = Binary64.nearest capacity * (f * (1 + 1 / 2 ^ 53) ^ 2) := by ring

lemma le_product :
    Binary64.nearest capacity * (f * (1 - 1 / 2 ^ 53) ^ 2) ≤
      Binary64.nearest (Binary64.nearest capacity * Binary64.nearest f) := by
  have hc : 0 ≤ Binary64.nearest (capacity : ℚ) := Binary64.nearest_nonneg (Nat.cast_nonneg _)
  have hu : (0 : ℚ) ≤ 1 - 1 / 2 ^ 53 := by norm_num
  calc Binary64.nearest capacity * (f * (1 - 1 / 2 ^ 53) ^ 2)
      = Binary64.nearest capacity * (f * (1 - 1 / 2 ^ 53)) * (1 - 1 / 2 ^ 53) := by ring
    _ ≤ Binary64.nearest capacity * Binary64.nearest f * (1 - 1 / 2 ^ 53) := by
        gcongr
        exact Binary64.le_nearest hf
    _ ≤ Binary64.nearest (Binary64.nearest capacity * Binary64.nearest f) :=
        Binary64.le_nearest (mul_nonneg hc (Binary64.nearest_nonneg hf))

lemma dropThreshold_le_dropThreshold (hg : 0 ≤ g)
    (hfg : f * (1 + 1 / 2 ^ 53) ^ 2 ≤ g * (1 - 1 / 2 ^ 53) ^ 2) :
    dropThreshold capacity f ≤ dropThreshold capacity g := by
  have hc : 0 ≤ Binary64.nearest (capacity : ℚ) := Binary64.nearest_nonneg (Nat.cast_nonneg _)
  apply Nat.floor_le_floor
  calc Binary64.nearest (Binary64.nearest capacity * Binary64.nearest f)
      ≤ Binary64.nearest capacity * (f * (1 + 1 / 2 ^ 53) ^ 2) := product_le capacity hf
    _ ≤ Binary64.nearest capacity * (g * (1 - 1 / 2 ^ 53) ^ 2) := by gcongr
    _ ≤ Binary64.nearest (Binary64.nearest capacity * Binary64.nearest g) := le_product capacity hg

lemma dropThreshold_le (hf1 : (1 + 1 / 2 ^ 53) ^ 3 * f ≤ 1) :
    dropThreshold capacity f ≤ capacity := by
  have hc : (0 : ℚ) ≤ capacity := Nat.cast_nonneg _
  apply Nat.floor_le_of_le
  calc Binary64.nearest (Binary64.nearest capacity * Binary64.nearest f)
      ≤ Binary64.nearest capacity * (f * (1 + 1 / 2 ^ 53) ^ 2) := product_le capacity hf
    _ ≤ capacity * (1 + 1 / 2 ^ 53) * (f * (1 + 1 / 2 ^ 53) ^ 2) := by
        gcongr
        exact Binary64.nearest_le hc
    _ = capacity * ((1 + 1 / 2 ^ 53) ^ 3 * f) := by ring
    _ ≤ capacity * 1 := by gcongr
    _ = capacity := mul_one _

end
end

def limit (q : PriorityQueue π) : EventPriority → Option ℕ
  | .critical => none
  | .high => some q.capacity
  | .normal => some q.dropThreshold90
  | .low => some q.dropThreshold80

structure Graded (q : PriorityQueue π) : Prop where
  low_le_normal : q.dropThreshold80 ≤ q.dropThreshold90
  normal_le_high : q.dropThreshold90 ≤ q.capacity

lemma graded_ofCapacity (capacity : ℕ) : Graded (ofCapacity capacity : PriorityQueue π) where
  low_le_normal :=
    dropThreshold_le_dropThreshold capacity (by norm_num) (by norm_num) (by norm_num)
  normal_le_high := dropThreshold_le capacity (by norm_num) (by norm_num)

lemma Graded.shouldDrop_iff {q : PriorityQueue π} (h : Graded q) (priority : EventPriority) :
    q.shouldDrop priority = true ↔ ∃ n ∈ q.limit priority, n ≤ q.size := by
  obtain ⟨hlow, hnor⟩ := h
  by_cases h80 : q.size < q.dropThreshold80
  · cases priority <;> simp [shouldDrop, limit, h80] <;> omega
  by_cases h90 : q.size < q.dropThreshold90
  · cases priority <;> simp [shouldDrop, limit, h80, h90] <;> omega
  by_cases hcap : q.size < q.capacity
  · cases priority <;> simp [shouldDrop, limit, h80, h90, hcap] <;> omega
  · cases priority <;> simp [shouldDrop, limit, h80, h90, hcap] <;> omega

lemma Graded.limit_le {q : PriorityQueue π} (h : Graded q) {p p' : EventPriority} {n : ℕ}
    (hp : p.toNat ≤ p'.toNat) (hn : n ∈ q.limit p) : ∃ n' ∈ q.limit p', n' ≤ n := by
  obtain ⟨hlow, hnor⟩ := h
  cases p <;> cases p' <;> simp [limit, EventPriority.toNat] at hp hn ⊢ <;> omega

def upTo (q : PriorityQueue π) (priority : EventPriority) : ℕ :=
  q.queue.elems.countP fun e => priority.toNat ≤ e.priority.toNat

structure Bounded (q₀ q : PriorityQueue π) : Prop where
  limit : q.limit = q₀.limit
  size : q.size = q.queue.elems.card
  upTo_le : ∀ priority, ∀ n ∈ q.limit priority, q.upTo priority ≤ n

section
variable {q₀ q : PriorityQueue π} {event : PrioritizedEvent π}

lemma Graded.congr (h : Graded q₀) (hlim : q.limit = q₀.limit) : Graded q := by
  have hlow : q.dropThreshold80 = q₀.dropThreshold80 := Option.some.inj (congrFun hlim .low)
  have hnor : q.dropThreshold90 = q₀.dropThreshold90 :=
    Option.some.inj (congrFun hlim .normal)
  have hhigh : q.capacity = q₀.capacity := Option.some.inj (congrFun hlim .high)
  exact ⟨by rw [hlow, hnor]; exact h.low_le_normal,
    by rw [hnor, hhigh]; exact h.normal_le_high⟩

lemma Bounded.congr {q' : PriorityQueue π} (h : Bounded q₀ q) (hlim : q'.limit = q.limit)
    (hqu : q'.queue = q.queue) (hsize : q'.size = q.size) : Bounded q₀ q' := by
  constructor
  · rw [hlim, h.limit]
  · rw [hsize, hqu, h.size]
  · rw [hlim]
    intro priority n hn
    rw [upTo, hqu]
    exact h.upTo_le priority n hn

lemma Bounded.takeTop (h : Bounded q₀ q) (htop : q.queue.top? = some event) :
    Bounded q₀ q.takeTop where
  limit := h.limit
  size := by
    have hsize := h.size
    rw [BinaryHeap.elems_of_top? htop, card_cons] at hsize
    change q.size - 1 = _
    rw [hsize]
    rfl
  upTo_le priority n hn := by
    refine le_trans ?_ (h.upTo_le priority n hn)
    rw [upTo, upTo, BinaryHeap.elems_of_top? htop]
    exact countP_le_of_le _ (le_cons_self _ _)

lemma Bounded.pop (h : Bounded q₀ q) (now : ℕ → Int64) : Bounded q₀ (q.pop now).2 := by
  refine pop_rule (I := Bounded q₀) (Q := fun _ q => Bounded q₀ q) ?_ ?_ ?_ ?_ h now
  · exact fun q hq _ => hq
  · exact fun q event _ hq htop _ => (hq.takeTop htop).congr rfl rfl rfl
  · exact fun q event hq htop _ => hq.takeTop htop
  · exact fun q event hq htop _ => (hq.takeTop htop).congr rfl rfl rfl

lemma Bounded.enqueue (h : Bounded q₀ q) (hgrad : Graded q₀)
    (hdrop : q.shouldDrop event.priority = false) : Bounded q₀ (q.enqueue event) := by
  have hgrad' := hgrad.congr h.limit
  have hroom : ∀ n ∈ q.limit event.priority, q.size < n := by
    intro n hn
    by_contra hle
    have hdrop' := (hgrad'.shouldDrop_iff event.priority).mpr ⟨n, hn, not_lt.mp hle⟩
    simp [hdrop] at hdrop'
  have hlim : (q.enqueue event).limit = q.limit := by
    rw [PriorityQueue.enqueue, track]
    split <;> rfl
  constructor
  · exact hlim.trans h.limit
  · rw [(queue_enqueue q event).2, elems_enqueue, card_cons, h.size]
  · intro priority n hn
    rw [hlim] at hn
    rw [upTo, elems_enqueue, countP_cons]
    by_cases hlev : priority.toNat ≤ event.priority.toNat
    · -- the event counts here, and its own limit left room
      rw [if_pos hlev]
      obtain ⟨n', hn', hle⟩ := hgrad'.limit_le hlev hn
      have hcnt := countP_le_card
        (fun e : PrioritizedEvent π => priority.toNat ≤ e.priority.toNat) q.queue.elems
      have hcard := h.size
      have hlt := hroom n' hn'
      omega
    · rw [if_neg hlev]
      exact h.upTo_le priority n hn

lemma Bounded.push (h : Bounded q₀ q) (hgrad : Graded q₀) (event : PrioritizedEvent π) :
    Bounded q₀ (q.push event).2 := by
  rw [push_eq]
  split_ifs with hdrop
  · exact h.congr rfl rfl rfl
  · exact h.enqueue hgrad (Bool.eq_false_of_not_eq_true hdrop)

end

namespace Trace

def ofCapacity (capacity : ℕ) : Trace π := ⟨PriorityQueue.ofCapacity capacity, [], []⟩

lemma bounded_of_run {capacity : ℕ} {ops : List (Op π)} {s : Trace π}
    (h : Run next (fun _ _ => True) (ofCapacity capacity) ops s) :
    Bounded (PriorityQueue.ofCapacity capacity) s.queue := by
  refine h.invariant (fun s => Bounded (PriorityQueue.ofCapacity capacity) s.queue)
    ⟨rfl, rfl, fun _ _ _ => Nat.zero_le _⟩ ?_
  intro s op s' hs _ hn
  cases op with
  | push event =>
    cases hn
    exact hs.push (graded_ofCapacity capacity) event
  | pop now =>
    cases hn
    exact hs.pop now

def ReservesRoom (capacity t80 t90 : ℕ) (s : Trace π) : Prop :=
  s.queue.queue.elems.countP (fun e => e.priority = .low) ≤ t80 ∧
  s.queue.queue.elems.countP (fun e => e.priority = .low ∨ e.priority = .normal) ≤ t90 ∧
  s.queue.queue.elems.countP (fun e => e.priority ≠ .critical) ≤ capacity ∧
  (∀ event, event.priority = .critical → (s.queue.push event).1 = true) ∧
  ∀ event, (s.queue.push event).1 = false →
    event.priority = .low ∧ t80 ≤ s.queue.queue.elems.card ∨
    event.priority = .normal ∧ t90 ≤ s.queue.queue.elems.card ∨
    event.priority = .high ∧ capacity ≤ s.queue.queue.elems.card

lemma refused_iff {q₀ q : PriorityQueue π} (h : Bounded q₀ q) (hgrad : Graded q₀)
    (event : PrioritizedEvent π) :
    (q.push event).1 = false ↔ ∃ n ∈ q₀.limit event.priority, n ≤ q.queue.elems.card := by
  have hdrop := (hgrad.congr h.limit).shouldDrop_iff event.priority
  rw [h.limit, h.size] at hdrop
  rw [← hdrop, push_eq]
  split_ifs with hd <;> simp [hd]

theorem reservesRoom (capacity : ℕ) (ops : List (Op π)) :
    dropThreshold capacity 0.8 ≤ dropThreshold capacity 0.9 ∧
    dropThreshold capacity 0.9 ≤ capacity ∧
    ∀ s : Trace π, Run next (fun _ _ => True) (ofCapacity capacity) ops s →
      ReservesRoom capacity (dropThreshold capacity 0.8) (dropThreshold capacity 0.9) s := by
  have hgrad : Graded (PriorityQueue.ofCapacity capacity : PriorityQueue π) :=
    graded_ofCapacity capacity
  refine ⟨hgrad.low_le_normal, hgrad.normal_le_high, fun s hrun => ?_⟩
  have hboun := bounded_of_run hrun
  have hupTo : ∀ priority,
      ∀ n ∈ (PriorityQueue.ofCapacity capacity : PriorityQueue π).limit priority,
        s.queue.upTo priority ≤ n := by
    rw [← hboun.limit]
    exact hboun.upTo_le
  have href := refused_iff hboun hgrad
  refine ⟨?_, ?_, ?_, ?_, ?_⟩
  · refine le_trans (le_of_eq ?_) (hupTo .low _ rfl)
    exact countP_congr rfl fun e _ => by cases e.priority <;> simp [EventPriority.toNat]
  · refine le_trans (le_of_eq ?_) (hupTo .normal _ rfl)
    exact countP_congr rfl fun e _ => by cases e.priority <;> simp [EventPriority.toNat]
  · refine le_trans (le_of_eq ?_) (hupTo .high _ rfl)
    exact countP_congr rfl fun e _ => by cases e.priority <;> simp [EventPriority.toNat]
  · intro event hcrit
    rw [← Bool.not_eq_false, href, hcrit]
    simp [limit]
  · intro event hev
    obtain ⟨n, hn, hle⟩ := (href event).mp hev
    cases hprior : event.priority <;> rw [hprior] at hn <;> cases hn
    · exact Or.inr (Or.inr ⟨rfl, hle⟩)
    · exact Or.inr (Or.inl ⟨rfl, hle⟩)
    · exact Or.inl ⟨rfl, hle⟩

end Trace
end PriorityQueue
end Mxrc.Event
