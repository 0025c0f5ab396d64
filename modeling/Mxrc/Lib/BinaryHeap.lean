import Mathlib

/-!
# Binary heaps

A list in which no entry is below one of its children, for a strict weak order
`lt`. `pop` puts the last entry first, moves it down along the larger children
to a leaf and sifts it up from there, as `pop_heap` does. The invariants allow
for the one entry that is out of place.
-/

namespace Mxrc.Lib
open List Multiset
variable {α : Type*}

def parent (i : ℕ) : ℕ := (i - 1) / 2

lemma parent_lt {i : ℕ} (hi : 0 < i) : parent i < i := by
  unfold parent
  omega

lemma parent_eq_iff {i j : ℕ} (hj : 0 < j) : parent j = i ↔ j = 2 * i + 1 ∨ j = 2 * i + 2 := by
  unfold parent
  omega

lemma getElem?_swap {l : List α} {i j : ℕ} (hi : i < l.length) (hj : j < l.length) (k : ℕ) :
    (l.swap i j)[k]? = if k = i then l[j]? else if k = j then l[i]? else l[k]? := by
  rw [swap_eq_of_lt hi hj]
  simp only [getElem?_set, length_set]
  grind

def Above (lt : α → α → Bool) (l : List α) (i j : ℕ) : Prop :=
  ∀ x ∈ l[i]?, ∀ y ∈ l[j]?, lt x y = false

def IsHeap (lt : α → α → Bool) (l : List α) : Prop := ∀ j, 0 < j → Above lt l (parent j) j

section
variable (lt : α → α → Bool)

def siftUp : ℕ → List α → ℕ → List α
  | 0, l, _ => l
  | fuel + 1, l, i =>
    match l[parent i]?, l[i]? with
    | some x, some y => if lt x y then siftUp fuel (l.swap (parent i) i) (parent i) else l
    | _, _ => l

def largerChild (l : List α) (i : ℕ) : Option ℕ :=
  match l[2 * i + 1]?, l[2 * i + 2]? with
  | none, _ => none
  | some _, none => some (2 * i + 1)
  | some x, some y => if lt y x then some (2 * i + 1) else some (2 * i + 2)

def siftDown : ℕ → List α → ℕ → List α × ℕ
  | 0, l, i => (l, i)
  | fuel + 1, l, i =>
    match largerChild lt l i with
    | none => (l, i)
    | some c => siftDown fuel (l.swap i c) c

def pushHeap (l : List α) (a : α) : List α := siftUp lt l.length (l ++ [a]) l.length

def siftRoot (l : List α) : List α :=
  let leaf := siftDown lt l.length l 0
  siftUp lt leaf.2 leaf.1 leaf.2

def popHeap : List α → List α
  | [] => []
  | [_] => []
  | _ :: b :: rest => siftRoot lt ((b :: rest).getLast (by simp) :: (b :: rest).dropLast)

lemma siftUp_perm (fuel : ℕ) (l : List α) (i : ℕ) : (siftUp lt fuel l i).Perm l := by
  induction fuel generalizing l i with
  | zero => exact .refl _
  | succ fuel ih =>
    rw [siftUp]
    split
    · split
      · exact (ih _ _).trans (swap_perm ..)
      · exact .refl _
    · exact .refl _

lemma siftDown_perm (fuel : ℕ) (l : List α) (i : ℕ) : (siftDown lt fuel l i).1.Perm l := by
  induction fuel generalizing l i with
  | zero => exact .refl _
  | succ fuel ih =>
    rw [siftDown]
    split
    · exact .refl _
    · exact (ih _ _).trans (swap_perm ..)

lemma pushHeap_perm (l : List α) (a : α) : (pushHeap lt l a).Perm (a :: l) :=
  (siftUp_perm lt _ _ _).trans (perm_append_singleton a l)

lemma popHeap_perm (a : α) (l : List α) : (popHeap lt (a :: l)).Perm l := by
  cases l with
  | nil => exact .refl _
  | cons b rest =>
    rw [popHeap, siftRoot]
    refine (siftUp_perm lt _ _ _).trans ((siftDown_perm lt _ _ _).trans ?_)
    have hlast := dropLast_append_getLast (cons_ne_nil b rest)
    conv_rhs => rw [← hlast]
    exact (perm_append_singleton _ _).symm

end

section
variable {lt : α → α → Bool} {l : List α} {i : ℕ}

structure UpReady (lt : α → α → Bool) (l : List α) (i : ℕ) : Prop where
  edges : ∀ j, 0 < j → j ≠ i → Above lt l (parent j) j
  below : ∀ j, 0 < j → parent j = i → 0 < i → Above lt l (parent i) j

structure DownReady (lt : α → α → Bool) (l : List α) (i : ℕ) : Prop where
  edges : ∀ j, 0 < j → j ≠ i → parent j ≠ i → Above lt l (parent j) j
  below : ∀ j, 0 < j → parent j = i → 0 < i → Above lt l (parent i) j

lemma largerChild_spec {c : ℕ} (h : largerChild lt l i = some c) :
    0 < c ∧ parent c = i ∧ c < l.length := by
  have hleng : ∀ {k x}, l[k]? = some x → k < l.length := fun h =>
    (List.getElem?_eq_some_iff.mp h).1
  rw [largerChild] at h
  split at h
  · simp at h
  · rename_i hx _
    cases h
    exact ⟨by omega, by unfold parent; omega, hleng hx⟩
  · rename_i hx hy
    split_ifs at h <;> cases h
    · exact ⟨by omega, by unfold parent; omega, hleng hx⟩
    · exact ⟨by omega, by unfold parent; omega, hleng hy⟩

lemma largerChild_eq_none (h : largerChild lt l i = none) : l.length ≤ 2 * i + 1 := by
  rw [largerChild] at h
  split at h
  · rename_i hx
    exact List.getElem?_eq_none_iff.mp hx
  · simp at h
  · split_ifs at h

lemma UpReady.isHeap (h : UpReady lt l i) (hroot : i = 0 ∨ Above lt l (parent i) i) :
    IsHeap lt l := by
  intro j hj
  by_cases hji : j = i
  · subst hji
    exact hroot.resolve_left hj.ne'
  · exact h.edges j hj hji

lemma DownReady.upReady (h : DownReady lt l i) (hleaf : l.length ≤ 2 * i + 1) :
    UpReady lt l i := by
  have hnone : ∀ j, 0 < j → parent j = i → l[j]? = none := by
    intro j hj hpar
    rw [parent_eq_iff hj] at hpar
    exact getElem?_eq_none (by omega)
  constructor
  · intro j hj hji a ha b hb
    by_cases hpar : parent j = i
    · simp [hnone j hj hpar] at hb
    · exact h.edges j hj hji hpar a ha b hb
  · intro j hj hpar _ a _ b hb
    simp [hnone j hj hpar] at hb

section
variable [Std.Asymm (fun x y => lt x y = true)]

lemma not_lt_of_lt {x y : α} (h : lt x y = true) : lt y x = false := by
  have := Std.Asymm.asymm (r := fun x y => lt x y = true) x y h
  simpa using this

lemma largerChild_max {c : ℕ} (h : largerChild lt l i = some c) {j : ℕ} (hj : 0 < j)
    (hpar : parent j = i) (hne : j ≠ c) : Above lt l c j := by
  intro a ha b hb
  rw [parent_eq_iff hj] at hpar
  rw [largerChild] at h
  split at h
  · simp at h
  · rename_i hnone
    cases h
    obtain rfl : j = 2 * i + 2 := by omega
    simp [hnone] at hb
  · rename_i x y hx hy
    split_ifs at h with hlt <;> cases h
    · obtain rfl : j = 2 * i + 2 := by omega
      cases hx.symm.trans ha
      cases hy.symm.trans hb
      exact not_lt_of_lt hlt
    · obtain rfl : j = 2 * i + 1 := by omega
      cases hx.symm.trans hb
      cases hy.symm.trans ha
      simpa using hlt

lemma DownReady.swap (h : DownReady lt l i) {c : ℕ} (hc : largerChild lt l i = some c) :
    DownReady lt (l.swap i c) c := by
  obtain ⟨hpos, hpar, hclen⟩ := largerChild_spec hc
  have hic : i < c := hpar ▸ parent_lt hpos
  have hget := getElem?_swap (hic.trans hclen) hclen
  constructor
  · intro j hj hjc hpjc a ha b hb
    have hpj : parent j < j := parent_lt hj
    rw [hget, if_neg hpjc] at ha
    rw [hget, if_neg hjc] at hb
    split_ifs at ha hb with hpi hji hji
    · omega
    · exact largerChild_max hc hj hpi hjc a ha b hb
    · -- the edge into `i`: its new entry was a child of `i`
      subst hji
      exact h.below c hpos hpar hj a ha b hb
    · exact h.edges j hj hji hpi a ha b hb
  · intro j hj hpj _ a ha b hb
    have hcj : c < j := hpj ▸ parent_lt hj
    rw [hpar, hget, if_pos rfl] at ha
    rw [hget, if_neg (hic.trans hcj).ne', if_neg hcj.ne'] at hb
    have hold := h.edges j hj (hic.trans hcj).ne' (hpj ▸ hic.ne')
    rw [hpj] at hold
    exact hold a ha b hb

lemma siftDown_upReady {fuel : ℕ} (h : DownReady lt l i) (hfuel : l.length ≤ fuel + i) :
    UpReady lt (siftDown lt fuel l i).1 (siftDown lt fuel l i).2 := by
  induction fuel generalizing l i with
  | zero => exact h.upReady (by omega)
  | succ fuel ih =>
    rw [siftDown]
    split
    · rename_i hnone
      exact h.upReady (largerChild_eq_none hnone)
    · rename_i c hc
      obtain ⟨hpos, hpar, -⟩ := largerChild_spec hc
      have hic := parent_lt hpos
      refine ih (h.swap hc) ?_
      rw [length_swap]
      omega

variable [IsOrderConnected α (fun x y => lt x y = true)]

omit [Std.Asymm (fun x y => lt x y = true)] in
lemma not_lt_trans {x y z : α} (hxy : lt x y = false) (hyz : lt y z = false) :
    lt x z = false := by
  have := IsOrderConnected.neg_trans (r := fun x y => lt x y = true) (a := x) (b := y) (c := z)
    (by simp [hxy]) (by simp [hyz])
  simpa using this

lemma UpReady.swap (h : UpReady lt l i) (hi : 0 < i) {x y : α} (hx : l[parent i]? = some x)
    (hy : l[i]? = some y) (hlt : lt x y = true) :
    UpReady lt (l.swap (parent i) i) (parent i) := by
  have hpi : parent i < i := parent_lt hi
  have hilen : i < l.length := (List.getElem?_eq_some_iff.mp hy).1
  have hget := getElem?_swap (hpi.trans hilen) hilen
  have hyx : lt y x = false := not_lt_of_lt hlt
  constructor
  · intro j hj hne a ha b hb
    have hpj : parent j < j := parent_lt hj
    rw [hget] at ha hb
    by_cases hji : j = i
    · subst hji
      simp_all
    · have hold : Above lt l (parent j) j := h.edges j hj hji
      rw [if_neg hne, if_neg hji] at hb
      split_ifs at ha with hpar hchl
      · -- a sibling of `i` is below the old parent, hence below the new one
        cases hy.symm.trans ha
        rw [hpar] at hold
        exact not_lt_trans hyx (hold x hx b hb)
      · cases hx.symm.trans ha
        exact h.below j hj hchl hi x hx b hb
      · exact hold a ha b hb
  · intro j hj hpar hpos a ha b hb
    have hpp : parent (parent i) < parent i := parent_lt hpos
    have hgrn : Above lt l (parent (parent i)) (parent i) := h.edges _ hpos hpi.ne
    rw [hget, if_neg hpp.ne, if_neg (hpp.trans hpi).ne] at ha
    have hax := hgrn a ha x hx
    rw [hget, if_neg (by have := parent_lt hj; omega)] at hb
    split_ifs at hb with hji
    · cases hx.symm.trans hb
      exact hax
    · have hold : Above lt l (parent j) j := h.edges j hj hji
      rw [hpar] at hold
      exact not_lt_trans hax (hold x hx b hb)

lemma siftUp_isHeap {fuel : ℕ} (h : UpReady lt l i) (hfuel : i ≤ fuel) :
    IsHeap lt (siftUp lt fuel l i) := by
  induction fuel generalizing l i with
  | zero => exact h.isHeap (Or.inl (Nat.le_zero.mp hfuel))
  | succ fuel ih =>
    rw [siftUp]
    split
    · rename_i x y hx hy
      split_ifs with hlt
      · rcases Nat.eq_zero_or_pos i with hi | hi
        · subst hi
          cases hx.symm.trans hy
          exact absurd (not_lt_of_lt hlt) (by simp [hlt])
        · have hpi := parent_lt hi
          exact ih (h.swap hi hx hy hlt) (by omega)
      · refine h.isHeap (Or.inr fun a ha b hb => ?_)
        cases hx.symm.trans ha
        cases hy.symm.trans hb
        simpa using hlt
    · rename_i hnone
      exact h.isHeap (Or.inr fun a ha b hb => absurd hb (hnone a b ha))

lemma IsHeap.root_max (h : IsHeap lt l) {a : α} (ha : l[0]? = some a) (j : ℕ) :
    ∀ b ∈ l[j]?, lt a b = false := by
  induction j using Nat.strong_induction_on with
  | h j ih =>
    intro b hb
    rcases Nat.eq_zero_or_pos j with hj | hj
    · subst hj
      cases ha.symm.trans hb
      by_contra hlt
      rw [Bool.not_eq_false] at hlt
      exact absurd (not_lt_of_lt hlt) (by simp [hlt])
    · have hpj := parent_lt hj
      have hlen : parent j < l.length := hpj.trans (List.getElem?_eq_some_iff.mp hb).1
      have hp := getElem?_eq_getElem hlen
      exact not_lt_trans (ih _ hpj _ hp) (h j hj _ hp b hb)

lemma pushHeap_isHeap (h : IsHeap lt l) (a : α) : IsHeap lt (pushHeap lt l a) := by
  have hold : ∀ {k}, k < l.length → (l ++ [a])[k]? = l[k]? := getElem?_append_left
  refine siftUp_isHeap ⟨?_, ?_⟩ le_rfl
  · intro j hj hne x hx y hy
    have hlen := (List.getElem?_eq_some_iff.mp hy).1
    rw [length_append, length_singleton] at hlen
    have hpj := parent_lt hj
    rw [hold (by omega)] at hx hy
    exact h j hj x hx y hy
  · intro j hj hpar _ x hx y hy
    have hlen := (List.getElem?_eq_some_iff.mp hy).1
    have hpj := parent_lt hj
    rw [length_append, length_singleton] at hlen
    omega

lemma siftRoot_isHeap (h : DownReady lt l 0) : IsHeap lt (siftRoot lt l) :=
  siftUp_isHeap (siftDown_upReady h le_rfl) le_rfl

lemma popHeap_isHeap (h : IsHeap lt l) : IsHeap lt (popHeap lt l) := by
  match l, h with
  | [], h => exact h
  | [_], _ => exact fun j hj a ha b hb => by simp [popHeap] at hb
  | a :: b :: rest, h =>
    refine siftRoot_isHeap ⟨?_, fun _ _ _ hpos => absurd hpos (lt_irrefl 0)⟩
    intro j hj _ hpar x hx y hy
    -- behind the root the entries are where they were
    have hold : ∀ {k z}, 0 < k →
        ((b :: rest).getLast (by simp) :: (b :: rest).dropLast)[k]? = some z →
          (a :: b :: rest)[k]? = some z := by
      intro k z hk hz
      obtain ⟨k, rfl⟩ := Nat.exists_eq_succ_of_ne_zero hk.ne'
      rw [getElem?_cons_succ, getElem?_dropLast] at hz
      split_ifs at hz
      rwa [getElem?_cons_succ]
    exact h j hj x (hold (Nat.pos_of_ne_zero hpar) hx) y (hold hj hy)

end
end

structure BinaryHeap (lt : α → α → Bool) where
  data : List α
  isHeap : IsHeap lt data

namespace BinaryHeap
variable {lt : α → α → Bool}

def empty : BinaryHeap lt := ⟨[], fun _ _ _ h => by simp at h⟩

def top? (h : BinaryHeap lt) : Option α := h.data.head?

def elems (h : BinaryHeap lt) : Multiset α := h.data

variable {h : BinaryHeap lt} {a : α}

lemma top?_eq_none : h.top? = none ↔ h.elems = 0 := by
  rw [top?, elems, head?_eq_none_iff, coe_eq_zero]

lemma mem_of_top? (ha : h.top? = some a) : a ∈ h.elems :=
  mem_of_mem_head? ha

variable [Std.Asymm (fun x y => lt x y = true)] [IsOrderConnected α (fun x y => lt x y = true)]

def push (h : BinaryHeap lt) (a : α) : BinaryHeap lt :=
  ⟨pushHeap lt h.data a, pushHeap_isHeap h.isHeap a⟩

def pop (h : BinaryHeap lt) : BinaryHeap lt := ⟨popHeap lt h.data, popHeap_isHeap h.isHeap⟩

@[simp]
lemma elems_push (h : BinaryHeap lt) (a : α) : (h.push a).elems = a ::ₘ h.elems :=
  coe_eq_coe.mpr (pushHeap_perm lt h.data a)

lemma elems_of_top? (ha : h.top? = some a) : h.elems = a ::ₘ h.pop.elems := by
  obtain ⟨l, hl⟩ := head?_eq_some_iff.mp ha
  have hperm := popHeap_perm lt a l
  rw [← hl] at hperm
  rw [elems, hl]
  exact coe_eq_coe.mpr (hperm.symm.cons a)

lemma pop_subset (ha : h.top? = some a) : h.pop.elems ⊆ h.elems := by
  rw [elems_of_top? ha]
  exact subset_cons _ _

lemma mem_pop_of_ne {b : α} (ha : h.top? = some a) (hb : b ∈ h.elems) (hne : b ≠ a) :
    b ∈ h.pop.elems := by
  rw [elems_of_top? ha] at hb
  exact (Multiset.mem_cons.mp hb).resolve_left hne

lemma top?_max (ha : h.top? = some a) : ∀ b ∈ h.elems, lt a b = false := by
  intro b hb
  obtain ⟨j, hj⟩ := mem_iff_getElem?.mp hb
  exact h.isHeap.root_max (head?_eq_getElem? ▸ ha) j b hj

end BinaryHeap
end Mxrc.Lib
