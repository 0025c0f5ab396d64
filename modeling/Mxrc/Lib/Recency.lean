import Mathlib

/-!
# Lists in order of time

A list without repetitions, oldest element first. `touch` makes an element the
newest one, and `List.rtake n` is the window of the `n` newest. A suffix of such
a list stays one when both lists are touched.
-/

namespace Mxrc.Lib
open List
variable {α : Type*}

lemma insertionSort_eq_of_pairwise_lt {κ : Type*} [LinearOrder κ] (key : α → κ) {l l' : List α}
    (hperm : l.Perm l') (hsrt : l'.Pairwise fun a b => key a < key b) :
    l.insertionSort (fun a b => key a ≤ key b) = l' := by
  have htot : Std.Total fun a b => key a ≤ key b := ⟨fun a b => le_total _ _⟩
  have htrn : IsTrans α fun a b => key a ≤ key b := ⟨fun _ _ _ => le_trans⟩
  have hinj : ∀ a ∈ l', ∀ b ∈ l', key a = key b → a = b := by
    intro a ha b hb hkey
    by_contra hne
    have hsymm : Std.Symm fun a b => key a ≠ key b := ⟨fun _ _ h => h.symm⟩
    have hkeys : l'.Pairwise fun a b => key a ≠ key b := hsrt.imp ne_of_lt
    exact hkeys.forall ha hb hne hkey
  have hsort := l.perm_insertionSort fun a b => key a ≤ key b
  refine List.Perm.eq_of_pairwise ?_ (pairwise_insertionSort _ l) (hsrt.imp le_of_lt)
    (hsort.trans hperm)
  intro a b ha hb hab hba
  exact hinj a ((hsort.trans hperm).mem_iff.mp ha) b hb (le_antisymm hab hba)

lemma mem_rtake_iff_of_suffix {l w : List α} (h : l <:+ w) {x : α} (hx : x ∈ l) (n : ℕ) :
    x ∈ l.rtake n ↔ x ∈ w.rtake n := by
  obtain ⟨p, rfl⟩ := h
  rw [List.rtake, List.rtake, length_append]
  by_cases hn : n ≤ l.length
  · have hdrop : p.length + l.length - n = p.length + (l.length - n) := by omega
    rw [hdrop, drop_length_add_append]
  · have hnone : l.length - n = 0 := by omega
    have hpart : p.length + l.length - n ≤ p.length := by omega
    rw [hnone, drop_zero, drop_append_of_le_length hpart]
    exact iff_of_true hx (mem_append_right _ hx)

lemma rtake_suffix (l : List α) (n : ℕ) : l.rtake n <:+ l := List.drop_suffix _ _

lemma mem_of_mem_rtake {l : List α} {n : ℕ} {x : α} (h : x ∈ l.rtake n) : x ∈ l :=
  (rtake_suffix l n).subset h

lemma rtake_subset_rtake {l : List α} {m n : ℕ} (hmn : m ≤ n) : l.rtake m ⊆ l.rtake n := by
  have hsuf : l.rtake m <:+ l.rtake n := by
    rw [List.rtake, List.rtake]
    exact drop_suffix_drop_left _ (by omega)
  exact hsuf.subset

section
variable [DecidableEq α] {l w : List α} {x y : α} {n : ℕ}

def touch (x : α) (l : List α) : List α := l.erase x ++ [x]

@[simp] lemma mem_touch : y ∈ touch x l ↔ y = x ∨ y ∈ l := by
  by_cases hyx : y = x
  · simp [touch, hyx]
  · simp [touch, hyx, mem_erase_of_ne hyx]

lemma nodup_touch (h : l.Nodup) : (touch x l).Nodup := by
  refine List.Nodup.append (h.erase x) (nodup_singleton x) ?_
  rw [disjoint_singleton]
  exact h.not_mem_erase

lemma suffix_touch (hw : w.Nodup) (h : l <:+ w) : touch x l <:+ touch x w := by
  obtain ⟨p, rfl⟩ := h
  rw [touch, touch, erase_append]
  split_ifs with hp
  · have hl : x ∉ l := fun hl => (nodup_append.mp hw).2.2 x hp x hl rfl
    rw [erase_of_not_mem hl]
    exact ⟨p.erase x, by simp⟩
  · exact ⟨p, by simp⟩

lemma touch_eq_self (h : l.Nodup) (hlast : l.getLast? = some x) : touch x l = l := by
  have hl : l.dropLast ++ [x] = l := dropLast_append_getLast? x hlast
  rw [← hl] at h ⊢
  have hx : x ∉ l.dropLast := fun hx =>
    (nodup_append.mp h).2.2 x hx x (mem_singleton_self x) rfl
  rw [touch, erase_append_right _ hx, erase_cons_head, append_nil]

lemma filter_mem_of_suffix (hw : w.Nodup) (h : l <:+ w) : w.filter (· ∈ l) = l := by
  obtain ⟨p, rfl⟩ := h
  have hp : p.filter (· ∈ l) = [] := by
    rw [filter_eq_nil_iff]
    intro x hx hxl
    exact (nodup_append.mp hw).2.2 x hx x (by simpa using hxl) rfl
  have hl : l.filter (· ∈ l) = l := by
    rw [filter_eq_self]
    simp
  rw [filter_append, hp, hl, nil_append]

lemma filter_touch (p : α → Bool) :
    (touch x l).filter p = if p x then touch x (l.filter p) else l.filter p := by
  rw [touch, filter_append, ← erase_filter]
  split_ifs with hp
  · simp [touch, hp]
  · have hx : x ∉ l.filter p := fun hx => hp (mem_filter.mp hx).2
    rw [erase_of_not_mem hx]
    simp [hp]

lemma mem_rtake_touch (h : y ∈ (touch x l).rtake n) : y = x ∨ y ∈ l.rtake n := by
  cases n with
  | zero => simp at h
  | succ n =>
    rw [touch, rtake_concat_succ, mem_append, mem_singleton] at h
    refine h.symm.imp_right fun hy => ?_
    by_cases hx : x ∈ l
    · obtain ⟨a, b, -, rfl, herase⟩ := exists_erase_eq hx
      rw [herase] at hy
      have hspl : y ∈ (a ++ b).rtake n → y ∈ (a ++ x :: b).rtake (n + 1) := by
        simp only [List.rtake, length_append, length_cons, drop_append]
        intro hy
        have hleft : a.length + (b.length + 1) - (n + 1) = a.length + b.length - n := by omega
        rw [hleft]
        refine (mem_append.mp hy).elim (fun hy => mem_append_left _ hy) fun hy => ?_
        refine mem_append_right _ ?_
        cases hk : a.length + b.length - n - a.length with
        | zero =>
          rw [hk, drop_zero] at hy
          exact mem_cons_of_mem x hy
        | succ k =>
          rw [hk] at hy
          exact (drop_suffix_drop_left b (Nat.le_succ k)).subset hy
      exact hspl hy
    · rw [erase_of_not_mem hx] at hy
      exact rtake_subset_rtake (Nat.le_succ n) hy

end
end Mxrc.Lib
