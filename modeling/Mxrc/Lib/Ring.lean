import Mathlib

/-!
# Ring buffers

Number `k` of the elements uses slot `k % c`. `Window c p r`: the numbers from
`p` up to `r` are in the ring and a slot is free. `Newest c all v i`: the slots
`v`, with `i` the next to be written, hold the newest of `all`.
-/

namespace Mxrc.Lib.Ring
open List

structure Window (c p r : ℕ) : Prop where
  le : p ≤ r
  lt : r < p + c

variable {c p r : ℕ}

lemma slot_inj {k k' : ℕ} (hk : p ≤ k) (hk' : p ≤ k') (hlt : k < p + c) (hlt' : k' < p + c)
    (h : k % c = k' % c) : k = k' :=
  Nat.mod_injOn_Ico p c (by simp [hk, hlt]) (by simp [hk', hlt']) h

lemma next_slot (k c : ℕ) : (k % c + 1) % c = (k + 1) % c := Nat.mod_add_mod k c 1

lemma Window.full_iff (h : Window c p r) : (r % c + 1) % c = p % c ↔ r + 1 = p + c := by
  obtain ⟨hle, hlt⟩ := h
  rw [next_slot]
  constructor
  · intro hslot
    by_contra hne
    have heq : r + 1 = p := slot_inj (by omega) le_rfl (by omega) (by omega) hslot
    omega
  · intro heq
    rw [heq, Nat.add_mod_right]

lemma Window.enter (h : Window c p r) (hfull : (r % c + 1) % c ≠ p % c) :
    Window c p (r + 1) := by
  have hne : r + 1 ≠ p + c := fun heq => hfull (h.full_iff.mpr heq)
  obtain ⟨hle, hlt⟩ := h
  exact ⟨by omega, by omega⟩

lemma Window.leave (h : Window c p r) (hne : p ≠ r) : Window c (p + 1) r := by
  obtain ⟨hle, hlt⟩ := h
  exact ⟨by omega, by omega⟩

lemma prefix_concat {α : Type*} {l m : List α} {a : α} (h : l <+: m)
    (ha : m[l.length]? = some a) : l ++ [a] <+: m := by
  obtain ⟨t, rfl⟩ := h
  rw [getElem?_append_right le_rfl, Nat.sub_self] at ha
  obtain ⟨b, rest, rfl⟩ := exists_cons_of_ne_nil (l := t) (by rintro rfl; simp at ha)
  cases ha
  exact ⟨rest, by simp⟩

section
variable {α : Type*} {all v : List α} {i : ℕ}

structure Newest (c : ℕ) (all v : List α) (i : ℕ) : Prop where
  length : v.length = c
  slot : i = all.length % c
  filling : all.length ≤ c → v.take all.length = all
  full : c ≤ all.length → v.rotate i = all.rtake c

lemma Newest.empty (h : v.length = c) : Newest c ([] : List α) v 0 where
  length := h
  slot := (Nat.zero_mod c).symm
  filling := fun _ => List.take_zero
  full := by
    intro hc
    have hzero : v.length = 0 := by
      rw [h]
      exact Nat.le_zero.mp hc
    rw [eq_nil_of_length_eq_zero hzero, rotate_nil, rtake_nil]

lemma take_succ_set (hi : i < v.length) (a : α) :
    (v.set i a).take (i + 1) = v.take i ++ [a] := by
  have hend : (v.take i).length = i := by
    rw [length_take]
    omega
  rw [take_set, take_succ_eq_append_getElem hi, set_append_right _ _ hend.le, hend, Nat.sub_self]
  rfl

lemma rotate_set_succ (hi : i < v.length) (a : α) :
    (v.set i a).rotate (i + 1) = (v.rotate i).tail ++ [a] := by
  have hleng : i + 1 ≤ (v.set i a).length := by
    rw [length_set]
    exact hi
  have hdrop : (v.set i a).drop (i + 1) = v.drop (i + 1) := by
    rw [drop_set_of_lt (Nat.lt_succ_self i)]
  rw [rotate_eq_drop_append_take hleng, hdrop, take_succ_set hi,
    rotate_eq_drop_append_take hi.le, drop_eq_getElem_cons hi, cons_append,
    tail_cons, append_assoc]

lemma rtake_concat_of_le (h : c ≤ all.length) (hc : 0 < c) (a : α) :
    (all ++ [a]).rtake c = (all.rtake c).tail ++ [a] := by
  obtain ⟨n, rfl⟩ := Nat.exists_eq_add_of_lt hc
  rw [Nat.zero_add, rtake_concat_succ, List.rtake, List.rtake, tail_drop]
  congr 2
  omega

lemma Newest.overwrite (h : Newest c all v i) (hc : 0 < c) (a : α) :
    Newest c (all ++ [a]) (v.set i a) ((i + 1) % c) := by
  obtain ⟨hleng, hslot, hfil, hfull⟩ := h
  have hi : i < v.length := by
    rw [hleng, hslot]
    exact Nat.mod_lt _ hc
  have hlen : (all ++ [a]).length = all.length + 1 := by simp
  constructor
  · rw [length_set, hleng]
  · rw [hslot, hlen, next_slot]
  · intro hle
    rw [hlen] at hle ⊢
    have hnext : i = all.length := by
      rw [hslot]
      exact Nat.mod_eq_of_lt hle
    rw [← hnext, take_succ_set hi, hnext, hfil (by omega)]
  · intro hle
    rw [hlen] at hle
    have hset : (v.set i a).length = c := by rw [length_set, hleng]
    have hrot : (v.set i a).rotate ((i + 1) % c) = (v.rotate i).tail ++ [a] := by
      rw [← hset, rotate_mod, rotate_set_succ hi]
    rw [hrot]
    rcases Nat.lt_or_ge all.length c with hlast | hold
    · -- The last free slot is filled: nothing is replaced yet.
      have hnext : i = all.length := by
        rw [hslot]
        exact Nat.mod_eq_of_lt hlast
      have hslt : v.length = i + 1 := by omega
      have hall : v.take i = all := by
        rw [hnext]
        exact hfil (by omega)
      have hrtk : (all ++ [a]).rtake c = all ++ [a] := by
        rw [List.rtake, hlen, Nat.sub_eq_zero_of_le (by omega), drop_zero]
      have hdrop : v.drop (i + 1) = [] := drop_of_length_le hslt.le
      rw [hrtk, rotate_eq_drop_append_take hi.le, drop_eq_getElem_cons hi, hdrop, hall]
      rfl
    · rw [hfull hold, rtake_concat_of_le hold hc]

lemma Newest.perm (h : Newest c all v i) :
    (v.take (min all.length v.length)).Perm (all.rtake c) := by
  obtain ⟨hleng, hslot, hfil, hfull⟩ := h
  rw [hleng]
  rcases Nat.le_total all.length c with hle | hle
  · have hrtk : all.rtake c = all := by
      rw [List.rtake, Nat.sub_eq_zero_of_le hle, drop_zero]
    rw [min_eq_left hle, hfil hle, hrtk]
  · rw [min_eq_right hle, ← hfull hle, take_of_length_le hleng.le]
    exact (rotate_perm v i).symm

end
end Mxrc.Lib.Ring
