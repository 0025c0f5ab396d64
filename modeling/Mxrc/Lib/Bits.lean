import Mxrc.Lib.Bytes
import Mxrc.Lib.Windows

/-!
# Bits of a memory

A memory of bytes is a map of bits. A little-endian field that is read, changed
in one bit and written back changes this bit of the memory and no other.
-/

namespace Mxrc.Lib
open List Function

structure Bit where
  address : ℕ
  index : Fin 8
deriving DecidableEq

def bitAt (m : ℕ → UInt8) (b : Bit) : Bool := (m b.address).toNat.testBit b.index

def fieldBit (address k : ℕ) : Bit := ⟨address + k / 8, ⟨k % 8, Nat.mod_lt k (by decide)⟩⟩

lemma byte_eq_of_bitAt {m m' : ℕ → UInt8} {a : ℕ} (h : ∀ i, bitAt m' ⟨a, i⟩ = bitAt m ⟨a, i⟩) :
    m' a = m a := by
  apply UInt8.toNat_inj.mp
  apply Nat.eq_of_testBit_eq
  intro k
  by_cases hk : k < 8
  · exact h ⟨k, hk⟩
  · have hpow : 2 ^ 8 ≤ 2 ^ k := Nat.pow_le_pow_right (by decide) (by omega)
    rw [Nat.testBit_lt_two_pow ((m' a).toNat_lt.trans_le hpow),
      Nat.testBit_lt_two_pow ((m a).toNat_lt.trans_le hpow)]

lemma testBit_not (x : UInt32) (j : ℕ) :
    (~~~x).toNat.testBit j = (decide (j < 32) && !x.toNat.testBit j) := by
  rw [← UInt32.toNat_toBitVec, ← UInt32.toNat_toBitVec, BitVec.testBit_toNat,
    BitVec.testBit_toNat, UInt32.toBitVec_not, BitVec.getLsbD_not]

lemma testBit_ofLE (bs : List UInt8) (k : ℕ) :
    (ofLE bs).testBit k = (bs.getD (k / 8) 0).toNat.testBit (k % 8) := by
  induction bs generalizing k with
  | nil => simp [ofLE]
  | cons b bs ih =>
    have hb : b.toNat < 2 ^ 8 := b.toNat_lt
    rw [ofLE, show b.toNat + 256 * ofLE bs = 2 ^ 8 * ofLE bs + b.toNat by omega,
      Nat.testBit_two_pow_mul_add _ hb]
    split_ifs with hk
    · rw [Nat.div_eq_of_lt hk, Nat.mod_eq_of_lt hk, getD_cons_zero]
    · obtain ⟨j, rfl⟩ := Nat.exists_eq_add_of_le (Nat.not_lt.mp hk)
      rw [Nat.add_sub_cancel_left, ih, Nat.add_mod_left, Nat.add_div_left j (by decide),
        getD_cons_succ]

lemma getD_toLE {n i : ℕ} (hi : i < n) (v : ℕ) (d : UInt8) :
    (toLE n v).getD i d = UInt8.ofNat (v / 256 ^ i) := by
  induction n generalizing i v with
  | zero => omega
  | succ n ih =>
    cases i with
    | zero => simp [toLE]
    | succ i =>
      rw [toLE, getD_cons_succ, ih (by omega), Nat.div_div_eq_div_mul, pow_succ']

section
variable (m : ℕ → UInt8) (address n : ℕ)

lemma testBit_ofLE_load {k : ℕ} (hk : k < 8 * n) :
    (ofLE (load m address n)).testBit k = bitAt m (fieldBit address k) := by
  have hbyte : (load m address n).getD (k / 8) 0 = m (address + k / 8) := by
    rw [load, getD_eq_getElem _ _ (by simp; omega), getElem_map, getElem_range]
  rw [testBit_ofLE, hbyte, bitAt, fieldBit]

lemma bitAt_store_fieldBit {k : ℕ} (hk : k < 8 * n) (v : ℕ) :
    bitAt (store m address (toLE n v)) (fieldBit address k) = v.testBit k := by
  have hpow : 256 ^ (k / 8) = 2 ^ (8 * (k / 8)) := by
    rw [pow_mul]
    norm_num
  have hbyte : store m address (toLE n v) (address + k / 8) = UInt8.ofNat (v / 256 ^ (k / 8)) := by
    rw [store, if_pos (Nat.le_add_right _ _), Nat.add_sub_cancel_left, getD_toLE (by omega)]
  have hind : decide (k % 8 < 8) = true := decide_eq_true (Nat.mod_lt k (by decide))
  rw [bitAt, fieldBit, hbyte, UInt8.toNat_ofNat', Nat.testBit_mod_two_pow, hpow,
    Nat.testBit_div_two_pow, hind, Bool.true_and, Nat.mod_add_div]

lemma bitAt_store_outside (v : ℕ) {b : Bit}
    (hb : ¬ (address ≤ b.address ∧ b.address < address + n)) :
    bitAt (store m address (toLE n v)) b = bitAt m b := by
  have hbyte : store m address (toLE n v) b.address = m b.address := by
    rw [store]
    split_ifs with hle
    · rw [getD_eq_default]
      rw [toLE_length]
      omega
    · rfl
  rw [bitAt, bitAt, hbyte]

lemma fieldBit_injective : Function.Injective (fieldBit address) := by
  intro j k h
  have hadd : address + j / 8 = address + k / 8 := congrArg Bit.address h
  have hind : j % 8 = k % 8 := congrArg (fun b : Bit => (b.index : ℕ)) h
  omega

variable {address n}

lemma exists_fieldBit {b : Bit} (hb : address ≤ b.address ∧ b.address < address + n) :
    ∃ k < 8 * n, b = fieldBit address k := by
  obtain ⟨a, i, hi⟩ := b
  obtain ⟨hle, hlt⟩ : address ≤ a ∧ a < address + n := hb
  refine ⟨8 * (a - address) + i, by omega, ?_⟩
  rw [fieldBit, Bit.mk.injEq, Fin.mk.injEq]
  omega

variable {m}

lemma bitAt_store_field {k v : ℕ} {value : Bool} (hk : k < 8 * n)
    (hv : ∀ j < 8 * n, v.testBit j =
      if j = k then value else (ofLE (load m address n)).testBit j) :
    bitAt (store m address (toLE n v)) =
      Function.update (bitAt m) (fieldBit address k) value := by
  funext b
  by_cases hb : address ≤ b.address ∧ b.address < address + n
  · obtain ⟨j, hj, rfl⟩ := exists_fieldBit hb
    rw [bitAt_store_fieldBit m address n hj, hv j hj]
    split_ifs with hjk
    · rw [hjk, update_self]
    · rw [update_of_ne ((fieldBit_injective address).ne hjk), testBit_ofLE_load m address n hj]
  · have hne : b ≠ fieldBit address k := by
      rintro rfl
      refine hb ⟨Nat.le_add_right _ _, ?_⟩
      change address + k / 8 < address + n
      omega
    rw [bitAt_store_outside m address n v hb, update_of_ne hne]

end

lemma foldl_update_apply {κ α : Type*} [DecidableEq κ] (ws : List (κ × α)) (f : κ → α) (k : κ) :
    ws.foldl (fun f w => Function.update f w.1 w.2) f k =
      (((ws.filter (·.1 = k)).getLast?).map Prod.snd).getD (f k) := by
  induction ws using List.reverseRecOn with
  | nil => rfl
  | append_singleton ws w ih =>
    rw [foldl_append, foldl_cons, foldl_nil, filter_append, update_apply]
    by_cases hk : w.1 = k
    · simp [hk]
    · rw [if_neg (Ne.symm hk), ih]
      simp [hk]

end Mxrc.Lib
