import Mathlib

/-! Little-endian byte strings of natural numbers, the text of a
NUL-terminated buffer, and counters of fixed width. -/

namespace Mxrc.Lib

lemma toNat_add_one_of_lt {n limit : UInt32} (h : n < limit) : (n + 1).toNat = n.toNat + 1 := by
  have hlt := UInt32.lt_iff_toNat_lt.mp h
  have hlim := limit.toNat_lt
  rw [UInt32.toNat_add, Nat.mod_eq_of_lt]
  · rfl
  · change n.toNat + 1 < 2 ^ 32
    omega

lemma toNat_toUInt64_emod (t : Int64) : (t.toUInt64.toNat : ℤ) % 2 ^ 64 = t.toInt % 2 ^ 64 := by
  rw [← Int64.toNat_toBitVec, ← Int64.toInt_toBitVec, BitVec.toInt_eq_toNat_bmod]
  exact (Int.bmod_emod).symm

lemma toNat_toUInt64_sub (a b : Int64) :
    ((a.toUInt64 - b.toUInt64).toNat : ℤ) =
      if b.toInt ≤ a.toInt then a.toInt - b.toInt else a.toInt - b.toInt + 2 ^ 64 := by
  have ha := toNat_toUInt64_emod a
  have hb := toNat_toUInt64_emod b
  have hlt := b.toUInt64.toNat_lt
  have ha' := a.toInt_lt
  have ha'' := a.le_toInt
  have hb' := b.toInt_lt
  have hb'' := b.le_toInt
  rw [UInt64.toNat_sub]
  push_cast
  split_ifs
  · omega
  · omega

def toLE : ℕ → ℕ → List UInt8
  | 0, _ => []
  | n + 1, v => UInt8.ofNat v :: toLE n (v / 256)

def ofLE : List UInt8 → ℕ
  | [] => 0
  | b :: bs => b.toNat + 256 * ofLE bs

@[simp] lemma toLE_length (n v : ℕ) : (toLE n v).length = n := by
  induction n generalizing v with
  | zero => rfl
  | succ n ih => simp [toLE, ih]

lemma ofLE_toLE (n v : ℕ) : ofLE (toLE n v) = v % 256 ^ n := by
  induction n generalizing v with
  | zero => simp [toLE, ofLE, Nat.mod_one]
  | succ n ih =>
    rw [toLE, ofLE, ih, pow_succ, mul_comm (256 ^ n) 256, Nat.mod_mul]
    simp

lemma ofNat_ofLE_toLE {w n : ℕ} (hw : w = 8 * n) (v : BitVec w) :
    BitVec.ofNat w (ofLE (toLE n v.toNat)) = v := by
  have hpow : 256 ^ n = 2 ^ w := by
    rw [hw, pow_mul]
    norm_num
  apply BitVec.eq_of_toNat_eq
  rw [ofLE_toLE, hpow, BitVec.toNat_ofNat, Nat.mod_mod, Nat.mod_eq_of_lt v.isLt]

def cString (bs : List UInt8) : List UInt8 := bs.takeWhile (· ≠ 0)

lemma cString_take (n : ℕ) (bs : List UInt8) : cString (bs.take n) = (cString bs).take n :=
  (List.take_takeWhile).symm

lemma cString_append_nul (bs rest : List UInt8) : cString (bs ++ 0 :: rest) = cString bs := by
  induction bs with
  | nil => simp [cString]
  | cons b bs ih =>
    by_cases hb : b = 0
    · simp [cString, hb]
    · simpa [cString, hb] using ih

end Mxrc.Lib
