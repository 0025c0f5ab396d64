import Mathlib.Data.List.Induction
import Mathlib.Data.Nat.Notation
import Mathlib.Logic.Function.Iterate
import Mathlib.Tactic.SplitIfs

/-!
# Reflected cyclic redundancy checks

The register is shifted to the right, and the polynomial is added when the bit
that falls out differs from the message bit. Feeding the low bits of a word to
the register is the same as adding the word first and shifting without a
message.
-/

namespace Mxrc.Lib.Crc
variable {w : ℕ} (poly : BitVec w)

def bitStep (reg : BitVec w) (bit : Bool) : BitVec w :=
  if (reg.getLsbD 0).xor bit then (reg >>> 1) ^^^ poly else reg >>> 1

def lowBits (n : ℕ) (x : BitVec w) : List Bool := (List.range n).map x.getLsbD

def feed (reg : BitVec w) (bytes : List UInt8) : BitVec w :=
  (bytes.flatMap fun byte => lowBits 8 byte.toBitVec).foldl (bitStep poly) reg

def shift (reg : BitVec w) : BitVec w :=
  if reg.getLsbD 0 then (reg >>> 1) ^^^ poly else reg >>> 1

variable {poly} {x y reg : BitVec w} {n : ℕ}

lemma bitStep_xor {bit : Bool} (hbit : y.getLsbD 0 = bit) :
    bitStep poly (x ^^^ y) bit = shift poly x ^^^ (y >>> 1) := by
  rw [bitStep, shift, BitVec.getLsbD_xor, hbit, Bool.xor_assoc, Bool.xor_self, Bool.xor_false,
    BitVec.ushiftRight_xor_distrib]
  split_ifs
  · ac_rfl
  · rfl

lemma foldl_lowBits (x reg : BitVec w) (n : ℕ) :
    (lowBits n x).foldl (bitStep poly) reg = (shift poly)^[n] (reg ^^^ x) ^^^ (x >>> n) := by
  induction n with
  | zero => simp [lowBits, BitVec.xor_assoc]
  | succ n ih =>
    have hlast : lowBits (n + 1) x = lowBits n x ++ [x.getLsbD n] := by
      simp [lowBits, List.range_succ]
    rw [hlast, List.foldl_append, ih, Function.iterate_succ_apply', BitVec.shiftRight_add]
    exact bitStep_xor (by simp)

/-- Registers that agree in the low bits differ afterwards only by what was above these bits. -/
lemma iterate_shift_xor (hlow : ∀ i < n, x.getLsbD i = y.getLsbD i) :
    (shift poly)^[n] x ^^^ (shift poly)^[n] y = (x ^^^ y) >>> n := by
  induction n with
  | zero => simp
  | succ n ih =>
    have hn := ih fun i hi => hlow i (by omega)
    have hbit : ((shift poly)^[n] x).getLsbD 0 = ((shift poly)^[n] y).getLsbD 0 := by
      have h0 := congrArg (BitVec.getLsbD · 0) hn
      simpa [hlow n (by omega)] using h0
    rw [Function.iterate_succ_apply', Function.iterate_succ_apply', BitVec.shiftRight_add, ← hn,
      BitVec.ushiftRight_xor_distrib, shift, shift, hbit]
    split_ifs
    · rw [BitVec.xor_assoc, BitVec.xor_comm poly, BitVec.xor_assoc, BitVec.xor_self]
      simp
    · rfl

variable {reg' : BitVec w} {b b' : Bool} {bs bs' : List Bool} {j : ℕ}

/-- The highest bit of the polynomial shows in the register whether it was added. -/
lemma bitStep_agree (hpoly : poly.getLsbD (w - 1) = true) (hj : j < w)
    (h : ∀ i ≥ j, (bitStep poly reg b).getLsbD i = (bitStep poly reg' b').getLsbD i) :
    (reg.getLsbD 0).xor b = (reg'.getLsbD 0).xor b' ∧
      ∀ i ≥ j + 1, reg.getLsbD i = reg'.getLsbD i := by
  have htop : ∀ (x : BitVec w) c, (bitStep poly x c).getLsbD (w - 1) = (x.getLsbD 0).xor c := by
    intro x c
    have hout : (x >>> 1).getLsbD (w - 1) = false := by
      rw [BitVec.getLsbD_ushiftRight, BitVec.getLsbD_of_ge _ _ (by omega)]
    rw [bitStep]
    split_ifs with hx
    · rw [BitVec.getLsbD_xor, hout, hpoly, hx]
      rfl
    · rw [hout, eq_false_of_ne_true hx]
  have hbit : (reg.getLsbD 0).xor b = (reg'.getLsbD 0).xor b' := by
    rw [← htop, ← htop]
    exact h _ (by omega)
  refine ⟨hbit, fun i hi => ?_⟩
  have hi' := h (i - 1) (by omega)
  rw [bitStep, bitStep, hbit] at hi'
  split_ifs at hi' <;> simpa [Nat.add_sub_cancel' (by omega : 1 ≤ i)] using hi'

lemma foldl_bitStep_injective (hpoly : poly.getLsbD (w - 1) = true) (hw : 0 < w) :
    Function.Injective (bs.foldl (bitStep poly)) := by
  induction bs with
  | nil => exact fun _ _ h => h
  | cons b bs ih =>
    intro reg reg' h
    obtain ⟨hbit, hrest⟩ := bitStep_agree hpoly hw fun i _ => congrArg (BitVec.getLsbD · i) (ih h)
    refine BitVec.eq_of_getLsbD_eq fun i _ => ?_
    cases i with
    | zero => exact Bool.xor_left_inj.mp hbit
    | succ i => exact hrest _ (by omega)

/-- Each step back loses one bit of the register at the low end, so a message that is not longer
than the register can be read off. -/
lemma eq_of_foldl_bitStep (hpoly : poly.getLsbD (w - 1) = true) (hlen : bs.length = bs'.length)
    (hle : j + bs.length ≤ w) (h : ∀ i ≥ j, (bs.foldl (bitStep poly) reg).getLsbD i =
      (bs'.foldl (bitStep poly) reg).getLsbD i) : bs = bs' := by
  induction bs using List.reverseRecOn generalizing bs' j with
  | nil => exact (List.length_eq_zero_iff.mp hlen.symm).symm
  | append_singleton bs b ih =>
    cases bs' using List.reverseRecOn with
    | nil => simp at hlen
    | append_singleton bs' b' =>
      simp only [List.length_append, List.length_singleton, List.foldl_append,
        List.foldl_cons, List.foldl_nil] at hlen hle h
      obtain ⟨hbit, hrest⟩ := bitStep_agree hpoly (by omega) h
      obtain rfl := ih (by omega) (by omega) hrest
      rw [Bool.xor_right_inj.mp hbit]

end Mxrc.Lib.Crc
