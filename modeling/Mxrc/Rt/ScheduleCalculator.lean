import Mathlib

/-!
# Schedule parameters of the cyclic executive

The product inside `lcm` is a `uint32_t` product, so it is taken modulo `2^32`;
the bound on the major cycle is tested after that product, and only from the
second period on.
-/

namespace Mxrc.Rt.ScheduleCalculator
open List Multiset

def maxMajorCycleMs : UInt32 := 1000

structure ScheduleParams where
  minorCycleMs : UInt32
  majorCycleMs : UInt32
  numSlots : UInt32
deriving DecidableEq

lemma toNat_pos_of_ne_zero {a : UInt32} (h : a ≠ 0) : 0 < a.toNat := by
  rcases Nat.eq_zero_or_pos a.toNat with h' | h'
  · exact absurd (UInt32.toNat_inj.mp (by simpa using h')) h
  · exact h'

def gcd (a b : UInt32) : UInt32 :=
  if b = 0 then a else gcd b (a % b)
termination_by b.toNat
decreasing_by
  rename_i hb
  rw [UInt32.toNat_mod]
  exact Nat.mod_lt _ (toNat_pos_of_ne_zero hb)

def lcm (a b : UInt32) : UInt32 :=
  if a = 0 ∨ b = 0 then 0 else (a / gcd a b) * b

def minorLoop : UInt32 → List UInt32 → UInt32
  | minor, [] => minor
  | minor, p :: ps => minorLoop (gcd minor p) ps

def majorLoop : UInt32 → List UInt32 → Except String UInt32
  | major, [] => .ok major
  | major, p :: ps =>
    if maxMajorCycleMs < lcm major p then
      .error "Major cycle exceeds maximum allowed value"
    else majorLoop (lcm major p) ps

def calculate : List UInt32 → Except String ScheduleParams
  | [] => .error "Period list cannot be empty"
  | p :: ps =>
    if 0 ∈ p :: ps then .error "Period cannot be zero"
    else
      let minor := minorLoop p ps
      match majorLoop p ps with
      | .error e => .error e
      | .ok major => .ok ⟨minor, major, major / minor⟩

def lcmOf (ps : List UInt32) : ℕ := ((ps.map UInt32.toNat : List ℕ) : Multiset ℕ).lcm

def gcdOf (ps : List UInt32) : ℕ := ((ps.map UInt32.toNat : List ℕ) : Multiset ℕ).gcd

lemma gcd_toNat (a b : UInt32) : (gcd a b).toNat = Nat.gcd a.toNat b.toNat := by
  fun_induction gcd a b with
  | case1 a => simp
  | case2 a b hb ih =>
    rw [ih, UInt32.toNat_mod, Nat.gcd_comm, ← Nat.gcd_rec, Nat.gcd_comm]

lemma lcm_toNat (a b : UInt32) : (lcm a b).toNat = Nat.lcm a.toNat b.toNat % 2 ^ 32 := by
  unfold lcm
  split_ifs with h
  · rcases h with rfl | rfl <;> simp
  · rw [UInt32.toNat_mul, UInt32.toNat_div, gcd_toNat, Nat.lcm,
      Nat.div_mul_right_comm (Nat.gcd_dvd_left _ _)]

@[simp] lemma lcmOf_cons (p : UInt32) (ps : List UInt32) :
    lcmOf (p :: ps) = Nat.lcm p.toNat (lcmOf ps) := by
  simp [lcmOf, ← cons_coe]
  rfl

@[simp] lemma gcdOf_cons (p : UInt32) (ps : List UInt32) :
    gcdOf (p :: ps) = Nat.gcd p.toNat (gcdOf ps) := by
  simp [gcdOf, ← cons_coe]
  rfl

variable {ps : List UInt32} {p : UInt32}

lemma lcmOf_pos (h0 : 0 ∉ ps) : 0 < lcmOf ps := by
  induction ps with
  | nil => simp [lcmOf]
  | cons p ps ih =>
    rw [List.mem_cons, not_or] at h0
    rw [lcmOf_cons]
    exact Nat.lcm_pos (toNat_pos_of_ne_zero (Ne.symm h0.1)) (ih h0.2)

lemma dvd_lcmOf (h : p ∈ ps) : p.toNat ∣ lcmOf ps :=
  dvd_lcm (by simpa using ⟨p, h, rfl⟩)

lemma gcdOf_dvd (h : p ∈ ps) : gcdOf ps ∣ p.toNat :=
  gcd_dvd (by simpa using ⟨p, h, rfl⟩)

lemma minorLoop_toNat (a : UInt32) (ps : List UInt32) :
    (minorLoop a ps).toNat = Nat.gcd a.toNat (gcdOf ps) := by
  induction ps generalizing a with
  | nil => simp [minorLoop, gcdOf]
  | cons p ps ih => rw [minorLoop, ih, gcd_toNat, gcdOf_cons, Nat.gcd_assoc]

def truncatedLcms : ℕ → List ℕ → List ℕ
  | _, [] => []
  | m, p :: ps => Nat.lcm m p % 2 ^ 32 :: truncatedLcms (Nat.lcm m p % 2 ^ 32) ps

def testedLcms : List UInt32 → List ℕ
  | [] => []
  | p :: ps => truncatedLcms p.toNat (ps.map UInt32.toNat)

lemma majorLoop_ok_iff (a : UInt32) (ps : List UInt32) :
    (∃ M, majorLoop a ps = .ok M) ↔
      ∀ r ∈ truncatedLcms a.toNat (ps.map UInt32.toNat), r ≤ maxMajorCycleMs.toNat := by
  induction ps generalizing a with
  | nil => simp [majorLoop, truncatedLcms]
  | cons p ps ih =>
    have hlt : maxMajorCycleMs < lcm a p ↔
        maxMajorCycleMs.toNat < Nat.lcm a.toNat p.toNat % 2 ^ 32 := by
      rw [UInt32.lt_iff_toNat_lt, lcm_toNat]
    rw [majorLoop, List.map_cons, truncatedLcms, List.forall_mem_cons, ← lcm_toNat, ← ih,
      lcm_toNat, ← not_lt, ← hlt]
    split_ifs with h
    · simp [h]
    · simp [h]

lemma majorLoop_le {a M : UInt32} (h : majorLoop a ps = .ok M) (hne : ps ≠ []) :
    M.toNat ≤ maxMajorCycleMs.toNat := by
  induction ps generalizing a with
  | nil => exact absurd rfl hne
  | cons p ps ih =>
    rw [majorLoop] at h
    split_ifs at h with hlt
    cases ps with
    | nil =>
      cases h
      rw [UInt32.lt_iff_toNat_lt] at hlt
      omega
    | cons q qs => exact ih h (by simp)

lemma majorLoop_value {a M : UInt32} (h : majorLoop a ps = .ok M) (ha : a ≠ 0) (h0 : 0 ∉ ps)
    (hlt : Nat.lcm a.toNat (lcmOf ps) < 2 ^ 32) : M.toNat = Nat.lcm a.toNat (lcmOf ps) := by
  induction ps generalizing a with
  | nil =>
    cases h
    simp [lcmOf]
  | cons p ps ih =>
    rw [List.mem_cons, not_or] at h0
    rw [lcmOf_cons, ← Nat.lcm_assoc] at hlt ⊢
    have hpos : 0 < Nat.lcm a.toNat p.toNat :=
      Nat.lcm_pos (toNat_pos_of_ne_zero ha) (toNat_pos_of_ne_zero (Ne.symm h0.1))
    have hle : Nat.lcm a.toNat p.toNat ≤ Nat.lcm (Nat.lcm a.toNat p.toNat) (lcmOf ps) :=
      Nat.le_of_dvd (Nat.lcm_pos hpos (lcmOf_pos h0.2)) (Nat.dvd_lcm_left _ _)
    have hstep : (lcm a p).toNat = Nat.lcm a.toNat p.toNat := by
      rw [lcm_toNat, Nat.mod_eq_of_lt (by omega)]
    have hne : lcm a p ≠ 0 := by
      intro h0
      rw [h0] at hstep
      simp at hstep
      omega
    rw [majorLoop] at h
    split_ifs at h with hb
    rw [← hstep]
    exact ih h hne h0.2 (by rw [hstep]; exact hlt)

lemma truncatedLcms_dvd {m : ℕ} {ps : List ℕ} (hpos : 0 < Nat.lcm m (ps : Multiset ℕ).lcm)
    (hlt : Nat.lcm m (ps : Multiset ℕ).lcm < 2 ^ 32) :
    ∀ r ∈ truncatedLcms m ps, r ∣ Nat.lcm m (ps : Multiset ℕ).lcm := by
  induction ps generalizing m with
  | nil => simp [truncatedLcms]
  | cons p ps ih =>
    have hcons : Nat.lcm m ((p :: ps : List ℕ) : Multiset ℕ).lcm =
        Nat.lcm (Nat.lcm m p) (ps : Multiset ℕ).lcm := by
      rw [← cons_coe, lcm_cons, Nat.lcm_assoc]
      rfl
    rw [hcons] at hpos hlt ⊢
    have hle := Nat.le_of_dvd hpos (Nat.dvd_lcm_left (Nat.lcm m p) (ps : Multiset ℕ).lcm)
    have hmod : Nat.lcm m p % 2 ^ 32 = Nat.lcm m p := Nat.mod_eq_of_lt (by omega)
    rw [truncatedLcms, hmod, List.forall_mem_cons]
    exact ⟨Nat.dvd_lcm_left _ _, ih hpos hlt⟩

lemma majorLoop_of_lcm_le (a : UInt32) (ps : List UInt32)
    (hb : Nat.lcm a.toNat (lcmOf ps) ≤ maxMajorCycleMs.toNat) (ha : a ≠ 0) (h0 : 0 ∉ ps) :
    ∃ M, majorLoop a ps = .ok M ∧ M.toNat = Nat.lcm a.toNat (lcmOf ps) := by
  have hmax : maxMajorCycleMs.toNat = 1000 := rfl
  have hpos : 0 < Nat.lcm a.toNat (lcmOf ps) :=
    Nat.lcm_pos (toNat_pos_of_ne_zero ha) (lcmOf_pos h0)
  have hlt : Nat.lcm a.toNat (lcmOf ps) < 2 ^ 32 := by omega
  obtain ⟨M, hM⟩ := (majorLoop_ok_iff a ps).mpr fun r hr =>
    (Nat.le_of_dvd hpos (truncatedLcms_dvd hpos hlt r hr)).trans hb
  exact ⟨M, hM, majorLoop_value hM ha h0 hlt⟩

def Admissible (ps : List UInt32) : Prop :=
  ps ≠ [] ∧ 0 ∉ ps ∧ lcmOf ps ≤ maxMajorCycleMs.toNat

/-- `calculate` returns exactly on the admissible lists, and then with the gcd,
the true lcm and their quotient. -/
def MeetsSpec (ps : List UInt32) : Prop :=
  ((∃ params, calculate ps = .ok params) ↔ Admissible ps) ∧
    ∀ params, calculate ps = .ok params →
      params.minorCycleMs.toNat = gcdOf ps ∧ params.majorCycleMs.toNat = lcmOf ps ∧
        params.numSlots.toNat = lcmOf ps / gcdOf ps

lemma calculate_ok_iff (h0 : 0 ∉ p :: ps) {params : ScheduleParams} :
    calculate (p :: ps) = .ok params ↔
      ∃ M, majorLoop p ps = .ok M ∧ params = ⟨minorLoop p ps, M, M / minorLoop p ps⟩ := by
  rw [calculate, if_neg h0]
  cases h : majorLoop p ps with
  | error e => simp
  | ok M => simp [eq_comm]

lemma meetsSpec_of_admissible (h : Admissible ps) : MeetsSpec ps := by
  obtain ⟨hne, h0, hb⟩ := h
  obtain ⟨p, ps, rfl⟩ := exists_cons_of_ne_nil hne
  have hcons := List.mem_cons.not.mp h0
  rw [not_or] at hcons
  rw [lcmOf_cons] at hb
  obtain ⟨M, hM, hv⟩ := majorLoop_of_lcm_le p ps hb (Ne.symm hcons.1) hcons.2
  refine ⟨⟨fun _ => ⟨hne, h0, by rw [lcmOf_cons]; exact hb⟩, fun _ => ?_⟩, fun params hp => ?_⟩
  · exact ⟨_, (calculate_ok_iff h0).mpr ⟨M, hM, rfl⟩⟩
  · obtain ⟨M', hM', rfl⟩ := (calculate_ok_iff h0).mp hp
    rw [hM] at hM'
    cases hM'
    simp [minorLoop_toNat, hv]

theorem calculate_meetsSpec_iff (ps : List UInt32) :
    MeetsSpec ps ↔
      ps = [] ∨ 0 ∈ ps ∨ lcmOf ps ≤ maxMajorCycleMs.toNat ∨
        ∃ r ∈ testedLcms ps, maxMajorCycleMs.toNat < r := by
  by_cases hadm : Admissible ps
  · exact iff_of_true (meetsSpec_of_admissible hadm) (Or.inr (Or.inr (Or.inl hadm.2.2)))
  cases ps with
  | nil => simp [MeetsSpec, calculate, Admissible]
  | cons p ps =>
    by_cases h0 : 0 ∈ p :: ps
    · exact iff_of_true ⟨by simp [calculate, h0, Admissible], by simp [calculate, h0]⟩
        (Or.inr (Or.inl h0))
    · have hb : ¬ lcmOf (p :: ps) ≤ maxMajorCycleMs.toNat := fun hb => hadm ⟨by simp, h0, hb⟩
      have hthr : MeetsSpec (p :: ps) ↔ ¬ ∃ M, majorLoop p ps = .ok M := by
        constructor
        · intro hspec hret
          obtain ⟨hiff, -⟩ := hspec
          obtain ⟨M, hM⟩ := hret
          exact hadm (hiff.mp ⟨_, (calculate_ok_iff h0).mpr ⟨M, hM, rfl⟩⟩)
        · intro hno
          have hnone : ∀ params, calculate (p :: ps) ≠ .ok params := fun params hp =>
            hno (((calculate_ok_iff h0).mp hp).imp fun M h => h.1)
          exact ⟨⟨fun ⟨q, hq⟩ => absurd hq (hnone q), fun h => absurd h hadm⟩,
            fun q hq => absurd hq (hnone q)⟩
      rw [hthr, majorLoop_ok_iff]
      rw [lcmOf_cons] at hb
      simp [h0, hb, testedLcms]

lemma lcm_641_6700417 : lcm 641 6700417 = 1 :=
  UInt32.toNat_inj.mp (by rw [lcm_toNat]; decide)

/-- `641 * 6700417 = 2^32 + 1` wraps to `1` and is accepted; the bound is never tested for a single
period. -/
theorem calculate_accepts_wrong : ¬ MeetsSpec [641, 6700417] ∧ ¬ MeetsSpec [1001] := by
  constructor
  · intro hspec
    obtain ⟨hiff, -⟩ := hspec
    have hok : majorLoop 641 [6700417] = .ok 1 := by
      simp only [majorLoop, lcm_641_6700417]
      decide
    have hadm := hiff.mp ⟨_, (calculate_ok_iff (by decide)).mpr ⟨1, hok, rfl⟩⟩
    exact absurd hadm.2.2 (by decide)
  · intro hspec
    obtain ⟨hiff, -⟩ := hspec
    have hadm := hiff.mp ⟨_, (calculate_ok_iff (by decide)).mpr ⟨1001, rfl, rfl⟩⟩
    exact absurd hadm.2.2 (by decide)

end Mxrc.Rt.ScheduleCalculator
