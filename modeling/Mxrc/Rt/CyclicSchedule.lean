import Mxrc.Lib.Bytes
import Mxrc.Rt.RTExecutive

/-!
# Cyclic schedules

Registration puts an action into every slot that is a multiple of its interval,
as long as the loop variable does not wrap, and cycle `n` runs the slot `n %
num_slots`. The periods of a list are realised exactly when their unbounded lcm
is a `uint32_t`.
-/

namespace Mxrc.Rt.RTExecutive
open List
open ScheduleCalculator
variable {κ : Type}

def NoWrap (numSlots slotInterval : UInt32) : Prop :=
  ∀ s, s < numSlots.toNat → slotInterval.toNat ∣ s → s + slotInterval.toNat < 2 ^ 32

variable {numSlots slotInterval : UInt32}

lemma noWrap_of_le (hn : numSlots.toNat ≤ 1000) (slotInterval : UInt32) :
    NoWrap numSlots slotInterval := by
  intro s hs hd
  have hk := slotInterval.toNat_lt
  rcases Nat.eq_zero_or_pos s with h | h
  · omega
  · have hle := Nat.le_of_dvd h hd
    omega

lemma noWrap_of_dvd (hd : slotInterval.toNat ∣ numSlots.toNat) :
    NoWrap numSlots slotInterval := by
  intro s hs hs'
  have hn := numSlots.toNat_lt
  have hle := Nat.le_of_dvd (by omega) (Nat.dvd_sub hd hs')
  omega

lemma fillSlots_spec (action : ActionSlot κ) (hk : 0 < slotInterval.toNat)
    (hw : NoWrap numSlots slotInterval) (fuel : ℕ) (slot : UInt32)
    (hd : slotInterval.toNat ∣ slot.toNat) (hfuel : numSlots.toNat - slot.toNat < fuel)
    (schedule : List (List (ActionSlot κ))) (hlen : schedule.length = numSlots.toNat) :
    ∃ schedule', fillSlots numSlots slotInterval action fuel slot schedule = some schedule' ∧
      ∀ j, schedule'[j]? = schedule[j]?.map
        (· ++ if slot.toNat ≤ j ∧ slotInterval.toNat ∣ j then [action] else []) := by
  induction fuel generalizing slot schedule with
  | zero => omega
  | succ fuel ih =>
    by_cases hs : slot < numSlots
    · rw [fillSlots, if_pos hs]
      rw [UInt32.lt_iff_toNat_lt] at hs
      have hadd : (slot + slotInterval).toNat = slot.toNat + slotInterval.toNat := by
        rw [UInt32.toNat_add, Nat.mod_eq_of_lt (hw _ hs hd)]
      obtain ⟨schedule', hf, hget⟩ := ih (slot + slotInterval)
        (by rw [hadd]; exact Nat.dvd_add hd (dvd_refl _)) (by omega)
        (schedule.modify slot.toNat (· ++ [action])) (by simpa using hlen)
      refine ⟨schedule', hf, fun j => ?_⟩
      rw [hget j, hadd, getElem?_modify]
      by_cases hj : slot.toNat = j
      · subst hj
        have hpast : ¬ slot.toNat + slotInterval.toNat ≤ slot.toNat := by omega
        cases schedule[slot.toNat]? <;> simp [hd, hpast]
      · have hiff : (slot.toNat + slotInterval.toNat ≤ j ∧ slotInterval.toNat ∣ j) ↔
            (slot.toNat ≤ j ∧ slotInterval.toNat ∣ j) := by
          constructor
          · intro h
            exact ⟨by omega, h.2⟩
          · intro h
            have hle := Nat.le_of_dvd (by omega) (Nat.dvd_sub h.2 hd)
            exact ⟨by omega, h.2⟩
        simp only [hj, if_false, hiff]
        cases schedule[j]? <;> simp
    · rw [fillSlots, if_neg hs]
      rw [UInt32.lt_iff_toNat_lt] at hs
      refine ⟨schedule, rfl, fun j => ?_⟩
      by_cases hj : j < schedule.length
      · rw [if_neg (by omega)]
        simp
      · rw [getElem?_eq_none (by omega)]
        rfl

lemma fillSlots_fuel {action : ActionSlot κ} {fuel fuel' : ℕ} {slot : UInt32}
    {schedule s s' : List (List (ActionSlot κ))}
    (h : fillSlots numSlots slotInterval action fuel slot schedule = some s)
    (h' : fillSlots numSlots slotInterval action fuel' slot schedule = some s') : s = s' := by
  induction fuel generalizing fuel' slot schedule with
  | zero => simp [fillSlots] at h
  | succ fuel ih =>
    cases fuel' with
    | zero => simp [fillSlots] at h'
    | succ fuel' =>
      rw [fillSlots] at h h'
      split_ifs at h h' with hs
      · exact ih h h'
      · rw [Option.some.injEq] at h h'
        exact h.symm.trans h'

def slotOf (minorCycleMs : UInt32) (r : Registration κ) : ActionSlot κ :=
  ⟨r.name, r.periodMs, r.callback, r.guard, r.periodMs / minorCycleMs⟩

variable {x x' : RTExecutive κ} {r : Registration κ}

lemma registerAction_rejects (h : ¬ x.minorCycleMs.toNat ∣ r.periodMs.toNat) (fuel : ℕ) :
    registerAction fuel x r = some (-1, x) := by
  rw [registerAction, if_pos]
  intro h0
  apply h
  have hm := congrArg UInt32.toNat h0
  rw [UInt32.toNat_mod] at hm
  exact Nat.dvd_of_mod_eq_zero (by simpa using hm)

lemma registerAction_accepts (h : x.minorCycleMs.toNat ∣ r.periodMs.toNat) {fuel : ℕ}
    {ret : Int} (hr : registerAction fuel x r = some (ret, x')) :
    ret = 0 ∧ x'.minorCycleMs = x.minorCycleMs ∧ x'.majorCycleMs = x.majorCycleMs ∧
      x'.numSlots = x.numSlots ∧
      fillSlots x.numSlots (r.periodMs / x.minorCycleMs)
        (slotOf x.minorCycleMs r) fuel 0 x.schedule = some x'.schedule := by
  have h0 : r.periodMs % x.minorCycleMs = 0 := by
    apply UInt32.toNat_inj.mp
    rw [UInt32.toNat_mod]
    simpa using Nat.mod_eq_zero_of_dvd h
  rw [registerAction, if_neg (by simp [h0])] at hr
  dsimp only at hr
  split at hr
  · simp at hr
  · rename_i schedule hf
    simp only [Option.some.injEq, Prod.mk.injEq] at hr
    obtain ⟨rfl, rfl⟩ := hr
    exact ⟨rfl, rfl, rfl, rfl, hf⟩

def Registers (x : RTExecutive κ) (r : Registration κ) (ret : Int) (x' : RTExecutive κ) : Prop :=
  ∃ fuel, registerAction fuel x r = some (ret, x')

/-- The periods the slot table of `x` can take without a wrapping loop. -/
def Fits (x : RTExecutive κ) (period : UInt32) : Prop :=
  x.minorCycleMs.toNat ∣ period.toNat ∧ 0 < (period / x.minorCycleMs).toNat ∧
    NoWrap x.numSlots (period / x.minorCycleMs)

lemma Fits.fillSlots (h : Fits x r.periodMs) :
    ∃ schedule, RTExecutive.fillSlots x.numSlots (r.periodMs / x.minorCycleMs)
        (slotOf x.minorCycleMs r) (x.numSlots.toNat + 1) 0 x.schedule = some schedule ∧
      ∀ j, schedule[j]? = x.schedule[j]?.map (· ++
        if (r.periodMs / x.minorCycleMs).toNat ∣ j then [slotOf x.minorCycleMs r] else []) := by
  simpa using fillSlots_spec (slotOf x.minorCycleMs r) h.2.1 h.2.2 (x.numSlots.toNat + 1) 0
    (by simp) (by simp) x.schedule x.table_eq

lemma registers_slots {ret : Int} (h : Fits x r.periodMs) (hr : Registers x r ret x') :
    ret = 0 ∧ x'.minorCycleMs = x.minorCycleMs ∧ x'.majorCycleMs = x.majorCycleMs ∧
      x'.numSlots = x.numSlots ∧ ∀ j, x'.schedule[j]? = x.schedule[j]?.map (· ++
        if (r.periodMs / x.minorCycleMs).toNat ∣ j then [slotOf x.minorCycleMs r] else []) := by
  obtain ⟨fuel, hr⟩ := hr
  obtain ⟨hret, hmin, hmaj, hnum, hf⟩ := registerAction_accepts h.1 hr
  obtain ⟨schedule, hs, hget⟩ := h.fillSlots
  cases fillSlots_fuel hf hs
  exact ⟨hret, hmin, hmaj, hnum, hget⟩

lemma registers_exists (h : Fits x r.periodMs) : ∃ ret x', Registers x r ret x' := by
  obtain ⟨schedule, hs, -⟩ := h.fillSlots
  cases hr : registerAction (x.numSlots.toNat + 1) x r with
  | some res => exact ⟨res.1, res.2, _, hr⟩
  | none =>
    rw [registerAction] at hr
    split_ifs at hr
    dsimp only at hr
    split at hr
    next hn => cases hs.symm.trans hn
    next => cases hr

section
variable (invoke : κ → RTContext → RTState → RTState)

@[simp] lemma publish_table (x : RTExecutive κ) (e : RTBusEvent) :
    (x.publish e).schedule = x.schedule ∧ (x.publish e).numSlots = x.numSlots ∧
      (x.publish e).currentSlot = x.currentSlot := by
  unfold publish
  split <;> exact ⟨rfl, rfl, rfl⟩

@[simp] lemma handleEvent_table (x : RTExecutive κ) (e : RTEvent) :
    (x.handleEvent e).2.schedule = x.schedule ∧ (x.handleEvent e).2.numSlots = x.numSlots ∧
      (x.handleEvent e).2.currentSlot = x.currentSlot := by
  simp only [handleEvent]
  split <;> simp

lemma checkHeartbeat_table (x : RTExecutive κ) (inp : CycleInput) :
    (x.checkHeartbeat inp).schedule = x.schedule ∧
      (x.checkHeartbeat inp).numSlots = x.numSlots ∧
      (x.checkHeartbeat inp).currentSlot = x.currentSlot := by
  simp only [checkHeartbeat, enterSafeMode, exitSafeMode]
  split_ifs <;> simp

lemma enterRun_table (x : RTExecutive κ) (nowNs : UInt64) :
    (x.enterRun nowNs).executive.schedule = x.schedule ∧
      (x.enterRun nowNs).executive.numSlots = x.numSlots ∧
      (x.enterRun nowNs).executive.currentSlot = 0 := by
  simp only [enterRun]
  split_ifs <;> simp

lemma cycle_spec (inp : CycleInput) (r : RunLoop κ)
    (hs : r.executive.currentSlot.toNat < r.executive.numSlots.toNat) :
    ∃ actions context st r',
      r.executive.schedule[r.executive.currentSlot.toNat]? = some actions ∧
      cycle invoke inp r = some ((executeSlot invoke context actions st).1, r') ∧
      r'.executive.schedule = r.executive.schedule ∧
      r'.executive.numSlots = r.executive.numSlots ∧
      r'.executive.currentSlot.toNat =
        (r.executive.currentSlot.toNat + 1) % r.executive.numSlots.toNat := by
  obtain ⟨hsch, hnum, hcur⟩ := checkHeartbeat_table r.executive inp
  obtain ⟨actions, hget⟩ : ∃ actions,
      r.executive.schedule[r.executive.currentSlot.toNat]? = some actions :=
    ⟨_, getElem?_eq_getElem (by rw [r.executive.table_eq]; exact hs)⟩
  let context : RTContext := ⟨r.executive.currentSlot, r.executive.cycleCount, r.cycleStartNs⟩
  let x := r.executive.checkHeartbeat inp
  refine ⟨actions, context, x.stateMachine,
    x.nextSlot (executeSlot invoke context actions x.stateMachine).2 r.cycleStartNs, hget, ?_,
    hsch, hnum, ?_⟩
  · simp only [cycle, hsch, hcur, hget]
    rfl
  · change ((x.currentSlot + 1) % x.numSlots).toNat = _
    have hadd : (r.executive.currentSlot + 1).toNat = r.executive.currentSlot.toNat + 1 :=
      Lib.toNat_add_one_of_lt (UInt32.lt_iff_toNat_lt.mpr hs)
    rw [hnum, hcur, UInt32.toNat_mod, hadd]

lemma afterCycles_spec (inp : ℕ → CycleInput) (x : RTExecutive κ) (nowNs : UInt64)
    (hn : 0 < x.numSlots.toNat) (n : ℕ) :
    ∃ r, afterCycles invoke inp (x.enterRun nowNs) n = some r ∧
      r.executive.schedule = x.schedule ∧ r.executive.numSlots = x.numSlots ∧
      r.executive.currentSlot.toNat = n % x.numSlots.toNat := by
  induction n with
  | zero =>
    obtain ⟨hsch, hnum, hcur⟩ := enterRun_table x nowNs
    exact ⟨_, rfl, hsch, hnum, by rw [hcur]; simp⟩
  | succ n ih =>
    obtain ⟨r, hr, hsch, hnum, hcur⟩ := ih
    have hlt : r.executive.currentSlot.toNat < r.executive.numSlots.toNat := by
      rw [hcur, hnum]
      exact Nat.mod_lt _ hn
    obtain ⟨actions, context, st, r', -, hc, hsch', hnum', hcur'⟩ := cycle_spec invoke (inp n) r hlt
    refine ⟨r', ?_, hsch'.trans hsch, hnum'.trans hnum, ?_⟩
    · simp [afterCycles, hr, hc]
    · rw [hcur', hnum, hcur, Nat.mod_add_mod]

lemma executedIn_spec (inp : ℕ → CycleInput) (x : RTExecutive κ) (nowNs : UInt64)
    (hn : 0 < x.numSlots.toNat) (n : ℕ) :
    ∃ actions context st, x.schedule[n % x.numSlots.toNat]? = some actions ∧
      executedIn invoke inp (x.enterRun nowNs) n =
        some (executeSlot invoke context actions st).1 := by
  obtain ⟨r, hr, hsch, hnum, hcur⟩ := afterCycles_spec invoke inp x nowNs hn n
  have hlt : r.executive.currentSlot.toNat < r.executive.numSlots.toNat := by
    rw [hcur, hnum]
    exact Nat.mod_lt _ hn
  obtain ⟨actions, context, st, r', hget, hc, -⟩ := cycle_spec invoke (inp n) r hlt
  refine ⟨actions, context, st, ?_, ?_⟩
  · rw [← hsch, ← hcur]
    exact hget
  · simp [executedIn, hr, hc]

lemma executedIn_no_slots (inp : ℕ → CycleInput) (x : RTExecutive κ) (nowNs : UInt64)
    (hn : x.numSlots.toNat = 0) : executedIn invoke inp (x.enterRun nowNs) 0 = none := by
  obtain ⟨hsch, -, -⟩ := checkHeartbeat_table (x.enterRun nowNs).executive (inp 0)
  have hemp : x.schedule = [] := length_eq_zero_iff.mp (x.table_eq.trans hn)
  simp [executedIn, afterCycles, cycle, hsch, (enterRun_table x nowNs).1, hemp]

lemma executeSlot_unguarded (context : RTContext) (actions : List (ActionSlot κ))
    (h : ∀ a ∈ actions, a.guard = none) (st : RTState) :
    (executeSlot invoke context actions st).1 = actions.filterMap ActionSlot.callback := by
  induction actions generalizing st with
  | nil => rfl
  | cons a actions ih =>
    have ha := h a mem_cons_self
    have hrest := ih (fun b hb => h b (mem_cons_of_mem _ hb))
    cases hc : a.callback with
    | none => simp [executeSlot, ha, hc, hrest]
    | some callback => simp [executeSlot, ha, hc, hrest]

lemma mem_executeSlot (context : RTContext) (callback : κ) (actions : List (ActionSlot κ))
    (h : ∀ a ∈ actions, a.callback = some callback → ∀ g ∈ a.guard, ∀ st, g st = true)
    (st : RTState) :
    callback ∈ (executeSlot invoke context actions st).1 ↔
      ∃ a ∈ actions, a.callback = some callback := by
  induction actions generalizing st with
  | nil => simp [executeSlot]
  | cons a actions ih =>
    have hrest := ih (fun b hb => h b (mem_cons_of_mem _ hb))
    rw [executeSlot]
    split_ifs with hg
    · have hne : a.callback ≠ some callback := by
        intro hc
        cases hguard : a.guard with
        | none => simp [hguard] at hg
        | some g =>
          have htrue := h a mem_cons_self hc g (by simp [hguard]) st
          simp [hguard, htrue] at hg
      simp [hrest, hne]
    · cases hc : a.callback with
      | none => simp [hrest, hc]
      | some other => simp [hrest, hc, eq_comm]

end

structure Action (κ : Type) where
  name : String
  periodMs : UInt32
  callback : κ

def Action.registration (a : Action κ) : Registration κ :=
  ⟨a.name, a.periodMs, some a.callback, none⟩

def RegistersAll : RTExecutive κ → List (Action κ) → RTExecutive κ → Prop
  | x, [], x' => x' = x
  | x, a :: as, x' => ∃ y, Registers x a.registration 0 y ∧ RegistersAll y as x'

/-- Every registration succeeds, and cycle `n` calls exactly the actions whose period divides `n *
minor_cycle_ms`, once each. -/
def CyclicLaw (x : RTExecutive κ) (ps : List UInt32) : Prop :=
  ∀ actions : List (Action κ), (∀ a ∈ actions, a.periodMs ∈ ps) →
    (∃ x', RegistersAll x actions x') ∧
    ∀ x', RegistersAll x actions x' → ∀ invoke inp nowNs n,
      executedIn invoke inp (x'.enterRun nowNs) n =
        some ((actions.filter fun a => a.periodMs.toNat ∣ n * x.minorCycleMs.toNat).map
          Action.callback)

lemma registersAll_exists (actions : List (Action κ)) (x : RTExecutive κ)
    (h : ∀ a ∈ actions, Fits x a.periodMs) : ∃ x', RegistersAll x actions x' := by
  induction actions generalizing x with
  | nil => exact ⟨x, rfl⟩
  | cons a actions ih =>
    have ha : Fits x a.registration.periodMs := h a mem_cons_self
    obtain ⟨ret, y, hy⟩ := registers_exists ha
    obtain ⟨rfl, hmin, -, hnum, -⟩ := registers_slots ha hy
    obtain ⟨x', hx'⟩ := ih y fun b hb => by
      have hb := h b (mem_cons_of_mem _ hb)
      rwa [Fits, hmin, hnum]
    exact ⟨x', y, hy, hx'⟩

lemma registersAll_slots (actions : List (Action κ)) (h : ∀ a ∈ actions, Fits x a.periodMs)
    (hr : RegistersAll x actions x') :
    x'.numSlots = x.numSlots ∧
      ∀ j, x'.schedule[j]? = x.schedule[j]?.map
        (· ++ (actions.filter fun a => (a.periodMs / x.minorCycleMs).toNat ∣ j).map
          (fun a => slotOf x.minorCycleMs a.registration)) := by
  induction actions generalizing x with
  | nil =>
    cases hr
    refine ⟨rfl, fun j => ?_⟩
    cases x'.schedule[j]? <;> simp
  | cons a actions ih =>
    obtain ⟨y, hy, hx'⟩ := hr
    obtain ⟨-, hmin, -, hnum, hget⟩ := registers_slots (h a mem_cons_self) hy
    obtain ⟨hnum', hget'⟩ := ih (fun b hb => by
      have hb := h b (mem_cons_of_mem _ hb)
      rwa [Fits, hmin, hnum]) hx'
    refine ⟨hnum'.trans hnum, fun j => ?_⟩
    rw [hget' j, hget j, hmin, filter_cons]
    cases x.schedule[j]? with
    | none => rfl
    | some slot =>
      by_cases hj : a.periodMs.toNat / x.minorCycleMs.toNat ∣ j
      · simp [Action.registration, hj]
      · simp [Action.registration, hj]

lemma make_fields (minor major : UInt32) (eventBus : Bool) :
    (make minor major eventBus : RTExecutive κ).minorCycleMs = minor ∧
      (make minor major eventBus : RTExecutive κ).majorCycleMs = major ∧
      (make minor major eventBus : RTExecutive κ).numSlots = major / minor ∧
      (make minor major eventBus : RTExecutive κ).schedule =
        List.replicate (major / minor).toNat [] := by
  cases eventBus <;> exact ⟨rfl, rfl, rfl, rfl⟩

structure Accepted (x : RTExecutive κ) (ps : List UInt32) : Prop where
  nonempty : ps ≠ []
  nonzero : 0 ∉ ps
  minor : x.minorCycleMs.toNat = gcdOf ps
  slots_le : x.numSlots.toNat ≤ 1000
  empty_table : x.schedule = List.replicate x.numSlots.toNat []
  major : lcmOf ps < 2 ^ 32 → x.majorCycleMs.toNat = lcmOf ps

variable {ps : List UInt32}

lemma accepted_of_create {eventBus : Bool} (h : createFromPeriods ps eventBus = some x) :
    Accepted x ps := by
  rw [createFromPeriods] at h
  split at h
  · rename_i params hc
    rw [Option.some.injEq] at h
    subst h
    obtain ⟨hmin, hmaj, hnum, hsch⟩ :=
      @make_fields κ params.minorCycleMs params.majorCycleMs eventBus
    cases ps with
    | nil => simp [calculate] at hc
    | cons p ps =>
      have h0 : 0 ∉ p :: ps := by
        intro h0
        simp [calculate, h0] at hc
      obtain ⟨M, hM, rfl⟩ := (calculate_ok_iff h0).mp hc
      have hcons := mem_cons.not.mp h0
      rw [not_or] at hcons
      refine ⟨by simp, h0, ?_, ?_, by rw [hsch, hnum], ?_⟩
      · rw [hmin, minorLoop_toNat, gcdOf_cons]
      · rw [hnum, UInt32.toNat_div]
        by_cases hne : ps = []
        · subst hne
          cases hM
          exact (Nat.div_self (toNat_pos_of_ne_zero (Ne.symm hcons.1))).le.trans (by omega)
        · exact (Nat.div_le_self _ _).trans (majorLoop_le hM hne)
      · intro hlt
        rw [lcmOf_cons] at hlt ⊢
        rw [hmaj]
        exact majorLoop_value hM (Ne.symm hcons.1) hcons.2 hlt
  · cases h

lemma gcdOf_pos (hne : ps ≠ []) (h0 : 0 ∉ ps) : 0 < gcdOf ps := by
  obtain ⟨p, ps, rfl⟩ := exists_cons_of_ne_nil hne
  rw [gcdOf_cons]
  exact Nat.gcd_pos_of_pos_left _ (toNat_pos_of_ne_zero fun h => h0 (by simp [h]))

section
variable {x : RTExecutive κ} {ps : List UInt32}

lemma Accepted.fits (h : Accepted x ps) {p : UInt32} (hp : p ∈ ps) : Fits x p := by
  have hd : x.minorCycleMs.toNat ∣ p.toNat := h.minor ▸ gcdOf_dvd hp
  have hpos : 0 < p.toNat := toNat_pos_of_ne_zero fun h0 => h.nonzero (h0 ▸ hp)
  refine ⟨hd, ?_, noWrap_of_le h.slots_le _⟩
  rw [UInt32.toNat_div]
  exact Nat.div_pos (Nat.le_of_dvd hpos hd) (h.minor ▸ gcdOf_pos h.nonempty h.nonzero)

lemma Accepted.executedIn (h : Accepted x ps) (hn : 0 < x.numSlots.toNat)
    {actions : List (Action κ)} (ha : ∀ a ∈ actions, a.periodMs ∈ ps) {x' : RTExecutive κ}
    (hr : RegistersAll x actions x') (invoke : κ → RTContext → RTState → RTState)
    (inp : ℕ → CycleInput) (nowNs : UInt64) (n : ℕ) :
    executedIn invoke inp (x'.enterRun nowNs) n =
      some ((actions.filter fun a =>
        a.periodMs.toNat / x.minorCycleMs.toNat ∣ n % x.numSlots.toNat).map Action.callback) := by
  obtain ⟨hnum, hget⟩ := registersAll_slots actions (fun a h' => h.fits (ha a h')) hr
  obtain ⟨slot, context, st, hslot, hexec⟩ :=
    executedIn_spec invoke inp x' nowNs (by rw [hnum]; exact hn) n
  have hemp : x.schedule[n % x.numSlots.toNat]? = some [] := by
    rw [h.empty_table, getElem?_replicate, if_pos (Nat.mod_lt _ hn)]
  rw [hnum, hget, hemp, Option.map_some, Option.some.injEq, nil_append] at hslot
  rw [hexec, ← hslot, executeSlot_unguarded]
  · simp [filterMap_map, slotOf, Action.registration, filterMap_eq_map']
  · intro a ha'
    obtain ⟨b, -, rfl⟩ := mem_map.mp ha'
    rfl

lemma Accepted.cyclicLaw (h : Accepted x ps) (hlt : lcmOf ps < 2 ^ 32) : CyclicLaw x ps := by
  have hmajor := h.major hlt
  have hminor := gcdOf_pos h.nonempty h.nonzero
  obtain ⟨p, hp⟩ := exists_mem_of_ne_nil ps h.nonempty
  have hdvd : x.minorCycleMs.toNat ∣ x.majorCycleMs.toNat := by
    rw [h.minor, hmajor]
    exact (gcdOf_dvd hp).trans (dvd_lcmOf hp)
  have hslt : x.numSlots.toNat * x.minorCycleMs.toNat = x.majorCycleMs.toNat := by
    rw [x.slots_eq, UInt32.toNat_div, Nat.div_mul_cancel hdvd]
  have hn : 0 < x.numSlots.toNat := by
    have := lcmOf_pos h.nonzero
    apply Nat.pos_of_mul_pos_right (b := x.minorCycleMs.toNat)
    omega
  intro actions ha
  refine ⟨registersAll_exists actions x fun a h' => h.fits (ha a h'), ?_⟩
  intro x' hr invoke inp nowNs n
  rw [h.executedIn hn ha hr]
  congr 2
  apply filter_congr
  intro a hmem
  -- With `period = k * minor` and `k ∣ num_slots` the slot and the cycle number agree mod `k`.
  obtain ⟨k, hk⟩ := (h.fits (ha a hmem)).1
  have hpos : 0 < x.minorCycleMs.toNat := h.minor ▸ hminor
  have hkd : k ∣ x.numSlots.toNat := by
    apply Nat.dvd_of_mul_dvd_mul_right hpos
    rw [hslt, hmajor, mul_comm, ← hk]
    exact dvd_lcmOf (ha a hmem)
  rw [hk, Nat.mul_div_cancel_left _ hpos, decide_eq_decide, Nat.dvd_mod_iff hkd,
    mul_comm x.minorCycleMs.toNat k]
  exact (Nat.mul_dvd_mul_iff_right hpos).symm

lemma Accepted.not_cyclicLaw [Inhabited κ] (h : Accepted x ps) (hge : 2 ^ 32 ≤ lcmOf ps) :
    ¬ CyclicLaw x ps := by
  intro hlaw
  rcases Nat.eq_zero_or_pos x.numSlots.toNat with hn | hn
  · have hrun := (hlaw [] (by simp)).2 x rfl (fun _ _ st => st) (fun _ => ⟨0, 0⟩) 0 0
    rw [executedIn_no_slots _ _ _ _ hn] at hrun
    cases hrun
  · have hpos : 0 < x.minorCycleMs.toNat := h.minor ▸ gcdOf_pos h.nonempty h.nonzero
    have hle : x.numSlots.toNat * x.minorCycleMs.toNat ≤ x.majorCycleMs.toNat := by
      rw [x.slots_eq, UInt32.toNat_div]
      exact Nat.div_mul_le_self _ _
    obtain ⟨p, hp, hnd⟩ : ∃ p ∈ ps, ¬ p.toNat ∣ x.numSlots.toNat * x.minorCycleMs.toNat := by
      by_contra hall
      push Not at hall
      have hd : lcmOf ps ∣ x.numSlots.toNat * x.minorCycleMs.toNat :=
        Multiset.lcm_dvd.mpr (by simpa using hall)
      have hb := Nat.le_of_dvd (Nat.mul_pos hn hpos) hd
      have hm := x.majorCycleMs.toNat_lt
      omega
    let action : Action κ := ⟨"", p, default⟩
    have ha : ∀ a ∈ [action], a.periodMs ∈ ps := by simpa [action] using hp
    obtain ⟨⟨x', hr⟩, hall⟩ := hlaw [action] ha
    have hrun := hall x' hr (fun _ _ st => st) (fun _ => ⟨0, 0⟩) 0 x.numSlots.toNat
    rw [h.executedIn hn ha hr] at hrun
    simp [action, hnd] at hrun

end

lemma calculate_two_three : calculate [2, 3] = .ok ⟨1, 6, 6⟩ := by
  have hl : ScheduleCalculator.lcm 2 3 = 6 := UInt32.toNat_inj.mp (by rw [lcm_toNat]; decide)
  have hg : ScheduleCalculator.gcd 2 3 = 1 := UInt32.toNat_inj.mp (by rw [gcd_toNat]; decide)
  simp only [calculate, minorLoop, majorLoop, hl, hg]
  decide

section
variable (x : RTExecutive κ) (r : Registration κ) (callback : κ)

def ExecutedAt (invoke : κ → RTContext → RTState → RTState) (inp : ℕ → CycleInput)
    (nowNs : UInt64) (n : ℕ) : Prop :=
  ∃ ran, executedIn invoke inp (x.enterRun nowNs) n = some ran ∧ callback ∈ ran

/-- Registration terminates; executions are `period_ms / minor_cycle_ms` cycles apart; a period the
table cannot realise is refused. -/
def SpacingContract : Prop :=
  (∃ ret x', Registers x r ret x') ∧
  (∀ x', Registers x r 0 x' → ∀ invoke inp nowNs c c', c < c' →
    ExecutedAt x' callback invoke inp nowNs c → ExecutedAt x' callback invoke inp nowNs c' →
    (∀ m, c < m → m < c' → ¬ ExecutedAt x' callback invoke inp nowNs m) →
    c' = c + (r.periodMs / x.minorCycleMs).toNat) ∧
  (r.periodMs = 0 ∨ x.majorCycleMs < r.periodMs ∨
      ¬ r.periodMs.toNat ∣ x.majorCycleMs.toNat →
    ∃ ret x', Registers x r ret x' ∧ ret ≠ 0)

variable {x r callback}

lemma not_spacingContract (hd : x.minorCycleMs.toNat ∣ r.periodMs.toNat)
    (hbad : r.periodMs = 0 ∨ x.majorCycleMs < r.periodMs ∨
      ¬ r.periodMs.toNat ∣ x.majorCycleMs.toNat) : ¬ SpacingContract x r callback := by
  intro hcon
  obtain ⟨-, -, hrej⟩ := hcon
  obtain ⟨ret, x', ⟨fuel, hr⟩, hret⟩ := hrej hbad
  exact hret (registerAction_accepts hd hr).1

lemma spacingContract_of_rejects (hd : ¬ x.minorCycleMs.toNat ∣ r.periodMs.toNat) :
    SpacingContract x r callback := by
  refine ⟨⟨-1, x, 0, registerAction_rejects hd 0⟩, ?_, ?_⟩
  · intro x' hreg
    obtain ⟨fuel, hr⟩ := hreg
    rw [registerAction_rejects hd] at hr
    simp at hr
  · intro _
    exact ⟨-1, x, ⟨0, registerAction_rejects hd 0⟩, by decide⟩

section
variable (hguard : ∀ g ∈ r.guard, ∀ st, g st = true) (hcall : r.callback = some callback)
  (hfresh : ∀ slot ∈ x.schedule, ∀ a ∈ slot, a.callback ≠ some callback)
include hguard hcall hfresh

lemma executedAt_iff (hfits : Fits x r.periodMs) (hn : 0 < x.numSlots.toNat)
    (hdiv : (r.periodMs / x.minorCycleMs).toNat ∣ x.numSlots.toNat) {x' : RTExecutive κ}
    (hr : Registers x r 0 x') (invoke : κ → RTContext → RTState → RTState) (inp : ℕ → CycleInput)
    (nowNs : UInt64) (n : ℕ) :
    ExecutedAt x' callback invoke inp nowNs n ↔ (r.periodMs / x.minorCycleMs).toNat ∣ n := by
  obtain ⟨-, -, -, hnum, hget⟩ := registers_slots hfits hr
  obtain ⟨slot, context, st, hslot, hexec⟩ :=
    executedIn_spec invoke inp x' nowNs (by rw [hnum]; exact hn) n
  obtain ⟨old, hold⟩ : ∃ old, x.schedule[n % x.numSlots.toNat]? = some old :=
    ⟨_, getElem?_eq_getElem (by rw [x.table_eq]; exact Nat.mod_lt _ hn)⟩
  have hnew : ∀ a ∈ old, a.callback ≠ some callback := hfresh old (mem_of_getElem? hold)
  rw [hnum, hget, hold, Option.map_some, Option.some.injEq] at hslot
  rw [← Nat.dvd_mod_iff hdiv, ExecutedAt]
  simp only [hexec, Option.some.injEq, exists_eq_left']
  rw [mem_executeSlot, ← hslot]
  · constructor
    · intro hact
      obtain ⟨a, ha, hc⟩ := hact
      by_contra hnd
      rw [if_neg hnd, append_nil] at ha
      exact hnew a ha hc
    · intro hdvd
      exact ⟨slotOf x.minorCycleMs r, by rw [if_pos hdvd]; simp, hcall⟩
  · intro a ha hc g hg st
    rw [← hslot] at ha
    rcases mem_append.mp ha with ha | ha
    · exact absurd hc (hnew a ha)
    · split_ifs at ha
      · rw [mem_singleton] at ha
        subst ha
        exact hguard g hg st
      · cases ha

lemma spacingContract_of_dvd (hminor : 1 ≤ x.minorCycleMs.toNat)
    (hmajor : x.minorCycleMs.toNat ∣ x.majorCycleMs.toNat)
    (hd : x.minorCycleMs.toNat ∣ r.periodMs.toNat) (hpos : 0 < r.periodMs.toNat)
    (hle : r.periodMs.toNat ≤ x.majorCycleMs.toNat)
    (hdvd : r.periodMs.toNat ∣ x.majorCycleMs.toNat) : SpacingContract x r callback := by
  have hn : 0 < x.numSlots.toNat := by
    rw [x.slots_eq, UInt32.toNat_div]
    exact Nat.div_pos (Nat.le_of_dvd (by omega) hmajor) hminor
  have hdiv : (r.periodMs / x.minorCycleMs).toNat ∣ x.numSlots.toNat := by
    rw [x.slots_eq, UInt32.toNat_div, UInt32.toNat_div]
    exact Nat.div_dvd_div hd hdvd
  have hfits : Fits x r.periodMs := by
    refine ⟨hd, ?_, noWrap_of_dvd hdiv⟩
    rw [UInt32.toNat_div]
    exact Nat.div_pos (Nat.le_of_dvd hpos hd) hminor
  refine ⟨registers_exists hfits, ?_, ?_⟩
  · intro x' hr invoke inp nowNs c c' hcc hc hc' hbet
    have hexec := executedAt_iff hguard hcall hfresh hfits hn hdiv hr invoke inp nowNs
    rw [hexec] at hc hc'
    have hstep := Nat.le_of_dvd (by omega) (Nat.dvd_sub hc' hc)
    have hk := hfits.2.1
    by_contra hne
    apply hbet (c + (r.periodMs / x.minorCycleMs).toNat) (by omega) (by omega)
    rw [hexec]
    exact Nat.dvd_add hc (dvd_refl _)
  · intro hcase
    rcases hcase with h | h | h
    · simp [h] at hpos
    · rw [UInt32.lt_iff_toNat_lt] at h
      omega
    · exact absurd hdvd h

end

theorem registerAction_spacing_iff (hguard : ∀ g ∈ r.guard, ∀ st, g st = true)
    (hcall : r.callback = some callback)
    (hfresh : ∀ slot ∈ x.schedule, ∀ a ∈ slot, a.callback ≠ some callback)
    (hminor : 1 ≤ x.minorCycleMs.toNat)
    (hmajor : x.minorCycleMs.toNat ∣ x.majorCycleMs.toNat) :
    SpacingContract x r callback ↔
      ¬ x.minorCycleMs.toNat ∣ r.periodMs.toNat ∨
        (0 < r.periodMs.toNat ∧ r.periodMs.toNat ≤ x.majorCycleMs.toNat ∧
          r.periodMs.toNat ∣ x.majorCycleMs.toNat) := by
  constructor
  · intro hcon
    by_contra hbad
    push Not at hbad
    obtain ⟨hd, hbad⟩ := hbad
    refine not_spacingContract hd ?_ hcon
    by_cases hpos : 0 < r.periodMs.toNat
    · by_cases hle : r.periodMs.toNat ≤ x.majorCycleMs.toNat
      · exact Or.inr (Or.inr (hbad hpos hle))
      · exact Or.inr (Or.inl (by rw [UInt32.lt_iff_toNat_lt]; omega))
    · exact Or.inl (UInt32.toNat_inj.mp (by simpa using hpos))
  · intro hcase
    rcases hcase with hd | ⟨hpos, hle, hdvd⟩
    · exact spacingContract_of_rejects hd
    · by_cases hd : x.minorCycleMs.toNat ∣ r.periodMs.toNat
      · exact spacingContract_of_dvd hguard hcall hfresh hminor hmajor hd hpos hle hdvd
      · exact spacingContract_of_rejects hd

theorem registerAction_spacing_six :
    SpacingContract (make 1 6 false : RTExecutive ℕ) ⟨"poll", 3, some 7, none⟩ 7 := by
  rw [registerAction_spacing_iff]
  · exact Or.inr (by decide)
  · simp
  · rfl
  · rw [(make_fields 1 6 false).2.2.2]
    simp
  · decide
  · decide

/-- A period of zero never leaves the loop, and a period of `4` in a major
cycle of `6` is accepted although it does not divide it. -/
theorem registerAction_breaks_spacing :
    ¬ SpacingContract (make 1 6 false : RTExecutive ℕ) ⟨"poll", 0, some 7, none⟩ 7 ∧
      ¬ SpacingContract (make 2 6 false : RTExecutive ℕ) ⟨"poll", 4, some 7, none⟩ 7 :=
  ⟨not_spacingContract (by decide) (by decide), not_spacingContract (by decide) (by decide)⟩

end
end Mxrc.Rt.RTExecutive
