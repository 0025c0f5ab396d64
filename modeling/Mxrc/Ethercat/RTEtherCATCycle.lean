import Mxrc.Lib.Runs
import Mxrc.Lib.Streak
import Mxrc.Rt.RTExecutive

/-!
# The errors of the EtherCAT cycle

The error counter is never set back, so it counts the errors since the start and
not consecutive ones. The inputs of a cycle are whether the context has a data
store and what `send` and `receive` return; outputs, commands and sensors are
left out.
-/

namespace Mxrc.Ethercat
open Mxrc.Lib List
open Mxrc.Rt (RTEvent)

inductive EtherCATErrorType
  | sendFailure
  | receiveFailure
  | initializationError
deriving DecidableEq

structure EtherCATErrorEvent where
  errorType : EtherCATErrorType
  message : String
deriving DecidableEq

structure RTEtherCATCycle where
  eventBus : Bool := false
  totalCycles : ℕ := 0
  errorCount : ℕ := 0
  published : List EtherCATErrorEvent := []
deriving DecidableEq

structure CycleOutcome where
  dataStore : Bool
  send : ℤ
  receive : ℤ
deriving DecidableEq

def CycleOutcome.failed (o : CycleOutcome) : Bool := !o.dataStore || o.send ≠ 0 || o.receive ≠ 0

namespace RTEtherCATCycle

def errorThreshold : ℕ := 10

def handleEtherCATError (c : RTEtherCATCycle) (errorType : EtherCATErrorType) (message : String) :
    RTEtherCATCycle × List RTEvent :=
  let c := { c with errorCount := c.errorCount + 1 }
  let c := if c.eventBus then { c with published := c.published ++ [⟨errorType, message⟩] } else c
  (c, if errorThreshold < c.errorCount then [.safeModeEnter] else [])

def execute (c : RTEtherCATCycle) (o : CycleOutcome) : RTEtherCATCycle × List RTEvent :=
  if !o.dataStore then c.handleEtherCATError .initializationError "RTDataStore 없음"
  else if o.send ≠ 0 then c.handleEtherCATError .sendFailure "EtherCAT send 실패"
  else if o.receive ≠ 0 then c.handleEtherCATError .receiveFailure "EtherCAT receive 실패"
  else ({ c with totalCycles := c.totalCycles + 1 }, [])

def afterCycles (c : RTEtherCATCycle) (outcomes : List CycleOutcome) : RTEtherCATCycle :=
  outcomes.foldl (fun c o => (c.execute o).1) c

section
variable (c : RTEtherCATCycle) {o : CycleOutcome}

lemma handleEtherCATError_spec (errorType : EtherCATErrorType) (message : String) :
    (c.handleEtherCATError errorType message).1.errorCount = c.errorCount + 1 ∧
      (c.handleEtherCATError errorType message).2 =
        if errorThreshold < c.errorCount + 1 then [.safeModeEnter] else [] := by
  rw [handleEtherCATError]
  split_ifs <;> exact ⟨rfl, by simp_all⟩

lemma execute_of_failed (h : o.failed = true) :
    (c.execute o).1.errorCount = c.errorCount + 1 ∧
      (c.execute o).2 = if errorThreshold < c.errorCount + 1 then [.safeModeEnter] else [] := by
  rw [execute]
  by_cases hstore : (!o.dataStore) = true
  · rw [if_pos hstore]
    exact c.handleEtherCATError_spec _ _
  rw [if_neg hstore]
  by_cases hsend : o.send ≠ 0
  · rw [if_pos hsend]
    exact c.handleEtherCATError_spec _ _
  rw [if_neg hsend]
  by_cases hrec : o.receive ≠ 0
  · rw [if_pos hrec]
    exact c.handleEtherCATError_spec _ _
  · simp only [CycleOutcome.failed, Bool.or_eq_true, decide_eq_true_eq] at h
    tauto

lemma execute_of_succeeded (h : o.failed = false) :
    (c.execute o).1.errorCount = c.errorCount ∧ (c.execute o).2 = [] := by
  simp only [CycleOutcome.failed, Bool.or_eq_false_iff, decide_eq_false_iff_not, not_not] at h
  obtain ⟨⟨hstore, hsend⟩, hrec⟩ := h
  rw [execute, if_neg (by rw [hstore]; exact Bool.false_ne_true), if_neg (not_not.mpr hsend),
    if_neg (not_not.mpr hrec)]
  exact ⟨rfl, rfl⟩

lemma afterCycles_append (outcomes : List CycleOutcome) (o : CycleOutcome) :
    c.afterCycles (outcomes ++ [o]) = ((c.afterCycles outcomes).execute o).1 := by
  rw [afterCycles, foldl_append]
  rfl

lemma errorCount_afterCycles (outcomes : List CycleOutcome) :
    (c.afterCycles outcomes).errorCount = c.errorCount + outcomes.countP CycleOutcome.failed := by
  induction outcomes using List.reverseRecOn with
  | nil => rfl
  | append_singleton outcomes o ih =>
    rw [afterCycles_append, countP_append, countP_singleton]
    cases ho : o.failed with
    | true =>
      rw [(execute_of_failed _ ho).1, ih, if_pos rfl, Nat.add_assoc]
    | false =>
      rw [(execute_of_succeeded _ ho).1, ih, if_neg Bool.false_ne_true, Nat.add_zero]

end

/-- SAFE_MODE_ENTER is received exactly if this cycle and those before it, as many as the threshold,
have failed. -/
def EntersOnConsecutive (before : List CycleOutcome) (o : CycleOutcome) : Prop :=
  .safeModeEnter ∈ ((({} : RTEtherCATCycle).afterCycles before).execute o).2 ↔
    errorThreshold < ((before ++ [o]).rtakeWhile CycleOutcome.failed).length

section
variable {before outcomes : List CycleOutcome} {o : CycleOutcome}

lemma entersOnConsecutive_of_succeeded (h : o.failed = false) : EntersOnConsecutive before o := by
  have hstr : (before ++ [o]).rtakeWhile CycleOutcome.failed = [] := by
    rw [rtakeWhile_concat, if_neg (by rw [h]; exact Bool.false_ne_true)]
  rw [EntersOnConsecutive, (execute_of_succeeded _ h).2, hstr]
  simp

lemma entersOnConsecutive_iff_of_failed (h : o.failed = true) :
    EntersOnConsecutive before o ↔
      (errorThreshold ≤ before.countP CycleOutcome.failed ↔
        errorThreshold ≤ (before.rtakeWhile CycleOutcome.failed).length) := by
  have hcnt : (({} : RTEtherCATCycle).afterCycles before).errorCount =
      before.countP CycleOutcome.failed := by
    rw [errorCount_afterCycles]
    exact Nat.zero_add _
  have hstr : ((before ++ [o]).rtakeWhile CycleOutcome.failed).length =
      (before.rtakeWhile CycleOutcome.failed).length + 1 := by
    rw [rtakeWhile_concat, if_pos h, length_append, length_singleton]
  have hsent : .safeModeEnter ∈ ((({} : RTEtherCATCycle).afterCycles before).execute o).2 ↔
      errorThreshold ≤ before.countP CycleOutcome.failed := by
    rw [(execute_of_failed _ h).2, hcnt]
    split_ifs with hmore
    · simp only [mem_singleton, true_iff]
      omega
    · simp only [not_mem_nil, false_iff]
      omega
  rw [EntersOnConsecutive, hsent, hstr, Nat.lt_succ_iff]

lemma few_or_oneBlock_of_entersOnConsecutive (h : EveryEntry EntersOnConsecutive outcomes) :
    outcomes.countP CycleOutcome.failed ≤ errorThreshold ∨
      OneBlock CycleOutcome.failed outcomes := by
  induction outcomes using List.reverseRecOn with
  | nil => exact .inl (Nat.zero_le _)
  | append_singleton outcomes o ih =>
    obtain ⟨hbef, ho⟩ := everyEntry_append_singleton.mp h
    have hih := ih hbef
    rw [countP_append, countP_singleton]
    cases hfail : o.failed with
    | false =>
      rcases hih with hfew | hblc
      · exact .inl (by simpa using hfew)
      · exact .inr (hblc.concat_of_false hfail)
    | true =>
      rw [entersOnConsecutive_iff_of_failed hfail] at ho
      rcases Nat.lt_or_ge (outcomes.countP CycleOutcome.failed) errorThreshold with hlt | hge
      · exact .inl (by simpa using hlt)
      · -- The last ten cycles have failed; no error lies before them.
        have hstr := ho.mp hge
        refine .inr ?_
        rcases hih with hfew | hblc
        · exact (endBlock_of_countP_le (hfew.trans hstr)).oneBlock_concat hfail
        · exact (hblc.endBlock_of_streak
            (by rw [errorThreshold] at hstr; omega)).oneBlock_concat hfail

lemma entersOnConsecutive_of_few_or_oneBlock
    (h : outcomes.countP CycleOutcome.failed ≤ errorThreshold ∨
      OneBlock CycleOutcome.failed outcomes) : EveryEntry EntersOnConsecutive outcomes := by
  induction outcomes using List.reverseRecOn with
  | nil => exact everyEntry_nil _
  | append_singleton outcomes o ih =>
    have hbef : outcomes.countP CycleOutcome.failed ≤ errorThreshold ∨
        OneBlock CycleOutcome.failed outcomes := by
      rw [countP_append] at h
      exact h.imp (fun hfew => by omega) OneBlock.of_concat
    refine everyEntry_append_singleton.mpr ⟨ih hbef, ?_⟩
    cases hfail : o.failed with
    | false => exact entersOnConsecutive_of_succeeded hfail
    | true =>
      rw [entersOnConsecutive_iff_of_failed hfail]
      have hle := length_rtakeWhile_le_countP CycleOutcome.failed outcomes
      rcases h with hfew | hblc
      · rw [countP_append, countP_singleton, if_pos hfail] at hfew
        omega
      · rw [(hblc.endBlock hfail).length_rtakeWhile]

end

theorem safeMode_consecutive_iff (outcomes : List CycleOutcome) :
    EveryEntry EntersOnConsecutive outcomes ↔
      outcomes.countP CycleOutcome.failed ≤ errorThreshold ∨
        OneBlock CycleOutcome.failed outcomes :=
  ⟨few_or_oneBlock_of_entersOnConsecutive, entersOnConsecutive_of_few_or_oneBlock⟩

/-- Ten failed cycles, a good one and a failed one. -/
theorem not_safeMode_consecutive : ¬ ∀ outcomes, EveryEntry EntersOnConsecutive outcomes := by
  intro h
  have hlast := h (List.replicate 10 ⟨true, -1, 0⟩ ++ [⟨true, 0, 0⟩] ++ [⟨true, -1, 0⟩]) _ _ [] rfl
  rw [EntersOnConsecutive] at hlast
  exact absurd (hlast.mp (by decide)) (by decide)

end RTEtherCATCycle
end Mxrc.Ethercat
