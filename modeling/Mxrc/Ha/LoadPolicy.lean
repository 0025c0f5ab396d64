import Mxrc.Ha.FailoverManager
import Mxrc.Lib.Json

/-!
# Loading a failover policy

`loadPolicy` assigns the entries of the file to the policy in place and checks
it when it is done. An entry that cannot be converted ends the call after those
before it. `PolicyLib` has the functions of the JSON library that are called.
-/

namespace Mxrc.Ha
open Mxrc.Lib

structure FullPolicy extends FailoverPolicy where
  restartDelayMs : UInt32 := 100
  enableLeaderElection : Bool := false
deriving DecidableEq

abbrev ValidPolicy := { p : FullPolicy // p.isValid = true }

structure PolicyLib (J : Type) extends JsonLib J where
  isObject : J → Bool
  typeName : J → String
  getUInt32 : J → Except String UInt32

section
variable {J : Type} (lib : PolicyLib J)

def PolicyLib.value {τ : Type} (j : J) (name : String) (get : J → Except String τ) (default : τ) :
    Except String τ :=
  if !lib.isObject j then
    .error ("[json.exception.type_error.306] cannot use value() with " ++ lib.typeName j)
  else if lib.contains j name then get (lib.field j name) else .ok default

def assignField {τ : Type} (name : String) (get : J → Except String τ) (field : FullPolicy → τ)
    (assign : FullPolicy → τ → FullPolicy) (j : J) (p : FullPolicy) : Except String FullPolicy := do
  return assign p (← lib.value j name get (field p))

def policyFields : List (J → FullPolicy → Except String FullPolicy) :=
  [assignField lib "process_name" lib.getString (·.processName)
      fun p value => { p with processName := value },
    assignField lib "health_check_interval_ms" lib.getUInt32 (·.healthCheckIntervalMs)
      fun p value => { p with healthCheckIntervalMs := value },
    assignField lib "health_check_timeout_ms" lib.getUInt32 (·.healthCheckTimeoutMs)
      fun p value => { p with healthCheckTimeoutMs := value },
    assignField lib "failure_threshold" lib.getUInt32 (·.failureThreshold)
      fun p value => { p with failureThreshold := value },
    assignField lib "restart_delay_ms" lib.getUInt32 (·.restartDelayMs)
      fun p value => { p with restartDelayMs := value },
    assignField lib "max_restart_count" lib.getUInt32 (·.maxRestartCount)
      fun p value => { p with maxRestartCount := value },
    assignField lib "restart_window_sec" lib.getUInt32 (·.restartWindowSec)
      fun p value => { p with restartWindowSec := value },
    assignField lib "enable_state_recovery" lib.getBool (·.enableStateRecovery)
      fun p value => { p with enableStateRecovery := value },
    assignField lib "checkpoint_interval_sec" lib.getUInt32 (·.checkpointIntervalSec)
      fun p value => { p with checkpointIntervalSec := value },
    assignField lib "enable_leader_election" lib.getBool (·.enableLeaderElection)
      fun p value => { p with enableLeaderElection := value }]

def assignFields (j : J) : List (J → FullPolicy → Except String FullPolicy) → FullPolicy →
    Option String × FullPolicy
  | [], p => (none, p)
  | field :: fields, p =>
    match field j p with
    | .error what => (some what, p)
    | .ok p' => assignFields j fields p'

def loadPolicy (p : FullPolicy) (contents : Option (List UInt8)) : Bool × FullPolicy :=
  match contents with
  | none => (false, p)
  | some bytes =>
    match lib.parse bytes with
    | .error _ => (false, p)
    | .ok j =>
      match assignFields j (policyFields lib) p with
      | (some _, p') => (false, p')
      | (none, p') => if !p'.isValid then (false, p') else (true, p')

def afterLoad (p : FullPolicy) (contents : Option (List UInt8)) : Option FullPolicy :=
  some (loadPolicy lib p contents).2

def Atomic (p : FullPolicy) (contents : Option (List UInt8)) : Prop :=
  (loadPolicy lib p contents).1 = true ∧ (loadPolicy lib p contents).2.isValid = true ∨
    (loadPolicy lib p contents).1 = false ∧ (loadPolicy lib p contents).2 = p

structure Clean (p : FullPolicy) (contents : Option (List UInt8)) : Prop where
  valid : ∀ bytes j p', contents = some bytes → lib.parse bytes = .ok j →
    assignFields j (policyFields lib) p = (none, p') → p'.isValid = true
  unchanged : ∀ bytes j before field after p', contents = some bytes → lib.parse bytes = .ok j →
    policyFields lib = before ++ field :: after → assignFields j before p = (none, p') →
    (field j p').isOk = false → p' = p

variable {lib} {p p' : FullPolicy} {contents : Option (List UInt8)} {j : J}
  {before : List (J → FullPolicy → Except String FullPolicy)} {bytes : List UInt8}

lemma assignFields_append (after : List (J → FullPolicy → Except String FullPolicy))
    (h : assignFields j before p = (none, p')) :
    assignFields j (before ++ after) p = assignFields j after p' := by
  induction before generalizing p with
  | nil =>
    cases h
    rfl
  | cons field before ih =>
    rw [assignFields] at h
    rw [List.cons_append, assignFields]
    cases hfld : field j p with
    | error what =>
      rw [hfld] at h
      cases h
    | ok p₁ =>
      rw [hfld] at h
      exact ih h

lemma assignFields_cases (j : J) (fields : List (J → FullPolicy → Except String FullPolicy))
    (p : FullPolicy) :
    (∃ p', assignFields j fields p = (none, p')) ∨
    ∃ before field after p' what, fields = before ++ field :: after ∧
      assignFields j before p = (none, p') ∧ field j p' = .error what ∧
      assignFields j fields p = (some what, p') := by
  induction fields generalizing p with
  | nil => exact .inl ⟨p, rfl⟩
  | cons first fields ih =>
    cases hfir : first j p with
    | error what =>
      refine .inr ⟨[], first, fields, p, what, rfl, rfl, hfir, ?_⟩
      rw [assignFields, hfir]
    | ok p₁ =>
      have hcons : ∀ rest, assignFields j (first :: rest) p = assignFields j rest p₁ := by
        intro rest
        rw [assignFields, hfir]
      rw [hcons]
      rcases ih p₁ with ⟨p', heq⟩ | ⟨before, field, after, p', what, rfl, hbef, hfld, heq⟩
      · exact .inl ⟨p', heq⟩
      · exact .inr ⟨first :: before, field, after, p', what, rfl, (hcons before).trans hbef,
          hfld, heq⟩

lemma loadPolicy_of_unparsed (h : ∀ bytes j, contents = some bytes → lib.parse bytes ≠ .ok j) :
    loadPolicy lib p contents = (false, p) := by
  cases contents with
  | none => rfl
  | some bytes =>
    cases hprs : lib.parse bytes with
    | error _ => simp [loadPolicy, hprs]
    | ok j => exact absurd hprs (h bytes j rfl)

lemma loadPolicy_of_error {what : String} (hprs : lib.parse bytes = .ok j)
    (h : assignFields j (policyFields lib) p = (some what, p')) :
    loadPolicy lib p (some bytes) = (false, p') := by
  simp [loadPolicy, hprs, h]

lemma loadPolicy_of_ok (hprs : lib.parse bytes = .ok j)
    (h : assignFields j (policyFields lib) p = (none, p')) :
    loadPolicy lib p (some bytes) = (p'.isValid, p') := by
  cases hval : p'.isValid with
  | true => simp [loadPolicy, hprs, h, hval]
  | false => simp [loadPolicy, hprs, h, hval]

lemma isValid_of_atomic (hval : p.isValid = true) (h : Atomic lib p contents) :
    (loadPolicy lib p contents).2.isValid = true := by
  rcases h with ⟨-, hnew⟩ | ⟨-, hsame⟩
  · exact hnew
  · rw [hsame]
    exact hval

lemma assignFields_of_fails {field : J → FullPolicy → Except String FullPolicy}
    (after : List (J → FullPolicy → Except String FullPolicy))
    (hbef : assignFields j before p = (none, p')) (hfls : (field j p').isOk = false) :
    ∃ what, assignFields j (before ++ field :: after) p = (some what, p') := by
  rw [assignFields_append _ hbef, assignFields]
  cases hfld : field j p' with
  | error what => exact ⟨what, rfl⟩
  | ok p₁ =>
    rw [hfld] at hfls
    cases hfls

lemma clean_iff_of_ok (hprs : lib.parse bytes = .ok j)
    (h : assignFields j (policyFields lib) p = (none, p')) :
    Clean lib p (some bytes) ↔ p'.isValid = true := by
  refine ⟨fun hcln => hcln.valid bytes j p' rfl hprs h, fun hval => ⟨?_, ?_⟩⟩
  · rintro bytes' j' p₁ hbs hprs' h'
    cases hbs
    cases hprs.symm.trans hprs'
    cases h.symm.trans h'
    exact hval
  · rintro bytes' j' before field after p₁ hbs hprs' hspl hbef hfls
    cases hbs
    cases hprs.symm.trans hprs'
    obtain ⟨what, herr⟩ := assignFields_of_fails after hbef hfls
    rw [← hspl, h] at herr
    cases herr

lemma clean_iff_of_error {what : String} (hprs : lib.parse bytes = .ok j)
    (h : assignFields j (policyFields lib) p = (some what, p')) :
    Clean lib p (some bytes) ↔ p' = p := by
  constructor
  · intro hcln
    rcases assignFields_cases j (policyFields lib) p with
      ⟨p₁, hnone⟩ | ⟨before, field, after, p₁, what', hspl, hbef, hfld, herr⟩
    · rw [h] at hnone
      cases hnone
    · rw [h] at herr
      cases herr
      exact hcln.unchanged bytes j before field after p' rfl hprs hspl hbef (by rw [hfld]; rfl)
  · intro hsame
    refine ⟨?_, ?_⟩
    · rintro bytes' j' p₁ hbs hprs' h'
      cases hbs
      cases hprs.symm.trans hprs'
      cases h.symm.trans h'
    · rintro bytes' j' before field after p₁ hbs hprs' hspl hbef hfls
      cases hbs
      cases hprs.symm.trans hprs'
      obtain ⟨what', herr⟩ := assignFields_of_fails after hbef hfls
      rw [← hspl, h] at herr
      cases herr
      exact hsame

lemma atomic_iff_clean (hval : p.isValid = true) :
    Atomic lib p contents ↔ Clean lib p contents := by
  by_cases hdoc : ∃ bytes j, contents = some bytes ∧ lib.parse bytes = .ok j
  · obtain ⟨bytes, j, rfl, hprs⟩ := hdoc
    rcases hass : assignFields j (policyFields lib) p with ⟨_ | what, p'⟩
    · rw [clean_iff_of_ok hprs hass, Atomic, loadPolicy_of_ok hprs hass]
      constructor
      · rintro (⟨hnew, -⟩ | ⟨-, hsame⟩)
        · exact hnew
        · rw [show p' = p from hsame]
          exact hval
      · exact fun hnew => .inl ⟨hnew, hnew⟩
    · rw [clean_iff_of_error hprs hass, Atomic, loadPolicy_of_error hprs hass]
      simp
  · have hunp : ∀ bytes j, contents = some bytes → lib.parse bytes ≠ .ok j :=
      fun bytes j hbs hprs => hdoc ⟨bytes, j, hbs, hprs⟩
    rw [Atomic, loadPolicy_of_unparsed hunp]
    refine iff_of_true (.inr ⟨rfl, rfl⟩) ⟨?_, ?_⟩
    · intro bytes j p' hbs hprs
      exact absurd hprs (hunp bytes j hbs)
    · intro bytes j before field after p' hbs hprs
      exact absurd hprs (hunp bytes j hbs)

theorem loadPolicy_atomic_iff {J : Type} (lib : PolicyLib J) (initial : ValidPolicy)
    (files : List (Option (List UInt8))) :
    (EveryStep (afterLoad lib) (Atomic lib) initial.val files ↔
      EveryStep (afterLoad lib) (Clean lib) initial.val files) ∧
    (EveryStep (afterLoad lib) (Clean lib) initial.val files →
      ∀ p, Run (afterLoad lib) (fun _ _ => True) initial.val files p → p.isValid = true) := by
  have hiff : EveryStep (afterLoad lib) (Atomic lib) initial.val files ↔
      EveryStep (afterLoad lib) (Clean lib) initial.val files :=
    everyStep_congr (I := fun p => p.isValid = true) initial.property
      fun p contents p' hp hn => by
        cases hn
        exact ⟨atomic_iff_clean hp, fun hatom => isValid_of_atomic hp hatom⟩
  refine ⟨hiff, fun hcln p hrun => ?_⟩
  refine (hrun.everyStep_iff.mp (hiff.mpr hcln)).invariant (fun p => p.isValid = true)
    initial.property fun p contents p' hp hatom hn => ?_
  cases hn
  exact isValid_of_atomic hp hatom

end

def policyLib (parse : List UInt8 → Except ParseFailure JsonValue) : PolicyLib JsonValue where
  toJsonLib := JsonValue.lib parse
  isObject
    | .object _ => true
    | _ => false
  typeName := JsonValue.typeName
  getUInt32
    | .integer n => .ok (UInt32.ofInt n)
    | .bool b => .ok (if b then 1 else 0)
    | v => .error (v.mustBe "number")

/-- The interval in the file is shorter than the timeout that is in place. -/
theorem not_atomic : ¬ ∀ (J : Type) (lib : PolicyLib J) (initial : ValidPolicy)
    (files : List (Option (List UInt8))),
    EveryStep (afterLoad lib) (Atomic lib) initial.val files := by
  intro hall
  let lib := policyLib fun _ => .ok (.object [("health_check_interval_ms", .integer 100)])
  let initial : ValidPolicy := ⟨{}, by decide⟩
  have hatom := hall JsonValue lib initial [some []] [] (some []) [] {} _ rfl .nil rfl
  have hload : loadPolicy lib {} (some []) = (false, { healthCheckIntervalMs := 100 }) := by
    decide +kernel
  rw [Atomic, hload] at hatom
  revert hatom
  decide

end Mxrc.Ha
