import Mxrc.Lib.Runs
import Mxrc.Ethercat.MotorCommand

/-!
# Failed commands and the process image

The control word is written before the type of the target field is looked at. A
valid command whose target has an unsupported type is therefore reported as an
error, with the control word already in the image. No other error leaves a
trace.
-/

namespace Mxrc.Ethercat
open Mxrc.Lib

namespace MotorCommand
variable (config : Config)

def ErrorLeavesImage (domain : Option Image) (c : MotorCommand) : Prop :=
  (c.write config domain).1 ≠ 0 → (c.write config domain).2 = domain

def RejectedLate (c : MotorCommand) : Prop :=
  c.isValid = true ∧ (controlWordField config c.slaveId).isSome = true ∧ rejected config c = true

variable {config} {c : MotorCommand}

lemma write_none : c.write config none = (-1, none) := by cases c <;> rfl

lemma errorLeavesImage_of_not_rejectedLate (h : ¬ RejectedLate config c) (domain : Option Image) :
    ErrorLeavesImage config domain c := by
  cases domain with
  | none => simp [ErrorLeavesImage, write_none]
  | some image =>
    rw [ErrorLeavesImage, write_some]
    intro hres
    cases hputs : puts config c with
    | nil => rfl
    | cons p ps =>
      have hrej : rejected config c = true := by
        by_contra hfal
        simp [hputs, hfal] at hres
      rw [puts] at hputs
      split at hputs
      next => cases hputs
      next mapping hfld =>
        split_ifs at hputs with hval
        exact absurd ⟨hval, by simp [hfld], hrej⟩ h

lemma not_errorLeavesImage_of_rejectedLate (h : RejectedLate config c) :
    ¬ ErrorLeavesImage config (some fun _ => .part 0 0) c := by
  obtain ⟨hval, hfld, hrej⟩ := h
  obtain ⟨mapping, hfld⟩ := Option.isSome_iff_exists.mp hfld
  rw [ErrorLeavesImage, write_some]
  intro hnot
  have himage := Option.some.inj (hnot (by simp [hrej]))
  have hcell := congrFun himage mapping.offset.toNat
  simp [puts, hfld, hval, targetPuts, hrej, putAll, Ethercat.write, store,
    PDOHelper.uint16Cells, toLE] at hcell

theorem errorLeavesImage_iff (config : Config) (allowed : Set MotorCommand) :
    (∀ domain cs, (∀ c ∈ cs, c ∈ allowed) →
        EveryStep (next config) (ErrorLeavesImage config) domain cs) ↔
      ∀ c ∈ allowed, ¬ RejectedLate config c := by
  constructor
  · intro hall c hc hlate
    have hrun := hall (some fun _ => .part 0 0) [c] (by simpa using hc)
    exact not_errorLeavesImage_of_rejectedLate hlate (hrun [] c [] _ _ rfl .nil rfl)
  · rintro hlate domain cs hcs ls₁ c ls₂ s s' rfl - -
    exact errorLeavesImage_of_not_rejectedLate (hlate c (hcs c (by simp))) s

/-- The velocity of a BLDC motor is mapped as INT16. -/
theorem not_errorLeavesImage : ¬ ∀ config, DisjointFields config → ∀ domain cs,
    EveryStep (next config) (ErrorLeavesImage config) domain cs := by
  intro hall
  let config := sampleConfig .int16
  let c : MotorCommand := .bldc ⟨1, 100, 0, .velocity, true⟩
  have hnot := hall config (disjointFields_sampleConfig .int16) (some Image.zero) [c] [] c []
    _ _ rfl .nil rfl
  have herr : (c.write config (some Image.zero)).1 = -1 := rfl
  have himage := hnot (by rw [herr]; decide)
  have hcell : ((c.write config (some Image.zero)).2.map fun image => image 0) =
      some (.byte 5) := rfl
  rw [himage] at hcell
  cases hcell

end MotorCommand
end Mxrc.Ethercat
