import Mxrc.Lib.Runs

/-!
# The emergency stop of the mock driver

`writeActuators` looks at the stop flag and at the status, `writeDigitalOutputs`
at the status only. `held` is set by `emergencyStop` and cleared by a `start` or
`resetErrors` that returns true and by `shutdown`. Doubles are rationals; inputs
and statistics are left out.
-/

namespace Mxrc.Fieldbus
open Mxrc.Lib

inductive FieldbusStatus
  | uninitialized
  | initialized
  | running
  | error
  | stopped
deriving DecidableEq

structure MockDriver where
  deviceCount : ℕ
  actuatorData : List ℚ := .replicate deviceCount 0
  digitalOutputs : List Bool := .replicate deviceCount false
  status : FieldbusStatus := .uninitialized
  lastError : Option String := none
  emergencyStopped : Bool := false

namespace MockDriver
variable (d : MockDriver)

def initializeDriver : Bool × MockDriver :=
  if d.status ≠ .uninitialized then (false, d) else (true, { d with status := .initialized })

def start : Bool × MockDriver :=
  if d.status ≠ .initialized ∧ d.status ≠ .stopped then
    (false, { d with lastError := some "Cannot start: not initialized or stopped" })
  else (true, { d with status := .running, emergencyStopped := false })

def stop : Bool × MockDriver :=
  if d.status ≠ .running then (false, d) else (true, { d with status := .stopped })

def clearOutputs : MockDriver :=
  { d with
    actuatorData := d.actuatorData.map fun _ => 0
    digitalOutputs := d.digitalOutputs.map fun _ => false }

def shutdown : MockDriver :=
  { d.clearOutputs with status := .uninitialized, lastError := none, emergencyStopped := false }

def readSensors : Bool × MockDriver :=
  if d.status ≠ .running then (false, { d with lastError := some "Cannot read: not running" })
  else (true, d)

def writeActuators (data : List ℚ) : Bool × MockDriver :=
  if d.status ≠ .running then (false, { d with lastError := some "Cannot write: not running" })
  else if d.emergencyStopped then
    (false, { d with lastError := some "Cannot write: emergency stopped" })
  else if data.length ≠ d.deviceCount then
    (false, { d with lastError := some ("Data size mismatch: expected " ++
      toString d.deviceCount ++ ", got " ++ toString data.length) })
  else (true, { d with actuatorData := data })

def readDigitalInputs : Bool × MockDriver := (d.status = .running, d)

def writeDigitalOutputs (data : List Bool) : Bool × MockDriver :=
  if d.status ≠ .running then (false, d)
  else if data.length ≠ d.deviceCount then
    (false, { d with lastError := some "Digital output size mismatch" })
  else (true, { d with digitalOutputs := data })

def emergencyStop : Bool × MockDriver := (true, { d.clearOutputs with emergencyStopped := true })

def resetErrors : Bool × MockDriver :=
  if d.status = .error then
    (true, { d with status := .initialized, lastError := none, emergencyStopped := false })
  else (false, d)

def setSimulatedError (errorMsg : String) : MockDriver :=
  if errorMsg = "" then
    { d with
      lastError := none
      status := if d.status = .error then .initialized else d.status }
  else { d with lastError := some errorMsg, status := .error }

inductive Op
  | initializeDriver
  | start
  | stop
  | shutdown
  | readSensors
  | writeActuators (data : List ℚ)
  | readDigitalInputs
  | writeDigitalOutputs (data : List Bool)
  | emergencyStop
  | resetErrors
  | setSimulatedError (errorMsg : String)

def call : Op → Bool × MockDriver
  | .initializeDriver => d.initializeDriver
  | .start => d.start
  | .stop => d.stop
  | .shutdown => (true, d.shutdown)
  | .readSensors => d.readSensors
  | .writeActuators data => d.writeActuators data
  | .readDigitalInputs => d.readDigitalInputs
  | .writeDigitalOutputs data => d.writeDigitalOutputs data
  | .emergencyStop => d.emergencyStop
  | .resetErrors => d.resetErrors
  | .setSimulatedError errorMsg => (true, d.setSimulatedError errorMsg)

def AllOff : Prop := (∀ x ∈ d.actuatorData, x = 0) ∧ ∀ b ∈ d.digitalOutputs, b = false

lemma allOff_clearOutputs : d.clearOutputs.AllOff := by
  simp [AllOff, clearOutputs]

end MockDriver

structure Watched where
  driver : MockDriver
  held : Bool := false

namespace Watched
open MockDriver

def next (w : Watched) (op : Op) : Option Watched :=
  let result := w.driver.call op
  some ⟨result.2,
    match op with
    | .emergencyStop => true
    | .start | .resetErrors | .shutdown => w.held && !result.1
    | _ => w.held⟩

def Holds (w : Watched) : Prop := w.held = true → w.driver.AllOff

/-- Digital outputs that the driver takes during a stop are all false. -/
def QuietOutputs (w : Watched) : Op → Prop
  | .writeDigitalOutputs data => w.held = true → w.driver.status = .running →
      data.length = w.driver.deviceCount → ∀ b ∈ data, b = false
  | _ => True

variable {w w' : Watched} {op : Op}

lemma holds_next_iff (hflag : w.driver.emergencyStopped = w.held) (h : w.Holds)
    (hn : w.next op = some w') :
    w'.driver.emergencyStopped = w'.held ∧ (w'.Holds ↔ w.QuietOutputs op) := by
  cases hn
  cases op with
  | writeDigitalOutputs data =>
    simp only [Holds, QuietOutputs, call, writeDigitalOutputs]
    split_ifs with hst hsize
    · exact ⟨hflag, iff_of_true h fun _ hrng => absurd hrng hst⟩
    · exact ⟨hflag, iff_of_true h fun _ _ hlen => absurd hlen hsize⟩
    · refine ⟨hflag, fun hoff hheld _ _ => (hoff hheld).2, fun hquiet hheld => ?_⟩
      exact ⟨(h hheld).1, hquiet hheld (not_not.mp hst) (not_not.mp hsize)⟩
  | writeActuators data =>
    simp only [Holds, QuietOutputs, call, writeActuators, iff_true]
    split_ifs with hst hstop hsize
    · exact ⟨hflag, h⟩
    · exact ⟨hflag, h⟩
    · exact ⟨hflag, h⟩
    · refine ⟨hflag, fun hheld => ?_⟩
      rw [hflag] at hstop
      exact absurd hheld hstop
  | emergencyStop => exact ⟨rfl, iff_of_true (fun _ => allOff_clearOutputs _) trivial⟩
  | shutdown =>
    exact ⟨by simp [call, shutdown], iff_of_true (fun _ => allOff_clearOutputs _) trivial⟩
  | readDigitalInputs => exact ⟨hflag, iff_of_true h trivial⟩
  | setSimulatedError errorMsg =>
    simp only [Holds, QuietOutputs, call, setSimulatedError, iff_true]
    split_ifs <;> exact ⟨hflag, h⟩
  | initializeDriver =>
    simp only [Holds, QuietOutputs, call, MockDriver.initializeDriver, iff_true]
    split_ifs <;> exact ⟨hflag, h⟩
  | stop =>
    simp only [Holds, QuietOutputs, call, MockDriver.stop, iff_true]
    split_ifs <;> exact ⟨hflag, h⟩
  | readSensors =>
    simp only [Holds, QuietOutputs, call, MockDriver.readSensors, iff_true]
    split_ifs <;> exact ⟨hflag, h⟩
  | start =>
    simp only [Holds, QuietOutputs, call, MockDriver.start, iff_true]
    split_ifs
    · exact ⟨by simpa using hflag, fun hheld => h (by simpa using hheld)⟩
    · exact ⟨by simp, by simp⟩
  | resetErrors =>
    simp only [Holds, QuietOutputs, call, MockDriver.resetErrors, iff_true]
    split_ifs
    · exact ⟨by simp, by simp⟩
    · exact ⟨by simpa using hflag, fun hheld => h (by simpa using hheld)⟩

theorem emergencyStop_holds_iff (deviceCount : ℕ) (ops : List Op) :
    Throughout next Holds ⟨{ deviceCount }, false⟩ ops ↔
      EveryStep next QuietOutputs ⟨{ deviceCount }, false⟩ ops :=
  throughout_iff_everyStep (B := fun w => w.driver.emergencyStopped = w.held) rfl
    (fun hheld => absurd hheld Bool.false_ne_true)
    fun _ _ _ hflag h hn => holds_next_iff hflag h hn

/-- A digital output is switched on while the driver is running and stopped. -/
theorem not_emergencyStop_holds :
    ¬ ∀ (deviceCount : ℕ) (ops : List Op), Throughout next Holds ⟨{ deviceCount }, false⟩ ops := by
  intro h
  have hexec : (exec next (fun _ _ => true) ⟨{ deviceCount := 1 }, false⟩
      [.initializeDriver, .start, .emergencyStop, .writeDigitalOutputs [true]]).map
        (fun w => (w.held, w.driver.digitalOutputs)) = some (true, [true]) := by decide
  obtain ⟨w, hrun, hend⟩ := exists_run_of_exec (fun _ _ _ => trivial) hexec
  simp only [Prod.mk.injEq] at hend
  obtain ⟨hheld, hout⟩ := hend
  have hoff := (h 1 _ _ w List.prefix_rfl hrun hheld).2
  rw [hout] at hoff
  simp at hoff

end Watched
end Mxrc.Fieldbus
