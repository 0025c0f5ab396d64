import Mxrc.Lib.Bytes
import Mxrc.Lib.Windows

/-!
# Motor commands

`MotorCommandManager` checks a command and writes the control word of the slave
and then the target of the commanded mode, if it is mapped. Numbers are exact
rationals. A cell of the image is a byte, or one of the eight bytes of a
`double`.
-/

namespace Mxrc.Ethercat
open Mxrc.Lib Option

inductive ControlMode
  | disabled
  | position
  | velocity
  | torque
deriving DecidableEq

structure BLDCMotorCommand where
  slaveId : UInt16
  targetVelocity : ℚ := 0
  targetTorque : ℚ := 0
  controlMode : ControlMode := .disabled
  enable : Bool := false
deriving DecidableEq

def BLDCMotorCommand.isValid (c : BLDCMotorCommand) : Bool :=
  if !c.enable then true
  else
    match c.controlMode with
    | .disabled => true
    | .velocity => decide (-10000 ≤ c.targetVelocity ∧ c.targetVelocity ≤ 10000)
    | .torque => decide (-100 ≤ c.targetTorque ∧ c.targetTorque ≤ 100)
    | .position => false

structure ServoDriverCommand where
  slaveId : UInt16
  targetPosition : ℚ := 0
  targetVelocity : ℚ := 0
  targetTorque : ℚ := 0
  controlMode : ControlMode := .disabled
  maxVelocity : ℚ := 10
  maxTorque : ℚ := 100
  enable : Bool := false
deriving DecidableEq

def twoPi : ℚ := 628318530718 / 100000000000

def ServoDriverCommand.isValid (c : ServoDriverCommand) : Bool :=
  if !c.enable then true
  else
    match c.controlMode with
    | .disabled => true
    | .position =>
      let inRotationRange := decide (-twoPi ≤ c.targetPosition ∧ c.targetPosition ≤ twoPi)
      let inLinearRange := decide (-10 ≤ c.targetPosition ∧ c.targetPosition ≤ 10)
      let velocityValid := decide (0 ≤ c.targetVelocity ∧ c.targetVelocity ≤ c.maxVelocity)
      (inRotationRange || inLinearRange) && velocityValid
    | .velocity => decide (0 ≤ c.targetVelocity ∧ c.targetVelocity ≤ c.maxVelocity)
    | .torque => decide (0 ≤ c.targetTorque ∧ c.targetTorque ≤ c.maxTorque)

inductive PDODirection
  | input
  | output
deriving DecidableEq

inductive PDODataType
  | int8
  | uint8
  | int16
  | uint16
  | int32
  | uint32
  | float
  | double
deriving DecidableEq

def PDODataType.size : PDODataType → ℕ
  | .int8 | .uint8 => 1
  | .int16 | .uint16 => 2
  | .int32 | .uint32 | .float => 4
  | .double => 8

structure PDOMapping where
  direction : PDODirection
  index : UInt16
  subindex : UInt8
  dataType : PDODataType
  offset : UInt32
deriving DecidableEq

inductive Cell
  | byte (b : UInt8)
  | part (value : ℚ) (i : ℕ)
deriving DecidableEq

abbrev Image := ℕ → Cell

def Image.zero : Image := fun _ => .byte 0

abbrev Config := UInt16 → List PDOMapping

namespace PDOHelper

def uint16Cells (value : UInt16) : List Cell := (toLE 2 value.toNat).map .byte

def int16Cells (value : Int16) : List Cell := (toLE 2 value.toUInt16.toNat).map .byte

def int32Cells (value : Int32) : List Cell := (toLE 4 value.toUInt32.toNat).map .byte

def doubleCells (value : ℚ) : List Cell := (List.range 8).map (.part value)

def bytes : List Cell → Option (List UInt8)
  | [] => some []
  | .byte b :: cells => (bytes cells).map (b :: ·)
  | .part _ _ :: _ => none

/-- Cells that are not those of one value have no meaning as a value of the type. -/
def readUInt16 (image : Image) (offset : UInt32) : Option UInt16 :=
  (bytes (load image offset.toNat 2)).map fun bs => UInt16.ofNat (ofLE bs)

def readInt16 (image : Image) (offset : UInt32) : Option Int16 :=
  (bytes (load image offset.toNat 2)).map fun bs => (UInt16.ofNat (ofLE bs)).toInt16

def readInt32 (image : Image) (offset : UInt32) : Option Int32 :=
  (bytes (load image offset.toNat 4)).map fun bs => (UInt32.ofNat (ofLE bs)).toInt32

def readDouble (image : Image) (offset : UInt32) : Option ℚ :=
  match load image offset.toNat 8 with
  | .part value i :: cells =>
    if .part value i :: cells = doubleCells value then some value else none
  | cells => if cells = List.replicate 8 (.byte 0) then some 0 else none

@[simp] lemma bytes_map_byte (bs : List UInt8) : bytes (bs.map .byte) = some bs := by
  induction bs with
  | nil => rfl
  | cons b bs ih => simp [bytes, ih]

section
variable {image : Image} {offset : UInt32}

lemma readUInt16_of_load {value : UInt16} (h : load image offset.toNat 2 = uint16Cells value) :
    readUInt16 image offset = some value := by
  have hlt : value.toNat < 256 ^ 2 := value.toNat_lt
  rw [readUInt16, h, uint16Cells, bytes_map_byte, map_some, ofLE_toLE,
    Nat.mod_eq_of_lt hlt, UInt16.ofNat_toNat]

lemma readInt16_of_load {value : Int16} (h : load image offset.toNat 2 = int16Cells value) :
    readInt16 image offset = some value := by
  have hlt : value.toUInt16.toNat < 256 ^ 2 := value.toUInt16.toNat_lt
  rw [readInt16, h, int16Cells, bytes_map_byte, map_some, ofLE_toLE,
    Nat.mod_eq_of_lt hlt, UInt16.ofNat_toNat, Int16.toInt16_toUInt16]

lemma readInt32_of_load {value : Int32} (h : load image offset.toNat 4 = int32Cells value) :
    readInt32 image offset = some value := by
  have hlt : value.toUInt32.toNat < 256 ^ 4 := value.toUInt32.toNat_lt
  rw [readInt32, h, int32Cells, bytes_map_byte, map_some, ofLE_toLE,
    Nat.mod_eq_of_lt hlt, UInt32.ofNat_toNat, Int32.toInt32_toUInt32]

lemma readDouble_of_load {value : ℚ} (h : load image offset.toNat 8 = doubleCells value) :
    readDouble image offset = some value := by
  rw [readDouble, h]
  exact if_pos rfl

end
end PDOHelper

open PDOHelper

def write (image : Image) (mapping : PDOMapping) (cells : List Cell) : Image :=
  store image mapping.offset.toNat cells

def truncate (q : ℚ) : ℤ := q.num.tdiv q.den

abbrev Encoding := PDODataType → Option (List Cell)

def bldcVelocityCells (value : ℚ) : Encoding
  | .int32 => some (int32Cells (Int32.ofInt (truncate value)))
  | _ => none

def bldcTorqueCells (value : ℚ) : Encoding
  | .int16 => some (int16Cells (Int16.ofInt (truncate value)))
  | .double => some (doubleCells value)
  | _ => none

def servoCells (value : ℚ) : Encoding
  | .double => some (doubleCells value)
  | _ => none

section
variable (config : Config)

def findPDOOffset (slaveId index : UInt16) (subindex : UInt8) : Option PDOMapping :=
  (config slaveId).find? fun mapping =>
    mapping.direction = .output && mapping.index = index && mapping.subindex = subindex

def controlWordField (slaveId : UInt16) : Option PDOMapping :=
  ((findPDOOffset config slaveId 0x1602 0x01).filter (·.dataType = .uint16)).or
    ((findPDOOffset config slaveId 0x1603 0x01).filter (·.dataType = .uint16))

def writeControlWord (image : Image) (slaveId controlWord : UInt16) : Int × Image :=
  match controlWordField config slaveId with
  | some mapping => (0, write image mapping (uint16Cells controlWord))
  | none => (-1, image)

/-- A target that is not mapped is skipped, and one of an unsupported type is an error. -/
def writeTarget (image : Image) (slaveId index : UInt16) (subindex : UInt8)
    (encoding : Encoding) : Int × Image :=
  match findPDOOffset config slaveId index subindex with
  | none => (0, image)
  | some mapping =>
    match encoding mapping.dataType with
    | some cells => (0, write image mapping cells)
    | none => (-1, image)

end

def BLDCMotorCommand.controlWord (c : BLDCMotorCommand) : UInt16 :=
  if c.enable && c.controlMode ≠ .disabled then
    0x0001 ||| (match c.controlMode with
      | .velocity => (0x02 : UInt16) <<< 1
      | .torque => (0x03 : UInt16) <<< 1
      | _ => 0)
  else 0

def ServoDriverCommand.controlWord (c : ServoDriverCommand) : UInt16 :=
  if c.enable && c.controlMode ≠ .disabled then
    0x0001 ||| (match c.controlMode with
      | .position => (0x01 : UInt16) <<< 1
      | .velocity => (0x02 : UInt16) <<< 1
      | .torque => (0x03 : UInt16) <<< 1
      | .disabled => 0)
  else 0

section
variable (config : Config)

def writeBLDCTargets (image : Image) (c : BLDCMotorCommand) : Int × Image :=
  if c.enable && c.controlMode = .velocity then
    writeTarget config image c.slaveId 0x1602 0x02 (bldcVelocityCells c.targetVelocity)
  else if c.enable && c.controlMode = .torque then
    writeTarget config image c.slaveId 0x1602 0x03 (bldcTorqueCells c.targetTorque)
  else (0, image)

/-- With a position goes the maximal velocity, which is skipped if its type is not supported. -/
def writeServoTargets (image : Image) (c : ServoDriverCommand) : Int × Image :=
  if c.enable && c.controlMode = .position then
    let w := writeTarget config image c.slaveId 0x1603 0x02 (servoCells c.targetPosition)
    if w.1 ≠ 0 then (-1, w.2)
    else (0, (writeTarget config w.2 c.slaveId 0x1603 0x03 (servoCells c.maxVelocity)).2)
  else if c.enable && c.controlMode = .velocity then
    writeTarget config image c.slaveId 0x1603 0x04 (servoCells c.targetVelocity)
  else if c.enable && c.controlMode = .torque then
    writeTarget config image c.slaveId 0x1603 0x05 (servoCells c.targetTorque)
  else (0, image)

def writeBLDCCommand (domain : Option Image) (c : BLDCMotorCommand) : Int × Option Image :=
  match domain with
  | none => (-1, none)
  | some image =>
    if !c.isValid then (-1, some image)
    else if (config c.slaveId).isEmpty then (-1, some image)
    else
      let w := writeControlWord config image c.slaveId c.controlWord
      if w.1 ≠ 0 then (-1, some w.2)
      else
        let w := writeBLDCTargets config w.2 c
        (w.1, some w.2)

def writeServoCommand (domain : Option Image) (c : ServoDriverCommand) : Int × Option Image :=
  match domain with
  | none => (-1, none)
  | some image =>
    if !c.isValid then (-1, some image)
    else if (config c.slaveId).isEmpty then (-1, some image)
    else
      let w := writeControlWord config image c.slaveId c.controlWord
      if w.1 ≠ 0 then (-1, some w.2)
      else
        let w := writeServoTargets config w.2 c
        (w.1, some w.2)

end

inductive MotorCommand
  | bldc (command : BLDCMotorCommand)
  | servo (command : ServoDriverCommand)
deriving DecidableEq

/-- A field that a command writes after the control word. If it is `required`, an unsupported type
is an error. -/
structure Target where
  index : UInt16
  subindex : UInt8
  encoding : Encoding
  required : Bool

namespace MotorCommand

def slaveId : MotorCommand → UInt16
  | .bldc c => c.slaveId
  | .servo c => c.slaveId

def isValid : MotorCommand → Bool
  | .bldc c => c.isValid
  | .servo c => c.isValid

def controlWord : MotorCommand → UInt16
  | .bldc c => c.controlWord
  | .servo c => c.controlWord

def write (config : Config) (domain : Option Image) : MotorCommand → Int × Option Image
  | .bldc c => writeBLDCCommand config domain c
  | .servo c => writeServoCommand config domain c

def bldcTargets (c : BLDCMotorCommand) : List Target :=
  if !c.enable then []
  else
    match c.controlMode with
    | .velocity => [⟨0x1602, 0x02, bldcVelocityCells c.targetVelocity, true⟩]
    | .torque => [⟨0x1602, 0x03, bldcTorqueCells c.targetTorque, true⟩]
    | _ => []

def servoTargets (c : ServoDriverCommand) : List Target :=
  if !c.enable then []
  else
    match c.controlMode with
    | .position => [⟨0x1603, 0x02, servoCells c.targetPosition, true⟩,
        ⟨0x1603, 0x03, servoCells c.maxVelocity, false⟩]
    | .velocity => [⟨0x1603, 0x04, servoCells c.targetVelocity, true⟩]
    | .torque => [⟨0x1603, 0x05, servoCells c.targetTorque, true⟩]
    | .disabled => []

def targets : MotorCommand → List Target
  | .bldc c => bldcTargets c
  | .servo c => servoTargets c

end MotorCommand

structure Put where
  mapping : PDOMapping
  cells : List Cell

def putAll (image : Image) (puts : List Put) : Image :=
  puts.foldl (fun image p => Ethercat.write image p.mapping p.cells) image

section
variable (config : Config)

def Target.rejected (slaveId : UInt16) (t : Target) : Bool :=
  t.required && (findPDOOffset config slaveId t.index t.subindex).any fun mapping =>
    (t.encoding mapping.dataType).isNone

def Target.put (slaveId : UInt16) (t : Target) : Option Put :=
  (findPDOOffset config slaveId t.index t.subindex).bind fun mapping =>
    (t.encoding mapping.dataType).map (⟨mapping, ·⟩)

namespace MotorCommand

def rejected (c : MotorCommand) : Bool := c.targets.any (Target.rejected config c.slaveId)

def targetPuts (c : MotorCommand) : List Put :=
  if rejected config c then [] else c.targets.filterMap (Target.put config c.slaveId)

def puts (c : MotorCommand) : List Put :=
  match controlWordField config c.slaveId with
  | none => []
  | some mapping =>
    if c.isValid then ⟨mapping, uint16Cells c.controlWord⟩ :: targetPuts config c else []

end MotorCommand

variable {config} {slaveId : UInt16} {t : Target}

lemma Target.put_eq_none_of_rejected (h : t.rejected config slaveId = true) :
    t.put config slaveId = none := by
  rw [rejected, Bool.and_eq_true, any_eq_true] at h
  obtain ⟨-, mapping, hfind, hnone⟩ := h
  simp [put, hfind, isNone_iff_eq_none.mp hnone]

variable (config)

lemma image_writeTarget (image : Image) (slaveId : UInt16) (t : Target) :
    (writeTarget config image slaveId t.index t.subindex t.encoding).2 =
      putAll image (t.put config slaveId).toList := by
  rw [writeTarget, Target.put]
  cases findPDOOffset config slaveId t.index t.subindex with
  | none => rfl
  | some mapping => cases h : t.encoding mapping.dataType <;> simp [h, putAll]

lemma result_writeTarget (image : Image) (slaveId : UInt16) (h : t.required = true) :
    (writeTarget config image slaveId t.index t.subindex t.encoding).1 =
      if t.rejected config slaveId then -1 else 0 := by
  rw [writeTarget, Target.rejected, h, Bool.true_and]
  cases findPDOOffset config slaveId t.index t.subindex with
  | none => rfl
  | some mapping => cases h : t.encoding mapping.dataType <;> simp [h]

namespace MotorCommand

lemma writeTarget_eq {c : MotorCommand} (h : c.targets = [t]) (hreq : t.required = true)
    (image : Image) :
    writeTarget config image c.slaveId t.index t.subindex t.encoding =
      (if rejected config c then -1 else 0, putAll image (targetPuts config c)) := by
  have hrej : rejected config c = t.rejected config c.slaveId := by simp [rejected, h]
  have hputs : targetPuts config c = (t.put config c.slaveId).toList := by
    rw [targetPuts, hrej, h]
    split_ifs with hr
    · rw [Target.put_eq_none_of_rejected hr]
      rfl
    · cases hput : t.put config c.slaveId <;> simp [hput]
  rw [hrej, hputs, ← image_writeTarget, ← result_writeTarget config image c.slaveId hreq]

lemma writeTarget_pair {c : MotorCommand} {u : Target} (h : c.targets = [t, u])
    (hreq : t.required = true) (hopt : u.required = false) (image : Image) :
    (let w := writeTarget config image c.slaveId t.index t.subindex t.encoding
      if w.1 ≠ 0 then (-1, w.2)
      else (0, (writeTarget config w.2 c.slaveId u.index u.subindex u.encoding).2)) =
      (if rejected config c then -1 else 0, putAll image (targetPuts config c)) := by
  have hptn : u.rejected config c.slaveId = false := by simp [Target.rejected, hopt]
  have hrej : rejected config c = t.rejected config c.slaveId := by
    simp [rejected, h, hptn]
  dsimp only
  rw [result_writeTarget config image c.slaveId hreq, image_writeTarget, image_writeTarget,
    targetPuts, hrej, h]
  cases hr : t.rejected config c.slaveId with
  | true => simp [Target.put_eq_none_of_rejected hr]
  | false =>
    cases ht : t.put config c.slaveId <;> cases hu : u.put config c.slaveId <;>
      simp [ht, hu, putAll]

lemma eq_of_targets_nil {c : MotorCommand} (h : c.targets = []) (image : Image) :
    ((0 : Int), image) = (if rejected config c then -1 else 0,
      putAll image (targetPuts config c)) := by
  simp [rejected, targetPuts, h, putAll]

lemma writeBLDCTargets_eq (image : Image) (c : BLDCMotorCommand) :
    writeBLDCTargets config image c = (if rejected config (.bldc c) then -1 else 0,
      putAll image (targetPuts config (.bldc c))) := by
  rw [writeBLDCTargets]
  cases henab : c.enable with
  | false => exact eq_of_targets_nil config (by simp [targets, bldcTargets, henab]) image
  | true =>
    cases hmode : c.controlMode with
    | disabled => exact eq_of_targets_nil config (by simp [targets, bldcTargets, hmode]) image
    | position => exact eq_of_targets_nil config (by simp [targets, bldcTargets, hmode]) image
    | velocity =>
      exact writeTarget_eq config (c := .bldc c)
        (t := ⟨0x1602, 0x02, bldcVelocityCells c.targetVelocity, true⟩)
        (by simp [targets, bldcTargets, henab, hmode]) rfl image
    | torque =>
      exact writeTarget_eq config (c := .bldc c)
        (t := ⟨0x1602, 0x03, bldcTorqueCells c.targetTorque, true⟩)
        (by simp [targets, bldcTargets, henab, hmode]) rfl image

lemma writeServoTargets_eq (image : Image) (c : ServoDriverCommand) :
    writeServoTargets config image c = (if rejected config (.servo c) then -1 else 0,
      putAll image (targetPuts config (.servo c))) := by
  rw [writeServoTargets]
  cases henab : c.enable with
  | false => exact eq_of_targets_nil config (by simp [targets, servoTargets, henab]) image
  | true =>
    cases hmode : c.controlMode with
    | disabled => exact eq_of_targets_nil config (by simp [targets, servoTargets, hmode]) image
    | position =>
      exact writeTarget_pair config (c := .servo c)
        (t := ⟨0x1603, 0x02, servoCells c.targetPosition, true⟩)
        (u := ⟨0x1603, 0x03, servoCells c.maxVelocity, false⟩)
        (by simp [targets, servoTargets, henab, hmode]) rfl rfl image
    | velocity =>
      exact writeTarget_eq config (c := .servo c)
        (t := ⟨0x1603, 0x04, servoCells c.targetVelocity, true⟩)
        (by simp [targets, servoTargets, henab, hmode]) rfl image
    | torque =>
      exact writeTarget_eq config (c := .servo c)
        (t := ⟨0x1603, 0x05, servoCells c.targetTorque, true⟩)
        (by simp [targets, servoTargets, henab, hmode]) rfl image

lemma isEmpty_of_controlWordField {mapping : PDOMapping} {slaveId : UInt16}
    (h : controlWordField config slaveId = some mapping) : (config slaveId).isEmpty = false := by
  rw [Bool.eq_false_iff]
  intro hemp
  simp [controlWordField, findPDOOffset, List.isEmpty_iff.mp hemp] at h

lemma write_some (image : Image) (c : MotorCommand) :
    c.write config (some image) =
      (if (puts config c).isEmpty || rejected config c then -1 else 0,
        some (putAll image (puts config c))) := by
  cases hfld : controlWordField config c.slaveId with
  | none =>
    have hputs : puts config c = [] := by simp [puts, hfld]
    cases c <;> simp only [slaveId] at hfld <;>
      simp [write, writeBLDCCommand, writeServoCommand, writeControlWord, hfld, hputs, putAll]
  | some mapping =>
    have hcon := isEmpty_of_controlWordField config hfld
    cases hval : c.isValid with
    | false =>
      have hputs : puts config c = [] := by simp [puts, hfld, hval]
      cases c <;> simp only [isValid] at hval <;>
        simp [write, writeBLDCCommand, writeServoCommand, hval, hputs, putAll]
    | true =>
      have hputs : puts config c = ⟨mapping, uint16Cells c.controlWord⟩ :: targetPuts config c := by
        simp [puts, hfld, hval]
      rw [hputs]
      cases c with
      | bldc c =>
        simp only [slaveId, isValid] at hfld hval hcon
        simp [write, writeBLDCCommand, writeControlWord, hfld, hval, hcon,
          writeBLDCTargets_eq, putAll, controlWord]
      | servo c =>
        simp only [slaveId, isValid] at hfld hval hcon
        simp [write, writeServoCommand, writeControlWord, hfld, hval, hcon,
          writeServoTargets_eq, putAll, controlWord]

end MotorCommand
end

namespace MotorCommand

def next (config : Config) (domain : Option Image) (c : MotorCommand) : Option (Option Image) :=
  some (c.write config domain).2

end MotorCommand

def DisjointFields (config : Config) : Prop :=
  ∀ slave, ∀ m ∈ config slave, ∀ slave', ∀ m' ∈ config slave', (slave, m) ≠ (slave', m') →
    Apart m.offset.toNat m.dataType.size m'.offset.toNat m'.dataType.size

def sampleConfig (type : PDODataType) : Config := fun slave =>
  if slave = 1 then [⟨.output, 0x1602, 0x01, .uint16, 0⟩, ⟨.output, 0x1602, 0x02, type, 2⟩] else []

lemma disjointFields_sampleConfig (type : PDODataType) : DisjointFields (sampleConfig type) := by
  intro slave m hm slave' m' hm' hne
  simp only [sampleConfig] at hm hm'
  split_ifs at hm hm' with h h' <;>
    simp only [List.mem_cons, List.not_mem_nil, or_false] at hm hm'
  subst h h'
  rcases hm with rfl | rfl <;> rcases hm' with rfl | rfl
  · exact absurd rfl hne
  · exact Or.inl le_rfl
  · exact Or.inr le_rfl
  · exact absurd rfl hne

end Mxrc.Ethercat
