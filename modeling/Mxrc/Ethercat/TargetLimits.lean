import Mxrc.Lib.Runs
import Mxrc.Ethercat.MotorCommand

/-!
# Limits of the targets on the bus

A target stays in the process image when later commands change the control word.
Every target was checked by `isValid` of the command that wrote it, truncation
keeps it between integer limits, and no write to another field touches it.
-/

namespace Mxrc.Ethercat
open Mxrc.Lib PDOHelper List Option

inductive Drive
  | bldc
  | servo
deriving DecidableEq

def MotorCommand.drive : MotorCommand → Drive
  | .bldc _ => .bldc
  | .servo _ => .servo

inductive LimitedTarget
  | bldcVelocity
  | bldcTorque
  | servoVelocity
  | servoTorque
deriving DecidableEq

namespace LimitedTarget

def drive : LimitedTarget → Drive
  | .bldcVelocity | .bldcTorque => .bldc
  | .servoVelocity | .servoTorque => .servo

def mode : LimitedTarget → ControlMode
  | .bldcVelocity | .servoVelocity => .velocity
  | .bldcTorque | .servoTorque => .torque

def index : LimitedTarget → UInt16
  | .bldcVelocity | .bldcTorque => 0x1602
  | .servoVelocity | .servoTorque => 0x1603

def subindex : LimitedTarget → UInt8
  | .bldcVelocity => 0x02
  | .bldcTorque => 0x03
  | .servoVelocity => 0x04
  | .servoTorque => 0x05

def Allows : LimitedTarget → MotorCommand → ℚ → Prop
  | .bldcVelocity, .bldc _, v => -10000 ≤ v ∧ v ≤ 10000
  | .bldcTorque, .bldc _, v => -100 ≤ v ∧ v ≤ 100
  | .servoVelocity, .servo c, v => 0 ≤ v ∧ v ≤ c.maxVelocity
  | .servoTorque, .servo c, v => 0 ≤ v ∧ v ≤ c.maxTorque
  | _, _, _ => False

/-- What a command writes to the target, if it is for the drive and enables the mode. -/
def target : LimitedTarget → MotorCommand → Option Target
  | .bldcVelocity, .bldc c => if c.enable && c.controlMode = .velocity then
      some ⟨0x1602, 0x02, bldcVelocityCells c.targetVelocity, true⟩ else none
  | .bldcTorque, .bldc c => if c.enable && c.controlMode = .torque then
      some ⟨0x1602, 0x03, bldcTorqueCells c.targetTorque, true⟩ else none
  | .servoVelocity, .servo c => if c.enable && c.controlMode = .velocity then
      some ⟨0x1603, 0x04, servoCells c.targetVelocity, true⟩ else none
  | .servoTorque, .servo c => if c.enable && c.controlMode = .torque then
      some ⟨0x1603, 0x05, servoCells c.targetTorque, true⟩ else none
  | _, _ => none

end LimitedTarget

def PDOMapping.value (image : Image) (m : PDOMapping) : Option ℚ :=
  match m.dataType with
  | .int16 => (readInt16 image m.offset).map fun v => v.toInt
  | .int32 => (readInt32 image m.offset).map fun v => v.toInt
  | .double => readDouble image m.offset
  | _ => none

def ControlMode.code : ControlMode → UInt16
  | .disabled => 0
  | .position => 1
  | .velocity => 2
  | .torque => 3

def Enables (word : UInt16) (mode : ControlMode) : Prop :=
  word &&& 1 = 1 ∧ (word >>> 1) &&& 3 = mode.code

lemma abs_truncate_le {q : ℚ} (limit : ℕ) (hlo : -limit ≤ q) (hhi : q ≤ limit) :
    |truncate q| ≤ limit := by
  have hden : (0 : ℚ) < q.den := by exact_mod_cast q.den_pos
  have hnum : (|q.num| : ℚ) ≤ limit * q.den := by
    rw [← Rat.mul_den_eq_num q, abs_mul, abs_of_pos hden]
    exact mul_le_mul_of_nonneg_right (abs_le.mpr ⟨hlo, hhi⟩) hden.le
  have habs : q.num.natAbs ≤ limit * q.den := by
    zify
    exact_mod_cast hnum
  rw [truncate, Int.abs_eq_natAbs, Int.natAbs_tdiv, Int.natAbs_natCast]
  exact_mod_cast Nat.div_le_of_le_mul (by rwa [mul_comm])

namespace LimitedTarget
variable {t : LimitedTarget} {c c' : MotorCommand} {u u' : Target} {image : Image} {m : PDOMapping}

lemma targets_of_target (h : t.target c = some u) :
    c.targets = [u] ∧ u.index = t.index ∧ u.subindex = t.subindex ∧ u.required = true := by
  cases t <;> cases c <;> simp only [target, ite_none_right_eq_some, reduceCtorEq,
    Bool.and_eq_true, decide_eq_true_eq, Option.some.injEq] at h
  all_goals
    obtain ⟨⟨henab, hmode⟩, rfl⟩ := h
    simp [MotorCommand.targets, MotorCommand.bldcTargets, MotorCommand.servoTargets, henab,
      hmode, index, subindex]

lemma target_of_mem (hu : u ∈ c.targets) (hind : u.index = t.index)
    (hsub : u.subindex = t.subindex) : t.target c = some u := by
  cases c with
  | bldc c =>
    simp only [MotorCommand.targets, MotorCommand.bldcTargets] at hu
    split_ifs at hu with henab
    · cases hu
    · cases hmode : c.controlMode <;>
        simp only [hmode, mem_cons, not_mem_nil, or_false] at hu
      all_goals
        subst hu
        cases t <;> simp_all [target, index, subindex]
  | servo c =>
    simp only [MotorCommand.targets, MotorCommand.servoTargets] at hu
    split_ifs at hu with henab
    · cases hu
    · cases hmode : c.controlMode <;>
        simp only [hmode, mem_cons, not_mem_nil, or_false] at hu
      · rcases hu with rfl | rfl <;> cases t <;> simp_all [index, subindex]
      all_goals
        subst hu
        cases t <;> simp_all [target, index, subindex]

lemma exists_target (hdrv : c.drive = t.drive) (h : Enables c.controlWord t.mode) :
    ∃ u, t.target c = some u := by
  rw [Enables] at h
  cases c with
  | bldc c | servo c =>
    rw [MotorCommand.controlWord] at h
    first | rw [BLDCMotorCommand.controlWord] at h | rw [ServoDriverCommand.controlWord] at h
    cases henab : c.enable <;> cases hmode : c.controlMode <;> cases t <;> cases hdrv <;>
      simp only [henab, hmode] at h <;>
      first | exact absurd h (by decide) | exact ⟨_, by simp [target, henab, hmode]; rfl⟩

lemma isSome_encoding (h : t.target c = some u) (h' : t.target c' = some u')
    (type : PDODataType) : (u.encoding type).isSome = (u'.encoding type).isSome := by
  cases t <;> cases c <;> cases c' <;> simp only [target, ite_none_right_eq_some,
    reduceCtorEq, Option.some.injEq] at h h'
  all_goals
    obtain ⟨-, rfl⟩ := h
    obtain ⟨-, rfl⟩ := h'
    cases type <;> rfl

section
variable {q : ℚ} {cells : List Cell}

lemma value_of_double (htype : m.dataType = .double) (hcel : doubleCells q = cells)
    (hload : load image m.offset.toNat cells.length = cells) : m.value image = some q := by
  subst hcel
  rw [PDOMapping.value, htype]
  exact readDouble_of_load hload

lemma value_of_bldcVelocity (hlo : -10000 ≤ q) (hhi : q ≤ 10000)
    (hcel : bldcVelocityCells q m.dataType = some cells)
    (hload : load image m.offset.toNat cells.length = cells) :
    ∃ v, m.value image = some v ∧ -10000 ≤ v ∧ v ≤ 10000 := by
  have habs := abs_le.mp (abs_truncate_le 10000 hlo hhi)
  cases htype : m.dataType <;> rw [htype] at hcel <;> cases hcel
  have hint : (Int32.ofInt (truncate q)).toInt = truncate q :=
    Int32.toInt_ofInt_of_le (by omega) (by omega)
  refine ⟨truncate q, ?_, by exact_mod_cast habs⟩
  simp [PDOMapping.value, htype, readInt32_of_load hload, hint]

lemma value_of_bldcTorque (hlo : -100 ≤ q) (hhi : q ≤ 100)
    (hcel : bldcTorqueCells q m.dataType = some cells)
    (hload : load image m.offset.toNat cells.length = cells) :
    ∃ v, m.value image = some v ∧ -100 ≤ v ∧ v ≤ 100 := by
  have habs := abs_le.mp (abs_truncate_le 100 hlo hhi)
  cases htype : m.dataType <;> rw [htype] at hcel <;> cases hcel
  case int16 =>
    have hint : (Int16.ofInt (truncate q)).toInt = truncate q :=
      Int16.toInt_ofInt_of_le (by omega) (by omega)
    refine ⟨truncate q, ?_, by exact_mod_cast habs⟩
    simp [PDOMapping.value, htype, readInt16_of_load hload, hint]
  case double => exact ⟨q, value_of_double htype rfl hload, hlo, hhi⟩

lemma value_of_servo (hcel : servoCells q m.dataType = some cells)
    (hload : load image m.offset.toNat cells.length = cells) : m.value image = some q := by
  cases htype : m.dataType <;> rw [htype] at hcel <;> cases hcel
  exact value_of_double htype rfl hload

lemma exists_value (h : t.target c = some u) (hval : c.isValid = true)
    (hcel : u.encoding m.dataType = some cells)
    (hload : load image m.offset.toNat cells.length = cells) :
    ∃ v, m.value image = some v ∧ t.Allows c v := by
  cases t <;> cases c <;> simp only [target, ite_none_right_eq_some, reduceCtorEq,
    Bool.and_eq_true, decide_eq_true_eq, Option.some.injEq] at h
  all_goals obtain ⟨⟨henab, hmode⟩, rfl⟩ := h
  case bldcVelocity.bldc c =>
    simp [MotorCommand.isValid, BLDCMotorCommand.isValid, henab, hmode] at hval
    exact value_of_bldcVelocity hval.1 hval.2 hcel hload
  case bldcTorque.bldc c =>
    simp [MotorCommand.isValid, BLDCMotorCommand.isValid, henab, hmode] at hval
    exact value_of_bldcTorque hval.1 hval.2 hcel hload
  case servoVelocity.servo c =>
    simp [MotorCommand.isValid, ServoDriverCommand.isValid, henab, hmode] at hval
    exact ⟨c.targetVelocity, value_of_servo hcel hload, hval⟩
  case servoTorque.servo c =>
    simp [MotorCommand.isValid, ServoDriverCommand.isValid, henab, hmode] at hval
    exact ⟨c.targetTorque, value_of_servo hcel hload, hval⟩

end
end LimitedTarget

namespace MotorCommand
variable (config : Config)

def Writes (c : MotorCommand) (slave : UInt16) (m : PDOMapping) : Prop :=
  c.slaveId = slave ∧ ∃ p ∈ puts config c, p.mapping = m

def WritesControlWord (c : MotorCommand) (slave : UInt16) : Prop :=
  c.slaveId = slave ∧ puts config c ≠ []

def Last (P : MotorCommand → Prop) (cs : List MotorCommand) (c : MotorCommand) : Prop :=
  ∃ cs₁ cs₂, cs = cs₁ ++ c :: cs₂ ∧ P c ∧ ∀ c' ∈ cs₂, ¬ P c'

/-- If the control word enables a mode whose target has been written, the target is within the
limits of the command that wrote it last. -/
def WithinLimits (cs : List MotorCommand) (image : Image) : Prop :=
  ∀ (slave : UInt16) (t : LimitedTarget) (field m : PDOMapping) (word : UInt16),
    controlWordField config slave = some field → readUInt16 image field.offset = some word →
    Enables word t.mode → findPDOOffset config slave t.index t.subindex = some m →
    (∃ c ∈ cs, Writes config c slave m) →
      ∃ c v, Last (Writes config · slave m) cs c ∧ m.value image = some v ∧ t.Allows c v ∧
        ∀ c', Last (WritesControlWord config · slave) cs c' → c'.drive = t.drive → c' = c

section
variable {P Q : MotorCommand → Prop} {cs : List MotorCommand} {c c' : MotorCommand}

lemma exists_last (h : ∃ c ∈ cs, P c) : ∃ c, Last P cs c := by
  induction cs using List.reverseRecOn with
  | nil => simp at h
  | append_singleton cs a ih =>
    by_cases ha : P a
    · exact ⟨a, cs, [], rfl, ha, by simp⟩
    · obtain ⟨b, cs₁, cs₂, rfl, hb, hlat⟩ :=
        ih (by simpa [or_and_right, exists_or, ha] using h)
      exact ⟨b, cs₁, cs₂ ++ [a], by simp, hb, by simpa [or_imp, forall_and, ha] using hlat⟩

lemma Last.unique (h : Last P cs c) (h' : Last Q cs c') (hP : P c') (hQ : Q c) : c' = c := by
  obtain ⟨cs₁, cs₂, hcs, -, hlat⟩ := h
  obtain ⟨cs₃, cs₄, hcs', -, hlat'⟩ := h'
  rw [hcs, append_eq_append_iff] at hcs'
  rcases hcs' with ⟨as, -, has⟩ | ⟨as, -, has⟩
  · cases as with
    | nil => exact (List.cons.inj has).1.symm
    | cons a as =>
      have hmem : c' ∈ cs₂ := by simp [(List.cons.inj has).2]
      exact absurd hP (hlat c' hmem)
  · cases as with
    | nil => exact (List.cons.inj has).1
    | cons a as =>
      have hmem : c ∈ cs₄ := by simp [(List.cons.inj has).2]
      exact absurd hQ (hlat' c hmem)

end

section
variable {config} {slave index : UInt16} {subindex : UInt8} {m : PDOMapping} {c : MotorCommand}
variable {u : Target} {p : Put} {cells : List Cell} {t : LimitedTarget}

lemma findPDOOffset_spec (h : findPDOOffset config slave index subindex = some m) :
    m ∈ config slave ∧ m.index = index ∧ m.subindex = subindex := by
  have hfnd := find?_some h
  simp only [Bool.and_eq_true, decide_eq_true_eq] at hfnd
  exact ⟨mem_of_find?_eq_some h, hfnd.1.2, hfnd.2⟩

lemma controlWordField_spec (h : controlWordField config slave = some m) :
    m ∈ config slave ∧ m.dataType = .uint16 ∧ m.subindex = 0x01 := by
  rw [controlWordField, or_eq_some_iff] at h
  simp only [filter_eq_some_iff, decide_eq_true_eq] at h
  rcases h with ⟨hfind, htype⟩ | ⟨-, hfind, htype⟩
  · exact ⟨(findPDOOffset_spec hfind).1, htype, (findPDOOffset_spec hfind).2.2⟩
  · exact ⟨(findPDOOffset_spec hfind).1, htype, (findPDOOffset_spec hfind).2.2⟩

lemma mem_targets (hu : u ∈ c.targets) :
    u.subindex ≠ 0x01 ∧ ∃ v, u.encoding = bldcVelocityCells v ∨ u.encoding = bldcTorqueCells v ∨
      u.encoding = servoCells v := by
  cases c with
  | bldc c =>
    simp only [targets, bldcTargets] at hu
    split_ifs at hu
    · cases hu
    · cases hmode : c.controlMode <;> simp only [hmode, mem_singleton, not_mem_nil] at hu
      · exact hu ▸ ⟨by simp, _, Or.inl rfl⟩
      · exact hu ▸ ⟨by simp, _, Or.inr (Or.inl rfl)⟩
  | servo c =>
    simp only [targets, servoTargets] at hu
    split_ifs at hu
    · cases hu
    · cases hmode : c.controlMode <;>
        simp only [hmode, mem_cons, not_mem_nil, or_false] at hu
      · rcases hu with hu | hu <;> exact hu ▸ ⟨by simp, _, Or.inr (Or.inr rfl)⟩
      · exact hu ▸ ⟨by simp, _, Or.inr (Or.inr rfl)⟩
      · exact hu ▸ ⟨by simp, _, Or.inr (Or.inr rfl)⟩

lemma length_encoding (hu : u ∈ c.targets) {type : PDODataType}
    (h : u.encoding type = some cells) : cells.length = type.size := by
  obtain ⟨-, v, hv | hv | hv⟩ := mem_targets hu <;> rw [hv] at h <;> cases type <;> cases h
  · simp [int32Cells, PDODataType.size]
  · simp [int16Cells, PDODataType.size]
  · simp [doubleCells, PDODataType.size]
  · simp [doubleCells, PDODataType.size]

lemma mem_targetPuts (h : p ∈ targetPuts config c) :
    ∃ u ∈ c.targets, findPDOOffset config c.slaveId u.index u.subindex = some p.mapping ∧
      u.encoding p.mapping.dataType = some p.cells := by
  rw [targetPuts] at h
  split_ifs at h
  · cases h
  · obtain ⟨u, hu, hput⟩ := mem_filterMap.mp h
    rw [Target.put, bind_eq_some_iff] at hput
    obtain ⟨mapping, hfind, hmap⟩ := hput
    obtain ⟨cells, hcel, rfl⟩ := map_eq_some_iff.mp hmap
    exact ⟨u, hu, hfind, hcel⟩

lemma mem_puts (h : p ∈ puts config c) :
    c.isValid = true ∧ ∃ field, controlWordField config c.slaveId = some field ∧
      (p = ⟨field, uint16Cells c.controlWord⟩ ∨
        ∃ u ∈ c.targets, findPDOOffset config c.slaveId u.index u.subindex = some p.mapping ∧
          u.encoding p.mapping.dataType = some p.cells) := by
  rw [puts] at h
  split at h
  next => cases h
  next field hfld =>
    split_ifs at h with hval
    · exact ⟨hval, field, hfld, (mem_cons.mp h).imp_right mem_targetPuts⟩
    · cases h

lemma put_spec (h : p ∈ puts config c) :
    p.mapping ∈ config c.slaveId ∧ p.cells.length = p.mapping.dataType.size := by
  obtain ⟨-, field, hfld, rfl | ⟨u, hu, hfind, hcel⟩⟩ := mem_puts h
  · obtain ⟨hmem, htype, -⟩ := controlWordField_spec hfld
    exact ⟨hmem, by simp [htype, uint16Cells, PDODataType.size]⟩
  · exact ⟨(findPDOOffset_spec hfind).1, length_encoding hu hcel⟩

lemma puts_of_writes (hm : findPDOOffset config slave t.index t.subindex = some m)
    (h : Writes config c slave m) :
    c.slaveId = slave ∧ c.isValid = true ∧ ∃ u cells field, t.target c = some u ∧
      u.encoding m.dataType = some cells ∧
        puts config c = [⟨field, uint16Cells c.controlWord⟩, ⟨m, cells⟩] := by
  obtain ⟨rfl, p, hp, rfl⟩ := h
  obtain ⟨hval, field, hfld, rfl | ⟨u, hu, hfind, hcel⟩⟩ := mem_puts hp
  · have hone := (controlWordField_spec hfld).2.2
    have hsub := (findPDOOffset_spec hm).2.2
    rw [hone] at hsub
    cases t <;> exact absurd hsub (by decide)
  · obtain ⟨-, hind, hsub⟩ := findPDOOffset_spec hm
    obtain ⟨-, huin, husub⟩ := findPDOOffset_spec hfind
    have htar : t.target c = some u := LimitedTarget.target_of_mem hu
      (huin.symm.trans hind) (husub.symm.trans hsub)
    refine ⟨rfl, hval, u, p.cells, field, htar, hcel, ?_⟩
    simp [puts, hfld, hval, targetPuts, rejected, Target.rejected, Target.put,
      (LimitedTarget.targets_of_target htar).1, hfind, hcel]

lemma writes_of_target {field : PDOMapping}
    (hfld : controlWordField config c.slaveId = some field) (hval : c.isValid = true)
    (hm : findPDOOffset config c.slaveId t.index t.subindex = some m)
    (htar : t.target c = some u) (hcel : u.encoding m.dataType = some cells) :
    Writes config c c.slaveId m := by
  obtain ⟨htarg, hind, hsub, -⟩ := LimitedTarget.targets_of_target htar
  rw [← hind, ← hsub] at hm
  refine ⟨rfl, ⟨m, cells⟩, ?_, rfl⟩
  simp [puts, hfld, hval, targetPuts, rejected, Target.rejected, Target.put, htarg, hm, hcel]

end

section
variable {config} {slave : UInt16} {m : PDOMapping} {cs : List MotorCommand} (image₀ : Image)
  {c : MotorCommand}

lemma image_of_run {domain : Option Image}
    (h : Run (next config) (fun _ _ => True) (some image₀) cs domain) :
    domain = some (putAll image₀ (cs.flatMap (puts config))) := by
  induction h with
  | nil => rfl
  | snoc _ _ hn ih =>
    cases hn
    rw [ih, write_some, flatMap_append, putAll, putAll, putAll, foldl_append]
    simp

lemma load_putAll_of_apart {ps : List Put} {address size : ℕ}
    (h : ∀ p ∈ ps, Apart p.mapping.offset.toNat p.cells.length address size) (image : Image) :
    load (putAll image ps) address size = load image address size :=
  load_foldl_store (fun p : Put => p.mapping.offset.toNat) Put.cells ps h image

lemma apart_of_ne (hd : DisjointFields config) (hm : m ∈ config slave) {p : Put}
    (hp : p ∈ puts config c) (hne : (c.slaveId, p.mapping) ≠ (slave, m)) :
    Apart p.mapping.offset.toNat p.cells.length m.offset.toNat m.dataType.size := by
  obtain ⟨hmem, hlen⟩ := put_spec hp
  rw [hlen]
  exact hd c.slaveId p.mapping hmem slave m hm hne

lemma load_of_last (hd : DisjointFields config) (cs₁ : List MotorCommand)
    {cs₂ : List MotorCommand} {ps₁ ps₂ : List Put} {p : Put}
    (hputs : puts config c = ps₁ ++ p :: ps₂) (hrest : ∀ p' ∈ ps₂, p'.mapping ≠ p.mapping)
    (hlat : ∀ c' ∈ cs₂, ¬ Writes config c' c.slaveId p.mapping) :
    load (putAll image₀ ((cs₁ ++ c :: cs₂).flatMap (puts config))) p.mapping.offset.toNat
      p.cells.length = p.cells := by
  have hp : p ∈ puts config c := by simp [hputs]
  obtain ⟨hmem, hlen⟩ := put_spec hp
  have hspl : putAll image₀ ((cs₁ ++ c :: cs₂).flatMap (puts config)) =
      putAll (store (putAll image₀ (cs₁.flatMap (puts config) ++ ps₁)) p.mapping.offset.toNat
        p.cells) (ps₂ ++ cs₂.flatMap (puts config)) := by
    simp [putAll, hputs, Ethercat.write]
  rw [hspl, load_putAll_of_apart, load_store_self]
  intro p' hp'
  rw [hlen]
  rcases mem_append.mp hp' with hp' | hp'
  · refine apart_of_ne hd hmem (c := c) (by simp [hputs, hp']) fun heq => ?_
    exact hrest p' hp' (Prod.mk.inj heq).2
  · obtain ⟨c', hc', hp'⟩ := mem_flatMap.mp hp'
    refine apart_of_ne hd hmem hp' fun heq => ?_
    exact hlat c' hc' ⟨(Prod.mk.inj heq).1, p', hp', (Prod.mk.inj heq).2⟩

lemma readUInt16_of_last (hd : DisjointFields config) {field : PDOMapping}
    (hfld : controlWordField config slave = some field)
    (h : Last (WritesControlWord config · slave) cs c) :
    c.slaveId = slave ∧ c.isValid = true ∧
      readUInt16 (putAll image₀ (cs.flatMap (puts config))) field.offset = some c.controlWord := by
  obtain ⟨cs₁, cs₂, rfl, ⟨rfl, hne⟩, hlat⟩ := h
  obtain ⟨p, hp⟩ := exists_mem_of_ne_nil _ hne
  have hval := (mem_puts hp).1
  let word : Put := ⟨field, uint16Cells c.controlWord⟩
  have hputs : puts config c = [] ++ word :: targetPuts config c := by
    simp [puts, hfld, hval, word]
  have hrest : ∀ p' ∈ targetPuts config c, p'.mapping ≠ word.mapping := by
    intro p' hp' heq
    -- the other fields of a command have another subindex
    obtain ⟨u, hu, hfind, -⟩ := mem_targetPuts hp'
    refine (mem_targets hu).1 ?_
    rw [← (findPDOOffset_spec hfind).2.2, heq]
    exact (controlWordField_spec hfld).2.2
  have hkept : ∀ c' ∈ cs₂, ¬ Writes config c' c.slaveId word.mapping := by
    rintro c' hc' ⟨hslv, p', hp', -⟩
    exact hlat c' hc' ⟨hslv, ne_nil_of_mem hp'⟩
  exact ⟨rfl, hval, readUInt16_of_load (load_of_last image₀ hd cs₁ hputs hrest hkept)⟩

end

theorem withinLimits (config : Config) (hd : DisjointFields config) (cs : List MotorCommand)
    (image : Image)
    (hrun : Run (next config) (fun _ _ => True) (some Image.zero) cs (some image)) :
    WithinLimits config cs image := by
  obtain rfl := Option.some.inj (image_of_run Image.zero hrun)
  intro slave t field m word hfld hword henabl hm hwrit
  obtain ⟨c, hlast⟩ := exists_last hwrit
  obtain ⟨cs₁, cs₂, rfl, hwrt, hlat⟩ := id hlast
  obtain ⟨rfl, hval, u, cells, field', htar, hcel, hputs⟩ := puts_of_writes hm hwrt
  have hspl : puts config c = [⟨field', uint16Cells c.controlWord⟩] ++ ⟨m, cells⟩ :: [] := hputs
  have hload := load_of_last Image.zero hd cs₁ hspl (by simp) hlat
  obtain ⟨v, hv, hall⟩ := LimitedTarget.exists_value htar hval hcel hload
  refine ⟨c, v, hlast, hv, hall, fun c' hlast' hdrv => ?_⟩
  obtain ⟨hslv, hval', hread⟩ := readUInt16_of_last Image.zero hd hfld hlast'
  cases hread.symm.trans hword
  obtain ⟨u', htar'⟩ := LimitedTarget.exists_target hdrv henabl
  have hsup := LimitedTarget.isSome_encoding htar htar' m.dataType
  rw [hcel, isSome_some] at hsup
  obtain ⟨cells', hcel'⟩ := isSome_iff_exists.mp hsup.symm
  refine hlast.unique hlast' ?_ ⟨rfl, by simp [hputs]⟩
  rw [← hslv] at hfld hm ⊢
  exact writes_of_target hfld hval' hm htar' hcel'

theorem withinLimits_sample :
    let config := sampleConfig .int32
    let cs := [MotorCommand.bldc ⟨1, 100, 0, .velocity, true⟩]
    DisjointFields config ∧ ∃ image,
      Run (next config) (fun _ _ => True) (some Image.zero) cs (some image) ∧
        readUInt16 image 0 = some 5 ∧ readInt32 image 2 = some 100 ∧
          WithinLimits config cs image := by
  intro config cs
  have hexec : ∃ image,
      exec (next config) (fun _ _ => true) (some Image.zero) cs = some (some image) ∧
        readUInt16 image 0 = some 5 ∧ readInt32 image 2 = some 100 := ⟨_, rfl, rfl, by decide⟩
  obtain ⟨image, himage, hword, hvl⟩ := hexec
  have hrun := Run.of_exec (G := fun _ _ => True) (fun _ _ _ => trivial) himage
  have hd : DisjointFields config := disjointFields_sampleConfig .int32
  exact ⟨hd, image, hrun, hword, hvl, withinLimits config hd cs image hrun⟩

end MotorCommand
end Mxrc.Ethercat
