import Mxrc.Lib.Runs
import Mxrc.Lib.Yaml
import Mxrc.Ethercat.MotorCommand

/-!
# Loading the EtherCAT configuration

A call of `loadFromFile` makes its assignments one by one, up to the first
conversion that throws, and an exception undoes nothing. Slaves are appended to
those of earlier calls, and their mappings are stored under the position in the
document.
-/

namespace Mxrc.Ethercat
open Mxrc.Lib List

inductive DeviceType
  | sensor
  | motor
  | ioModule
  | unknown
deriving DecidableEq

structure SlaveConfig where
  slaveAlias : UInt16
  position : UInt16
  vendorId : UInt32
  productCode : UInt32
  deviceName : String
  deviceType : DeviceType
deriving DecidableEq

structure MappingConfig extends PDOMapping where
  bitLength : UInt8
  description : String
deriving DecidableEq

structure DCConfiguration where
  enable : Bool := false
  referenceSlave : UInt16 := 0
  sync0CycleTime : UInt32 := 10000000
  sync0ShiftTime : Int32 := 0
  sync1CycleTime : UInt32 := 0
deriving DecidableEq

structure YAMLConfigParser where
  slaveConfigs : List SlaveConfig := []
  pdoMappings : ℕ → Option (List MappingConfig) := fun _ => none
  dcConfig : DCConfiguration := {}
  masterIndex : Int32 := 0
  cycleTimeNs : UInt32 := 10000000
  priority : Int32 := 99
  cpuAffinity : Int32 := 1

/-- `children` are the nodes at the positions below `size()`, and `stoul` is with base 16. -/
structure YamlConversions (Y : Type) extends YamlLib Y where
  children : Y → List (Option Y)
  asUInt16 : Y → Except String UInt16
  stoul : String → Except String UInt64

inductive Assignment
  | skip
  | masterIndex (value : Int32)
  | cycleTimeNs (value : UInt32)
  | priority (value : Int32)
  | cpuAffinity (value : Int32)
  | addSlave (config : SlaveConfig)
  | setMappings (slave : ℕ) (mappings : List MappingConfig)
  | enable (value : Bool)
  | referenceSlave (value : UInt16)
  | sync0CycleTime (value : UInt32)
  | sync0ShiftTime (value : Int32)
  | sync1CycleTime (value : UInt32)

def Assignment.apply (s : YAMLConfigParser) : Assignment → YAMLConfigParser
  | .skip => s
  | .masterIndex value => { s with masterIndex := value }
  | .cycleTimeNs value => { s with cycleTimeNs := value }
  | .priority value => { s with priority := value }
  | .cpuAffinity value => { s with cpuAffinity := value }
  | .addSlave config => { s with slaveConfigs := s.slaveConfigs ++ [config] }
  | .setMappings slave mappings =>
    { s with pdoMappings := Function.update s.pdoMappings slave (some mappings) }
  | .enable value => { s with dcConfig := { s.dcConfig with enable := value } }
  | .referenceSlave value => { s with dcConfig := { s.dcConfig with referenceSlave := value } }
  | .sync0CycleTime value => { s with dcConfig := { s.dcConfig with sync0CycleTime := value } }
  | .sync0ShiftTime value => { s with dcConfig := { s.dcConfig with sync0ShiftTime := value } }
  | .sync1CycleTime value => { s with dcConfig := { s.dcConfig with sync1CycleTime := value } }

def parseDeviceType (text : String) : DeviceType :=
  if text = "SENSOR" then .sensor
  else if text = "MOTOR" then .motor
  else if text = "IO_MODULE" then .ioModule
  else .unknown

def parsePDODirection (text : String) : PDODirection :=
  if text = "INPUT" then .input
  else if text = "OUTPUT" then .output
  else .input

def parsePDODataType (text : String) : PDODataType :=
  if text = "INT8" then .int8
  else if text = "UINT8" then .uint8
  else if text = "INT16" then .int16
  else if text = "UINT16" then .uint16
  else if text = "INT32" then .int32
  else if text = "UINT32" then .uint32
  else if text = "FLOAT" then .float
  else if text = "DOUBLE" then .double
  else .uint8

section
variable {Y : Type} (lib : YamlConversions Y)

def requiredAt {τ : Type} (node : Option Y) (name : String) (convert : Y → Except String τ) :
    Except String τ :=
  match node with
  | none => throw "invalid node"
  | some node => lib.required node name convert

def requiredHex (node : Option Y) (name : String) : Except String UInt64 := do
  lib.stoul (← requiredAt lib node name lib.asString)

def parseSlave (slave : Option Y) : Except String SlaveConfig := do
  let slaveAlias ← requiredAt lib slave "alias" lib.asUInt16
  let position ← requiredAt lib slave "position" lib.asUInt16
  let vendorHex ← requiredAt lib slave "vendor_id" lib.asString
  let productHex ← requiredAt lib slave "product_code" lib.asString
  let vendorId ← lib.stoul vendorHex
  let productCode ← lib.stoul productHex
  let deviceName ← requiredAt lib slave "device_name" lib.asString
  let deviceType ← requiredAt lib slave "device_type" lib.asString
  return ⟨slaveAlias, position, vendorId.toUInt32, productCode.toUInt32, deviceName,
    parseDeviceType deviceType⟩

def parseMapping (pdo : Option Y) : Except String MappingConfig := do
  let direction ← requiredAt lib pdo "direction" lib.asString
  let index ← requiredHex lib pdo "index"
  let subindex ← requiredHex lib pdo "subindex"
  let dataType := parsePDODataType (← requiredAt lib pdo "data_type" lib.asString)
  let offset ← requiredAt lib pdo "offset" lib.asUInt32
  let description ← requiredAt lib pdo "description" lib.asString
  return ⟨⟨parsePDODirection direction, index.toUInt16, subindex.toUInt8, dataType, offset⟩,
    .ofNat (8 * dataType.size), description⟩

def parseMappings : Option Y → Except String (Option (List MappingConfig))
  | none => throw "invalid node"
  | some slave => do
    match ← lib.get slave "pdo_mappings" with
    | none => return none
    | some list => return some (← (lib.children list).mapM (parseMapping lib))

def assignOptional {τ : Type} (node : Y) (name : String) (convert : Y → Except String τ)
    (assign : τ → Assignment) : Except String Assignment :=
  (lib.optional node name (fun value => (convert value).map some) none).map (·.elim .skip assign)

def parseMasterConfig (node : Y) : List (Except String Assignment) :=
  [assignOptional lib node "index" lib.asInt .masterIndex,
    assignOptional lib node "cycle_time_ns" lib.asUInt32 .cycleTimeNs,
    assignOptional lib node "priority" lib.asInt .priority,
    assignOptional lib node "cpu_affinity" lib.asInt .cpuAffinity]

def parseSlaves (first : ℕ) : List (Option Y) → List (Except String Assignment)
  | [] => []
  | slave :: slaves =>
    (parseSlave lib slave).map .addSlave ::
      (parseMappings lib slave).map (fun m => m.elim .skip (.setMappings first)) ::
      parseSlaves (first + 1) slaves

def parseDCConfig (node : Y) : List (Except String Assignment) :=
  [(lib.required node "enable" lib.asBool).map .enable,
    (lib.required node "reference_slave" lib.asUInt16).map .referenceSlave,
    (lib.required node "sync0_cycle_time" lib.asUInt32).map .sync0CycleTime,
    (lib.required node "sync0_shift_time" lib.asInt).map .sync0ShiftTime,
    assignOptional lib node "sync1_cycle_time" lib.asUInt32 .sync1CycleTime]

def parsePart (config : Y) (name : String) (parse : Y → List (Except String Assignment)) :
    List (Except String Assignment) :=
  match lib.get config name with
  | .error e => [.error e]
  | .ok none => []
  | .ok (some node) => parse node

def assignments : Except String Y → List (Except String Assignment)
  | .error e => [.error e]
  | .ok config =>
    parsePart lib config "master" (parseMasterConfig lib) ++
      (parsePart lib config "slaves" (fun node => parseSlaves lib 0 (lib.children node)) ++
        parsePart lib config "dc_config" (parseDCConfig lib))

end

def assignAll : List (Except String Assignment) → YAMLConfigParser → Bool × YAMLConfigParser
  | [], s => (true, s)
  | .error _ :: _, s => (false, s)
  | .ok a :: rest, s => assignAll rest (a.apply s)

def made : List (Except String Assignment) → List Assignment
  | .ok a :: rest => a :: made rest
  | _ => []

namespace YAMLConfigParser
variable {Y : Type} (lib : YamlConversions Y) (s : YAMLConfigParser) (file : Except String Y)

def loadFromFile : Bool × YAMLConfigParser := assignAll (assignments lib file) s

def getPDOMappings (slave : ℕ) : List MappingConfig := (s.pdoMappings slave).getD []

def next : Option YAMLConfigParser := some (s.loadFromFile lib file).2

/-! ## What a document says -/

def documentEntries : List (Option Y) :=
  match file with
  | .error _ => []
  | .ok config =>
    match lib.get config "slaves" with
    | .ok (some node) => lib.children node
    | _ => []

def documentSlaves : List SlaveConfig :=
  (documentEntries lib file).filterMap fun slave => (parseSlave lib slave).toOption

def documentMappings? (slave : ℕ) : Option (List MappingConfig) :=
  (documentEntries lib file)[slave]?.bind fun node => (parseMappings lib node).toOption.join

/-- After a call that returns 0 the parser has what the document says, and after another one it is
as before. -/
def ReflectsLastGood : Prop :=
  if (s.loadFromFile lib file).1 then
    (s.loadFromFile lib file).2.slaveConfigs = documentSlaves lib file ∧
      ∀ i, (s.loadFromFile lib file).2.getPDOMappings i = (documentMappings? lib file i).getD []
  else (s.loadFromFile lib file).2 = s

/-- A call that returns 0 finds no slaves and no other mappings; another one assigns only what is
there. -/
def StartsClean : Prop :=
  if (s.loadFromFile lib file).1 then
    s.slaveConfigs = [] ∧
      ∀ i, documentMappings? lib file i = none → s.getPDOMappings i = []
  else ∀ a ∈ made (assignments lib file), a.apply s = s

end YAMLConfigParser

section
variable {as bs : List (Except String Assignment)} {s : YAMLConfigParser}

lemma assignAll_append (hok : (assignAll (as ++ bs) s).1 = true) :
    (assignAll as s).1 = true ∧ assignAll (as ++ bs) s = assignAll bs (assignAll as s).2 := by
  induction as generalizing s with
  | nil => exact ⟨rfl, rfl⟩
  | cons a as ih =>
    cases a with
    | error e => cases hok
    | ok a => exact ih hok

lemma assignAll_of_idle (h : ∀ a ∈ made as, a.apply s = s) : (assignAll as s).2 = s := by
  induction as with
  | nil => rfl
  | cons a as ih =>
    cases a with
    | error e => rfl
    | ok a =>
      rw [made, forall_mem_cons] at h
      rw [assignAll, h.1]
      exact ih h.2

def Assignment.IsSetting : Assignment → Prop
  | .addSlave _ | .setMappings _ _ => False
  | _ => True

lemma assignAll_settings (h : ∀ a ∈ made as, a.IsSetting) :
    (assignAll as s).2.slaveConfigs = s.slaveConfigs ∧
      (assignAll as s).2.pdoMappings = s.pdoMappings := by
  induction as generalizing s with
  | nil => exact ⟨rfl, rfl⟩
  | cons a as ih =>
    cases a with
    | error e => exact ⟨rfl, rfl⟩
    | ok a =>
      rw [made, forall_mem_cons] at h
      rw [assignAll, (ih h.2).1, (ih h.2).2]
      cases a with
      | addSlave => exact h.1.elim
      | setMappings => exact h.1.elim
      | _ => exact ⟨rfl, rfl⟩

lemma mem_of_mem_made {a : Assignment} (h : a ∈ made as) : .ok a ∈ as := by
  induction as with
  | nil => simp [made] at h
  | cons b as ih =>
    cases b with
    | error e => simp [made] at h
    | ok b =>
      rw [made, mem_cons] at h
      rcases h with rfl | h
      · exact mem_cons_self
      · exact mem_cons_of_mem _ (ih h)

end

section
variable {Y : Type} {lib : YamlConversions Y} {s : YAMLConfigParser} {config : Y}

lemma isSetting_map {τ : Type} {x : Except String τ} {assign : τ → Assignment} {a : Assignment}
    (h : .ok a = x.map assign) (hass : ∀ v, (assign v).IsSetting) : a.IsSetting := by
  cases x with
  | error e => cases h
  | ok v =>
    cases h
    exact hass v

lemma isSetting_parseMasterConfig (node : Y) :
    ∀ a ∈ made (parseMasterConfig lib node), a.IsSetting := by
  intro a ha
  have hmem := mem_of_mem_made ha
  simp only [parseMasterConfig, mem_cons, not_mem_nil, or_false] at hmem
  rcases hmem with h | h | h | h <;> exact isSetting_map h (by rintro (_ | v) <;> trivial)

lemma isSetting_parseDCConfig (node : Y) :
    ∀ a ∈ made (parseDCConfig lib node), a.IsSetting := by
  intro a ha
  have hmem := mem_of_mem_made ha
  simp only [parseDCConfig, mem_cons, not_mem_nil, or_false] at hmem
  rcases hmem with h | h | h | h | h
  · exact isSetting_map h fun _ => trivial
  · exact isSetting_map h fun _ => trivial
  · exact isSetting_map h fun _ => trivial
  · exact isSetting_map h fun _ => trivial
  · exact isSetting_map h (by rintro (_ | v) <;> trivial)

lemma isSetting_parsePart {name : String} {parse : Y → List (Except String Assignment)}
    (h : ∀ node, ∀ a ∈ made (parse node), a.IsSetting) :
    ∀ a ∈ made (parsePart lib config name parse), a.IsSetting := by
  intro a ha
  rw [parsePart] at ha
  split at ha
  · simp [made] at ha
  · simp [made] at ha
  · exact h _ a ha

lemma assignAll_parseSlaves {first : ℕ} {entries : List (Option Y)}
    (hok : (assignAll (parseSlaves lib first entries) s).1 = true) :
    (assignAll (parseSlaves lib first entries) s).2.slaveConfigs = s.slaveConfigs ++
        entries.filterMap (fun slave => (parseSlave lib slave).toOption) ∧
      ∀ i, (assignAll (parseSlaves lib first entries) s).2.pdoMappings i =
        if i < first then s.pdoMappings i
        else (entries[i - first]?.bind fun node => (parseMappings lib node).toOption.join).or
          (s.pdoMappings i) := by
  induction entries generalizing first s with
  | nil => simp [parseSlaves, assignAll]
  | cons slave entries ih =>
    rw [parseSlaves] at hok ⊢
    cases hslv : parseSlave lib slave with
    | error e =>
      rw [hslv] at hok
      cases hok
    | ok config =>
      cases hmap : parseMappings lib slave with
      | error e =>
        rw [hslv, hmap] at hok
        cases hok
      | ok mappings =>
        rw [hslv, hmap] at hok
        simp only [Except.map, assignAll] at hok ⊢
        obtain ⟨hslav, hrest⟩ := ih hok
        rw [hslav]
        refine ⟨?_, fun i => ?_⟩
        · cases mappings <;> simp [Assignment.apply, hslv, Except.toOption]
        · have hset : ((mappings.elim .skip (.setMappings first) : Assignment).apply
              ((Assignment.addSlave config).apply s)).pdoMappings i =
              if i = first then mappings.or (s.pdoMappings i) else s.pdoMappings i := by
            cases mappings <;> simp [Assignment.apply, Function.update_apply]
          rw [hrest, hset]
          rcases lt_trichotomy i first with hlt | rfl | hgt
          · rw [if_pos (by omega), if_neg hlt.ne, if_pos hlt]
          · simp [hmap, Except.toOption]
          · rw [if_neg (by omega), if_neg hgt.ne', if_neg (by omega),
              show i - first = i - (first + 1) + 1 by omega, getElem?_cons_succ]

lemma assignAll_slavesPart
    (hok : (assignAll (parsePart lib config "slaves" fun node =>
      parseSlaves lib 0 (lib.children node)) s).1 = true) :
    (assignAll (parsePart lib config "slaves" fun node =>
        parseSlaves lib 0 (lib.children node)) s).2.slaveConfigs =
        s.slaveConfigs ++ YAMLConfigParser.documentSlaves lib (.ok config) ∧
      ∀ i, (assignAll (parsePart lib config "slaves" fun node =>
          parseSlaves lib 0 (lib.children node)) s).2.pdoMappings i =
        (YAMLConfigParser.documentMappings? lib (.ok config) i).or (s.pdoMappings i) := by
  rw [YAMLConfigParser.documentSlaves]
  simp only [YAMLConfigParser.documentMappings?, YAMLConfigParser.documentEntries]
  rw [parsePart] at hok ⊢
  split at hok
  · cases hok
  · rename_i hget
    simp [hget, assignAll]
  · rename_i node hget
    simp only [hget]
    simpa using assignAll_parseSlaves hok

end

namespace YAMLConfigParser
variable {Y : Type} {lib : YamlConversions Y} {s : YAMLConfigParser} {file : Except String Y}

lemma loadFromFile_of_ok (hok : (s.loadFromFile lib file).1 = true) :
    (s.loadFromFile lib file).2.slaveConfigs = s.slaveConfigs ++ documentSlaves lib file ∧
      ∀ i, (s.loadFromFile lib file).2.pdoMappings i =
        (documentMappings? lib file i).or (s.pdoMappings i) := by
  cases file with
  | error e => cases hok
  | ok config =>
    obtain ⟨-, hrest⟩ := assignAll_append hok
    rw [loadFromFile, assignments, hrest] at hok ⊢
    obtain ⟨hslav, hrest⟩ := assignAll_append hok
    obtain ⟨hcon, hmap⟩ := assignAll_slavesPart hslav
    have hmas : ∀ a ∈ made (parsePart lib config "master" (parseMasterConfig lib)),
        a.IsSetting := isSetting_parsePart isSetting_parseMasterConfig
    have hdc : ∀ a ∈ made (parsePart lib config "dc_config" (parseDCConfig lib)),
        a.IsSetting := isSetting_parsePart isSetting_parseDCConfig
    rw [(assignAll_settings hmas).1] at hcon
    rw [(assignAll_settings hmas).2] at hmap
    rw [hrest, (assignAll_settings hdc).1, (assignAll_settings hdc).2]
    exact ⟨hcon, hmap⟩

lemma reflectsLastGood_of_startsClean (h : s.StartsClean lib file) :
    s.ReflectsLastGood lib file := by
  rw [StartsClean] at h
  rw [ReflectsLastGood]
  split_ifs at h ⊢ with hok
  · obtain ⟨hslav, hmap⟩ := loadFromFile_of_ok hok
    refine ⟨by rw [hslav, h.1, nil_append], fun i => ?_⟩
    rw [getPDOMappings, hmap]
    cases hdoc : documentMappings? lib file i with
    | none => exact h.2 i hdoc
    | some mappings => rfl
  · exact assignAll_of_idle h

theorem last_good_of_clean (lib : YamlConversions Y) (files : List (Except String Y))
    (h : EveryStep (next lib) (StartsClean lib) {} files) :
    EveryStep (next lib) (ReflectsLastGood lib) {} files := by
  intro files₁ file files₂ s s' hfil hrun hn
  exact reflectsLastGood_of_startsClean (h files₁ file files₂ s s' hfil hrun hn)

end YAMLConfigParser

def hexDigit? (c : Char) : Option ℕ :=
  if c.isDigit then some (c.toNat - 48)
  else if 'a' ≤ c ∧ c ≤ 'f' then some (c.toNat - 87)
  else if 'A' ≤ c ∧ c ≤ 'F' then some (c.toNat - 55)
  else none

def stoulTree (text : String) : Except String UInt64 :=
  let chars : List Char := match text.toList with
    | '0' :: 'x' :: rest => rest
    | chars => chars
  let digits : List ℕ := ((chars.map hexDigit?).takeWhile Option.isSome).reduceOption
  let value := digits.foldl (16 * · + ·) 0
  if digits = [] ∨ 2 ^ 64 ≤ value then throw "stoul" else pure (.ofNat value)

def treeConversions : YamlConversions YamlTree where
  toYamlLib := YamlTree.lib
  children
    | .sequence elements => elements.map some
    | .map entries => (List.range entries.length).map fun i => entries.lookup (toString i)
    | .scalar _ => []
  asUInt16 := YamlTree.convert fun text =>
    let value := Nat.ofDigitChars 10 text.toList 0
    if text.toList ≠ [] ∧ text.toList.all Char.isDigit ∧ value < 2 ^ 16 then some (.ofNat value)
    else none
  stoul := stoulTree

def oneSlave : YamlTree := .map [("slaves", .sequence [.map [("alias", .scalar "0"),
  ("position", .scalar "1"), ("vendor_id", .scalar "0x2"), ("product_code", .scalar "0x3"),
  ("device_name", .scalar "arm"), ("device_type", .scalar "MOTOR")]])]

namespace YAMLConfigParser

theorem last_good_oneSlave :
    EveryStep (next treeConversions) (ReflectsLastGood treeConversions) {} [.ok oneSlave] := by
  refine last_good_of_clean treeConversions _ ?_
  have hrun : Run (next treeConversions) (StartsClean treeConversions) {} [.ok oneSlave] _ :=
    .single (by rw [StartsClean, if_pos (by decide +kernel)]; exact ⟨rfl, fun _ _ => rfl⟩) rfl
  exact (hrun.weaken fun _ _ _ => trivial).everyStep_iff.mpr hrun

/-- The same document is loaded twice. -/
theorem not_last_good : ¬ ∀ (Y : Type) (lib : YamlConversions Y) (files : List (Except String Y)),
    EveryStep (next lib) (ReflectsLastGood lib) {} files := by
  intro h
  have hsec := h _ treeConversions [.ok oneSlave, .ok oneSlave] [.ok oneSlave] _ [] _ _ rfl
    (.single trivial rfl) rfl
  rw [ReflectsLastGood, if_pos (by decide +kernel)] at hsec
  exact absurd hsec.1 (by decide +kernel)

end YAMLConfigParser
end Mxrc.Ethercat
