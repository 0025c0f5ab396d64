import Mxrc.Lib.Yaml
import Mxrc.Alarm.AlarmManager

/-!
# Loading the alarm configuration

`loadFromFile` empties the table before it parses the file, and a rejected entry
ends the call with the entries before it in the table. All exceptions of the
YAML library are caught.
-/

namespace Mxrc.Alarm
open Mxrc.Lib List AList

structure AlarmConfigEntry extends AlarmConfig where
  code : String
  description : String
  recommendedAction : Option String
  autoReset : Bool
deriving DecidableEq

structure AlarmTable where
  configs : AList (fun _ : String => AlarmConfigEntry)
  keyed : ∀ code c, configs.lookup code = some c → c.code = code

namespace AlarmTable

def empty : AlarmTable := ⟨∅, by simp⟩

def insert (t : AlarmTable) (c : AlarmConfigEntry) : AlarmTable where
  configs := t.configs.insert c.code c
  keyed := by
    intro code c' h
    rw [lookup_insert_ite] at h
    split_ifs at h with hcode
    · cases h
      exact hcode.symm
    · exact t.keyed code c' h

def hasAlarmConfig (t : AlarmTable) (code : String) : Bool := (t.configs.lookup code).isSome

def getAllConfigs (t : AlarmTable) : List AlarmConfigEntry := t.configs.entries.map (·.2)

def forManager (t : AlarmTable) : AlarmConfiguration where
  entries := t.configs.entries.map fun e => ⟨e.1, e.2.toAlarmConfig⟩
  nodupKeys := by
    have hkeys : (t.configs.entries.map fun e =>
        (⟨e.1, e.2.toAlarmConfig⟩ : (_ : String) × AlarmConfig)).keys = t.configs.entries.keys := by
      simp [List.keys, Function.comp_def]
    rw [List.NodupKeys, hkeys]
    exact t.configs.nodupKeys

variable {t t' : AlarmTable} {c : AlarmConfigEntry}

lemma mem_getAllConfigs_iff : c ∈ t.getAllConfigs ↔ t.configs.lookup c.code = some c := by
  rw [getAllConfigs, mem_map]
  constructor
  · rintro ⟨⟨code, c'⟩, hmem, rfl⟩
    have hlk : t.configs.lookup code = some c' := mem_lookup_iff.mpr hmem
    rw [t.keyed code c' hlk]
    exact hlk
  · intro h
    exact ⟨⟨c.code, c⟩, mem_lookup_iff.mp h, rfl⟩

lemma hasAlarmConfig_iff {code : String} :
    t.hasAlarmConfig code = true ↔ code ∈ t.getAllConfigs.map (·.code) := by
  rw [hasAlarmConfig, Option.isSome_iff_exists, mem_map]
  constructor
  · rintro ⟨c, hc⟩
    have hcode := t.keyed code c hc
    subst hcode
    exact ⟨c, mem_getAllConfigs_iff.mpr hc, rfl⟩
  · rintro ⟨c, hc, rfl⟩
    exact ⟨c, mem_getAllConfigs_iff.mp hc⟩

lemma getAllConfigs_insert (h : t.hasAlarmConfig c.code = false) :
    (t.insert c).getAllConfigs = c :: t.getAllConfigs := by
  have hnone : t.configs.lookup c.code = none := by
    rw [hasAlarmConfig, Option.isSome_eq_false_iff, Option.isNone_iff_eq_none] at h
    exact h
  have hent : (t.configs.insert c.code c).entries = ⟨c.code, c⟩ :: t.configs.entries := by
    rw [← entries_erase_of_lookup_eq_none hnone]
    rfl
  rw [getAllConfigs, insert, hent, map_cons, ← getAllConfigs]

lemma isSome_lookup_forManager (t : AlarmTable) (code : String) :
    (t.forManager.lookup code).isSome = t.hasAlarmConfig code := by
  rw [Bool.eq_iff_iff, hasAlarmConfig, lookup_isSome, lookup_isSome, AList.mem_keys, AList.mem_keys]
  simp [forManager, AList.keys, List.keys]

lemma isSome_raiseAlarm (m : AlarmManager) (t : AlarmTable) (code source : String)
    (details : Option String) (now created : ℤ) :
    (m.raiseAlarm t.forManager code source details now created).1.isSome =
      t.hasAlarmConfig code := by
  rw [← isSome_lookup_forManager, AlarmManager.raiseAlarm]
  cases t.forManager.lookup code <;> rfl

end AlarmTable

section
variable {Y : Type} (lib : YamlLib Y)

def parseSeverity (severity : String) : AlarmSeverity :=
  if severity = "CRITICAL" then .critical
  else if severity = "WARNING" then .warning
  else .info

def parseAlarmConfig (node : Y) : Except String AlarmConfigEntry := do
  let code ← lib.required node "code" lib.asString
  let name ← lib.required node "name" lib.asString
  let severity ← lib.required node "severity" lib.asString
  let description ← lib.optional node "description" lib.asString ""
  let recommendedAction ←
    lib.optional node "recommended_action" (fun value => some <$> lib.asString value) none
  let recurrenceWindow ←
    lib.optional node "recurrence_window" (fun value => Int32.toInt <$> lib.asInt value) 60
  let recurrenceThreshold ← lib.optional node "recurrence_threshold" lib.asUInt32 3
  let autoReset ← lib.optional node "auto_reset" lib.asBool false
  return ⟨⟨name, parseSeverity severity, recurrenceWindow, recurrenceThreshold⟩, code, description,
    recommendedAction, autoReset⟩

def alarmNodes (document : Y) : Except String (List Y) := do
  match ← lib.get document "version" with
  | none => throw "Missing 'version' field"
  | some version =>
    let _ ← lib.asString version
    match ← lib.get document "alarms" with
    | none => throw "Missing or invalid 'alarms' array"
    | some alarms =>
      match lib.elements? alarms with
      | none => throw "Missing or invalid 'alarms' array"
      | some nodes => return nodes

def loadEntries : List Y → AlarmTable → Bool × AlarmTable
  | [], t => (true, t)
  | node :: nodes, t =>
    match parseAlarmConfig lib node with
    | .error _ => (false, t)
    | .ok c => if t.hasAlarmConfig c.code then (false, t) else loadEntries nodes (t.insert c)

def loadFromFile (t : AlarmTable) (document : Except String Y) : Bool × AlarmTable :=
  match document.bind (alarmNodes lib) with
  | .error _ => (false, t)
  | .ok nodes => loadEntries lib nodes .empty

/-- A failed load leaves the configurations as they were, and every code can be raised as before. -/
def FailureKeeps (t : AlarmTable) (document : Except String Y) : Prop :=
  (loadFromFile lib t document).1 = false →
    (loadFromFile lib t document).2.getAllConfigs.Perm t.getAllConfigs ∧
    ∀ (m : AlarmManager) (code source : String) (details : Option String) (now created : ℤ),
      (m.raiseAlarm (loadFromFile lib t document).2.forManager code source details now
          created).1.isSome =
        (m.raiseAlarm t.forManager code source details now created).1.isSome

inductive Accepts : List Y → List AlarmConfigEntry → Prop
  | nil : Accepts [] []
  | snoc {nodes configs node c} : Accepts nodes configs → parseAlarmConfig lib node = .ok c →
      c.code ∉ configs.map (·.code) → Accepts (nodes ++ [node]) (configs ++ [c])

def Rejects (configs : List AlarmConfigEntry) (node : Y) : Prop :=
  ∀ c, parseAlarmConfig lib node = .ok c → c.code ∈ configs.map (·.code)

variable {lib} {nodes rest : List Y} {configs : List AlarmConfigEntry} {node : Y}
  {c : AlarmConfigEntry} {t t' : AlarmTable} {document : Except String Y}

lemma hasAlarmConfig_eq_false (hperm : t.getAllConfigs.Perm configs)
    (hnew : c.code ∉ configs.map (·.code)) : t.hasAlarmConfig c.code = false := by
  rw [← Bool.not_eq_true, AlarmTable.hasAlarmConfig_iff, (hperm.map _).mem_iff]
  exact hnew

lemma loadEntries_cons_accept (rest : List Y) (hperm : t.getAllConfigs.Perm configs)
    (hprs : parseAlarmConfig lib node = .ok c) (hnew : c.code ∉ configs.map (·.code)) :
    loadEntries lib (node :: rest) t = loadEntries lib rest (t.insert c) ∧
      (t.insert c).getAllConfigs.Perm (configs ++ [c]) := by
  have hfree := hasAlarmConfig_eq_false hperm hnew
  constructor
  · rw [loadEntries, hprs]
    exact if_neg (by rw [hfree]; exact Bool.false_ne_true)
  · rw [AlarmTable.getAllConfigs_insert hfree]
    exact (hperm.cons c).trans (perm_append_singleton c configs).symm

lemma loadEntries_cons_reject (hperm : t.getAllConfigs.Perm configs)
    (hrej : Rejects lib configs node) : loadEntries lib (node :: rest) t = (false, t) := by
  rw [loadEntries]
  cases hprs : parseAlarmConfig lib node with
  | error what => rfl
  | ok c =>
    have hin : t.hasAlarmConfig c.code = true := by
      rw [AlarmTable.hasAlarmConfig_iff, (hperm.map _).mem_iff]
      exact hrej c hprs
    exact if_pos hin

lemma Accepts.loadEntries (h : Accepts lib nodes configs) (rest : List Y) :
    ∃ t, t.getAllConfigs.Perm configs ∧
      loadEntries lib (nodes ++ rest) .empty = Alarm.loadEntries lib rest t := by
  induction h generalizing rest with
  | nil => exact ⟨.empty, .nil, rfl⟩
  | @snoc nodes configs node c _ hprs hnew ih =>
    obtain ⟨t, hperm, hload⟩ := ih (node :: rest)
    obtain ⟨hstep, hperm'⟩ := loadEntries_cons_accept rest hperm hprs hnew
    refine ⟨t.insert c, hperm', ?_⟩
    rw [append_assoc, singleton_append, hload, hstep]

lemma Accepts.of_loadEntries (h : Accepts lib nodes configs)
    (hperm : t.getAllConfigs.Perm configs)
    (hload : Alarm.loadEntries lib rest t = (false, t')) :
    ∃ before node after configs', nodes ++ rest = before ++ node :: after ∧
      Accepts lib before configs' ∧ Rejects lib configs' node ∧
      t'.getAllConfigs.Perm configs' := by
  induction rest generalizing nodes configs t with
  | nil => cases hload
  | cons node rest ih =>
    by_cases hrej : Rejects lib configs node
    · rw [loadEntries_cons_reject hperm hrej] at hload
      cases hload
      exact ⟨nodes, node, rest, configs, rfl, h, hrej, hperm⟩
    · rw [Rejects] at hrej
      push Not at hrej
      obtain ⟨c, hprs, hnew⟩ := hrej
      obtain ⟨hstep, hperm'⟩ := loadEntries_cons_accept rest hperm hprs hnew
      rw [hstep] at hload
      obtain ⟨before, node', after, configs', hnod, hrest⟩ :=
        ih (h.snoc hprs hnew) hperm' hload
      refine ⟨before, node', after, configs', ?_, hrest⟩
      rw [← hnod, append_assoc, singleton_append]

lemma raise_of_perm (hperm : t'.getAllConfigs.Perm t.getAllConfigs) (m : AlarmManager)
    (code source : String) (details : Option String) (now created : ℤ) :
    (m.raiseAlarm t'.forManager code source details now created).1.isSome =
      (m.raiseAlarm t.forManager code source details now created).1.isSome := by
  rw [AlarmTable.isSome_raiseAlarm, AlarmTable.isSome_raiseAlarm, Bool.eq_iff_iff,
    AlarmTable.hasAlarmConfig_iff, AlarmTable.hasAlarmConfig_iff, (hperm.map _).mem_iff]

theorem failureKeeps_iff (lib : YamlLib Y) (t : AlarmTable) (document : Except String Y) :
    FailureKeeps lib t document ↔
      ∀ before node after configs,
        document.bind (alarmNodes lib) = .ok (before ++ node :: after) →
        Accepts lib before configs → Rejects lib configs node →
          configs.Perm t.getAllConfigs := by
  constructor
  · intro hkps before node after configs hnod hacc hrej
    obtain ⟨t', hperm, hload⟩ := hacc.loadEntries (node :: after)
    rw [loadEntries_cons_reject hperm hrej] at hload
    have hres : loadFromFile lib t document = (false, t') := by
      rw [loadFromFile, hnod]
      exact hload
    rw [FailureKeeps, hres] at hkps
    exact hperm.symm.trans (hkps rfl).1
  · intro h hfal
    suffices hperm : (loadFromFile lib t document).2.getAllConfigs.Perm t.getAllConfigs from
      ⟨hperm, fun m => raise_of_perm hperm m⟩
    cases hnod : document.bind (alarmNodes lib) with
    | error what =>
      rw [loadFromFile, hnod]
    | ok nodes =>
      have hres : loadFromFile lib t document = loadEntries lib nodes .empty := by
        rw [loadFromFile, hnod]
      rw [hres] at hfal ⊢
      have hload : loadEntries lib nodes .empty = (false, (loadEntries lib nodes .empty).2) :=
        Prod.ext hfal rfl
      obtain ⟨before, node, after, configs, hspl, hacc, hrej, hperm⟩ :=
        Accepts.nil.of_loadEntries (t := .empty) .nil hload
      rw [nil_append] at hspl
      exact hperm.trans (h before node after configs (hspl ▸ hnod) hacc hrej)

/-- One alarm is loaded; the next file has an entry without a name, and the alarm is gone. -/
theorem not_failureKeeps : ¬ ∀ (Y : Type) (lib : YamlLib Y) (t : AlarmTable)
    (document : Except String Y), FailureKeeps lib t document := by
  intro h
  let entry : AlarmConfigEntry := ⟨⟨"Battery Low", .warning, 60, 3⟩, "W001", "", none, false⟩
  let document : YamlTree := .map [("version", .scalar "1.0"),
    ("alarms", .sequence [.map [("code", .scalar "W001"), ("severity", .scalar "WARNING")]])]
  have hres : loadFromFile YamlTree.lib (AlarmTable.empty.insert entry) (.ok document) =
      (false, .empty) := rfl
  have hkps := h YamlTree YamlTree.lib (AlarmTable.empty.insert entry) (.ok document)
  rw [FailureKeeps, hres] at hkps
  have hlen := (hkps rfl).1.length_eq
  revert hlen
  decide

end
end Mxrc.Alarm
