import Mxrc.Ha.FailoverManager
import Mxrc.Ha.StateCheckpoint

/-!
# The checkpoint a restart recovers from

`triggerRestart` loads the newest file of the checkpoint directory. Neither the
process that wrote it nor whether it is complete is looked at, and if it cannot
be read no older one is tried.
-/

namespace Mxrc.Ha
open Mxrc.Lib List

namespace StateCheckpointManager
variable {d : CheckpointDir} {id : String}

def DistinctTimes (d : CheckpointDir) : Prop :=
  ∀ a ∈ d, ∀ b ∈ d, timeOf d a = timeOf d b → a = b

def Newest (d : CheckpointDir) (id : String) : Prop := id ∈ d ∧ ∀ a ∈ d, timeOf d a ≤ timeOf d id

lemma newest_of_getLast? (h : (listCheckpoints d).getLast? = some id) : Newest d id := by
  obtain ⟨ids, hids⟩ := getLast?_eq_some_iff.mp h
  have hsrt := pairwise_listCheckpoints d
  rw [hids, List.pairwise_append] at hsrt
  refine ⟨mem_listCheckpoints.mp (mem_of_getLast? h), fun a ha => ?_⟩
  have hmem : a ∈ ids ++ [id] := hids ▸ mem_listCheckpoints.mpr ha
  rcases mem_append.mp hmem with hold | hlast
  · exact hsrt.2.2 a hold id (mem_singleton_self id)
  · rw [mem_singleton.mp hlast]

lemma Newest.unique {a b : String} (hd : DistinctTimes d) (ha : Newest d a) (hb : Newest d b) :
    a = b := hd a ha.1 b hb.1 (le_antisymm (hb.2 a ha.1) (ha.2 b hb.1))

lemma getLast?_eq_none_iff : (listCheckpoints d).getLast? = none ↔ ∀ id, id ∉ d := by
  rw [List.getLast?_eq_none_iff, eq_nil_iff_forall_not_mem]
  simp only [mem_listCheckpoints]

end StateCheckpointManager

open StateCheckpointManager

namespace FailoverManager
variable {J : Type} (lib : CheckpointLib J)

/-- The checkpoint that `triggerRestart` loads, if `checkpoint_loaded` is set. -/
def recover (m : FailoverManager) (checkpointManager : Option StateCheckpointManager)
    (d : CheckpointDir) (processName : String) (recoverState : Bool) :
    Option (StateCheckpoint J) :=
  if processName ≠ m.policy.processName then none
  else if recoverState && m.policy.enableStateRecovery then
    match checkpointManager with
    | none => none
    | some manager =>
      match (listCheckpoints d).getLast? with
      | none => none
      | some latest => (manager.loadCheckpoint lib d latest).toOption
  else none

def Usable (manager : StateCheckpointManager) (d : CheckpointDir) (processName id : String)
    (c : StateCheckpoint J) : Prop :=
  manager.loadCheckpoint lib d id = .ok c ∧ c.isComplete = true ∧ c.processName = processName

/-- What is recovered from is the most recent usable checkpoint, if there is one, and
never an unusable one. -/
def RecoversLatest (m : FailoverManager) (manager : StateCheckpointManager) (d : CheckpointDir)
    (processName : String) : Prop :=
  (∀ id c, Usable lib manager d processName id c →
    (∀ a b, Usable lib manager d processName a b → timeOf d a ≤ timeOf d id) →
      recover lib m (some manager) d processName true = some c) ∧
  ∀ c, recover lib m (some manager) d processName true = some c →
    c.isComplete = true ∧ c.processName = processName

variable {lib} {m : FailoverManager} {manager : StateCheckpointManager} {d : CheckpointDir}
variable {processName : String} {c : StateCheckpoint J}

lemma Usable.mem {id : String} (h : Usable lib manager d processName id c) : id ∈ d := by
  have hload := h.1
  rw [loadCheckpoint] at hload
  split at hload
  next => cases hload
  next file hfile => exact AList.lookup_isSome.mp (by rw [hfile]; rfl)

lemma recover_eq_some_iff (hrec : m.policy.enableStateRecovery = true) (hd : DistinctTimes d) :
    recover lib m (some manager) d m.policy.processName true = some c ↔
      ∃ id, Newest d id ∧ manager.loadCheckpoint lib d id = .ok c := by
  have hload : recover lib m (some manager) d m.policy.processName true =
      (listCheckpoints d).getLast?.bind fun id => (manager.loadCheckpoint lib d id).toOption := by
    rw [recover, if_neg (by simp), if_pos (by simp [hrec])]
    cases (listCheckpoints d).getLast? <;> rfl
  have htoOption : ∀ r : Except String (StateCheckpoint J), r.toOption = some c ↔ r = .ok c := by
    intro r
    cases r <;> simp [Except.toOption]
  rw [hload, Option.bind_eq_some_iff]
  simp only [htoOption]
  constructor
  · rintro ⟨id, hlast, hok⟩
    exact ⟨id, newest_of_getLast? hlast, hok⟩
  · rintro ⟨id, hnew, hok⟩
    cases hlast : (listCheckpoints d).getLast? with
    | none => exact absurd hnew.1 (getLast?_eq_none_iff.mp hlast id)
    | some latest =>
      rw [(newest_of_getLast? hlast).unique hd hnew]
      exact ⟨id, rfl, hok⟩

lemma exists_latest {id : String} (h : Usable lib manager d processName id c) :
    ∃ a b, Usable lib manager d processName a b ∧
      ∀ a' b', Usable lib manager d processName a' b' → timeOf d a' ≤ timeOf d a := by
  classical
  let usable := d.keys.toFinset.filter fun a => ∃ b, Usable lib manager d processName a b
  have hmem : ∀ {a b}, Usable lib manager d processName a b → a ∈ usable := by
    intro a b hab
    exact Finset.mem_filter.mpr ⟨mem_toFinset.mpr hab.mem, b, hab⟩
  obtain ⟨a, ha, hmax⟩ := usable.exists_max_image (timeOf d) ⟨id, hmem h⟩
  obtain ⟨-, b, hb⟩ := Finset.mem_filter.mp ha
  exact ⟨a, b, hb, fun a' b' hab => hmax a' (hmem hab)⟩

theorem recoversLatest_iff (lib : CheckpointLib J) (m : FailoverManager)
    (manager : StateCheckpointManager) (d : CheckpointDir)
    (hrec : m.policy.enableStateRecovery = true) (hd : DistinctTimes d) :
    RecoversLatest lib m manager d m.policy.processName ↔
      ∀ id, Newest d id →
        (∃ c, Usable lib manager d m.policy.processName id c) ∨
          (∀ c, manager.loadCheckpoint lib d id ≠ .ok c) ∧
            ∀ a c, ¬ Usable lib manager d m.policy.processName a c := by
  simp only [RecoversLatest, recover_eq_some_iff hrec hd]
  constructor
  · rintro ⟨hlat, hnone⟩ id hnew
    by_cases hload : ∃ c, manager.loadCheckpoint lib d id = .ok c
    · obtain ⟨c, hc⟩ := hload
      exact Or.inl ⟨c, hc, hnone c ⟨id, hnew, hc⟩⟩
    · refine Or.inr ⟨fun c hc => hload ⟨c, hc⟩, fun a c hac => ?_⟩
      obtain ⟨a', c', hac', hmax⟩ := exists_latest hac
      obtain ⟨id', hnew', hc'⟩ := hlat a' c' hac' hmax
      rw [hnew'.unique hd hnew] at hc'
      exact hload ⟨c', hc'⟩
  · intro hnew
    refine ⟨fun id c hc hmax => ?_, fun c => ?_⟩
    · obtain ⟨latest, hlat⟩ : ∃ latest, Newest d latest := by
        cases hlast : (listCheckpoints d).getLast? with
        | none => exact absurd hc.mem (getLast?_eq_none_iff.mp hlast id)
        | some latest => exact ⟨latest, newest_of_getLast? hlast⟩
      rcases hnew latest hlat with ⟨b, hb⟩ | ⟨-, hnone⟩
      · -- both are the file with the greatest time
        have hid : id = latest := by
          refine hd id hc.mem latest hlat.1 (le_antisymm (hlat.2 id hc.mem) ?_)
          exact hmax latest b hb
        exact ⟨latest, hlat, hid ▸ hc.1⟩
      · exact absurd hc (hnone id c)
    · rintro ⟨id, hid, hok⟩
      rcases hnew id hid with ⟨b, hb⟩ | ⟨hnone, -⟩
      · have hcb : c = b := Except.ok.inj (hok.symm.trans hb.1)
        exact hcb ▸ hb.2
      · exact absurd hok (hnone c)

section

def sampleParse : List UInt8 → Except ParseFailure JsonValue
  | [process, complete] => .ok <| .object
    [("checkpoint_id", .string "id"),
      ("process_name", .string (if process = 0 then "mxrc-rt" else "mxrc-nonrt")),
      ("timestamp", .string "1970-01-01T00:00:00Z"), ("rt_state", .null),
      ("checkpoint_size_bytes", .integer 0), ("is_complete", .bool (complete = 1))]
  | _ => .error (.parseError "unexpected end of input")

def sampleManager : FailoverManager := { policy := { processName := "mxrc-rt" } }

def sampleDir (newest : List UInt8) : CheckpointDir :=
  AList.insert "b" ⟨2, newest, true⟩ (AList.insert "a" ⟨1, [0, 1], true⟩ ∅)

lemma mem_sampleDir {newest : List UInt8} {id : String} :
    id ∈ sampleDir newest ↔ id = "b" ∨ id = "a" := by
  rw [sampleDir, AList.mem_insert, AList.mem_insert]
  simp

lemma distinctTimes_sampleDir (newest : List UInt8) : DistinctTimes (sampleDir newest) := by
  intro x hx y hy hxy
  rcases mem_sampleDir.mp hx with rfl | rfl <;> rcases mem_sampleDir.mp hy with rfl | rfl
  · rfl
  · cases hxy
  · cases hxy
  · rfl

lemma newest_sampleDir {newest : List UInt8} {id : String} (h : Newest (sampleDir newest) id) :
    id = "b" := by
  rcases mem_sampleDir.mp h.1 with rfl | rfl
  · rfl
  · have htime := h.2 "b" (mem_sampleDir.mpr (Or.inl rfl))
    cases htime

theorem recoversLatest_sampleDir :
    let lib := sampleLib sampleParse [0, 1] (List.cons_ne_nil 0 [1])
    sampleManager.policy.enableStateRecovery = true ∧ DistinctTimes (sampleDir [0, 1]) ∧
      RecoversLatest lib sampleManager ⟨"mxrc-rt", "/tmp/mxrc/checkpoints", 10⟩
        (sampleDir [0, 1]) "mxrc-rt" := by
  refine ⟨rfl, distinctTimes_sampleDir _, ?_⟩
  refine (recoversLatest_iff _ sampleManager _ _ rfl (distinctTimes_sampleDir _)).mpr ?_
  intro id hid
  rw [newest_sampleDir hid]
  exact Or.inl ⟨_, rfl, rfl, rfl⟩

/-- The newer file is a complete checkpoint of another process. -/
theorem not_recoversLatest : ¬ ∀ (J : Type) (lib : CheckpointLib J) (m : FailoverManager)
    (manager : StateCheckpointManager) (d : CheckpointDir),
      m.policy.enableStateRecovery = true → DistinctTimes d →
        RecoversLatest lib m manager d m.policy.processName := by
  intro hall
  let lib := sampleLib sampleParse [0, 1] (cons_ne_nil 0 [1])
  let manager : StateCheckpointManager := ⟨"mxrc-rt", "/tmp/mxrc/checkpoints", 10⟩
  have hrig := (hall JsonValue lib sampleManager manager (sampleDir [1, 1]) rfl
    (distinctTimes_sampleDir _)).2
  have hoth : ∃ c, recover lib sampleManager (some manager) (sampleDir [1, 1]) "mxrc-rt" true =
      some c ∧ c.processName = "mxrc-nonrt" := ⟨_, rfl, rfl⟩
  obtain ⟨c, hc, hname⟩ := hoth
  have hproc : c.processName = "mxrc-rt" := (hrig c hc).2
  rw [hname] at hproc
  exact absurd hproc (by decide)

end
end FailoverManager
end Mxrc.Ha
