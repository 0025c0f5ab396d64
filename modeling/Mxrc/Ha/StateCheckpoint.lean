import Mxrc.Lib.Json
import Mxrc.Lib.Maps
import Mxrc.Lib.Recency

/-!
# State checkpoints

Checkpoints are JSON files in a directory that several processes may share: a
map from the stems of the regular `.json` files. Whether a file can be opened
and the time of a write are inputs; writes and removals do not fail.
`CheckpointLib` has the library functions. `verifyCheckpoint` is left out.
-/

namespace Mxrc.Ha
open Mxrc.Lib List AList

structure CheckpointLib (J : Type) extends JsonLib J where
  null : J
  getUInt64 : J → Except String UInt64
  getStrings : J → Except String (List String)
  ofString : String → J
  ofStrings : List String → J
  ofUInt64 : UInt64 → J
  ofBool : Bool → J
  object : List (String × J) → J
  dump : J → Except String (List UInt8)
  putTime : ℤ → String
  getTime : String → ℤ
  dump_ne_nil : ∀ {j text}, dump j = .ok text → text ≠ []

/-- `filePath` is the stem of the file in the directory of the manager. -/
structure StateCheckpoint (J : Type) where
  checkpointId : String
  processName : String
  timestamp : ℤ
  rtState : J
  datastoreSnapshot : J
  eventbusQueueSnapshot : List String
  checkpointSizeBytes : UInt64
  isComplete : Bool
  filePath : String

structure CheckpointFile where
  time : ℤ
  text : List UInt8
  readable : Bool
deriving DecidableEq

abbrev CheckpointDir := AList (fun _ : String => CheckpointFile)

structure StateCheckpointManager where
  processName : String
  checkpointDir : String := "/tmp/mxrc/checkpoints"
  maxCheckpoints : ℕ := 10
deriving DecidableEq

section
variable {J : Type} (lib : CheckpointLib J)

def StateCheckpoint.document (c : StateCheckpoint J) : J :=
  lib.object
    [("checkpoint_id", lib.ofString c.checkpointId), ("process_name", lib.ofString c.processName),
      ("timestamp", lib.ofString (lib.putTime c.timestamp)), ("rt_state", c.rtState),
      ("datastore_snapshot", c.datastoreSnapshot),
      ("eventbus_queue_snapshot", lib.ofStrings c.eventbusQueueSnapshot),
      ("checkpoint_size_bytes", lib.ofUInt64 c.checkpointSizeBytes),
      ("is_complete", lib.ofBool c.isComplete)]

def StateCheckpoint.ofDocument (j : J) (filePath : String) :
    Except String (StateCheckpoint J) := do
  let checkpointId ← lib.getString (lib.field j "checkpoint_id")
  let processName ← lib.getString (lib.field j "process_name")
  let timestamp ← lib.getString (lib.field j "timestamp")
  let eventbusQueueSnapshot ← if lib.contains j "eventbus_queue_snapshot" then
    lib.getStrings (lib.field j "eventbus_queue_snapshot") else pure []
  let checkpointSizeBytes ← lib.getUInt64 (lib.field j "checkpoint_size_bytes")
  let isComplete ← lib.getBool (lib.field j "is_complete")
  return {
    checkpointId, processName
    timestamp := lib.getTime timestamp
    rtState := lib.field j "rt_state"
    datastoreSnapshot :=
      if lib.contains j "datastore_snapshot" then lib.field j "datastore_snapshot" else lib.null
    eventbusQueueSnapshot, checkpointSizeBytes, isComplete, filePath }

end

namespace StateCheckpointManager
variable {J : Type} (lib : CheckpointLib J)

def getCheckpointPath (m : StateCheckpointManager) (checkpointId : String) : String :=
  m.checkpointDir ++ "/" ++ checkpointId ++ ".json"

def createCheckpoint (m : StateCheckpointManager) (checkpointId : String) (now : ℤ) :
    StateCheckpoint J where
  checkpointId := checkpointId
  processName := m.processName
  timestamp := now
  rtState := lib.null
  datastoreSnapshot := lib.null
  eventbusQueueSnapshot := []
  checkpointSizeBytes := 0
  isComplete := false
  filePath := checkpointId

def loadCheckpoint (m : StateCheckpointManager) (d : CheckpointDir) (checkpointId : String) :
    Except String (StateCheckpoint J) :=
  match d.lookup checkpointId with
  | none => .error ("Checkpoint file not found: " ++ m.getCheckpointPath checkpointId)
  | some file =>
    if !file.readable then
      .error ("Failed to open checkpoint file: " ++ m.getCheckpointPath checkpointId)
    else
      match lib.parse file.text with
      | .error (.parseError what) => .error what
      | .error (.other what) => .error what
      | .ok j => StateCheckpoint.ofDocument lib j checkpointId

def listCheckpoints (d : CheckpointDir) : List String :=
  ((d.entries.map fun e => (e.1, e.2.time)).insertionSort fun a b => a.2 ≤ b.2).map Prod.fst

def deleteCheckpoint (d : CheckpointDir) (checkpointId : String) : Bool × CheckpointDir :=
  ((d.lookup checkpointId).isSome, d.erase checkpointId)

def cleanUp (m : StateCheckpointManager) (d : CheckpointDir) : CheckpointDir :=
  let checkpoints := listCheckpoints d
  let toDelete := checkpoints.length - m.maxCheckpoints
  (checkpoints.take toDelete).foldl (fun d id => (deleteCheckpoint d id).2) d

/-- The document is printed after the file has been opened and truncated. -/
def saveCheckpoint (m : StateCheckpointManager) (d : CheckpointDir) (checkpoint : StateCheckpoint J)
    (opens : Bool) (now : ℤ) : Bool × CheckpointDir :=
  if !opens then (false, d)
  else
    match lib.dump (checkpoint.document lib) with
    | .error _ => (false, d.insert checkpoint.filePath ⟨now, [], true⟩)
    | .ok text => (true, m.cleanUp (d.insert checkpoint.filePath ⟨now, text, true⟩))

section
variable {d : CheckpointDir} {id : String}

def timeOf (d : CheckpointDir) (id : String) : ℤ := ((d.lookup id).map (·.time)).getD 0

lemma map_entries (d : CheckpointDir) :
    (d.entries.map fun e => (e.1, e.2.time)) = d.keys.map fun id => (id, timeOf d id) := by
  rw [AList.keys, List.keys, map_map]
  refine map_congr_left fun e he => ?_
  have hlk : d.lookup e.1 = some e.2 := mem_lookup_iff.mpr he
  simp [timeOf, hlk]

lemma listCheckpoints_perm (d : CheckpointDir) : (listCheckpoints d).Perm d.keys := by
  have hperm := (perm_insertionSort (fun a b : String × ℤ => a.2 ≤ b.2)
    (d.entries.map fun e => (e.1, e.2.time))).map Prod.fst
  rw [map_entries, map_map] at hperm
  rw [listCheckpoints, map_entries]
  simpa [Function.comp_def] using hperm

lemma mem_listCheckpoints : id ∈ listCheckpoints d ↔ id ∈ d :=
  (listCheckpoints_perm d).mem_iff

lemma nodup_listCheckpoints : (listCheckpoints d).Nodup :=
  (listCheckpoints_perm d).nodup_iff.mpr d.keys_nodup

lemma pairwise_listCheckpoints (d : CheckpointDir) :
    (listCheckpoints d).Pairwise fun a b => timeOf d a ≤ timeOf d b := by
  have htot : Std.Total fun a b : String × ℤ => a.2 ≤ b.2 := ⟨fun a b => le_total _ _⟩
  have htrn : IsTrans (String × ℤ) fun a b => a.2 ≤ b.2 := ⟨fun _ _ _ => le_trans⟩
  have hsrt := pairwise_insertionSort (fun a b : String × ℤ => a.2 ≤ b.2)
    (d.keys.map fun id => (id, timeOf d id))
  have htime : ∀ e ∈ (d.keys.map fun id => (id, timeOf d id)).insertionSort
      (fun a b => a.2 ≤ b.2), timeOf d e.1 = e.2 := by
    intro e he
    rw [mem_insertionSort, mem_map] at he
    obtain ⟨id, -, rfl⟩ := he
    rfl
  rw [listCheckpoints, map_entries, pairwise_map]
  refine hsrt.imp_of_mem fun ha hb hab => ?_
  rw [htime _ ha, htime _ hb]
  exact hab

lemma listCheckpoints_eq {ids : List String} (hnd : ids.Nodup) (hmem : ∀ id, id ∈ ids ↔ id ∈ d)
    (hsrt : ids.Pairwise fun a b => timeOf d a < timeOf d b) : listCheckpoints d = ids := by
  have hperm : d.keys.Perm ids :=
    (perm_ext_iff_of_nodup d.keys_nodup hnd).mpr fun id => (hmem id).symm
  have hsort : (ids.map fun id => (id, timeOf d id)).Pairwise fun a b => a.2 < b.2 :=
    pairwise_map.mpr hsrt
  rw [listCheckpoints, map_entries,
    insertionSort_eq_of_pairwise_lt Prod.snd (hperm.map _) hsort, map_map]
  exact map_id _

structure Ordered (d : CheckpointDir) (clock : ℤ) : Prop where
  increasing : (listCheckpoints d).Pairwise fun a b => timeOf d a < timeOf d b
  past : ∀ a ∈ d, timeOf d a ≤ clock

lemma timeOf_insert (d : CheckpointDir) (id a : String) (file : CheckpointFile) :
    timeOf (d.insert id file) a = if a = id then file.time else timeOf d a := by
  rw [timeOf, timeOf, lookup_insert_ite]
  split_ifs
  · rfl
  · rfl

lemma Ordered.insert {clock : ℤ} (h : Ordered d clock) (id : String) {file : CheckpointFile}
    (hnow : clock < file.time) :
    listCheckpoints (d.insert id file) = touch id (listCheckpoints d) ∧
      Ordered (d.insert id file) file.time := by
  have hmem : ∀ a, a ∈ touch id (listCheckpoints d) ↔ a ∈ d.insert id file := by
    intro a
    rw [mem_touch, mem_insert, mem_listCheckpoints]
  have hsrt : (touch id (listCheckpoints d)).Pairwise fun a b =>
      timeOf (d.insert id file) a < timeOf (d.insert id file) b := by
    rw [touch, List.pairwise_append]
    have hne : ∀ a ∈ (listCheckpoints d).erase id, a ≠ id ∧ a ∈ d := by
      intro a ha
      obtain ⟨hne, ha⟩ := nodup_listCheckpoints.mem_erase_iff.mp ha
      exact ⟨hne, mem_listCheckpoints.mp ha⟩
    refine ⟨?_, pairwise_singleton _ id, ?_⟩
    · refine (h.increasing.sublist erase_sublist).imp_of_mem fun ha hb hab => ?_
      rwa [timeOf_insert, timeOf_insert, if_neg (hne _ ha).1, if_neg (hne _ hb).1]
    · intro a ha b hb
      rw [mem_singleton.mp hb, timeOf_insert, timeOf_insert, if_neg (hne a ha).1, if_pos rfl]
      exact (h.past a (hne a ha).2).trans_lt hnow
  have hlist := listCheckpoints_eq (nodup_touch nodup_listCheckpoints) hmem hsrt
  refine ⟨hlist, hlist ▸ hsrt, fun a ha => ?_⟩
  rw [timeOf_insert]
  split_ifs with haid
  · rfl
  · rw [mem_insert] at ha
    exact (h.past a (ha.resolve_left haid)).trans hnow.le

lemma lookup_cleanUp (m : StateCheckpointManager) (d : CheckpointDir) (id : String) :
    (m.cleanUp d).lookup id =
      if id ∈ (listCheckpoints d).rtake m.maxCheckpoints then d.lookup id else none := by
  have herase : (m.cleanUp d).lookup id = if id ∈ (listCheckpoints d).take
      ((listCheckpoints d).length - m.maxCheckpoints) then none else d.lookup id :=
    lookup_foldl_erase _ d id
  have hspl := take_append_drop ((listCheckpoints d).length - m.maxCheckpoints) (listCheckpoints d)
  have hnd := nodup_listCheckpoints (d := d)
  rw [← hspl, nodup_append] at hnd
  rw [herase, List.rtake]
  by_cases htake : id ∈ (listCheckpoints d).take ((listCheckpoints d).length - m.maxCheckpoints)
  · rw [if_pos htake, if_neg fun hdrop => hnd.2.2 id htake id hdrop rfl]
  · rw [if_neg htake]
    split_ifs with hdrop
    · rfl
    · have hlist : id ∉ listCheckpoints d := by
        rw [← hspl, mem_append]
        exact not_or.mpr ⟨htake, hdrop⟩
      rw [mem_listCheckpoints, ← AList.lookup_eq_none] at hlist
      exact hlist

lemma Ordered.cleanUp {clock : ℤ} (h : Ordered d clock) (m : StateCheckpointManager) :
    listCheckpoints (m.cleanUp d) = (listCheckpoints d).rtake m.maxCheckpoints ∧
      Ordered (m.cleanUp d) clock := by
  have hmem : ∀ a, a ∈ (listCheckpoints d).rtake m.maxCheckpoints ↔ a ∈ m.cleanUp d := by
    intro a
    rw [← lookup_isSome, lookup_cleanUp]
    split_ifs with ha
    · have had : a ∈ d := mem_listCheckpoints.mp (mem_of_mem_rtake ha)
      exact iff_of_true ha (lookup_isSome.mpr had)
    · exact iff_of_false ha (by simp)
  have htime : ∀ a ∈ (listCheckpoints d).rtake m.maxCheckpoints,
      timeOf (m.cleanUp d) a = timeOf d a := by
    intro a ha
    rw [timeOf, lookup_cleanUp, if_pos ha, timeOf]
  have hsuf := rtake_suffix (listCheckpoints d) m.maxCheckpoints
  have hsrt : ((listCheckpoints d).rtake m.maxCheckpoints).Pairwise fun a b =>
      timeOf (m.cleanUp d) a < timeOf (m.cleanUp d) b := by
    refine (h.increasing.sublist hsuf.sublist).imp_of_mem fun ha hb hab => ?_
    rwa [htime _ ha, htime _ hb]
  have hlist := listCheckpoints_eq (nodup_listCheckpoints.sublist hsuf.sublist) hmem hsrt
  refine ⟨hlist, hlist ▸ hsrt, fun a ha => ?_⟩
  have hkept := (hmem a).mpr ha
  rw [htime a hkept]
  exact h.past a (mem_listCheckpoints.mp (mem_of_mem_rtake hkept))

end
end StateCheckpointManager

def sampleLib (parse : List UInt8 → Except ParseFailure JsonValue) (text : List UInt8)
    (h : text ≠ []) : CheckpointLib JsonValue where
  toJsonLib := JsonValue.lib parse
  null := .null
  getUInt64
    | .integer n => .ok (UInt64.ofInt n)
    | v => .error (v.mustBe "number")
  getStrings
    | .array elements => elements.mapM (JsonValue.lib parse).getString
    | v => .error (v.mustBe "array")
  ofString text := .string text
  ofStrings texts := .array (texts.map .string)
  ofUInt64 n := .integer n.toNat
  ofBool b := .bool b
  object fields := .object fields
  dump _ := .ok text
  putTime _ := "1970-01-01T00:00:00Z"
  getTime _ := 0
  dump_ne_nil htext := Except.ok.inj htext ▸ h

end Mxrc.Ha
