import Mxrc.Ha.StateCheckpoint
import Mxrc.Lib.Calendar
import Mxrc.Lib.JsonPrinter

/-!
# Saving, loading and expiry of checkpoints

`saveCheckpoint` writes the timestamp with `gmtime` and `loadCheckpoint` reads
it with `mktime`, so it is off by the offset of the zone. The retention is
converted to nanoseconds in 64 bits, which wraps above 2562047 hours. Instants
are integers, the offset is fixed, and what the C library does outside of the
years 1970 to 9999 is a parameter.
-/

namespace Mxrc.Ha
open Mxrc.Lib Mxrc.Lib.Calendar AList

structure TimeZone where
  offset : ℤ
  otherText : ℤ → String
  otherTime : String → ℤ

namespace TimeZone

def putTime (zone : TimeZone) (t : ℤ) : String :=
  let seconds := t / 1000000000
  if 0 ≤ seconds ∧ seconds < endOfYear9999 then
    String.ofList (Calendar.putTime isoFormat (gmtime seconds))
  else zone.otherText t

def getTime (zone : TimeZone) (text : String) : ℤ :=
  match Calendar.getTime isoFormat text.toList ⟨⟨0, 0, 0⟩, 0, 0, 0⟩ with
  | some tm => mktime zone.offset tm * 1000000000
  | none => zone.otherTime text

lemma getTime_putTime (zone : TimeZone) {seconds : ℤ} (h0 : 0 ≤ seconds)
    (h1 : seconds < endOfYear9999) :
    zone.getTime (zone.putTime (seconds * 1000000000)) =
      (seconds - zone.offset) * 1000000000 := by
  have hsec : seconds * 1000000000 / 1000000000 = seconds := by omega
  rw [putTime, hsec, if_pos ⟨h0, h1⟩, getTime, String.toList_ofList,
    getTime_putTime_isoFormat (inRange_gmtime h0 h1)]
  dsimp only
  rw [mktime_gmtime]

end TimeZone

namespace CheckpointLib
variable {J : Type}

def inZone (lib : CheckpointLib J) (zone : TimeZone) : CheckpointLib J :=
  { lib with
    putTime := zone.putTime
    getTime := zone.getTime }

structure Lawful (lib : CheckpointLib J) : Prop where
  dump_parse : ∀ j, ∃ text, lib.dump j = .ok text ∧ lib.parse text = .ok j
  contains_object : ∀ fields name, lib.contains (lib.object fields) name =
    (fields.lookup name).isSome
  field_object : ∀ {fields name v}, fields.lookup name = some v →
    lib.field (lib.object fields) name = v
  getString_ofString : ∀ text, lib.getString (lib.ofString text) = .ok text
  getStrings_ofStrings : ∀ texts, lib.getStrings (lib.ofStrings texts) = .ok texts
  getUInt64_ofUInt64 : ∀ n, lib.getUInt64 (lib.ofUInt64 n) = .ok n
  getBool_ofBool : ∀ b, lib.getBool (lib.ofBool b) = .ok b

lemma Lawful.inZone {lib : CheckpointLib J} (h : lib.Lawful) (zone : TimeZone) :
    (lib.inZone zone).Lawful :=
  ⟨h.dump_parse, h.contains_object, h.field_object, h.getString_ofString, h.getStrings_ofStrings,
    h.getUInt64_ofUInt64, h.getBool_ofBool⟩

end CheckpointLib

def retentionDuration (retentionHours : UInt64) : ℤ :=
  Int.bmod (retentionHours.toNat * 3600000000000) (2 ^ 64)

lemma retentionDuration_eq_iff (retentionHours : UInt64) :
    retentionDuration retentionHours = retentionHours.toNat * 3600000000000 ↔
      retentionHours.toNat ≤ 2562047 := by
  unfold retentionDuration
  generalize retentionHours.toNat = n
  rw [Int.bmod_eq_iff (by norm_num), sub_self]
  norm_num
  omega

namespace StateCheckpointManager
variable {J : Type} (lib : CheckpointLib J)

def checkExpiry (m : StateCheckpointManager) (now : ℤ) (retentionHours : UInt64)
    (r : ℕ × CheckpointDir) (checkpointId : String) : ℕ × CheckpointDir :=
  match m.loadCheckpoint lib r.2 checkpointId with
  | .error _ => r
  | .ok checkpoint =>
    if retentionDuration retentionHours < now - checkpoint.timestamp then
      let (deleted, d) := deleteCheckpoint r.2 checkpointId
      (if deleted then r.1 + 1 else r.1, d)
    else r

def cleanupExpiredCheckpoints (m : StateCheckpointManager) (d : CheckpointDir) (now : ℤ)
    (retentionHours : UInt64) : ℕ × CheckpointDir :=
  (listCheckpoints d).foldl (m.checkExpiry lib now retentionHours) (0, d)

def Expired (m : StateCheckpointManager) (d : CheckpointDir) (now : ℤ) (retentionHours : UInt64)
    (id : String) : Prop :=
  ∃ c, m.loadCheckpoint lib d id = .ok c ∧ retentionDuration retentionHours < now - c.timestamp

/-- A checkpoint that the save does not prune is loaded as it was, and the clean-up deletes it
exactly if it is older than the retention. -/
def RoundTrips (zone : TimeZone) (retentionHours : UInt64) : Prop :=
  ∀ (m : StateCheckpointManager) (d : CheckpointDir) (c : StateCheckpoint J) (seconds savedAt : ℤ),
    c.timestamp = seconds * 1000000000 → 0 ≤ seconds → seconds < endOfYear9999 →
    c.filePath ∈ (m.saveCheckpoint (lib.inZone zone) d c true savedAt).2 →
    m.loadCheckpoint (lib.inZone zone) (m.saveCheckpoint (lib.inZone zone) d c true savedAt).2
        c.filePath = .ok c ∧
      ∀ now, c.filePath ∉ (m.cleanupExpiredCheckpoints (lib.inZone zone)
          (m.saveCheckpoint (lib.inZone zone) d c true savedAt).2 now retentionHours).2 ↔
        retentionHours.toNat * 3600000000000 < now - c.timestamp

section
variable {lib} {m : StateCheckpointManager} {d : CheckpointDir} {now : ℤ} {retentionHours : UInt64}
  {id : String}

lemma expired_congr {d' : CheckpointDir} (h : d'.lookup id = d.lookup id) :
    m.Expired lib d' now retentionHours id ↔ m.Expired lib d now retentionHours id := by
  rw [Expired, Expired, loadCheckpoint, loadCheckpoint, h]

lemma checkExpiry_cases (lib : CheckpointLib J) (m : StateCheckpointManager) (now : ℤ)
    (retentionHours : UInt64) (r : ℕ × CheckpointDir) (id : String) :
    (m.Expired lib r.2 now retentionHours id ∧
      (m.checkExpiry lib now retentionHours r id).2 = r.2.erase id) ∨
    (¬m.Expired lib r.2 now retentionHours id ∧
      (m.checkExpiry lib now retentionHours r id).2 = r.2) := by
  unfold checkExpiry Expired
  cases hload : m.loadCheckpoint lib r.2 id with
  | error what => exact .inr ⟨by simp, rfl⟩
  | ok c =>
    dsimp only
    by_cases hage : retentionDuration retentionHours < now - c.timestamp
    · rw [if_pos hage]
      exact .inl ⟨⟨c, rfl, hage⟩, rfl⟩
    · rw [if_neg hage]
      refine .inr ⟨?_, rfl⟩
      rintro ⟨c', hc', hage'⟩
      cases hc'
      exact hage hage'

lemma mem_foldl_checkExpiry (ids : List String) (r : ℕ × CheckpointDir) :
    id ∈ (ids.foldl (m.checkExpiry lib now retentionHours) r).2 ↔
      id ∈ r.2 ∧ ¬(id ∈ ids ∧ m.Expired lib r.2 now retentionHours id) := by
  induction ids generalizing r with
  | nil => simp
  | cons a ids ih =>
    rw [List.foldl_cons, ih, List.mem_cons]
    obtain ⟨hexpd, hr⟩ | ⟨hexpd, hr⟩ := checkExpiry_cases lib m now retentionHours r a
    · rw [hr, mem_erase]
      by_cases ha : id = a
      · subst ha
        simp [hexpd]
      · rw [expired_congr (lookup_erase_ne ha)]
        simp [ha]
    · rw [hr]
      by_cases ha : id = a
      · subst ha
        simp [hexpd]
      · simp [ha]

lemma mem_cleanupExpiredCheckpoints :
    id ∈ (m.cleanupExpiredCheckpoints lib d now retentionHours).2 ↔
      id ∈ d ∧ ¬m.Expired lib d now retentionHours id := by
  rw [cleanupExpiredCheckpoints, mem_foldl_checkExpiry, mem_listCheckpoints]
  tauto

end

section
variable {lib} {m : StateCheckpointManager} {d : CheckpointDir} {c : StateCheckpoint J}
  {savedAt : ℤ}

lemma ofDocument_document (hlib : lib.Lawful) (c : StateCheckpoint J) :
    StateCheckpoint.ofDocument lib (c.document lib) c.filePath =
      .ok { c with timestamp := lib.getTime (lib.putTime c.timestamp) } := by
  have hfld : ∀ name v, _ → lib.field (c.document lib) name = v := fun name v h =>
    hlib.field_object h
  have hcon : ∀ name, lib.contains (c.document lib) name = _ := fun name =>
    hlib.contains_object _ name
  rw [StateCheckpoint.ofDocument, hfld "checkpoint_id" _ rfl, hfld "process_name" _ rfl,
    hfld "timestamp" _ rfl, hfld "rt_state" _ rfl, hfld "datastore_snapshot" _ rfl,
    hfld "eventbus_queue_snapshot" _ rfl, hfld "checkpoint_size_bytes" _ rfl,
    hfld "is_complete" _ rfl, hcon, hcon, hlib.getString_ofString,
    hlib.getString_ofString, hlib.getString_ofString, hlib.getStrings_ofStrings,
    hlib.getUInt64_ofUInt64, hlib.getBool_ofBool]
  rfl

lemma loadCheckpoint_saveCheckpoint (hlib : lib.Lawful)
    (hkept : c.filePath ∈ (m.saveCheckpoint lib d c true savedAt).2) :
    m.loadCheckpoint lib (m.saveCheckpoint lib d c true savedAt).2 c.filePath =
      .ok { c with timestamp := lib.getTime (lib.putTime c.timestamp) } := by
  obtain ⟨text, hdump, hprs⟩ := hlib.dump_parse (c.document lib)
  have hsave : (m.saveCheckpoint lib d c true savedAt).2 =
      m.cleanUp (d.insert c.filePath ⟨savedAt, text, true⟩) := by
    simp [saveCheckpoint, hdump]
  rw [hsave] at hkept ⊢
  rw [← lookup_isSome, lookup_cleanUp] at hkept
  split_ifs at hkept with hnew
  · rw [loadCheckpoint, lookup_cleanUp, if_pos hnew, lookup_insert]
    simp only [Bool.not_true, Bool.false_eq_true, if_false, hprs]
    exact ofDocument_document hlib c
  · cases hkept

variable {zone : TimeZone} {retentionHours : UInt64} {seconds : ℤ}

section
variable (hlib : lib.Lawful) (ht : c.timestamp = seconds * 1000000000) (h0 : 0 ≤ seconds)
  (h1 : seconds < endOfYear9999)
  (hkept : c.filePath ∈ (m.saveCheckpoint (lib.inZone zone) d c true savedAt).2)
include hlib ht h0 h1 hkept

lemma loadCheckpoint_inZone :
    m.loadCheckpoint (lib.inZone zone) (m.saveCheckpoint (lib.inZone zone) d c true savedAt).2
      c.filePath = .ok { c with timestamp := c.timestamp - zone.offset * 1000000000 } := by
  have htime : (lib.inZone zone).getTime ((lib.inZone zone).putTime c.timestamp) =
      c.timestamp - zone.offset * 1000000000 := by
    rw [ht]
    exact (zone.getTime_putTime h0 h1).trans (sub_mul ..)
  rw [loadCheckpoint_saveCheckpoint (hlib.inZone zone) hkept, htime]

lemma expired_inZone (now : ℤ) :
    c.filePath ∉ (m.cleanupExpiredCheckpoints (lib.inZone zone)
        (m.saveCheckpoint (lib.inZone zone) d c true savedAt).2 now retentionHours).2 ↔
      retentionDuration retentionHours < now - (c.timestamp - zone.offset * 1000000000) := by
  rw [mem_cleanupExpiredCheckpoints, Expired, loadCheckpoint_inZone hlib ht h0 h1 hkept, not_and,
    not_not]
  constructor
  · intro hdel
    obtain ⟨c', hc', hage⟩ := hdel hkept
    cases hc'
    exact hage
  · exact fun hage _ => ⟨_, rfl, hage⟩

end

lemma mem_saveCheckpoint_empty (hlib : lib.Lawful) (c : StateCheckpoint J) (savedAt : ℤ) :
    c.filePath ∈ (saveCheckpoint lib ⟨"", "", 1⟩ ∅ c true savedAt).2 := by
  obtain ⟨text, hdump, -⟩ := hlib.dump_parse (c.document lib)
  have hsave : (saveCheckpoint lib ⟨"", "", 1⟩ ∅ c true savedAt).2 =
      cleanUp ⟨"", "", 1⟩ (AList.insert c.filePath ⟨savedAt, text, true⟩ ∅) := by
    simp [saveCheckpoint, hdump]
  have hlist : listCheckpoints (AList.insert c.filePath ⟨savedAt, text, true⟩ ∅) =
      [c.filePath] := rfl
  rw [hsave, ← lookup_isSome, lookup_cleanUp, hlist, if_pos (by simp [List.rtake]), lookup_insert]
  rfl

lemma RoundTrips.offset_eq_zero (hlib : lib.Lawful) (h : RoundTrips lib zone retentionHours) :
    zone.offset = 0 := by
  let c : StateCheckpoint J := createCheckpoint lib ⟨"", "", 1⟩ "" 0
  have hkept := mem_saveCheckpoint_empty (hlib.inZone zone) c 0
  obtain ⟨hload, -⟩ := h ⟨"", "", 1⟩ ∅ c 0 0 rfl le_rfl (by decide) hkept
  have ht : c.timestamp = 0 * 1000000000 := rfl
  rw [loadCheckpoint_inZone hlib ht le_rfl (by decide) hkept] at hload
  have htime := congrArg StateCheckpoint.timestamp (Except.ok.inj hload)
  change 0 - zone.offset * 1000000000 = 0 at htime
  omega

lemma RoundTrips.retentionDuration_eq (hlib : lib.Lawful)
    (h : RoundTrips lib zone retentionHours) :
    retentionDuration retentionHours = retentionHours.toNat * 3600000000000 := by
  let c : StateCheckpoint J := createCheckpoint lib ⟨"", "", 1⟩ "" 0
  have hkept := mem_saveCheckpoint_empty (hlib.inZone zone) c 0
  obtain ⟨-, hdel⟩ := h ⟨"", "", 1⟩ ∅ c 0 0 rfl le_rfl (by decide) hkept
  have ht : c.timestamp = 0 * 1000000000 := rfl
  have hages : ∀ age : ℤ, retentionDuration retentionHours < age ↔
      retentionHours.toNat * 3600000000000 < age := by
    intro age
    have hage := (expired_inZone hlib ht le_rfl (by decide) hkept age).symm.trans (hdel age)
    rwa [h.offset_eq_zero hlib, ht, zero_mul, sub_zero, sub_zero] at hage
  have hlow := hages (retentionDuration retentionHours)
  have hhigh := hages (retentionHours.toNat * 3600000000000)
  omega

theorem roundTrips_iff (hlib : lib.Lawful) (zone : TimeZone) (retentionHours : UInt64) :
    RoundTrips lib zone retentionHours ↔
      zone.offset = 0 ∧ retentionHours.toNat ≤ 2562047 := by
  rw [← retentionDuration_eq_iff]
  refine ⟨fun h => ⟨h.offset_eq_zero hlib, h.retentionDuration_eq hlib⟩, ?_⟩
  rintro ⟨hoff, hret⟩ m d c seconds savedAt ht h0 h1 hkept
  refine ⟨?_, fun now => ?_⟩
  · rw [loadCheckpoint_inZone hlib ht h0 h1 hkept, hoff, zero_mul, sub_zero]
  · rw [expired_inZone hlib ht h0 h1 hkept now, hoff, zero_mul, sub_zero, hret]

end
end StateCheckpointManager

noncomputable def treeLib : CheckpointLib JsonTree where
  toJsonLib := JsonTree.lib
  null := .null
  getUInt64
    | .integer n => .ok (UInt64.ofNat n.toNat)
    | _ => .error (JsonTree.mustBe "number")
  getStrings j :=
    if j.isArray then j.elements.mapM JsonTree.lib.getString
    else .error (JsonTree.mustBe "array")
  ofString text := .string text
  ofStrings texts := JsonTree.array (texts.map .string)
  ofUInt64 n := .integer n.toNat
  ofBool b := .bool b
  object := JsonTree.object
  dump j := .ok j.text
  putTime _ := ""
  getTime _ := 0
  dump_ne_nil htext := Except.ok.inj htext ▸ JsonTree.text_ne_nil _

lemma lawful_treeLib : treeLib.Lawful where
  dump_parse j := ⟨j.text, rfl, JsonTree.parse_text j⟩
  contains_object fields name := JsonTree.printer.contains_object fields name
  field_object h := JsonTree.printer.field_object h
  getString_ofString _ := rfl
  getStrings_ofStrings texts := by
    change (if (JsonTree.array _).isArray then (JsonTree.array _).elements.mapM _ else _) = _
    rw [JsonTree.isArray_array, if_pos rfl, JsonTree.elements_array]
    induction texts with
    | nil => rfl
    | cons text texts ih =>
      rw [List.map_cons, List.mapM_cons, ih]
      rfl
  getUInt64_ofUInt64 n := by
    change Except.ok (UInt64.ofNat (n.toNat : ℤ).toNat) = .ok n
    rw [Int.toNat_natCast, UInt64.ofNat_toNat]
  getBool_ofBool _ := rfl

theorem roundTrips_utc :
    StateCheckpointManager.RoundTrips treeLib ⟨0, fun _ => "", fun _ => 0⟩ 24 :=
  (StateCheckpointManager.roundTrips_iff lawful_treeLib _ _).mpr ⟨rfl, by decide⟩

/-- In Seoul, nine hours ahead of UTC. -/
theorem not_roundTrips : ¬ ∀ (J : Type) (lib : CheckpointLib J), lib.Lawful →
    ∀ zone retentionHours, StateCheckpointManager.RoundTrips lib zone retentionHours := by
  intro hall
  have hoff := (hall JsonTree treeLib lawful_treeLib ⟨32400, fun _ => "", fun _ => 0⟩ 24
    ).offset_eq_zero lawful_treeLib
  cases hoff

end Mxrc.Ha
