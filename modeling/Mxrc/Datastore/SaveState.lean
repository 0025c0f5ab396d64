import Mxrc.Datastore.LoadState
import Mxrc.Datastore.TypeStability
import Mxrc.Lib.JsonPrinter

/-!
# Saving the state

`saveState` writes an item for each key whose value has one of six C++ types, to
a temporary file that then takes the place of the file. The file system and the
order of the hash map are inputs. An item is loaded with a new timestamp and
without an expiration time.
-/

namespace Mxrc.Datastore
open Mxrc.Lib List Option

def DataType.toInt : DataType → Int32
  | .robotMode => 0
  | .interfaceData => 1
  | .config => 2
  | .para => 3
  | .alarm => 4
  | .event => 5
  | .missionState => 6
  | .taskState => 7
  | .other value => value

lemma DataType.toInt_ofInt (value : Int32) : (DataType.ofInt value).toInt = value := by
  unfold DataType.ofInt
  split_ifs <;> first | rfl | exact Eq.symm ‹_›

namespace AnyValue

def saved : AnyValue → Bool
  | .other _ _ => false
  | _ => true

def Finite : AnyValue → Prop
  | .double bits => FiniteDouble bits
  | .float bits => FiniteFloat bits
  | _ => True

end AnyValue

def SharedData.tagged (d : SharedData) : Int32 × AnyValue := (d.type.toInt, d.value)

abbrev Files := AList (fun _ : String => List UInt8)

structure DiskOutcome where
  opens : Bool
  good : Bool
  rename : Except String Unit

namespace DataStore

section
variable {J : Type} (json : JsonPrinter J)

def valueField : AnyValue → Option (String × J)
  | .int value => some ("int", json.ofInt value)
  | .double bits => some ("double", json.ofDouble bits)
  | .float bits => some ("float", json.ofFloat bits)
  | .string value => some ("string", json.ofString value)
  | .bool value => some ("bool", json.ofBool value)
  | .long value => some ("long", json.ofLong value)
  | .other _ _ => none

def itemObject (d : SharedData) (valueType : String) (value : J) : J :=
  json.object
    [("id", json.ofString d.id), ("type", json.ofInt d.type.toInt),
      ("value_type", json.ofString valueType), ("value", value)]

def savedItem (d : SharedData) : Option J :=
  (valueField json d.value).map fun field => itemObject json d field.1 field.2

def stateDocument (s : DataStore) (order : List String) : J :=
  json.object
    [("version", json.ofInt 1),
      ("data", json.array ((order.filterMap s.dataMap.lookup).filterMap (savedItem json)))]

def writeState (state : J) (tempFilepath : String) (disk : DiskOutcome) :
    Except String (List UInt8) :=
  if !disk.opens then
    .error ("Failed to open temporary file for saving state: " ++ tempFilepath)
  else do
    let text ← json.dump state
    if !disk.good then
      .error ("Failed to write state to temporary file: " ++ tempFilepath)
    else do
      disk.rename
      return text

def saveState (s : DataStore) (order : List String) (files : Files) (filepath : String)
    (disk : DiskOutcome) : Except String Unit × Files :=
  let tempFilepath := filepath ++ ".tmp"
  match writeState json (stateDocument json s order) tempFilepath disk with
  | .ok text => (.ok (), (files.erase tempFilepath).insert filepath text)
  | .error what => (.error ("Failed to save DataStore state: " ++ what), files.erase tempFilepath)

end

def restoredData (d : SharedData) (now : ℤ) : SharedData :=
  ⟨d.id, .ofInt d.type.toInt, d.value, now, 0⟩

lemma tagged_restoredData (d : SharedData) (now : ℤ) :
    (restoredData d now).tagged = d.tagged := by
  rw [SharedData.tagged, restoredData, DataType.toInt_ofInt, SharedData.tagged]

def Keyed (s : DataStore) : Prop := ∀ key d, s.dataMap.lookup key = some d → d.id = key

def FiniteValues (s : DataStore) : Prop := ∀ key d, s.dataMap.lookup key = some d → d.value.Finite

/-- The call succeeded, and the store has exactly the saved keys of `s`, with their tags and
values. -/
def Restored (s : DataStore) (loaded : Except String Unit × DataStore) : Prop :=
  loaded.1 = .ok () ∧ ∀ key, (loaded.2.dataMap.lookup key).map SharedData.tagged =
    ((s.dataMap.lookup key).filter (·.value.saved)).map SharedData.tagged

section
variable {J : Type} {s s' : DataStore}

lemma Keyed.afterCall {c : StoreCall} (h : s.Keyed) (hc : s.afterCall c = some s') :
    s'.Keyed := by
  intro key d hd
  rcases afterCall_cases hc key with hnone | hsame | ⟨w, -, hid, -, hnew⟩
  · rw [hd] at hnone
    cases hnone
  · exact h key d (hsame ▸ hd)
  · rw [hd] at hnew
    cases hnew
    exact hid

lemma Keyed.loadItems (json : JsonLib J) (h : s.Keyed) (items : List J) (clock : ℕ → ℤ) :
    (loadItems json s items clock).2.Keyed := by
  induction items generalizing s clock with
  | nil => exact h
  | cons item items ih =>
    obtain ⟨what, hitem, -⟩ | ⟨id, type, valueType, value, -, -, -, hitem⟩ | ⟨hitem, -⟩ :=
      loadItem_cases json s item (clock 0)
    · simpa only [DataStore.loadItems, hitem] using h
    · simp only [DataStore.loadItems, hitem]
      refine ih (fun key d hd => ?_) _
      rcases lookup_insert_cases hd with ⟨rfl, rfl⟩ | ⟨-, hd⟩
      · rfl
      · exact h key d hd
    · simpa only [DataStore.loadItems, hitem] using ih h _

lemma Keyed.loadState (json : JsonLib J) (h : s.Keyed) (filepath : String)
    (contents : Option (List UInt8)) (clock : ℕ → ℤ) :
    (loadState json s filepath contents clock).2.Keyed := by
  unfold DataStore.loadState
  split
  · exact h
  · refine Keyed.loadItems json (fun key d hd => ?_) _ _
    cases hd

lemma keyed_of_run {calls : List StoreCall}
    (hrun : Run DataStore.afterCall (fun _ _ => True) {} calls s) : s.Keyed := by
  refine hrun.invariant Keyed (fun key d hd => ?_) fun _ _ _ h _ hc => h.afterCall hc
  cases hd

/-- Any calls, and loads of any files. -/
theorem keyed_after_loads (json : JsonLib J)
    (h : Relation.ReflTransGen (fun s s' : DataStore => (∃ c, s.afterCall c = some s') ∨
      ∃ filepath contents clock, s' = (loadState json s filepath contents clock).2) {} s) :
    s.Keyed := by
  induction h with
  | refl => exact fun _ _ hd => nomatch hd
  | tail _ hstep ih =>
    obtain ⟨c, hc⟩ | ⟨filepath, contents, clock, rfl⟩ := hstep
    · exact ih.afterCall hc
    · exact ih.loadState json filepath contents clock

theorem keyed_after_loads_one_item :
    (loadState (JsonValue.lib fun _ => .ok <| .object [("version", .integer 1), ("data", .array
      [.object [("id", .string "mode"), ("type", .integer 0), ("value_type", .string "int"),
        ("value", .integer 3)]])]) {} "state.json" (some []) fun _ => 0).2.Keyed :=
  keyed_after_loads _ (.single (.inr ⟨_, _, _, rfl⟩))

end

section
variable {J : Type} {json : JsonPrinter J} {d : SharedData} {s : DataStore}

lemma finite_itemObject {valueType : String} {value : J} (h : json.Finite value) :
    json.Finite (itemObject json d valueType value) := by
  refine json.finite_object ?_
  simp only [forall_mem_cons]
  exact ⟨json.finite_ofString _, json.finite_ofInt _, json.finite_ofString _, h, by simp⟩

lemma finite_valueField {v : AnyValue} {field : String × J} (h : v.Finite)
    (hfld : valueField json v = some field) : json.Finite field.2 := by
  cases v <;> cases hfld
  case int => exact json.finite_ofInt _
  case double => exact json.finite_ofDouble h
  case float => exact json.finite_ofFloat h
  case string => exact json.finite_ofString _
  case bool => exact json.finite_ofBool _
  case long => exact json.finite_ofLong _

lemma isSome_savedItem (json : JsonPrinter J) (d : SharedData) :
    (savedItem json d).isSome = d.value.saved := by
  rw [savedItem, isSome_map]
  cases d.value <;> rfl

lemma complete_itemObject (d : SharedData) (valueType : String) (value : J) :
    complete json.toJsonLib (itemObject json d valueType value) = true := by
  simp [complete, itemObject, json.contains_object, List.lookup]

lemma itemHeader_itemObject (d : SharedData) (valueType : String) (value : J) :
    itemHeader json.toJsonLib (itemObject json d valueType value) =
      .ok (d.id, .ofInt d.type.toInt, valueType) := by
  have hid : json.field (itemObject json d valueType value) "id" = json.ofString d.id :=
    json.field_object rfl
  have htype : json.field (itemObject json d valueType value) "type" = json.ofInt d.type.toInt :=
    json.field_object rfl
  have hvalueType : json.field (itemObject json d valueType value) "value_type" =
      json.ofString valueType := json.field_object rfl
  rw [itemHeader, hid, htype, hvalueType, json.getString_ofString, json.getInt_ofInt,
    json.getString_ofString]
  rfl

lemma itemValue_itemObject (d : SharedData) {v : AnyValue} {field : String × J} (h : v.Finite)
    (hfld : valueField json v = some field) :
    itemValue json.toJsonLib (itemObject json d field.1 field.2) field.1 = .ok (some v) := by
  have hvl : json.field (itemObject json d field.1 field.2) "value" = field.2 :=
    json.field_object rfl
  simp only [itemValue, hvl]
  cases v <;> cases hfld
  case int => rw [json.getInt_ofInt]; rfl
  case double => rw [json.getDouble_ofDouble h]; rfl
  case float => rw [json.getFloat_ofFloat h]; rfl
  case string => rw [json.getString_ofString]; rfl
  case bool => rw [json.getBool_ofBool]; rfl
  case long => rw [json.getLong_ofLong]; rfl

lemma loadItem_savedItem {j : J} (h : d.value.Finite) (hj : savedItem json d = some j)
    (s : DataStore) (now : ℤ) : loadItem json.toJsonLib s j now =
      .ok { s with dataMap := s.dataMap.insert d.id (restoredData d now) } := by
  rw [savedItem, map_eq_some_iff] at hj
  obtain ⟨field, hfld, rfl⟩ := hj
  rw [loadItem, if_pos (complete_itemObject ..), itemHeader_itemObject]
  simp only [bind, Except.bind, itemValue_itemObject d h hfld]
  rfl

lemma loadItems_savedItems (json : JsonPrinter J) {data : List SharedData}
    (hfinite : s.FiniteValues) (hdata : ∀ d ∈ data, s.dataMap.lookup d.id = some d)
    (s₀ : DataStore) (clock : ℕ → ℤ) :
    (loadItems json.toJsonLib s₀ (data.filterMap (savedItem json)) clock).1 = .ok () ∧
      ∀ key, ((loadItems json.toJsonLib s₀ (data.filterMap (savedItem json)) clock
          ).2.dataMap.lookup key).map SharedData.tagged =
        if ∃ d ∈ data, d.id = key ∧ d.value.saved = true then
          (s.dataMap.lookup key).map SharedData.tagged
        else (s₀.dataMap.lookup key).map SharedData.tagged := by
  induction data generalizing s₀ clock with
  | nil => simp [loadItems]
  | cons d data ih =>
    have hd := hdata d mem_cons_self
    have hrest : ∀ d ∈ data, s.dataMap.lookup d.id = some d :=
      fun d hd => hdata d (mem_cons_of_mem _ hd)
    have hsav := isSome_savedItem json d
    cases hj : savedItem json d with
    | none =>
      rw [hj] at hsav
      have hnot : d.value.saved = false := hsav.symm
      rw [filterMap_cons_none hj]
      simpa [hnot] using ih hrest s₀ clock
    | some j =>
      rw [hj] at hsav
      have hkept : d.value.saved = true := hsav.symm
      rw [filterMap_cons_some hj]
      simp only [loadItems, loadItem_savedItem (hfinite _ _ hd) hj]
      refine ⟨(ih hrest _ _).1, fun key => ?_⟩
      rw [(ih hrest _ _).2 key, lookup_insert_ite]
      by_cases hlat : ∃ d ∈ data, d.id = key ∧ d.value.saved = true
      · rw [if_pos hlat, if_pos (by simpa using Or.inr hlat)]
      · rw [if_neg hlat]
        by_cases hkey : key = d.id
        · subst hkey
          rw [if_pos rfl, if_pos ⟨d, mem_cons_self, rfl, hkept⟩, hd, map_some,
            tagged_restoredData, map_some]
        · rw [if_neg hkey, if_neg]
          rintro ⟨d', hmem, hid, hsav'⟩
          rcases mem_cons.mp hmem with rfl | hmem
          · exact hkey hid.symm
          · exact hlat ⟨d', hmem, hid, hsav'⟩

lemma readState_stateDocument {order : List String} {filepath : String} {text : List UInt8}
    (hprs : json.parse text = .ok (stateDocument json s order)) :
    readState json.toJsonLib filepath (some text) =
      .ok ((order.filterMap s.dataMap.lookup).filterMap (savedItem json)) := by
  have hver : json.field (stateDocument json s order) "version" = json.ofInt 1 :=
    json.field_object rfl
  have hdata : json.field (stateDocument json s order) "data" =
      json.array ((order.filterMap s.dataMap.lookup).filterMap (savedItem json)) :=
    json.field_object rfl
  have hcon : ∀ name ∈ ["version", "data"],
      json.contains (stateDocument json s order) name = true := by
    simp [stateDocument, json.contains_object, List.lookup]
  simp only [readState, hprs, hver, hdata, hcon "version" (by simp),
    hcon "data" (by simp), json.isNumberInteger_ofInt, json.isArray_array, json.getInt_ofInt,
    json.elements_array]
  rfl

lemma finite_stateDocument (hfinite : s.FiniteValues) (order : List String) :
    json.Finite (stateDocument json s order) := by
  refine json.finite_object ?_
  simp only [forall_mem_cons]
  refine ⟨json.finite_ofInt _, json.finite_array fun j hj => ?_, by simp⟩
  rw [mem_filterMap] at hj
  obtain ⟨d, hd, hj⟩ := hj
  obtain ⟨key, -, hlk⟩ := mem_filterMap.mp hd
  rw [savedItem, map_eq_some_iff] at hj
  obtain ⟨field, hfld, rfl⟩ := hj
  exact finite_itemObject (finite_valueField (hfinite key d hlk) hfld)

end

section
variable {J : Type} {json : JsonPrinter J} {s : DataStore} {order : List String} {files : Files}
  {filepath : String} {disk : DiskOutcome}

lemma dump_of_writeState {state : J} {tempFilepath : String} {text : List UInt8}
    (h : writeState json state tempFilepath disk = .ok text) : json.dump state = .ok text := by
  obtain ⟨opens, good, rename⟩ := disk
  unfold writeState at h
  cases opens with
  | false => cases h
  | true =>
    cases hdump : json.dump state with
    | error what =>
      rw [hdump] at h
      cases h
    | ok printed =>
      rw [hdump] at h
      cases good with
      | false => cases h
      | true =>
        cases rename with
        | error what => cases h
        | ok _ => exact h

lemma lookup_saveState (h : (saveState json s order files filepath disk).1 = .ok ()) :
    ∃ text, json.dump (stateDocument json s order) = .ok text ∧
      (saveState json s order files filepath disk).2.lookup filepath = some text := by
  unfold saveState at h ⊢
  dsimp only at h ⊢
  cases hwr : writeState json (stateDocument json s order) (filepath ++ ".tmp") disk with
  | error what =>
    rw [hwr] at h
    cases h
  | ok text => exact ⟨text, dump_of_writeState hwr, AList.lookup_insert _⟩

lemma saveState_of_finite (hfinite : s.FiniteValues) (order : List String) (files : Files)
    (filepath : String) :
    (saveState json s order files filepath ⟨true, true, .ok ()⟩).1 = .ok () := by
  obtain ⟨text, hdump, -⟩ := json.dump_finite (finite_stateDocument hfinite order)
  have hwr : writeState json (stateDocument json s order) (filepath ++ ".tmp")
      ⟨true, true, .ok ()⟩ = .ok text := by
    rw [writeState, hdump]
    rfl
  simp only [saveState, hwr]

lemma exists_saved_iff (hkeyed : s.Keyed) (horder : order.Perm s.dataMap.keys) (key : String) :
    (∃ d ∈ order.filterMap s.dataMap.lookup, d.id = key ∧ d.value.saved = true) ↔
      ∃ d, s.dataMap.lookup key = some d ∧ d.value.saved = true := by
  constructor
  · rintro ⟨d, hd, rfl, hsav⟩
    obtain ⟨key, -, hlk⟩ := mem_filterMap.mp hd
    rw [hkeyed key d hlk]
    exact ⟨d, hlk, hsav⟩
  · rintro ⟨d, hlk, hsav⟩
    have hkey : key ∈ order := by
      rw [horder.mem_iff, ← AList.mem_keys, ← AList.lookup_isSome, hlk]
      rfl
    exact ⟨d, mem_filterMap.mpr ⟨key, hkey, hlk⟩, hkeyed key d hlk, hsav⟩

lemma restored_of_parse (hkeyed : s.Keyed) (hfinite : s.FiniteValues)
    (horder : order.Perm s.dataMap.keys) {text : List UInt8}
    (hprs : json.parse text = .ok (stateDocument json s order)) (s₀ : DataStore)
    (clock : ℕ → ℤ) :
    s.Restored (loadState json.toJsonLib s₀ filepath (some text) clock) := by
  have hdata : ∀ d ∈ order.filterMap s.dataMap.lookup, s.dataMap.lookup d.id = some d := by
    intro d hd
    obtain ⟨key, -, hlk⟩ := mem_filterMap.mp hd
    rw [hkeyed key d hlk, hlk]
  obtain ⟨hok, hldd⟩ := loadItems_savedItems json hfinite hdata { s₀ with dataMap := ∅ } clock
  have hload : loadState json.toJsonLib s₀ filepath (some text) clock =
      loadItems json.toJsonLib { s₀ with dataMap := ∅ }
        ((order.filterMap s.dataMap.lookup).filterMap (savedItem json)) clock := by
    simp only [loadState, readState_stateDocument hprs]
  rw [hload]
  refine ⟨hok, fun key => ?_⟩
  rw [hldd key]
  split_ifs with hsav
  · obtain ⟨d, hlk, hsav⟩ := (exists_saved_iff hkeyed horder key).mp hsav
    rw [hlk, filter_some, if_pos hsav]
  · have hnone : (s.dataMap.lookup key).filter (·.value.saved) = none := by
      rw [filter_eq_none_iff]
      exact fun d hlk hd =>
        hsav ((exists_saved_iff hkeyed horder key).mpr ⟨d, hlk, hd⟩)
    rw [hnone]
    rfl

theorem restored_loadState_saveState (json : JsonPrinter J) (s : DataStore) (hkeyed : s.Keyed)
    (hfinite : s.FiniteValues) (order : List String) (horder : order.Perm s.dataMap.keys)
    (files : Files) (filepath : String) :
    (saveState json s order files filepath ⟨true, true, .ok ()⟩).1 = .ok () ∧
      ∀ disk, (saveState json s order files filepath disk).1 = .ok () → ∀ s₀ clock,
        s.Restored (loadState json.toJsonLib s₀ filepath
          ((saveState json s order files filepath disk).2.lookup filepath) clock) := by
  refine ⟨saveState_of_finite hfinite order files filepath, fun disk hsave s₀ clock => ?_⟩
  obtain ⟨text, hdump, hfile⟩ := lookup_saveState hsave
  obtain ⟨printed, hprin, hprs⟩ := json.dump_finite (finite_stateDocument hfinite order)
  rw [hdump] at hprin
  cases hprin
  rw [hfile]
  exact restored_of_parse hkeyed hfinite horder hprs s₀ clock

def sampleStore : DataStore where
  dataMap := AList.insert "speed" ⟨"speed", .para, .double 0x3FF0000000000000, 0, 0⟩
    (AList.insert "pose" ⟨"pose", .robotMode, .other "Pose" 0, 0, 0⟩ ∅)

lemma lookup_sampleStore {key : String} {d : SharedData}
    (h : sampleStore.dataMap.lookup key = some d) :
    d = ⟨"speed", .para, .double 0x3FF0000000000000, 0, 0⟩ ∧ key = "speed" ∨
      d = ⟨"pose", .robotMode, .other "Pose" 0, 0, 0⟩ ∧ key = "pose" := by
  rcases lookup_insert_cases h with ⟨hkey, hd⟩ | ⟨-, h⟩
  · exact .inl ⟨hd, hkey⟩
  · rcases lookup_insert_cases h with ⟨hkey, hd⟩ | ⟨-, h⟩
    · exact .inr ⟨hd, hkey⟩
    · cases h

theorem restored_loadState_saveState_sampleStore :
    (saveState JsonTree.printer sampleStore ["pose", "speed"] ∅ "state.json"
        ⟨true, true, .ok ()⟩).1 = .ok () ∧
      sampleStore.Restored (loadState JsonTree.printer.toJsonLib {} "state.json"
        ((saveState JsonTree.printer sampleStore ["pose", "speed"] ∅ "state.json"
          ⟨true, true, .ok ()⟩).2.lookup "state.json") fun _ => 0) := by
  have hkeyed : sampleStore.Keyed := by
    intro key d hd
    rcases lookup_sampleStore hd with ⟨rfl, rfl⟩ | ⟨rfl, rfl⟩
    · rfl
    · rfl
  have hfinite : sampleStore.FiniteValues := by
    intro key d hd
    rcases lookup_sampleStore hd with ⟨rfl, rfl⟩ | ⟨rfl, rfl⟩
    · change FiniteDouble _
      decide
    · trivial
  obtain ⟨hsave, hres⟩ := restored_loadState_saveState JsonTree.printer sampleStore hkeyed
    hfinite ["pose", "speed"] (List.Perm.swap _ _ _) ∅ "state.json"
  exact ⟨hsave, hres _ hsave {} fun _ => 0⟩

end
end DataStore
end Mxrc.Datastore
