import Mxrc.Datastore.ExpirationManager
import Mxrc.Lib.Json

/-!
# The data store

Each block that holds an accessor of a hash map is one operation. `loadState`
casts any integer to `DataType`, so values without a name are values too. Times
are nanoseconds since the epoch. Observers, access policies, metrics and logs
are left out.
-/

namespace Mxrc.Datastore
open Mxrc.Lib

inductive DataType
  | robotMode
  | interfaceData
  | config
  | para
  | alarm
  | event
  | missionState
  | taskState
  | other (value : Int32)
deriving DecidableEq

def DataType.ofInt (value : Int32) : DataType :=
  if value = 0 then .robotMode
  else if value = 1 then .interfaceData
  else if value = 2 then .config
  else if value = 3 then .para
  else if value = 4 then .alarm
  else if value = 5 then .event
  else if value = 6 then .missionState
  else if value = 7 then .taskState
  else .other value

inductive TypeId
  | int
  | double
  | float
  | string
  | bool
  | long
  | other (name : String)
deriving DecidableEq

def TypeId.name : TypeId → String
  | .int => "i"
  | .double => "d"
  | .float => "f"
  | .string => "NSt7__cxx1112basic_stringIcSt11char_traitsIcESaIcEEE"
  | .bool => "b"
  | .long => "l"
  | .other name => name

/-- The contents of a `std::any`; an object of another type is known by its type and a code of its
state. -/
inductive AnyValue
  | int (value : Int32)
  | double (bits : UInt64)
  | float (bits : UInt32)
  | string (value : String)
  | bool (value : Bool)
  | long (value : Int64)
  | other (name : String) (state : ℕ)
deriving DecidableEq

def AnyValue.type : AnyValue → TypeId
  | .int _ => .int
  | .double _ => .double
  | .float _ => .float
  | .string _ => .string
  | .bool _ => .bool
  | .long _ => .long
  | .other name _ => .other name

structure SharedData where
  id : String
  type : DataType
  value : AnyValue
  timestamp : ℤ
  expirationTime : ℤ
deriving DecidableEq

inductive ExpirationPolicyType
  | ttl
  | lru
  | none
deriving DecidableEq

/-- The duration is in milliseconds; for LRU it is the capacity. -/
structure DataExpirationPolicy where
  policyType : ExpirationPolicyType
  duration : Int64
deriving DecidableEq

def DataExpirationPolicy.expiresAt (policy : DataExpirationPolicy) (now : ℤ) : ℤ :=
  now + policy.duration.toInt * 1000000

structure DataStore where
  dataMap : AList (fun _ : String => SharedData) := ∅
  versionMap : AList (fun _ : String => UInt64) := ∅
  expirationManager : ExpirationManager := {}

namespace DataStore

def store (s : DataStore) (newData : SharedData) : Except String DataStore :=
  match s.dataMap.lookup newData.id with
  | some old =>
    if old.type ≠ newData.type then
      .error ("Data type mismatch for existing ID: " ++ newData.id)
    else if old.value.type ≠ newData.value.type then
      .error ("Value type mismatch for existing ID: " ++ newData.id ++ " (expected: " ++
        old.value.type.name ++ ", got: " ++ newData.value.type.name ++ ")")
    else .ok { s with dataMap := s.dataMap.insert newData.id newData }
  | none => .ok { s with dataMap := s.dataMap.insert newData.id newData }

def newData (id : String) (data : AnyValue) (type : DataType) (policy : DataExpirationPolicy)
    (now : ℤ) : SharedData where
  id := id
  type := type
  value := data
  timestamp := now
  expirationTime := if policy.policyType = .ttl then policy.expiresAt now else 0

def applyPolicy (s : DataStore) (id : String) (policy : DataExpirationPolicy) (now : ℤ) :
    DataStore :=
  match policy.policyType with
  | .ttl => { s with
      expirationManager := s.expirationManager.applyPolicy id (policy.expiresAt now) }
  | .lru => { s with
      expirationManager := s.expirationManager.applyLRUPolicy id policy.duration.toUInt64.toNat }
  | .none => s

def set (s : DataStore) (id : String) (data : AnyValue) (type : DataType)
    (policy : DataExpirationPolicy) (now : ℤ) : Except String DataStore := do
  let s ← s.store (newData id data type policy now)
  return s.applyPolicy id policy now

/-- `get<T>` for the type with this id; a value found counts as an access. -/
def get (s : DataStore) (id : String) (type : TypeId) : Except String (AnyValue × DataStore) :=
  match s.dataMap.lookup id with
  | none => .error ("Data not found for ID: " ++ id)
  | some stored =>
    if stored.value.type ≠ type then .error ("Type mismatch for ID: " ++ id)
    else .ok (stored.value, { s with expirationManager := s.expirationManager.recordAccess id })

def storeVersioned (s : DataStore) (id : String) (value : AnyValue) (type : DataType) (now : ℤ) :
    DataStore :=
  { s with dataMap := s.dataMap.insert id ⟨id, type, value, now, 0⟩ }

def version (s : DataStore) (id : String) : UInt64 := (s.versionMap.lookup id).getD 0

def advanceVersion (s : DataStore) (id : String) : DataStore :=
  { s with versionMap := match s.versionMap.lookup id with
      | none => s.versionMap.insert id 1
      | some version => s.versionMap.insert id (version + 1) }

def setVersioned (s : DataStore) (id : String) (value : AnyValue) (type : DataType) (now : ℤ) :
    DataStore :=
  (s.storeVersioned id value type now).advanceVersion id

def poll (s : DataStore) (id : String) (type : TypeId) : Except String (AnyValue × DataStore) :=
  s.get id type

lemma version_advanceVersion (s : DataStore) (id id' : String) :
    (s.advanceVersion id).version id' = if id' = id then s.version id + 1 else s.version id' := by
  by_cases hid : id' = id
  · subst hid
    rw [if_pos rfl, version, version, advanceVersion]
    cases hlk : s.versionMap.lookup id' with
    | none => simp
    | some version => simp
  · rw [if_neg hid, version, version, advanceVersion]
    cases hlk : s.versionMap.lookup id with
    | none => simp [AList.lookup_insert_ne hid]
    | some version => simp [AList.lookup_insert_ne hid]

lemma dataMap_applyPolicy (s : DataStore) (id : String) (policy : DataExpirationPolicy)
    (now : ℤ) : (s.applyPolicy id policy now).dataMap = s.dataMap := by
  unfold applyPolicy
  split <;> rfl

lemma version_applyPolicy (s : DataStore) (id id' : String) (policy : DataExpirationPolicy)
    (now : ℤ) : (s.applyPolicy id policy now).version id' = s.version id' := by
  unfold applyPolicy
  split <;> rfl

lemma store_eq_ok {s s' : DataStore} {newData : SharedData} (h : s.store newData = .ok s') :
    s' = { s with dataMap := s.dataMap.insert newData.id newData } := by
  unfold store at h
  split at h
  · split_ifs at h
    cases h
    rfl
  · cases h
    rfl

lemma set_eq_ok {s s' : DataStore} {id : String} {data : AnyValue} {type : DataType}
    {policy : DataExpirationPolicy} {now : ℤ} (hset : s.set id data type policy now = .ok s') :
    s' = { s with dataMap := s.dataMap.insert id (newData id data type policy now)
      }.applyPolicy id policy now := by
  unfold set at hset
  cases hstr : s.store (newData id data type policy now) with
  | error what => simp [hstr, bind, Except.bind] at hset
  | ok s₁ =>
    rw [hstr] at hset
    cases hset
    rw [store_eq_ok hstr]
    rfl

end DataStore

inductive StoreWrite
  | set (id : String) (data : AnyValue) (type : DataType) (policy : DataExpirationPolicy) (now : ℤ)
  | setVersioned (id : String) (value : AnyValue) (type : DataType) (now : ℤ)

namespace StoreWrite

def newData : StoreWrite → SharedData
  | .set id data type policy now => DataStore.newData id data type policy now
  | .setVersioned id value type now => ⟨id, type, value, now, 0⟩

def id (w : StoreWrite) : String := w.newData.id

end StoreWrite

namespace DataStore

def write (s : DataStore) : StoreWrite → Except String DataStore
  | .set id data type policy now => s.set id data type policy now
  | .setVersioned id value type now => .ok (s.setVersioned id value type now)

def readValue (s : DataStore) (id : String) (type : TypeId) : Except String SharedData :=
  match s.dataMap.lookup id with
  | none => .error ("DataStore::getVersioned: Key not found: " ++ id)
  | some stored => if stored.value.type ≠ type then .error "bad any_cast" else .ok stored

lemma readValue_eq_ok {s : DataStore} {id : String} {type : TypeId} {stored : SharedData}
    (h : s.readValue id type = .ok stored) :
    s.dataMap.lookup id = some stored ∧ stored.value.type = type := by
  unfold readValue at h
  split at h
  · cases h
  · rename_i hlk
    split_ifs at h with htype
    cases h
    exact ⟨hlk, not_not.mp htype⟩

def applyExpirationPolicy (s : DataStore) (id : String) (policy : DataExpirationPolicy) (now : ℤ) :
    DataStore :=
  { s with expirationManager := s.expirationManager.applyPolicy id (policy.expiresAt now) }

def removeExpirationPolicy (s : DataStore) (id : String) : DataStore :=
  { s with expirationManager := s.expirationManager.removePolicy id }

def eraseExpired (s : DataStore) (key : String) : DataStore :=
  { s with
    dataMap := s.dataMap.erase key
    expirationManager := (s.expirationManager.removePolicy key).removeLRUPolicy key }

def eraseEvicted (s : DataStore) (key : String) : DataStore :=
  { s with
    dataMap := s.dataMap.erase key
    expirationManager := s.expirationManager.removePolicy key }

def cleanExpiredData (s : DataStore) (now : ℤ) : DataStore :=
  let s := (s.expirationManager.getExpiredKeys now).foldl eraseExpired s
  let (keys, expirationManager) := s.expirationManager.getExpiredKeysLRU
  keys.foldl eraseEvicted { s with expirationManager }

section
variable {J : Type} (json : JsonLib J)

def readState (filepath : String) (contents : Option (List UInt8)) : Except String (List J) :=
  match contents with
  | none => .error ("Failed to open file for loading state: " ++ filepath)
  | some bytes =>
    match json.parse bytes with
    | .error (.parseError what) => .error ("Failed to parse JSON file: " ++ what)
    | .error (.other what) => .error what
    | .ok state =>
      if !json.contains state "version" || !json.isNumberInteger (json.field state "version") then
        .error "Invalid or missing version in state file"
      else do
        let version ← json.getInt (json.field state "version")
        if version ≠ 1 then
          .error ("Unsupported state file version: " ++ toString version.toInt)
        else if !json.contains state "data" || !json.isArray (json.field state "data") then
          .error "Invalid or missing data array in state file"
        else return json.elements (json.field state "data")

/-- The value of an item; an unknown type is `none`, and an exception is caught by the caller. -/
def itemValue (item : J) (valueType : String) : Except String (Option AnyValue) :=
  let value := json.field item "value"
  if valueType = "int" then return some (.int (← json.getInt value))
  else if valueType = "double" then return some (.double (← json.getDouble value))
  else if valueType = "float" then return some (.float (← json.getFloat value))
  else if valueType = "string" then return some (.string (← json.getString value))
  else if valueType = "bool" then return some (.bool (← json.getBool value))
  else if valueType = "long" then return some (.long (← json.getLong value))
  else return none

def complete (item : J) : Bool :=
  json.contains item "id" && json.contains item "type" && json.contains item "value_type" &&
    json.contains item "value"

def itemHeader (item : J) : Except String (String × DataType × String) := do
  let id ← json.getString (json.field item "id")
  let type ← json.getInt (json.field item "type")
  let valueType ← json.getString (json.field item "value_type")
  return (id, DataType.ofInt type, valueType)

def loadItem (s : DataStore) (item : J) (now : ℤ) : Except String DataStore :=
  if complete json item then do
    let (id, type, valueType) ← itemHeader json item
    match itemValue json item valueType with
    | .ok (some value) =>
      return { s with dataMap := s.dataMap.insert id ⟨id, type, value, now, 0⟩ }
    | .ok none => return s
    | .error _ => return s
  else return s

def loadItems (s : DataStore) : List J → (ℕ → ℤ) → Except String Unit × DataStore
  | [], _ => (.ok (), s)
  | item :: items, clock =>
    match loadItem json s item (clock 0) with
    | .error what => (.error what, s)
    | .ok s => loadItems s items fun i => clock (i + 1)

def loadState (s : DataStore) (filepath : String) (contents : Option (List UInt8))
    (clock : ℕ → ℤ) : Except String Unit × DataStore :=
  match readState json filepath contents with
  | .error what => (.error what, s)
  | .ok items => loadItems json { s with dataMap := ∅ } items clock

end
end DataStore
end Mxrc.Datastore
