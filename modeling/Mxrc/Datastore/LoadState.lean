import Mxrc.Datastore.DataStore

/-!
# Loading a saved state

`loadState` checks the whole document, clears the store and then converts the
items one by one. A faulty item is skipped, but an `id`, a `type` or a
`value_type` that cannot be converted ends the call with an exception, after the
old contents are gone.
-/

namespace Mxrc.Datastore.DataStore
open Mxrc.Lib
variable {J : Type} (json : JsonLib J)

def loadedIds : List J → List String
  | [] => []
  | item :: items =>
    if complete json item then
      match itemHeader json item with
      | .error _ => []
      | .ok (id, _, valueType) =>
        match itemValue json item valueType with
        | .ok (some _) => id :: loadedIds items
        | .ok none => loadedIds items
        | .error _ => loadedIds items
    else loadedIds items

def Convertible (item : J) : Prop :=
  complete json item = true → (itemHeader json item).isOk = true

instance (item : J) : Decidable (Convertible json item) :=
  inferInstanceAs (Decidable (_ → _))

def AllOrNothing (filepath : String) (contents : Option (List UInt8)) : Prop :=
  ∀ s clock, (loadState json s filepath contents clock).1.isOk = false →
    (∀ id, (loadState json s filepath contents clock).2.dataMap.lookup id = s.dataMap.lookup id) ∧
      (loadState json s filepath contents clock).2.expirationManager = s.expirationManager

variable {json} {s s' : DataStore} {item : J} {items : List J} {now : ℤ} {clock : ℕ → ℤ}

lemma loadItem_cases (json : JsonLib J) (s : DataStore) (item : J) (now : ℤ) :
    (∃ what, loadItem json s item now = .error what ∧ complete json item = true ∧
      itemHeader json item = .error what) ∨
    (∃ id type valueType value, complete json item = true ∧
      itemHeader json item = .ok (id, type, valueType) ∧
      itemValue json item valueType = .ok (some value) ∧
      loadItem json s item now =
        .ok { s with dataMap := s.dataMap.insert id ⟨id, type, value, now, 0⟩ }) ∨
    (loadItem json s item now = .ok s ∧ Convertible json item ∧
      ∀ items, loadedIds json (item :: items) = loadedIds json items) := by
  by_cases hcom : complete json item = true
  · cases hhead : itemHeader json item with
    | error what =>
      exact .inl ⟨what, by simp [loadItem, hcom, hhead, bind, Except.bind], hcom, rfl⟩
    | ok header =>
      obtain ⟨id, type, valueType⟩ := header
      right
      rcases hvl : itemValue json item valueType with what | _ | value
      · right
        simp [loadItem, loadedIds, Convertible, hcom, hhead, hvl, bind, Except.bind, pure,
          Except.pure, Except.isOk, Except.toBool]
      · right
        simp [loadItem, loadedIds, Convertible, hcom, hhead, hvl, bind, Except.bind, pure,
          Except.pure, Except.isOk, Except.toBool]
      · left
        exact ⟨id, type, valueType, value, hcom, rfl, hvl,
          by simp [loadItem, hcom, hhead, hvl, bind, Except.bind, pure, Except.pure]⟩
  · right; right
    simp [loadItem, loadedIds, Convertible, hcom, pure, Except.pure]

lemma isOk_loadItems : (loadItems json s items clock).1.isOk = true ↔
    ∀ item ∈ items, Convertible json item := by
  induction items generalizing s clock with
  | nil => simp [loadItems, Except.isOk, Except.toBool]
  | cons item items ih =>
    rw [List.forall_mem_cons]
    obtain ⟨what, hitem, hcom, hhead⟩ |
      ⟨id, type, valueType, value, hcom, hhead, hvl, hitem⟩ | ⟨hitem, hconv, -⟩ :=
      loadItem_cases json s item (clock 0)
    · simp [loadItems, hitem, Convertible, hcom, hhead, Except.isOk, Except.toBool]
    · have hconv : Convertible json item := fun _ => by simp [hhead, Except.isOk, Except.toBool]
      simp only [loadItems, hitem, ih, hconv, true_and]
    · simp only [loadItems, hitem, ih, hconv, true_and]

lemma isSome_lookup_loadItems (id : String) :
    ((loadItems json s items clock).2.dataMap.lookup id).isSome = true ↔
      (s.dataMap.lookup id).isSome = true ∨ id ∈ loadedIds json items := by
  induction items generalizing s clock with
  | nil => simp [loadItems, loadedIds]
  | cons item items ih =>
    obtain ⟨what, hitem, hcom, hhead⟩ |
      ⟨id', type, valueType, value, hcom, hhead, hvl, hitem⟩ | ⟨hitem, -, hids⟩ :=
      loadItem_cases json s item (clock 0)
    · simp [loadItems, hitem, loadedIds, hcom, hhead]
    · simp only [loadItems, hitem, ih, loadedIds, hcom, hhead, hvl, if_true, List.mem_cons]
      by_cases hid : id = id'
      · subst hid
        simp
      · simp [hid, AList.lookup_insert_ne hid]
    · simp only [loadItems, hitem, ih, hids]

lemma expirationManager_loadItems :
    (loadItems json s items clock).2.expirationManager = s.expirationManager := by
  induction items generalizing s clock with
  | nil => rfl
  | cons item items ih =>
    obtain ⟨what, hitem, -⟩ | ⟨_, _, _, _, -, -, -, hitem⟩ | ⟨hitem, -⟩ :=
      loadItem_cases json s item (clock 0)
    · simp only [loadItems, hitem]
    · simp only [loadItems, hitem, ih]
    · simp only [loadItems, hitem, ih]

theorem allOrNothing_iff (json : JsonLib J) (filepath : String) (contents : Option (List UInt8)) :
    AllOrNothing json filepath contents ↔
      ∀ items, readState json filepath contents = .ok items →
        ∀ item ∈ items, Convertible json item := by
  constructor
  · intro hall items hread
    by_contra htms
    have hload : ∀ s, loadState json s filepath contents (fun _ => 0) =
        loadItems json { s with dataMap := ∅ } items fun _ => 0 := fun s => by
      simp only [loadState, hread]
    have hfls : ∀ s, (loadItems json s items fun _ => 0).1.isOk = false := fun s => by
      rw [← Bool.not_eq_true, isOk_loadItems]
      exact htms
    let stored : SharedData := ⟨"", .robotMode, .int 0, 0, 0⟩
    obtain ⟨hemp, -⟩ := hall {} (fun _ => 0) (by rw [hload]; exact hfls _)
    obtain ⟨hfull, -⟩ := hall { dataMap := AList.insert "" stored ∅ } (fun _ => 0)
      (by rw [hload]; exact hfls _)
    have hlost := hfull ""
    rw [AList.lookup_insert, hload] at hlost
    have hnot := hemp ""
    rw [hload, hlost] at hnot
    cases hnot
  · intro htms s clock hfls
    cases hread : readState json filepath contents with
    | error what => simp [loadState, hread]
    | ok items =>
      have hok : (loadItems json { s with dataMap := ∅ } items clock).1.isOk = true :=
        isOk_loadItems.mpr (htms items hread)
      simp [loadState, hread, hok] at hfls

/-- The first item is in order, and the `id` of the second one is a number. -/
theorem not_allOrNothing : ¬ ∀ (J : Type) (json : JsonLib J) (filepath : String)
    (contents : Option (List UInt8)), AllOrNothing json filepath contents := by
  intro hall
  let item (id : JsonValue) : JsonValue := .object
    [("id", id), ("type", .integer 0), ("value_type", .string "int"), ("value", .integer 3)]
  let json := JsonValue.lib fun _ => .ok <| .object
    [("version", .integer 1), ("data", .array [item (.string "mode"), item (.integer 7)])]
  let s : DataStore := { dataMap := AList.insert "pose" ⟨"pose", .robotMode, .int 5, 0, 0⟩ ∅ }
  have hload : loadState json s "state.json" (some []) (fun _ => 0) =
      (.error "[json.exception.type_error.302] type must be string, but is number",
        { dataMap := AList.insert "mode" ⟨"mode", .robotMode, .int 3, 0, 0⟩ ∅ }) := rfl
  obtain ⟨hkept, -⟩ := hall JsonValue json "state.json" (some []) s (fun _ => 0)
    (by rw [hload]; rfl)
  have hpose := hkept "pose"
  rw [hload, AList.lookup_insert] at hpose
  cases hpose

end Mxrc.Datastore.DataStore
