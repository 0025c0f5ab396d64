import Mxrc.Datastore.DataStore
import Mxrc.Lib.Runs

/-!
# Types of stored values

`set` compares the `DataType` and the C++ type of a new value with those of the
stored one and throws if they differ. `setVersioned` makes no such comparison.
So types are stable in exactly the runs in which every `setVersioned` of a
stored key has its types.
-/

namespace Mxrc.Datastore
open Mxrc.Lib

def SharedData.types (d : SharedData) : DataType × TypeId := (d.type, d.value.type)

inductive StoreCall
  | write (w : StoreWrite)
  | get (id : String) (type : TypeId)
  | poll (id : String) (type : TypeId)
  | cleanExpiredData (now : ℤ)

namespace DataStore

def call (s : DataStore) : StoreCall → Except String DataStore
  | .write w => s.write w
  | .get id type => (s.get id type).map Prod.snd
  | .poll id type => (s.poll id type).map Prod.snd
  | .cleanExpiredData now => .ok (s.cleanExpiredData now)

def afterCall (s : DataStore) (c : StoreCall) : Option DataStore :=
  match s.call c with
  | .ok s' => some s'
  | .error _ => some s

def Stored (s : DataStore) (id : String) : Prop := (s.dataMap.lookup id).isSome = true

def entry (s : DataStore) (id : String) : Option SharedData × UInt64 × Option ℤ :=
  (s.dataMap.lookup id, s.version id, s.expirationManager.keyToExpiration.lookup id)

def Mismatch (s : DataStore) (w : StoreWrite) : Prop :=
  ∃ d, s.dataMap.lookup w.id = some d ∧ d.types ≠ w.newData.types

def Rejects (s : DataStore) : StoreCall → Prop
  | .write w => s.Mismatch w → (s.write w).isOk = false ∧
      ∀ s', s.afterCall (.write w) = some s' → s'.entry w.id = s.entry w.id
  | _ => True

def SameTypes (s : DataStore) : StoreCall → Prop
  | .write (.setVersioned id value type now) => ¬s.Mismatch (.setVersioned id value type now)
  | _ => True

/-- While a key is stored its types do not change, and writes with other types are rejected. -/
def TypesStable (calls : List StoreCall) : Prop :=
  (∀ calls₁ calls₂ calls₃ s s' id d d', calls = calls₁ ++ calls₂ ++ calls₃ →
    Run afterCall (fun _ _ => True) {} calls₁ s → Run afterCall (fun _ _ => True) s calls₂ s' →
    Throughout afterCall (fun s => s.Stored id) s calls₂ →
    s.dataMap.lookup id = some d → s'.dataMap.lookup id = some d' → d'.types = d.types) ∧
  EveryStep afterCall Rejects {} calls

variable {s s' : DataStore} {id : String}

lemma lookup_foldl_erasing {f : DataStore → String → DataStore}
    (hf : ∀ s key, (f s key).dataMap = s.dataMap.erase key) (keys : List String) :
    (keys.foldl f s).dataMap.lookup id =
      if id ∈ keys then none else s.dataMap.lookup id := by
  have hmap : (keys.foldl f s).dataMap = keys.foldl (fun m key => m.erase key) s.dataMap := by
    induction keys generalizing s with
    | nil => rfl
    | cons key keys ih => rw [List.foldl_cons, List.foldl_cons, ih, hf]
  rw [hmap, lookup_foldl_erase]

lemma lookup_cleanExpiredData_cases (s : DataStore) (now : ℤ) (id : String) :
    (s.cleanExpiredData now).dataMap.lookup id = none ∨
      (s.cleanExpiredData now).dataMap.lookup id = s.dataMap.lookup id := by
  simp only [cleanExpiredData]
  rw [lookup_foldl_erasing (fun _ _ => rfl)]
  split_ifs
  · exact .inl rfl
  · dsimp only
    rw [lookup_foldl_erasing (fun _ _ => rfl)]
    split_ifs
    · exact .inl rfl
    · exact .inr rfl

lemma dataMap_get {type : TypeId} (h : (s.get id type).map Prod.snd = .ok s') :
    s'.dataMap = s.dataMap := by
  unfold get at h
  split at h
  · cases h
  · split_ifs at h
    · cases h
    · cases h
      rfl

lemma store_eq_error_of_types_ne {newData d : SharedData}
    (hlk : s.dataMap.lookup newData.id = some d) (hne : d.types ≠ newData.types) :
    ∃ what, s.store newData = .error what := by
  unfold store
  rw [hlk]
  dsimp only
  split_ifs with htype hvl
  · exact ⟨_, rfl⟩
  · exact ⟨_, rfl⟩
  · refine absurd (Prod.ext ?_ ?_) hne
    · exact not_not.mp htype
    · exact not_not.mp hvl

lemma set_eq_error {data : AnyValue} {type : DataType} {policy : DataExpirationPolicy} {now : ℤ}
    (h : s.Mismatch (.set id data type policy now)) :
    ∃ what, s.set id data type policy now = .error what := by
  obtain ⟨d, hlk, hne⟩ := h
  have hstr : ∃ what, s.store (newData id data type policy now) = .error what :=
    store_eq_error_of_types_ne hlk hne
  obtain ⟨what, hwhat⟩ := hstr
  refine ⟨what, ?_⟩
  rw [set, hwhat]
  rfl

lemma lookup_write {w : StoreWrite} (h : s.write w = .ok s') (id : String) :
    s'.dataMap.lookup id = if id = w.id then some w.newData else s.dataMap.lookup id := by
  cases w with
  | set id' data type policy now =>
    rw [set_eq_ok h, dataMap_applyPolicy]
    exact lookup_insert_ite ..
  | setVersioned id' value type now =>
    cases h
    exact lookup_insert_ite ..

lemma afterCall_cases {c : StoreCall} (h : s.afterCall c = some s') (id : String) :
    s'.dataMap.lookup id = none ∨ s'.dataMap.lookup id = s.dataMap.lookup id ∨
      ∃ w, c = .write w ∧ w.id = id ∧ s.write w = .ok s' ∧
        s'.dataMap.lookup id = some w.newData := by
  unfold afterCall at h
  split at h
  · rename_i s₁ hcall
    cases h
    cases c with
    | write w =>
      have hlk := lookup_write hcall id
      split_ifs at hlk with hid
      · exact .inr (.inr ⟨w, rfl, hid.symm, hcall, hlk⟩)
      · exact .inr (.inl hlk)
    | get key type =>
      exact .inr (.inl (congrArg _ (dataMap_get hcall)))
    | poll key type =>
      exact .inr (.inl (congrArg _ (dataMap_get hcall)))
    | cleanExpiredData now =>
      cases hcall
      rcases lookup_cleanExpiredData_cases s now id with hnone | hsame
      · exact .inl hnone
      · exact .inr (.inl hsame)
  · cases h
    exact .inr (.inl rfl)

lemma not_mismatch_of_write {w : StoreWrite} (hw : s.SameTypes (.write w))
    (h : s.write w = .ok s') : ¬s.Mismatch w := by
  cases w with
  | set id data type policy now =>
    intro hmis
    obtain ⟨what, hwhat⟩ := set_eq_error hmis
    have hok : s.set id data type policy now = .ok s' := h
    rw [hwhat] at hok
    cases hok
  | setVersioned id value type now => exact hw

lemma types_afterCall {c : StoreCall} (hc : s.SameTypes c) (h : s.afterCall c = some s')
    {d d' : SharedData} (hd : s.dataMap.lookup id = some d) (hd' : s'.dataMap.lookup id = some d') :
    d'.types = d.types := by
  rcases afterCall_cases h id with hnone | hsame | ⟨w, rfl, rfl, hwr, hnew⟩
  · rw [hd'] at hnone
    cases hnone
  · rw [hd', hd] at hsame
    cases hsame
    rfl
  · rw [hd'] at hnew
    cases hnew
    by_contra hne
    exact not_mismatch_of_write hc hwr ⟨d, hd, Ne.symm hne⟩

lemma rejects_iff_sameTypes (s : DataStore) (c : StoreCall) : s.Rejects c ↔ s.SameTypes c := by
  cases c with
  | write w =>
    cases w with
    | set id data type policy now =>
      refine iff_of_true (fun hmis => ?_) trivial
      obtain ⟨what, hwhat⟩ := set_eq_error hmis
      have herr : s.write (.set id data type policy now) = .error what := hwhat
      refine ⟨by rw [herr]; rfl, fun s' hs' => ?_⟩
      simp only [afterCall, call, herr] at hs'
      cases hs'
      rfl
    | setVersioned id value type now =>
      constructor
      · intro hrej hmis
        have hthr := (hrej hmis).1
        cases hthr
      · intro hsame hmis
        exact absurd hmis hsame
  | get id type => exact Iff.rfl
  | poll id type => exact Iff.rfl
  | cleanExpiredData now => exact Iff.rfl

lemma types_of_run {calls : List StoreCall} {d d' : SharedData}
    (hrun : Run afterCall SameTypes s calls s')
    (hsto : Throughout afterCall (fun s => s.Stored id) s calls)
    (hd : s.dataMap.lookup id = some d) (hd' : s'.dataMap.lookup id = some d') :
    d'.types = d.types := by
  induction hrun generalizing d' with
  | nil =>
    rw [hd] at hd'
    cases hd'
    rfl
  | snoc hrun hsame hn ih =>
    have hbef : Throughout afterCall (fun s => s.Stored id) s _ :=
      fun calls₁ s₁ hle => hsto calls₁ s₁ (hle.trans (List.prefix_append _ _))
    have hmid := hsto _ _ (List.prefix_append _ _) (hrun.weaken fun _ _ _ => trivial)
    obtain ⟨d₁, hd₁⟩ := Option.isSome_iff_exists.mp hmid
    rw [types_afterCall hsame hn hd₁ hd', ih hbef hd₁]

theorem typesStable_iff (calls : List StoreCall) :
    TypesStable calls ↔ EveryStep afterCall SameTypes {} calls := by
  have hrej : EveryStep afterCall Rejects {} calls ↔ EveryStep afterCall SameTypes {} calls :=
    everyStep_congr (I := fun _ => True) trivial fun s c s' _ _ =>
      ⟨rejects_iff_sameTypes s c, fun _ => trivial⟩
  refine ⟨fun h => hrej.mp h.2, fun hsame => ⟨?_, hrej.mpr hsame⟩⟩
  rintro calls₁ calls₂ calls₃ s s' id d d' rfl hrun hpart hsto hd hd'
  have hboth := (hrun.append hpart).everyStep_iff.mp hsame.left
  obtain ⟨mid, hmid, hpart'⟩ := hboth.split
  cases hrun.deterministic hmid
  exact types_of_run hpart' hsto hd hd'

/-- `setVersioned<double>` replaces an `int`. -/
theorem not_typesStable : ¬ ∀ calls, TypesStable calls := by
  intro hall
  let first : StoreWrite := .set "speed" (.int 3) .robotMode ⟨.none, 0⟩ 0
  let second : StoreWrite := .setVersioned "speed" (.double 0) .robotMode 1
  have hrun : Run afterCall (fun _ _ => True) {} [.write first] _ := .single trivial rfl
  have hrej := (hall [.write first, .write second]).2 [.write first] (.write second) [] _ _ rfl
    hrun rfl
  obtain ⟨hthr, -⟩ := hrej ⟨_, rfl, by decide⟩
  cases hthr

end DataStore
end Mxrc.Datastore
