import Mxrc.Datastore.LoadState
import Mxrc.Lib.Runs

/-!
# Expiration of stored data

A history has the store and, for each key, the expiration time that its last
write carried. A `set` without a TTL and `loadState` leave an old policy in
place, and the two policy calls are no writes.
-/

namespace Mxrc.Datastore
open Mxrc.Lib

namespace DataStore
variable {s : DataStore} {id : String} {now : ℤ}

lemma foldl_eraseExpired (h : s.expirationManager.TtlOnly) (keys : List String) :
    (keys.foldl eraseExpired s).expirationManager.TtlOnly ∧
      ∀ id, (keys.foldl eraseExpired s).dataMap.lookup id =
          (if id ∈ keys then none else s.dataMap.lookup id) ∧
        (keys.foldl eraseExpired s).expirationManager.keyToExpiration.lookup id =
          if id ∈ keys then none else s.expirationManager.keyToExpiration.lookup id := by
  induction keys generalizing s with
  | nil => exact ⟨h, fun id => by simp⟩
  | cons key keys ih =>
    have hrnd : (s.eraseExpired key).expirationManager = s.expirationManager.removePolicy key :=
      h.removePolicy.removeLRUPolicy
    obtain ⟨httl, hlk⟩ := ih (s := s.eraseExpired key) (hrnd ▸ h.removePolicy)
    refine ⟨httl, fun id => ?_⟩
    obtain ⟨hdata, hpol⟩ := hlk id
    rw [List.foldl_cons, hdata, hpol, hrnd]
    by_cases hkey : id = key
    · subst hkey
      simp [eraseExpired]
    · simp [hkey, eraseExpired, AList.lookup_erase_ne hkey]

lemma cleanExpiredData_eq (h : s.expirationManager.TtlOnly) :
    s.cleanExpiredData now = (s.expirationManager.getExpiredKeys now).foldl eraseExpired s := by
  have hlru := (foldl_eraseExpired h (s.expirationManager.getExpiredKeys now)).1.getExpiredKeysLRU
  simp only [cleanExpiredData, hlru, List.foldl_nil]

lemma lookup_cleanExpiredData (h : s.expirationManager.TtlOnly)
    (hsto : (s.dataMap.lookup id).isSome = true) :
    (s.cleanExpiredData now).dataMap.lookup id = none ↔
      ∃ time ≤ now, s.expirationManager.keyToExpiration.lookup id = some time := by
  rw [cleanExpiredData_eq h, ((foldl_eraseExpired h _).2 id).1,
    ← ExpirationManager.mem_getExpiredKeys h.toAgrees]
  split_ifs with hmem
  · simp [hmem]
  · simp [hmem, Option.isSome_iff_ne_none.mp hsto]

end DataStore

/-- `lastWrite` has the expiration time that the last write of each key carried. -/
structure History where
  store : DataStore := {}
  lastWrite : String → Option ℤ := fun _ => none

namespace History
variable {J : Type}

inductive Op
  | set (id : String) (data : AnyValue) (type : DataType) (policy : DataExpirationPolicy) (now : ℤ)
  | applyExpirationPolicy (id : String) (policy : DataExpirationPolicy) (now : ℤ)
  | removeExpirationPolicy (id : String)
  | loadState (filepath : String) (contents : Option (List UInt8)) (clock : ℕ → ℤ)
  | cleanExpiredData (now : ℤ)

def expiry (policy : DataExpirationPolicy) (now : ℤ) : Option ℤ :=
  if policy.policyType = .ttl then some (policy.expiresAt now) else none

section
variable (json : JsonLib J) (h : History)

/-- Policies are TTL or none; `loadState` writes every key that it leaves in the store. -/
def next : Op → Option History
  | .set id data type policy now =>
    if policy.policyType = .lru then none
    else match h.store.set id data type policy now with
      | .ok store => some ⟨store, Function.update h.lastWrite id (expiry policy now)⟩
      | .error _ => some h
  | .applyExpirationPolicy id policy now =>
    some { h with store := h.store.applyExpirationPolicy id policy now }
  | .removeExpirationPolicy id => some { h with store := h.store.removeExpirationPolicy id }
  | .loadState filepath contents clock =>
    some ⟨(DataStore.loadState json h.store filepath contents clock).2,
      match DataStore.readState json filepath contents with
      | .ok _ => fun _ => none
      | .error _ => h.lastWrite⟩
  | .cleanExpiredData now => some { h with store := h.store.cleanExpiredData now }

def Stored (id : String) : Prop := (h.store.dataMap.lookup id).isSome = true

instance (id : String) : Decidable (h.Stored id) := inferInstanceAs (Decidable (_ = true))

def policyOf (id : String) : Option ℤ := h.store.expirationManager.keyToExpiration.lookup id

/-- The clean-up at any time removes exactly the keys whose last write has expired. -/
def Exact : Prop :=
  ∀ id t, h.Stored id →
    ((h.store.cleanExpiredData t).dataMap.lookup id = none ↔
      ∃ expiration, h.lastWrite id = some expiration ∧ expiration ≤ t)

/-- A write without a TTL finds no policy of its key, and other policy changes agree with the last
write. -/
def Renewed : Op → Prop
  | .set id data type policy now => (h.store.set id data type policy now).isOk = true →
      policy.policyType = .none → h.policyOf id = none
  | .applyExpirationPolicy id policy now =>
      h.Stored id → h.lastWrite id = some (policy.expiresAt now)
  | .removeExpirationPolicy id => h.Stored id → h.lastWrite id = none
  | .loadState filepath contents _ =>
      ∀ id ∈ (DataStore.readState json filepath contents).toOption.elim []
        (DataStore.loadedIds json), h.policyOf id = none
  | .cleanExpiredData _ => True

instance : DecidablePred (Renewed json h)
  | .set .. => inferInstanceAs (Decidable (_ → _ → _))
  | .applyExpirationPolicy .. => inferInstanceAs (Decidable (_ → _))
  | .removeExpirationPolicy _ => inferInstanceAs (Decidable (_ → _))
  | .loadState .. => inferInstanceAs (Decidable (∀ id ∈ _, _))
  | .cleanExpiredData _ => inferInstanceAs (Decidable True)

end

variable {json : JsonLib J} {h h' : History}

def Matches (h : History) : Prop := ∀ id, h.Stored id → h.policyOf id = h.lastWrite id

lemma eq_of_passed_iff {a b : Option ℤ}
    (hpas : ∀ t, (∃ e ≤ t, a = some e) ↔ ∃ e ≤ t, b = some e) : a = b := by
  cases a with
  | none =>
    cases b with
    | none => rfl
    | some e =>
      obtain ⟨_, -, hnone⟩ := (hpas e).mpr ⟨e, le_rfl, rfl⟩
      cases hnone
  | some e =>
    obtain ⟨e', hle, hb⟩ := (hpas e).mp ⟨e, le_rfl, rfl⟩
    obtain ⟨e'', hle', ha⟩ := (hpas e').mpr ⟨e', le_rfl, hb⟩
    cases ha
    rw [hb, le_antisymm hle hle']

lemma exact_iff_matches (httl : h.store.expirationManager.TtlOnly) : h.Exact ↔ h.Matches := by
  constructor
  · intro hxct id hsto
    refine eq_of_passed_iff fun t => ?_
    rw [policyOf, ← DataStore.lookup_cleanExpiredData httl hsto, hxct id t hsto]
    simp only [and_comm]
  · intro hmat id t hsto
    rw [DataStore.lookup_cleanExpiredData httl hsto, ← hmat id hsto]
    simp only [and_comm, policyOf]

lemma matches_iff_at (id : String) (hm : h.Matches)
    (hoth : ∀ id', id' ≠ id → (h'.Stored id' → h.Stored id') ∧
      h'.policyOf id' = h.policyOf id' ∧ h'.lastWrite id' = h.lastWrite id') :
    h'.Matches ↔ (h'.Stored id → h'.policyOf id = h'.lastWrite id) := by
  constructor
  · intro hm'
    exact hm' id
  · intro hid id' hsto
    by_cases heq : id' = id
    · subst heq
      exact hid hsto
    · obtain ⟨hsto', hpol, hwr⟩ := hoth id' heq
      rw [hpol, hwr]
      exact hm id' (hsto' hsto)

def Decides (json : JsonLib J) (h : History) (op : Op) (h' : History) : Prop :=
  h'.store.expirationManager.TtlOnly ∧ (h'.Matches ↔ Renewed json h op)

section
variable {op : Op} {id : String} {data : AnyValue} {type : DataType}
  {policy : DataExpirationPolicy} {now : ℤ}
variable (hm : h.Matches) (httl : h.store.expirationManager.TtlOnly)
include hm httl

lemma decides_set (hn : next json h (.set id data type policy now) = some h') :
    Decides json h (.set id data type policy now) h' := by
  simp only [next] at hn
  split_ifs at hn with hlru
  split at hn
  · rename_i store hset
    cases hn
    have hstr := DataStore.set_eq_ok hset
    cases hpol : policy.policyType with
    | lru => exact absurd hpol hlru
    | ttl =>
      simp only [DataStore.applyPolicy, hpol] at hstr
      subst hstr
      refine ⟨httl.applyPolicy, Iff.trans (matches_iff_at id hm fun id' hid => ?_) ?_⟩
      · simp [Stored, policyOf, AList.lookup_insert_ne hid, hid]
      · simp [Stored, policyOf, expiry, Renewed, hpol]
    | none =>
      simp only [DataStore.applyPolicy, hpol] at hstr
      subst hstr
      refine ⟨httl, Iff.trans (matches_iff_at id hm fun id' hid => ?_) ?_⟩
      · simp [Stored, policyOf, AList.lookup_insert_ne hid, hid]
      · simp [Stored, policyOf, expiry, Renewed, hpol, hset, Except.isOk, Except.toBool]
  · rename_i hset
    cases hn
    simp [Decides, httl, hm, Renewed, hset, Except.isOk, Except.toBool]

lemma decides_applyExpirationPolicy
    (hn : next json h (.applyExpirationPolicy id policy now) = some h') :
    Decides json h (.applyExpirationPolicy id policy now) h' := by
  cases hn
  refine ⟨httl.applyPolicy, Iff.trans (matches_iff_at id hm fun id' hid => ?_) ?_⟩
  · simp [Stored, policyOf, DataStore.applyExpirationPolicy, hid]
  · simp only [policyOf, DataStore.applyExpirationPolicy, ExpirationManager.lookup_applyPolicy,
      if_true, Renewed]
    exact forall_congr' fun _ => eq_comm

lemma decides_removeExpirationPolicy
    (hn : next json h (.removeExpirationPolicy id) = some h') :
    Decides json h (.removeExpirationPolicy id) h' := by
  cases hn
  refine ⟨httl.removePolicy, Iff.trans (matches_iff_at id hm fun id' hid => ?_) ?_⟩
  · simp [Stored, policyOf, DataStore.removeExpirationPolicy, hid]
  · simp only [policyOf, DataStore.removeExpirationPolicy, ExpirationManager.lookup_removePolicy,
      if_true, Renewed]
    exact forall_congr' fun _ => eq_comm

lemma decides_cleanExpiredData (hn : next json h (.cleanExpiredData now) = some h') :
    Decides json h (.cleanExpiredData now) h' := by
  cases hn
  rw [DataStore.cleanExpiredData_eq httl]
  obtain ⟨httl', hlk⟩ :=
    DataStore.foldl_eraseExpired httl (h.store.expirationManager.getExpiredKeys now)
  refine ⟨httl', iff_of_true (fun id hsto => ?_) trivial⟩
  obtain ⟨hdata, hpol⟩ := hlk id
  rw [Stored, hdata] at hsto
  rw [policyOf, hpol]
  -- a key that is still stored was not expired, and keeps its policy
  split_ifs at hsto ⊢
  · cases hsto
  · exact hm id hsto

lemma decides_loadState {filepath : String} {contents : Option (List UInt8)} {clock : ℕ → ℤ}
    (hn : next json h (.loadState filepath contents clock) = some h') :
    Decides json h (.loadState filepath contents clock) h' := by
  cases hn
  rw [Decides]
  cases hread : DataStore.readState json filepath contents with
  | error what =>
    simp only [DataStore.loadState, hread, Renewed, Except.toOption, Option.elim, List.not_mem_nil,
      false_implies, implies_true, iff_true]
    exact ⟨httl, hm⟩
  | ok items =>
    simp only [DataStore.loadState, hread, Renewed, Except.toOption, Option.elim]
    rw [DataStore.expirationManager_loadItems]
    refine ⟨httl, forall_congr' fun id => ?_⟩
    rw [Stored, policyOf, DataStore.isSome_lookup_loadItems, DataStore.expirationManager_loadItems]
    simp [policyOf]

lemma decides_next (hn : next json h op = some h') : Decides json h op h' := by
  cases op with
  | set => exact decides_set hm httl hn
  | applyExpirationPolicy => exact decides_applyExpirationPolicy hm httl hn
  | removeExpirationPolicy => exact decides_removeExpirationPolicy hm httl hn
  | loadState => exact decides_loadState hm httl hn
  | cleanExpiredData => exact decides_cleanExpiredData hm httl hn

end

end History
end Mxrc.Datastore
