import Mxrc.Datastore.DataStore
import Mxrc.Datastore.LruList
import Mxrc.Lib.Runs

/-!
# Eviction of the least recently used data

A history has the store and the keys in the order of their last use. Some keys
are always set with an LRU policy of one capacity, the others with any other
policy. `get` and `poll` move the key to the front of the LRU list, but a `set`
of a tracked key does not.
-/

namespace Mxrc.Datastore
open Mxrc.Lib List

structure LruHistory where
  store : DataStore := {}
  uses : List String := []

namespace LruHistory

inductive Op
  | set (id : String) (data : AnyValue) (type : DataType) (policy : DataExpirationPolicy) (now : ℤ)
  | get (id : String) (type : TypeId)
  | poll (id : String) (type : TypeId)
  | cleanExpiredData (now : ℤ)

/-- The keys with LRU policy have it always and with the same capacity. -/
def Allowed (capacity : Int64) (isLru : String → Bool) (id : String)
    (policy : DataExpirationPolicy) : Prop :=
  if isLru id then policy = ⟨.lru, capacity⟩ else policy.policyType ≠ .lru

instance (capacity : Int64) (isLru : String → Bool) (id : String) (policy : DataExpirationPolicy) :
    Decidable (Allowed capacity isLru id policy) := by
  unfold Allowed
  infer_instance

section
variable (capacity : Int64) (isLru : String → Bool) (h : LruHistory)

def used (id : String) : Except String DataStore → LruHistory
  | .ok store => ⟨store, touch id h.uses⟩
  | .error _ => h

def next : Op → Option LruHistory
  | .set id data type policy now =>
    if Allowed capacity isLru id policy then
      some (h.used id (h.store.set id data type policy now))
    else none
  | .get id type => some (h.used id ((h.store.get id type).map (·.2)))
  | .poll id type => some (h.used id ((h.store.poll id type).map (·.2)))
  | .cleanExpiredData now => some { h with store := h.store.cleanExpiredData now }

def isTracked (id : String) : Bool := h.store.expirationManager.hasLRUPolicy id

def byUse : List String := h.uses.filter h.isTracked

/-- A clean-up at any time keeps the most recently used keys and removes the other tracked ones. -/
def KeepsRecent : Prop :=
  ∀ now id, h.isTracked id = true →
    (((h.store.cleanExpiredData now).dataMap.lookup id).isSome = true ↔
      id ∈ h.byUse.rtake capacity.toUInt64.toNat) ∧
    ((h.store.cleanExpiredData now).expirationManager.hasLRUPolicy id = true ↔
      id ∈ h.byUse.rtake capacity.toUInt64.toNat)

/-- A tracked key is set again only while it is the most recently used one. -/
def Refreshing : Op → Prop
  | .set id data type policy now => (h.store.set id data type policy now).isOk = true →
      h.isTracked id = true → h.byUse.getLast? = some id
  | _ => True

end

def EvictsOldest (capacity : Int64) (isLru : String → Bool) (G : LruHistory → Op → Prop)
    (ops : List Op) : Prop :=
  0 < capacity → ∀ h, Run (next capacity isLru) G {} ops h → h.KeepsRecent capacity

end LruHistory

namespace ExpirationManager
variable {m : ExpirationManager} {key : String} {time : ℤ} {m' : ExpirationManager}

lemma SameLru.tracked (h : SameLru m m') : m'.tracked = m.tracked := by
  rw [ExpirationManager.tracked, h.lruList, ExpirationManager.tracked]

lemma SameLru.linked (h : SameLru m m') (hm : Linked m) : Linked m' :=
  hm.congr h.lruList h.lruMap h.nextNode

end ExpirationManager

namespace DataStore
open ExpirationManager
variable {s s' s'' : DataStore} {keys keys' : List String}

structure Pruned (keys : List String) (s s' : DataStore) : Prop where
  sameLru : SameLru s.expirationManager s'.expirationManager
  agrees : Agrees s'.expirationManager
  data : ∀ id, s'.dataMap.lookup id = if id ∈ keys then none else s.dataMap.lookup id
  ttl : ∀ id time, s'.expirationManager.keyToExpiration.lookup id = some time →
    s.expirationManager.keyToExpiration.lookup id = some time

lemma Pruned.trans (h : Pruned keys s s') (h' : Pruned keys' s' s'') :
    Pruned (keys ++ keys') s s'' := by
  refine ⟨h.sameLru.trans h'.sameLru, h'.agrees, fun id => ?_, fun id time htime =>
    h.ttl id time (h'.ttl id time htime)⟩
  rw [h'.data, h.data]
  simp only [mem_append]
  split_ifs <;> simp_all

lemma pruned_eraseEvicted (key : String) (ha : Agrees s.expirationManager) :
    Pruned [key] s (s.eraseEvicted key) := by
  refine ⟨sameLru_removePolicy _ _, ha.removePolicy, fun id => ?_, fun id time htime => ?_⟩
  · by_cases hid : id = key
    · subst hid
      simp [eraseEvicted]
    · simp [eraseEvicted, hid, AList.lookup_erase_ne hid]
  · simp only [eraseEvicted, lookup_removePolicy] at htime
    split_ifs at htime
    exact htime

lemma eraseExpired_eq {key : String} (hl : Linked s.expirationManager)
    (hkey : key ∉ s.expirationManager.tracked) : s.eraseExpired key = s.eraseEvicted key := by
  have hsame := sameLru_removePolicy s.expirationManager key
  rw [eraseExpired, removeLRUPolicy_of_notMem (hsame.linked hl) (hsame.tracked ▸ hkey)]
  rfl

lemma pruned_foldl_eraseEvicted (ha : Agrees s.expirationManager) (keys : List String) :
    Pruned keys s (keys.foldl eraseEvicted s) := by
  induction keys generalizing s with
  | nil => exact ⟨.refl _, ha, fun id => by simp, fun _ _ htime => htime⟩
  | cons key keys ih =>
    have hone := pruned_eraseEvicted key ha
    exact hone.trans (ih hone.agrees)

lemma foldl_eraseExpired_eq (hl : Linked s.expirationManager) (ha : Agrees s.expirationManager)
    (hkeys : ∀ key ∈ keys, key ∉ s.expirationManager.tracked) :
    keys.foldl eraseExpired s = keys.foldl eraseEvicted s := by
  induction keys generalizing s with
  | nil => rfl
  | cons key keys ih =>
    have hone := pruned_eraseEvicted key ha
    rw [foldl_cons, foldl_cons, eraseExpired_eq hl (hkeys key mem_cons_self)]
    refine ih (hone.sameLru.linked hl) hone.agrees fun key' hmem => ?_
    rw [hone.sameLru.tracked]
    exact hkeys key' (mem_cons_of_mem _ hmem)

structure Cleaned (now : ℤ) (s s' : DataStore) : Prop where
  linked : Linked s'.expirationManager
  agrees : Agrees s'.expirationManager
  tracked : s'.expirationManager.tracked =
    s.expirationManager.tracked.rtake s.expirationManager.maxLruCapacity
  capacity : s'.expirationManager.maxLruCapacity = s.expirationManager.maxLruCapacity
  data : ∀ id, s'.dataMap.lookup id =
    if id ∈ s.expirationManager.getExpiredKeys now ++ s.expirationManager.tracked.take
      (s.expirationManager.tracked.length - s.expirationManager.maxLruCapacity) then none
    else s.dataMap.lookup id
  ttl : ∀ id time, s'.expirationManager.keyToExpiration.lookup id = some time →
    s.expirationManager.keyToExpiration.lookup id = some time

lemma cleaned_cleanExpiredData (hl : Linked s.expirationManager)
    (ha : Agrees s.expirationManager) {now : ℤ}
    (hkeys : ∀ key ∈ s.expirationManager.getExpiredKeys now, key ∉ s.expirationManager.tracked) :
    Cleaned now s (s.cleanExpiredData now) := by
  have hexpd := pruned_foldl_eraseEvicted ha (s.expirationManager.getExpiredKeys now)
  rw [← foldl_eraseExpired_eq hl ha hkeys] at hexpd
  set s₁ := (s.expirationManager.getExpiredKeys now).foldl eraseExpired s with hs₁
  obtain ⟨hevic, htr, hlin, hcap⟩ := (hexpd.sameLru.linked hl).getExpiredKeysLRU
  have hsame := sameTtl_getExpiredKeysLRU s₁.expirationManager
  have hprun := pruned_foldl_eraseEvicted
    (s := { s₁ with expirationManager := s₁.expirationManager.getExpiredKeysLRU.2 })
    (hsame.agrees hexpd.agrees) s₁.expirationManager.getExpiredKeysLRU.1
  have hcln : s.cleanExpiredData now = s₁.expirationManager.getExpiredKeysLRU.1.foldl eraseEvicted
      { s₁ with expirationManager := s₁.expirationManager.getExpiredKeysLRU.2 } := rfl
  rw [hcln]
  refine ⟨hprun.sameLru.linked hlin, hprun.agrees, ?_, ?_, fun id => ?_, fun id time htime => ?_⟩
  · rw [hprun.sameLru.tracked, htr, hexpd.sameLru.tracked, hexpd.sameLru.maxLruCapacity]
  · rw [hprun.sameLru.maxLruCapacity, hcap, hexpd.sameLru.maxLruCapacity]
  · rw [hprun.data, hevic, hexpd.sameLru.tracked, hexpd.sameLru.maxLruCapacity, hexpd.data]
    simp only [mem_append]
    split_ifs <;> simp_all
  · have hbef := hprun.ttl id time htime
    rw [hsame.keyToExpiration] at hbef
    exact hexpd.ttl id time hbef

end DataStore

namespace LruHistory
open ExpirationManager
variable {capacity : Int64} {isLru : String → Bool} {h h' : LruHistory} {id : String}

abbrev manager (h : LruHistory) : ExpirationManager := h.store.expirationManager

structure Ordered (capacity : Int64) (isLru : String → Bool) (h : LruHistory) : Prop where
  linked : Linked h.manager
  agrees : Agrees h.manager
  order : h.manager.tracked = h.byUse
  nodup : h.uses.Nodup
  stored : ∀ id ∈ h.manager.tracked, isLru id = true ∧ (h.store.dataMap.lookup id).isSome = true
  ttl : ∀ id time, h.manager.keyToExpiration.lookup id = some time → isLru id = false
  capacity : h.manager.tracked = [] ∨ h.manager.maxLruCapacity = capacity.toUInt64.toNat

lemma ordered_default : Ordered capacity isLru {} :=
  ⟨linked_default, agrees_default, rfl, nodup_nil, by simp [tracked], by simp, .inl rfl⟩

lemma Ordered.isTracked_iff (ho : Ordered capacity isLru h) :
    h.isTracked id = true ↔ id ∈ h.manager.tracked :=
  ho.linked.hasLRUPolicy_iff

lemma byUse_mk (s : DataStore) (uses : List String) :
    byUse ⟨s, uses⟩ = uses.filter s.expirationManager.hasLRUPolicy := rfl

lemma hasLRUPolicy_recordAccess (m : ExpirationManager) (key key' : String) :
    (m.recordAccess key).hasLRUPolicy key' = m.hasLRUPolicy key' := by
  unfold recordAccess
  split <;> rfl

lemma maxLruCapacity_recordAccess (m : ExpirationManager) (key : String) :
    (m.recordAccess key).maxLruCapacity = m.maxLruCapacity := by
  unfold recordAccess
  split <;> rfl

variable {s s' : DataStore} {data : SharedData} {m : ExpirationManager}

lemma Ordered.get (ho : Ordered capacity isLru h) {type : TypeId}
    {value : AnyValue} (hget : h.store.get id type = .ok (value, s')) :
    Ordered capacity isLru ⟨s', touch id h.uses⟩ := by
  have hs' : s' = { h.store with expirationManager := h.manager.recordAccess id } := by
    unfold DataStore.get at hget
    split at hget
    · cases hget
    · split_ifs at hget
      cases hget
      rfl
  subst hs'
  have hsame := sameTtl_recordAccess h.manager id
  have htr : (h.manager.recordAccess id).tracked =
      if h.isTracked id then touch id h.manager.tracked else h.manager.tracked := by
    split_ifs with hid
    · exact tracked_recordAccess ho.linked (ho.isTracked_iff.mp hid)
    · rw [recordAccess_of_notMem ho.linked fun hmem => hid (ho.isTracked_iff.mpr hmem)]
  have hmem : ∀ id', id' ∈ (h.manager.recordAccess id).tracked ↔ id' ∈ h.manager.tracked := by
    intro id'
    rw [← ho.linked.recordAccess.hasLRUPolicy_iff, hasLRUPolicy_recordAccess,
      ho.linked.hasLRUPolicy_iff]
  refine ⟨ho.linked.recordAccess, hsame.agrees ho.agrees, ?_, nodup_touch ho.nodup, ?_, ?_, ?_⟩
  · have hpol : (h.manager.recordAccess id).hasLRUPolicy = h.isTracked :=
      funext fun id' => hasLRUPolicy_recordAccess _ _ _
    rw [byUse_mk, hpol, filter_touch, htr]
    split_ifs <;> rw [ho.order, byUse]
  · intro id' hid'
    exact ho.stored id' ((hmem id').mp hid')
  · intro id' time htime
    rw [hsame.keyToExpiration] at htime
    exact ho.ttl id' time htime
  · rcases ho.capacity with hemp | hcapac
    · left
      rw [eq_nil_iff_forall_not_mem] at hemp ⊢
      exact fun id' hid' => hemp id' ((hmem id').mp hid')
    · exact .inr ((maxLruCapacity_recordAccess _ _).trans hcapac)

def write (h : LruHistory) (id : String) (data : SharedData) (m : ExpirationManager) :
    LruHistory :=
  ⟨{ h.store with dataMap := h.store.dataMap.insert id data, expirationManager := m },
    touch id h.uses⟩

lemma Ordered.stored_write (ho : Ordered capacity isLru h) {id' : String}
    (hid' : id' ∈ h.manager.tracked) :
    isLru id' = true ∧ ((h.write id data m).store.dataMap.lookup id').isSome = true := by
  obtain ⟨hlru, hsto⟩ := ho.stored id' hid'
  refine ⟨hlru, ?_⟩
  simp only [write, lookup_insert_ite]
  split_ifs
  · rfl
  · exact hsto

lemma Ordered.setOther (ho : Ordered capacity isLru h) (hid : isLru id = false)
    (hsame : SameLru h.manager m) (hagr : Agrees m)
    (httl : ∀ id' time, m.keyToExpiration.lookup id' = some time → isLru id' = false) :
    Ordered capacity isLru (h.write id data m) := by
  have hunt : ¬h.isTracked id = true := fun htr => by
    have hlru := (ho.stored id (ho.isTracked_iff.mp htr)).1
    rw [hid] at hlru
    cases hlru
  refine ⟨hsame.linked ho.linked, hagr, ?_, nodup_touch ho.nodup,
    fun id' hid' => ho.stored_write (hsame.tracked ▸ hid'), httl, ?_⟩
  · have hpol : m.hasLRUPolicy = h.isTracked := by
      funext id'
      rw [hasLRUPolicy, hsame.lruMap]
      rfl
    rw [write, byUse_mk, hpol, filter_touch, if_neg hunt]
    exact hsame.tracked.trans ho.order
  · change m.tracked = [] ∨ m.maxLruCapacity = _
    rw [hsame.tracked, hsame.maxLruCapacity]
    exact ho.capacity

lemma Ordered.setTracked (ho : Ordered capacity isLru h) (htr : h.isTracked id = true)
    (hlast : h.byUse.getLast? = some id) : Ordered capacity isLru
      (h.write id data (h.manager.applyLRUPolicy id capacity.toUInt64.toNat)) := by
  rw [applyLRUPolicy_of_mem ho.linked (ho.isTracked_iff.mp htr)]
  refine ⟨ho.linked, ho.agrees, ?_, nodup_touch ho.nodup, fun _ => ho.stored_write, ho.ttl,
    ho.capacity⟩
  have hsame : touch id h.byUse = h.byUse := touch_eq_self (ho.nodup.filter _) hlast
  have hpol : h.manager.hasLRUPolicy = h.isTracked := rfl
  rw [write, byUse_mk, hpol, filter_touch, if_pos htr]
  exact ho.order.trans hsame.symm

lemma maxLruCapacity_applyLRUPolicy (hlin : Linked m) (hnew : id ∉ m.tracked)
    {limit : ℕ} (hlim : 0 < limit) : (m.applyLRUPolicy id limit).maxLruCapacity = limit := by
  rw [ExpirationManager.applyLRUPolicy, if_neg (by simp [hlin.lookup_eq_none hnew]), if_pos hlim]

section
variable (ho : Ordered capacity isLru h)
include ho

lemma Ordered.byUse_setNew (hlin : Linked m) (hnew : id ∉ h.manager.tracked)
    (htr : m.tracked = h.manager.tracked ++ [id]) :
    (h.write id data m).byUse = h.byUse ++ [id] := by
  have hthr : ∀ id' ∈ h.uses.erase id, m.hasLRUPolicy id' = h.isTracked id' := by
    intro id' hid'
    have hne : id' ≠ id := by
      rintro rfl
      exact ho.nodup.not_mem_erase hid'
    rw [Bool.eq_iff_iff, hlin.hasLRUPolicy_iff, htr, ho.isTracked_iff]
    simp [hne]
  have hself : m.hasLRUPolicy id = true := by
    rw [hlin.hasLRUPolicy_iff, htr]
    simp
  have hgone : (h.uses.erase id).filter h.isTracked = h.byUse := by
    rw [byUse, ← erase_filter, erase_of_not_mem]
    intro hin
    exact hnew (ho.isTracked_iff.mp (mem_filter.mp hin).2)
  rw [write, byUse_mk, touch, filter_append, filter_congr hthr, hgone]
  simp [hself]

lemma Ordered.setNew (hcapac : 0 < capacity.toUInt64.toNat) (hid : isLru id = true)
    (hunt : ¬h.isTracked id = true) : Ordered capacity isLru
      (h.write id data (h.manager.applyLRUPolicy id capacity.toUInt64.toNat)) := by
  have hnew : id ∉ h.manager.tracked := fun hmem => hunt (ho.isTracked_iff.mpr hmem)
  have hlin : Linked (h.manager.applyLRUPolicy id capacity.toUInt64.toNat) :=
    ho.linked.applyLRUPolicy _
  have htr := tracked_applyLRUPolicy ho.linked hnew capacity.toUInt64.toNat
  have hsame := sameTtl_applyLRUPolicy h.manager id capacity.toUInt64.toNat
  have hcap := maxLruCapacity_applyLRUPolicy ho.linked hnew hcapac
  refine ⟨hlin, hsame.agrees ho.agrees, ?_, nodup_touch ho.nodup, ?_, ?_, .inr hcap⟩
  · rw [ho.byUse_setNew hlin hnew htr, ← ho.order]
    exact htr
  · intro id' hid'
    simp only [write, htr, mem_append, mem_singleton] at hid'
    rcases hid' with hid' | rfl
    · exact ho.stored_write hid'
    · exact ⟨hid, by simp [write]⟩
  · exact fun id' time htime => ho.ttl id' time (hsame.keyToExpiration ▸ htime)

lemma Ordered.set (hcapac : 0 < capacity.toUInt64.toNat) {data : AnyValue} {type : DataType}
    {policy : DataExpirationPolicy} {now : ℤ} (halw : Allowed capacity isLru id policy)
    (href : h.isTracked id = true → h.byUse.getLast? = some id)
    (hset : h.store.set id data type policy now = .ok s') :
    Ordered capacity isLru ⟨s', touch id h.uses⟩ := by
  have hs' := DataStore.set_eq_ok hset
  rw [Allowed] at halw
  split_ifs at halw with hid
  · subst halw
    rw [hs']
    by_cases htr : h.isTracked id = true
    · exact ho.setTracked htr (href htr)
    · exact ho.setNew hcapac hid htr
  · have hoth : isLru id = false := by simpa using hid
    rw [hs', DataStore.applyPolicy]
    cases htype : policy.policyType with
    | ttl =>
      refine ho.setOther hoth (sameLru_applyPolicy _ _ _) ho.agrees.applyPolicy ?_
      intro id' time htime
      rw [lookup_applyPolicy] at htime
      split_ifs at htime with hid'
      · rwa [hid']
      · exact ho.ttl id' time htime
    | lru => exact absurd htype halw
    | none => exact ho.setOther hoth (.refl _) ho.agrees ho.ttl

lemma Ordered.expired_untracked (now : ℤ) :
    ∀ id ∈ h.manager.getExpiredKeys now, id ∉ h.manager.tracked := by
  intro id hexpd htr
  obtain ⟨time, -, htime⟩ := (mem_getExpiredKeys ho.agrees).mp hexpd
  have hlru := (ho.stored id htr).1
  rw [ho.ttl id time htime] at hlru
  cases hlru

lemma Ordered.cleaned (now : ℤ) : DataStore.Cleaned now h.store (h.store.cleanExpiredData now) :=
  DataStore.cleaned_cleanExpiredData ho.linked ho.agrees (ho.expired_untracked now)

lemma Ordered.rtake_tracked :
    h.manager.tracked.rtake h.manager.maxLruCapacity =
      h.byUse.rtake capacity.toUInt64.toNat := by
  rw [← ho.order]
  rcases ho.capacity with hemp | hcapac
  · simp [hemp, List.rtake]
  · rw [hcapac]

lemma Ordered.lookup_cleanExpiredData (now : ℤ) (htr : id ∈ h.manager.tracked) :
    ((h.store.cleanExpiredData now).dataMap.lookup id).isSome = true ↔
      id ∈ h.byUse.rtake capacity.toUInt64.toNat := by
  have hnot : id ∉ h.manager.getExpiredKeys now :=
    fun hin => ho.expired_untracked now id hin htr
  have hpar : id ∈ h.manager.tracked.take
      (h.manager.tracked.length - h.manager.maxLruCapacity) ↔
      id ∉ h.manager.tracked.rtake h.manager.maxLruCapacity := by
    have hkeys := ho.linked.keys
    rw [← take_append_drop (h.manager.tracked.length - h.manager.maxLruCapacity)
      h.manager.tracked] at hkeys htr
    rw [List.rtake]
    constructor
    · intro hin hin'
      exact (nodup_append.mp hkeys).2.2 id hin id hin' rfl
    · intro hout
      exact (mem_append.mp htr).resolve_right hout
  rw [(ho.cleaned now).data, ← ho.rtake_tracked]
  split_ifs with hin
  · have hout := hpar.mp ((mem_append.mp hin).resolve_left hnot)
    simpa using hout
  · rw [mem_append, or_iff_right hnot, hpar, not_not] at hin
    simpa [hin] using (ho.stored id htr).2

lemma Ordered.clean (now : ℤ) :
    Ordered capacity isLru { h with store := h.store.cleanExpiredData now } := by
  obtain ⟨hlin, hagr, htr, hcap, -, httl⟩ := ho.cleaned now
  have hsub : ∀ id ∈ (h.store.cleanExpiredData now).expirationManager.tracked,
      id ∈ h.manager.tracked := by
    intro id hid
    rw [htr] at hid
    exact mem_of_mem_rtake hid
  refine ⟨hlin, hagr, ?_, ho.nodup, fun id hid => ⟨(ho.stored id (hsub id hid)).1, ?_⟩,
    fun id time htime => ho.ttl id time (httl id time htime), ?_⟩
  · -- what is still tracked is a suffix of what was, and both orders lose the same keys
    have hsuf : (h.store.cleanExpiredData now).expirationManager.tracked <:+ h.byUse := by
      rw [htr, ← ho.order]
      exact rtake_suffix _ _
    refine (filter_mem_of_suffix (ho.nodup.filter _) hsuf).symm.trans ?_
    rw [byUse_mk, filter_filter]
    refine filter_congr fun id _ => ?_
    rw [Bool.eq_iff_iff, hlin.hasLRUPolicy_iff, Bool.and_eq_true, decide_eq_true_eq,
      ho.isTracked_iff]
    exact ⟨fun hid => hid.1, fun hid => ⟨hid, hsub id hid⟩⟩
  · rw [ho.lookup_cleanExpiredData now (hsub id hid), ← ho.rtake_tracked, ← htr]
    exact hid
  · rcases ho.capacity with hemp | hcapac
    · left
      rw [htr, hemp]
      simp [List.rtake]
    · exact .inr (hcap.trans hcapac)

lemma Ordered.next (hcapac : 0 < capacity.toUInt64.toNat) {op : Op} (hop : h.Refreshing op)
    (hn : h.next capacity isLru op = some h') : Ordered capacity isLru h' := by
  cases op with
  | set id data type policy now =>
    simp only [LruHistory.next] at hn
    split_ifs at hn with halw
    cases hn
    cases hset : h.store.set id data type policy now with
    | ok s' => exact ho.set hcapac halw (hop (by rw [hset]; rfl)) hset
    | error what => exact ho
  | get id type =>
    cases hn
    cases hget : h.store.get id type with
    | ok result => exact ho.get hget
    | error what => exact ho
  | poll id type =>
    cases hn
    rw [DataStore.poll]
    cases hget : h.store.get id type with
    | ok result => exact ho.get hget
    | error what => exact ho
  | cleanExpiredData now =>
    cases hn
    exact ho.clean now

lemma Ordered.keepsRecent : h.KeepsRecent capacity := by
  intro now id htr
  have hcln := ho.cleaned now
  refine ⟨ho.lookup_cleanExpiredData now (ho.isTracked_iff.mp htr), ?_⟩
  rw [hcln.linked.hasLRUPolicy_iff, hcln.tracked, ho.rtake_tracked]

end

lemma toNat_toUInt64_pos (hcapac : 0 < capacity) : 0 < capacity.toUInt64.toNat := by
  rw [Nat.pos_iff_ne_zero]
  intro hzero
  obtain ⟨word⟩ := capacity
  obtain rfl : word = 0 := UInt64.toNat_inj.mp hzero
  exact absurd hcapac (by decide)

theorem evictsOldest_of_refreshing (capacity : Int64) (isLru : String → Bool) (ops : List Op) :
    EvictsOldest capacity isLru Refreshing ops := by
  intro hcapac h hrun
  have hord : Ordered capacity isLru h :=
    hrun.invariant (Ordered capacity isLru) ordered_default fun _ _ _ ho hop hn =>
      ho.next (toNat_toUInt64_pos hcapac) hop hn
  exact hord.keepsRecent

/-- With capacity 1, `a` is set, then `b`, then `a` again: the last clean-up removes `a`. -/
def resetRun : List Op :=
  [.set "a" (.int 1) .event ⟨.lru, 1⟩ 0, .set "b" (.int 1) .event ⟨.lru, 1⟩ 0,
    .set "a" (.int 2) .event ⟨.lru, 1⟩ 0]

lemma resetRun_evicts :
    (exec (next 1 fun _ => true) (fun _ _ => true) {} resetRun).map (fun h =>
      (h.isTracked "a", h.byUse.rtake 1, (h.store.cleanExpiredData 0).dataMap.lookup "a")) =
      some (true, ["a"], none) := by
  decide +kernel

theorem not_evictsOldest : ¬∀ (capacity : Int64) (isLru : String → Bool) (ops : List Op),
    EvictsOldest capacity isLru (fun _ _ => True) ops := by
  intro h
  obtain ⟨s, hrun, hend⟩ := exists_run_of_exec (fun _ _ _ => trivial) resetRun_evicts
  simp only [Prod.mk.injEq] at hend
  obtain ⟨htr, hrec, hgone⟩ := hend
  have hkept := (h 1 (fun _ => true) resetRun (by decide) s hrun
    0 "a" htr).1
  rw [hgone] at hkept
  have hin : "a" ∈ s.byUse.rtake (1 : Int64).toUInt64.toNat := by
    show "a" ∈ s.byUse.rtake 1
    rw [hrec]
    exact mem_singleton_self _
  exact absurd (hkept.mpr hin) (by decide)

end LruHistory
end Mxrc.Datastore
