import Mxrc.Lib.Maps

/-!
# The expiration manager

TTL policies are kept in two indexes, the keys by expiration time and the
expiration time by key; LRU tracking is a list of nodes, the most recently used
first, with a table from keys to nodes. Every public function runs under the
mutex. Times are nanoseconds, as unbounded integers. The order inside a
`std::set`, on which nothing depends, is left out.
-/

namespace Mxrc.Datastore
open AList

structure LruNode where
  node : ℕ
  key : String
deriving DecidableEq

structure ExpirationManager where
  expirationMap : AList (fun _ : ℤ => List String) := ∅
  keyToExpiration : AList (fun _ : String => ℤ) := ∅
  lruList : List LruNode := []
  lruMap : AList (fun _ : String => ℕ) := ∅
  maxLruCapacity : ℕ := 1000
  nextNode : ℕ := 0

namespace ExpirationManager

def keysAt (m : ExpirationManager) (time : ℤ) : List String := (m.expirationMap.lookup time).getD []

def unlist (m : ExpirationManager) (key : String) (time : ℤ) : ExpirationManager :=
  match m.expirationMap.lookup time with
  | none => m
  | some keys =>
    if keys.erase key = [] then { m with expirationMap := m.expirationMap.erase time }
    else { m with expirationMap := m.expirationMap.insert time (keys.erase key) }

def unlistOld (m : ExpirationManager) (key : String) : ExpirationManager :=
  match m.keyToExpiration.lookup key with
  | none => m
  | some oldExpiration => m.unlist key oldExpiration

def applyPolicy (m : ExpirationManager) (key : String) (expirationTime : ℤ) : ExpirationManager :=
  let m := m.unlistOld key
  { m with
    expirationMap := m.expirationMap.insert expirationTime
      ((m.keysAt expirationTime).insert key)
    keyToExpiration := m.keyToExpiration.insert key expirationTime }

def removePolicy (m : ExpirationManager) (key : String) : ExpirationManager :=
  match m.keyToExpiration.lookup key with
  | none => m
  | some expirationTime =>
    let m := m.unlist key expirationTime
    { m with keyToExpiration := m.keyToExpiration.erase key }

def getExpiredKeys (m : ExpirationManager) (now : ℤ) : List String :=
  ((m.expirationMap.entries.insertionSort fun e e' => e.1 ≤ e'.1).filter fun e =>
    e.1 ≤ now).flatMap (·.2)

def applyLRUPolicy (m : ExpirationManager) (key : String) (capacity : ℕ) : ExpirationManager :=
  if (m.lruMap.lookup key).isSome then m
  else { m with
    maxLruCapacity := if 0 < capacity then capacity else m.maxLruCapacity
    lruList := ⟨m.nextNode, key⟩ :: m.lruList
    lruMap := m.lruMap.insert key m.nextNode
    nextNode := m.nextNode + 1 }

def recordAccess (m : ExpirationManager) (key : String) : ExpirationManager :=
  match m.lruMap.lookup key with
  | none => m
  | some node => { m with
      lruList := m.lruList.filter (·.node = node) ++ m.lruList.filter (·.node ≠ node) }

def evict (m : ExpirationManager) : ℕ → List String × ExpirationManager
  | 0 => ([], m)
  | n + 1 =>
    match m.lruList.getLast? with
    | none => ([], m)
    | some last =>
      let (keys, m) := { m with
        lruMap := m.lruMap.erase last.key
        lruList := m.lruList.dropLast }.evict n
      (last.key :: keys, m)

def getExpiredKeysLRU (m : ExpirationManager) : List String × ExpirationManager :=
  if m.lruList.length ≤ m.maxLruCapacity then ([], m)
  else m.evict (m.lruList.length - m.maxLruCapacity)

def removeLRUPolicy (m : ExpirationManager) (key : String) : ExpirationManager :=
  match m.lruMap.lookup key with
  | none => m
  | some node => { m with
      lruList := m.lruList.filter (·.node ≠ node)
      lruMap := m.lruMap.erase key }

structure Agrees (m : ExpirationManager) : Prop where
  mem_keysAt : ∀ key time, key ∈ m.keysAt time ↔ m.keyToExpiration.lookup key = some time
  nodup : ∀ time, (m.keysAt time).Nodup

section
variable {m : ExpirationManager} {key key' : String} {time time' : ℤ}

lemma mem_getExpiredKeys (h : Agrees m) {now : ℤ} :
    key ∈ m.getExpiredKeys now ↔ ∃ time ≤ now, m.keyToExpiration.lookup key = some time := by
  simp only [getExpiredKeys, List.mem_flatMap, List.mem_filter, List.mem_insertionSort,
    decide_eq_true_eq]
  constructor
  · intro hmem
    obtain ⟨⟨time, keys⟩, ⟨hent, hle⟩, hkey⟩ := hmem
    refine ⟨time, hle, (h.mem_keysAt key time).mp ?_⟩
    rw [keysAt, mem_lookup_iff.mpr hent]
    exact hkey
  · intro hlk
    obtain ⟨time, hle, hlk⟩ := hlk
    have hmem := (h.mem_keysAt key time).mpr hlk
    rw [keysAt] at hmem
    cases hkeys : m.expirationMap.lookup time with
    | none => simp [hkeys] at hmem
    | some keys =>
      rw [hkeys, Option.getD_some] at hmem
      exact ⟨⟨time, keys⟩, ⟨mem_lookup_iff.mp hkeys, hle⟩, hmem⟩

lemma keysAt_unlist (m : ExpirationManager) (key : String) (time time' : ℤ) :
    (m.unlist key time).keysAt time' =
      if time' = time then (m.keysAt time').erase key else m.keysAt time' := by
  unfold unlist
  split
  · rename_i hnone
    split_ifs with htime
    · subst htime
      simp [keysAt, hnone]
    · rfl
  · rename_i keys hkeys
    by_cases htime : time' = time
    · subst htime
      rw [if_pos rfl]
      split_ifs with hemp
      · simp [keysAt, hkeys, hemp]
      · simp [keysAt, hkeys]
    · rw [if_neg htime]
      split_ifs with hemp
      · simp [keysAt, lookup_erase_ne htime]
      · simp [keysAt, lookup_insert_ne htime]

@[simp] lemma keyToExpiration_unlist :
    (m.unlist key time).keyToExpiration = m.keyToExpiration := by
  unfold unlist
  split
  · rfl
  · split_ifs <;> rfl

@[simp] lemma keyToExpiration_unlistOld :
    (m.unlistOld key).keyToExpiration = m.keyToExpiration := by
  unfold unlistOld
  split
  · rfl
  · exact keyToExpiration_unlist

lemma Agrees.mem_keysAt_unlistOld (h : Agrees m) :
    key' ∈ (m.unlistOld key).keysAt time' ↔
      key' ≠ key ∧ m.keyToExpiration.lookup key' = some time' := by
  unfold unlistOld
  split
  · rename_i hnone
    rw [h.mem_keysAt]
    refine ⟨fun hkey' => ⟨fun heq => ?_, hkey'⟩, And.right⟩
    rw [heq, hnone] at hkey'
    cases hkey'
  · rename_i time hsome
    rw [keysAt_unlist]
    split_ifs with htime
    · rw [(h.nodup time').mem_erase_iff, h.mem_keysAt]
    · rw [h.mem_keysAt]
      refine ⟨fun hkey' => ⟨fun heq => htime ?_, hkey'⟩, And.right⟩
      rw [heq, hsome] at hkey'
      exact (Option.some.inj hkey').symm

lemma Agrees.nodup_unlistOld (h : Agrees m) : ((m.unlistOld key).keysAt time').Nodup := by
  unfold unlistOld
  split
  · exact h.nodup time'
  · rw [keysAt_unlist]
    split_ifs
    · exact (h.nodup time').erase key
    · exact h.nodup time'

structure SameTtl (m m' : ExpirationManager) : Prop where
  keyToExpiration : m'.keyToExpiration = m.keyToExpiration
  expirationMap : m'.expirationMap = m.expirationMap

lemma SameTtl.agrees {m' : ExpirationManager} (hsame : SameTtl m m') (h : Agrees m) :
    Agrees m' := by
  refine ⟨fun key time => ?_, fun time => ?_⟩
  · rw [keysAt, hsame.expirationMap, hsame.keyToExpiration]
    exact h.mem_keysAt key time
  · rw [keysAt, hsame.expirationMap]
    exact h.nodup time

lemma sameTtl_applyLRUPolicy (m : ExpirationManager) (key : String) (capacity : ℕ) :
    SameTtl m (m.applyLRUPolicy key capacity) := by
  rw [applyLRUPolicy]
  split_ifs <;> exact ⟨rfl, rfl⟩

lemma sameTtl_recordAccess (m : ExpirationManager) (key : String) :
    SameTtl m (m.recordAccess key) := by
  unfold recordAccess
  split <;> exact ⟨rfl, rfl⟩

lemma sameTtl_removeLRUPolicy (m : ExpirationManager) (key : String) :
    SameTtl m (m.removeLRUPolicy key) := by
  unfold removeLRUPolicy
  split <;> exact ⟨rfl, rfl⟩

lemma sameTtl_evict (m : ExpirationManager) (n : ℕ) : SameTtl m (m.evict n).2 := by
  induction n generalizing m with
  | zero => exact ⟨rfl, rfl⟩
  | succ n ih =>
    rw [evict]
    split
    · exact ⟨rfl, rfl⟩
    · obtain ⟨hexp, hmap⟩ := ih _
      exact ⟨hexp, hmap⟩

lemma sameTtl_getExpiredKeysLRU (m : ExpirationManager) : SameTtl m m.getExpiredKeysLRU.2 := by
  rw [getExpiredKeysLRU]
  split_ifs
  · exact ⟨rfl, rfl⟩
  · exact sameTtl_evict m _

lemma agrees_default : Agrees {} := ⟨by simp [keysAt], by simp [keysAt]⟩

@[simp] lemma lookup_applyPolicy :
    (m.applyPolicy key time).keyToExpiration.lookup key' =
      if key' = key then some time else m.keyToExpiration.lookup key' := by
  simp only [applyPolicy, keyToExpiration_unlistOld]
  exact Lib.lookup_insert_ite ..

lemma Agrees.applyPolicy (h : Agrees m) : Agrees (m.applyPolicy key time) := by
  have hkeysAt : ∀ time', (m.applyPolicy key time).keysAt time' =
      if time' = time then ((m.unlistOld key).keysAt time).insert key
      else (m.unlistOld key).keysAt time' := by
    intro time'
    split_ifs with htime
    · subst htime
      simp [ExpirationManager.applyPolicy, keysAt]
    · simp [ExpirationManager.applyPolicy, keysAt, lookup_insert_ne htime]
  constructor
  · intro key' time'
    rw [hkeysAt, lookup_applyPolicy]
    by_cases hkey : key' = key <;> by_cases htime : time' = time
    · simp [hkey, htime]
    · simp [hkey, htime, h.mem_keysAt_unlistOld, Ne.symm htime]
    · simp [hkey, htime, h.mem_keysAt_unlistOld]
    · simp [hkey, htime, h.mem_keysAt_unlistOld]
  · intro time'
    rw [hkeysAt]
    split_ifs
    · exact h.nodup_unlistOld.insert
    · exact h.nodup_unlistOld

lemma removePolicy_eq : m.removePolicy key =
    { m.unlistOld key with keyToExpiration := m.keyToExpiration.erase key } := by
  rw [removePolicy, unlistOld]
  split
  · rename_i hnone
    have herase : m.keyToExpiration.erase key = m.keyToExpiration :=
      AList.ext (Lib.entries_erase_of_lookup_eq_none hnone)
    rw [herase]
  · simp

@[simp] lemma lookup_removePolicy :
    (m.removePolicy key).keyToExpiration.lookup key' =
      if key' = key then none else m.keyToExpiration.lookup key' := by
  rw [removePolicy_eq]
  dsimp only
  split_ifs with hkey
  · rw [hkey, lookup_erase]
  · rw [lookup_erase_ne hkey]

lemma Agrees.removePolicy (h : Agrees m) : Agrees (m.removePolicy key) := by
  have hkeysAt : ∀ time', (m.removePolicy key).keysAt time' = (m.unlistOld key).keysAt time' := by
    intro time'
    rw [removePolicy_eq]
    rfl
  constructor
  · intro key' time'
    rw [hkeysAt, lookup_removePolicy, h.mem_keysAt_unlistOld]
    split_ifs with hkey
    · simp [hkey]
    · simp [hkey]
  · intro time'
    rw [hkeysAt]
    exact h.nodup_unlistOld

structure SameLru (m m' : ExpirationManager) : Prop where
  lruList : m'.lruList = m.lruList
  lruMap : m'.lruMap = m.lruMap
  nextNode : m'.nextNode = m.nextNode
  maxLruCapacity : m'.maxLruCapacity = m.maxLruCapacity

lemma SameLru.refl (m : ExpirationManager) : SameLru m m := ⟨rfl, rfl, rfl, rfl⟩

lemma SameLru.trans {m' m'' : ExpirationManager} (h : SameLru m m') (h' : SameLru m' m'') :
    SameLru m m'' :=
  ⟨h'.lruList.trans h.lruList, h'.lruMap.trans h.lruMap, h'.nextNode.trans h.nextNode,
    h'.maxLruCapacity.trans h.maxLruCapacity⟩

lemma sameLru_unlistOld (m : ExpirationManager) (key : String) :
    SameLru m (m.unlistOld key) := by
  unfold unlistOld
  split
  · exact .refl m
  · unfold unlist
    split
    · exact .refl m
    · split_ifs <;> exact ⟨rfl, rfl, rfl, rfl⟩

lemma sameLru_applyPolicy (m : ExpirationManager) (key : String) (time : ℤ) :
    SameLru m (m.applyPolicy key time) :=
  (sameLru_unlistOld m key).trans ⟨rfl, rfl, rfl, rfl⟩

lemma sameLru_removePolicy (m : ExpirationManager) (key : String) :
    SameLru m (m.removePolicy key) := by
  rw [removePolicy_eq]
  exact (sameLru_unlistOld m key).trans ⟨rfl, rfl, rfl, rfl⟩

structure TtlOnly (m : ExpirationManager) : Prop extends Agrees m where
  lruList : m.lruList = []
  lruMap : m.lruMap = ∅

lemma ttlOnly_default : TtlOnly {} := ⟨agrees_default, rfl, rfl⟩

lemma TtlOnly.sameLru {m' : ExpirationManager} (h : TtlOnly m) (hagr : Agrees m')
    (hsame : SameLru m m') : TtlOnly m' :=
  ⟨hagr, hsame.lruList.trans h.lruList, hsame.lruMap.trans h.lruMap⟩

lemma TtlOnly.applyPolicy (h : TtlOnly m) : TtlOnly (m.applyPolicy key time) :=
  h.sameLru h.toAgrees.applyPolicy (sameLru_applyPolicy m key time)

lemma TtlOnly.removePolicy (h : TtlOnly m) : TtlOnly (m.removePolicy key) :=
  h.sameLru h.toAgrees.removePolicy (sameLru_removePolicy m key)

lemma TtlOnly.removeLRUPolicy (h : TtlOnly m) : m.removeLRUPolicy key = m := by
  simp [ExpirationManager.removeLRUPolicy, h.lruMap]

lemma TtlOnly.getExpiredKeysLRU (h : TtlOnly m) : m.getExpiredKeysLRU = ([], m) := by
  simp [ExpirationManager.getExpiredKeysLRU, h.lruList]

end
end ExpirationManager
end Mxrc.Datastore
