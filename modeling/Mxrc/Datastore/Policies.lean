import Mxrc.Datastore.LruList

/-!
# What the expiration manager is for

`Policies` is the manager without its indexes: for each key the time of its
latest policy, and the keys under LRU in the order of their last use, the oldest
first. The first `applyLRUPolicy` of a key counts as a use.
-/

namespace Mxrc.Datastore
open Mxrc.Lib List

inductive ManagerCall
  | applyPolicy (key : String) (expirationTime : ℤ)
  | removePolicy (key : String)
  | getExpiredKeys (now : ℤ)
  | applyLRUPolicy (key : String) (capacity : ℕ)
  | recordAccess (key : String)
  | getExpiredKeysLRU
  | removeLRUPolicy (key : String)

structure Policies where
  time : String → Option ℤ := fun _ => none
  order : List String := []
  capacity : ℕ := 1000

def Policies.call (p : Policies) : ManagerCall → Policies
  | .applyPolicy key time => { p with time := Function.update p.time key (some time) }
  | .removePolicy key => { p with time := Function.update p.time key none }
  | .getExpiredKeys _ => p
  | .applyLRUPolicy key capacity =>
    if key ∈ p.order then p
    else { p with
      order := p.order ++ [key], capacity := if 0 < capacity then capacity else p.capacity }
  | .recordAccess key => if key ∈ p.order then { p with order := touch key p.order } else p
  | .getExpiredKeysLRU => { p with order := p.order.rtake p.capacity }
  | .removeLRUPolicy key => { p with order := p.order.erase key }

namespace ExpirationManager

def call (m : ExpirationManager) : ManagerCall → ExpirationManager
  | .applyPolicy key time => m.applyPolicy key time
  | .removePolicy key => m.removePolicy key
  | .getExpiredKeys _ => m
  | .applyLRUPolicy key capacity => m.applyLRUPolicy key capacity
  | .recordAccess key => m.recordAccess key
  | .getExpiredKeysLRU => m.getExpiredKeysLRU.2
  | .removeLRUPolicy key => m.removeLRUPolicy key

def Occupied (m : ExpirationManager) : Prop :=
  ∀ time keys, m.expirationMap.lookup time = some keys → keys ≠ []

structure Timed (m : ExpirationManager) (time : String → Option ℤ) : Prop extends Agrees m where
  occupied : m.Occupied
  latest : ∀ key, m.keyToExpiration.lookup key = time key

structure Listed (m : ExpirationManager) (order : List String) (capacity : ℕ) : Prop
    extends Linked m where
  order_eq : m.tracked = order
  capacity_eq : m.maxLruCapacity = capacity

variable {m m' : ExpirationManager} {key : String} {t now : ℤ} {time : String → Option ℤ}
  {order : List String} {capacity : ℕ}

lemma Occupied.unlistOld (h : m.Occupied) : (m.unlistOld key).Occupied := by
  intro time keys hkeys
  unfold ExpirationManager.unlistOld ExpirationManager.unlist at hkeys
  split at hkeys
  · exact h time keys hkeys
  · rename_i old _
    split at hkeys
    · exact h time keys hkeys
    · split_ifs at hkeys with hemp
      · by_cases htime : time = old
        · rw [htime, AList.lookup_erase] at hkeys
          cases hkeys
        · exact h time keys (AList.lookup_erase_ne htime ▸ hkeys)
      · rcases lookup_insert_cases hkeys with ⟨-, rfl⟩ | ⟨-, hkeys⟩
        · exact hemp
        · exact h time keys hkeys

lemma Timed.applyPolicy (h : m.Timed time) :
    (m.applyPolicy key t).Timed (Function.update time key (some t)) where
  toAgrees := h.toAgrees.applyPolicy
  occupied := by
    intro time keys hkeys
    rcases lookup_insert_cases hkeys with ⟨-, rfl⟩ | ⟨-, hkeys⟩
    · exact ne_nil_of_mem mem_insert_self
    · exact h.occupied.unlistOld time keys hkeys
  latest key' := by rw [lookup_applyPolicy, Function.update_apply, h.latest]

lemma Timed.removePolicy (h : m.Timed time) :
    (m.removePolicy key).Timed (Function.update time key none) where
  toAgrees := h.toAgrees.removePolicy
  occupied := by
    rw [removePolicy_eq]
    exact h.occupied.unlistOld
  latest key' := by rw [lookup_removePolicy, Function.update_apply, h.latest]

lemma SameTtl.timed (hsame : SameTtl m m') (h : m.Timed time) : m'.Timed time where
  toAgrees := hsame.agrees h.toAgrees
  occupied := by
    rw [Occupied, hsame.expirationMap]
    exact h.occupied
  latest key := hsame.keyToExpiration ▸ h.latest key

lemma SameLru.listed (hsame : SameLru m m') (h : m.Listed order capacity) :
    m'.Listed order capacity where
  toLinked := h.toLinked.congr hsame.lruList hsame.lruMap hsame.nextNode
  order_eq := by rw [tracked, hsame.lruList, ← tracked, h.order_eq]
  capacity_eq := hsame.maxLruCapacity.trans h.capacity_eq

lemma call_followed {p : Policies} (hT : m.Timed p.time) (hL : m.Listed p.order p.capacity)
    (c : ManagerCall) :
    (m.call c).Timed (p.call c).time ∧ (m.call c).Listed (p.call c).order (p.call c).capacity := by
  have hlin := hL.toLinked
  cases c with
  | applyPolicy key t => exact ⟨hT.applyPolicy, (sameLru_applyPolicy m key t).listed hL⟩
  | removePolicy key => exact ⟨hT.removePolicy, (sameLru_removePolicy m key).listed hL⟩
  | getExpiredKeys now => exact ⟨hT, hL⟩
  | applyLRUPolicy key limit =>
    have hsame := (sameTtl_applyLRUPolicy m key limit).timed hT
    by_cases hkey : key ∈ p.order
    · simp only [call, Policies.call, if_pos hkey, applyLRUPolicy_of_mem hlin (hL.order_eq ▸ hkey)]
      exact ⟨hT, hL⟩
    · have hnew := hL.order_eq ▸ hkey
      simp only [Policies.call, if_neg hkey]
      refine ⟨hsame, hlin.applyLRUPolicy limit, ?_, ?_⟩
      · rw [call, tracked_applyLRUPolicy hlin hnew, hL.order_eq]
      · rw [call, applyLRUPolicy, if_neg (by simp [hlin.lookup_eq_none hnew]), hL.capacity_eq]
  | recordAccess key =>
    have hsame := (sameTtl_recordAccess m key).timed hT
    by_cases hkey : key ∈ p.order
    · simp only [Policies.call, if_pos hkey]
      refine ⟨hsame, hlin.recordAccess, ?_, ?_⟩
      · rw [call, tracked_recordAccess hlin (hL.order_eq ▸ hkey), hL.order_eq]
      · rw [call, recordAccess]
        split <;> exact hL.capacity_eq
    · simp only [call, Policies.call, if_neg hkey, recordAccess_of_notMem hlin (hL.order_eq ▸ hkey)]
      exact ⟨hT, hL⟩
  | getExpiredKeysLRU =>
    obtain ⟨-, hrest, hlin', hcap⟩ := hlin.getExpiredKeysLRU
    refine ⟨(sameTtl_getExpiredKeysLRU m).timed hT, hlin', ?_, hcap.trans hL.capacity_eq⟩
    exact hrest.trans (by rw [hL.order_eq, hL.capacity_eq]; rfl)
  | removeLRUPolicy key =>
    refine ⟨(sameTtl_removeLRUPolicy m key).timed hT, hlin.removeLRUPolicy, ?_, ?_⟩
    · exact (tracked_removeLRUPolicy hlin).trans (by rw [hL.order_eq]; rfl)
    · rw [call, removeLRUPolicy]
      split <;> exact hL.capacity_eq

lemma calls_followed {p : Policies} (calls : List ManagerCall) (hT : m.Timed p.time)
    (hL : m.Listed p.order p.capacity) :
    (calls.foldl call m).Timed (calls.foldl Policies.call p).time ∧
      (calls.foldl call m).Listed (calls.foldl Policies.call p).order
        (calls.foldl Policies.call p).capacity := by
  induction calls generalizing m p with
  | nil => exact ⟨hT, hL⟩
  | cons c calls ih =>
    obtain ⟨hT', hL'⟩ := call_followed hT hL c
    exact ih hT' hL'

lemma Timed.pairwise_getExpiredKeys (h : m.Timed time) (now : ℤ) :
    (m.getExpiredKeys now).Pairwise fun a b =>
      a ≠ b ∧ ∀ ta tb, time a = some ta → time b = some tb → ta ≤ tb := by
  set l := (m.expirationMap.entries.insertionSort fun e e' => e.1 ≤ e'.1).filter fun e => e.1 ≤ now
  have hent : ∀ e ∈ l, m.keysAt e.1 = e.2 := fun e he => by
    have hmem := (mem_insertionSort _).mp (mem_of_mem_filter he)
    rw [keysAt, AList.mem_lookup_iff.mpr hmem, Option.getD_some]
  have htime : ∀ e ∈ l, ∀ a ∈ e.2, time a = some e.1 := fun e he a ha => by
    rw [← h.latest]
    exact (h.mem_keysAt a e.1).mp (hent e he ▸ ha)
  have hlt : l.Pairwise fun e e' => e.1 < e'.1 := by
    have hperm := perm_insertionSort (fun e e' => e.1 ≤ e'.1) m.expirationMap.entries
    have hne := hperm.symm.pairwise (nodupKeys_iff_pairwise.mp m.expirationMap.nodupKeys) Ne.symm
    refine List.Pairwise.filter _ (hne.imp₂ (fun _ _ hne hle => lt_of_le_of_ne hle hne) ?_)
    exact pairwise_insertionSort _ _
  refine pairwise_flatMap.mpr ⟨fun e he => ?_, hlt.imp_of_mem ?_⟩
  · refine (hent e he ▸ h.nodup e.1 : e.2.Nodup).imp_of_mem fun ha hb hne => ⟨hne, ?_⟩
    intro ta tb hta htb
    rw [htime e he _ ha] at hta
    rw [htime e he _ hb] at htb
    exact (Option.some.inj (hta.symm.trans htb)).le
  · intro e e' he he' hlt a ha b hb
    have hta := htime e he a ha
    have htb := htime e' he' b hb
    refine ⟨fun heq => ?_, fun ta tb hta' htb' => ?_⟩
    · rw [heq, htb] at hta
      exact hlt.ne' (Option.some.inj hta)
    · rw [← Option.some.inj (hta.symm.trans hta'), ← Option.some.inj (htb.symm.trans htb')]
      exact hlt.le

theorem follows_policies (calls : List ManagerCall) :
    let m := calls.foldl call {}
    let p := calls.foldl Policies.call {}
    (∀ key time, (∃ keys, m.expirationMap.lookup time = some keys ∧ key ∈ keys) ↔
        m.keyToExpiration.lookup key = some time) ∧
      (∀ time keys, m.expirationMap.lookup time = some keys → keys ≠ []) ∧
      (m.lruList.map (·.key)).Nodup ∧ (m.lruList.map (·.node)).Nodup ∧
      (∀ key node, m.lruMap.lookup key = some node ↔ ⟨node, key⟩ ∈ m.lruList) ∧
      (∀ now key, key ∈ m.getExpiredKeys now ↔ ∃ time ≤ now, p.time key = some time) ∧
      (∀ now, (m.getExpiredKeys now).Pairwise fun a b =>
        a ≠ b ∧ ∀ ta tb, p.time a = some ta → p.time b = some tb → ta ≤ tb) ∧
      m.getExpiredKeysLRU.1 = p.order.take (p.order.length - p.capacity) := by
  intro m p
  have hT₀ : Timed {} (Policies.time {}) := ⟨agrees_default, fun _ _ h => by simp at h, by simp⟩
  obtain ⟨hT, hL⟩ := calls_followed (p := {}) calls hT₀ ⟨linked_default, rfl, rfl⟩
  refine ⟨fun key time => ?_, hT.occupied, nodup_reverse.mp hL.keys, hL.nodes, hL.lookup,
    fun now key => ?_, hT.pairwise_getExpiredKeys, ?_⟩
  · rw [← hT.mem_keysAt, keysAt]
    cases m.expirationMap.lookup time <;> simp
  · rw [mem_getExpiredKeys hT.toAgrees, hT.latest]
  · rw [hL.toLinked.getExpiredKeysLRU.1, hL.order_eq, hL.capacity_eq]

end ExpirationManager
end Mxrc.Datastore
