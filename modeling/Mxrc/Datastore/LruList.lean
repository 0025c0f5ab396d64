import Mxrc.Datastore.ExpirationManager
import Mxrc.Lib.Recency

/-!
# The LRU list as an order of keys

`lru_list_` has the tracked keys, the most recently used first, and `lru_map_`
points from each key to its node. `tracked` lists the keys with the oldest
first, and `Linked` says that the table and the list belong together.
-/

namespace Mxrc.Datastore
open Mxrc.Lib List

namespace ExpirationManager

def hasLRUPolicy (m : ExpirationManager) (key : String) : Bool := (m.lruMap.lookup key).isSome

def tracked (m : ExpirationManager) : List String := (m.lruList.map (·.key)).reverse

structure Linked (m : ExpirationManager) : Prop where
  nodes : (m.lruList.map (·.node)).Nodup
  keys : m.tracked.Nodup
  lookup : ∀ key node, m.lruMap.lookup key = some node ↔ ⟨node, key⟩ ∈ m.lruList
  fresh : ∀ e ∈ m.lruList, e.node < m.nextNode

section
variable {m : ExpirationManager} {key key' : String} {node : ℕ} {time : ℤ}

lemma mem_tracked : key ∈ m.tracked ↔ ∃ node, ⟨node, key⟩ ∈ m.lruList := by
  simp only [tracked, mem_reverse, mem_map]
  constructor
  · rintro ⟨⟨node, _⟩, he, rfl⟩
    exact ⟨node, he⟩
  · rintro ⟨node, he⟩
    exact ⟨_, he, rfl⟩

lemma Linked.hasLRUPolicy_iff (h : Linked m) : m.hasLRUPolicy key = true ↔ key ∈ m.tracked := by
  rw [mem_tracked, hasLRUPolicy, Option.isSome_iff_exists]
  exact exists_congr fun node => h.lookup key node

lemma Linked.lookup_eq_none (h : Linked m) (hkey : key ∉ m.tracked) :
    m.lruMap.lookup key = none := by
  rw [← h.hasLRUPolicy_iff, hasLRUPolicy, Bool.not_eq_true, Option.isSome_eq_false_iff,
    Option.isNone_iff_eq_none] at hkey
  exact hkey

lemma linked_default : Linked {} :=
  ⟨nodup_nil, nodup_nil, by simp, by simp⟩

section
variable (h : Linked m)
include h

lemma Linked.congr {m' : ExpirationManager} (hlist : m'.lruList = m.lruList)
    (hmap : m'.lruMap = m.lruMap) (hnext : m'.nextNode = m.nextNode) : Linked m' := by
  have htr : m'.tracked = m.tracked := by rw [tracked, hlist, tracked]
  exact ⟨hlist ▸ h.nodes, htr ▸ h.keys, hlist ▸ hmap ▸ h.lookup, hlist ▸ hnext ▸ h.fresh⟩

lemma applyLRUPolicy_of_mem (hkey : key ∈ m.tracked) (capacity : ℕ) :
    m.applyLRUPolicy key capacity = m := by
  have hsome : (m.lruMap.lookup key).isSome = true := h.hasLRUPolicy_iff.mpr hkey
  rw [applyLRUPolicy, if_pos hsome]

lemma tracked_applyLRUPolicy (hkey : key ∉ m.tracked) (capacity : ℕ) :
    (m.applyLRUPolicy key capacity).tracked = m.tracked ++ [key] := by
  rw [applyLRUPolicy, if_neg (by simp [h.lookup_eq_none hkey])]
  simp [tracked]

lemma Linked.applyLRUPolicy (capacity : ℕ) : Linked (m.applyLRUPolicy key capacity) := by
  by_cases hkey : key ∈ m.tracked
  · rwa [applyLRUPolicy_of_mem h hkey]
  · have htr := tracked_applyLRUPolicy h hkey capacity
    have hnone := h.lookup_eq_none hkey
    rw [ExpirationManager.applyLRUPolicy, if_neg (by simp [hnone])] at htr ⊢
    refine ⟨?_, ?_, ?_, ?_⟩
    · rw [map_cons, nodup_cons]
      refine ⟨fun hmem => ?_, h.nodes⟩
      obtain ⟨e, he, hnode⟩ := mem_map.mp hmem
      exact absurd hnode (h.fresh e he).ne
    · rw [htr]
      exact nodup_append.mpr ⟨h.keys, nodup_singleton key, by
        rintro a ha b hb rfl
        exact hkey (mem_singleton.mp hb ▸ ha)⟩
    · intro key' node
      by_cases hkey' : key' = key
      · subst hkey'
        rw [AList.lookup_insert, mem_cons]
        constructor
        · rintro hnode
          rw [Option.some.inj hnode]
          exact .inl rfl
        · rintro (heq | hmem)
          · cases heq
            rfl
          · exact absurd (mem_tracked.mpr ⟨node, hmem⟩) hkey
      · rw [AList.lookup_insert_ne hkey', h.lookup, mem_cons]
        refine ⟨.inr, ?_⟩
        rintro (heq | hmem)
        · cases heq
          exact absurd rfl hkey'
        · exact hmem
    · intro e he
      rcases mem_cons.mp he with rfl | he
      · exact Nat.lt_succ_self _
      · exact Nat.lt_succ_of_lt (h.fresh e he)

lemma Linked.exists_split (hnode : m.lruMap.lookup key = some node) :
    ∃ newer older, m.lruList = newer ++ ⟨node, key⟩ :: older ∧
      m.lruList.filter (·.node = node) = [⟨node, key⟩] ∧
      m.lruList.filter (·.node ≠ node) = newer ++ older := by
  obtain ⟨newer, older, hlist⟩ := append_of_mem ((h.lookup key node).mp hnode)
  have hnod := h.nodes
  rw [hlist, map_append, map_cons, nodup_append, nodup_cons] at hnod
  obtain ⟨-, ⟨holder, -⟩, hnew⟩ := hnod
  have hnew' : ∀ e ∈ newer, e.node ≠ node := fun e he =>
    hnew e.node (mem_map_of_mem he) node mem_cons_self
  have holder' : ∀ e ∈ older, e.node ≠ node := fun e he heq =>
    holder (mem_map.mpr ⟨e, he, heq⟩)
  refine ⟨newer, older, hlist, ?_, ?_⟩
  · rw [hlist, filter_append, filter_cons_of_pos (by simp)]
    have hnone : newer.filter (·.node = node) = [] := by simpa using hnew'
    have hnone' : older.filter (·.node = node) = [] := by simpa using holder'
    rw [hnone, hnone', nil_append]
  · rw [hlist, filter_append, filter_cons_of_neg (by simp)]
    have hall : newer.filter (·.node ≠ node) = newer := by simpa using hnew'
    have hall' : older.filter (·.node ≠ node) = older := by simpa using holder'
    rw [hall, hall']

lemma Linked.perm {l : List LruNode} (hperm : l.Perm m.lruList) :
    Linked { m with lruList := l } := by
  refine ⟨(hperm.map _).nodup_iff.mpr h.nodes, ?_, fun key node => ?_, fun e he => ?_⟩
  · have hkeys := h.keys
    rw [tracked, nodup_reverse] at hkeys ⊢
    exact (hperm.map _).nodup_iff.mpr hkeys
  · rw [h.lookup]
    exact hperm.mem_iff.symm
  · exact h.fresh e (hperm.mem_iff.mp he)

lemma recordAccess_of_notMem (hkey : key ∉ m.tracked) : m.recordAccess key = m := by
  rw [recordAccess, h.lookup_eq_none hkey]

lemma Linked.erase_tracked {newer older : List LruNode}
    (hlist : m.lruList = newer ++ ⟨node, key⟩ :: older) :
    m.tracked.erase key = ((newer ++ older).map (·.key)).reverse := by
  have hkeys := h.keys
  rw [tracked, hlist] at hkeys ⊢
  simp only [map_append, map_cons, reverse_append, reverse_cons,
    append_assoc, singleton_append] at hkeys ⊢
  have hold : key ∉ (older.map (·.key)).reverse := fun hin =>
    (nodup_append.mp hkeys).2.2 key hin key mem_cons_self rfl
  rw [erase_append_right _ hold, erase_cons_head]

lemma tracked_recordAccess (hkey : key ∈ m.tracked) :
    (m.recordAccess key).tracked = touch key m.tracked := by
  obtain ⟨node, hmem⟩ := mem_tracked.mp hkey
  have hnode := (h.lookup key node).mpr hmem
  obtain ⟨newer, older, hlist, hthis, hoth⟩ := h.exists_split hnode
  rw [recordAccess, hnode, touch, h.erase_tracked hlist]
  simp only [tracked, hthis, hoth, singleton_append, map_cons, reverse_cons]

lemma Linked.recordAccess : Linked (m.recordAccess key) := by
  by_cases hkey : key ∈ m.tracked
  · obtain ⟨node, hmem⟩ := mem_tracked.mp hkey
    have hnode := (h.lookup key node).mpr hmem
    obtain ⟨newer, older, hlist, hthis, hoth⟩ := h.exists_split hnode
    rw [ExpirationManager.recordAccess, hnode]
    refine h.perm ?_
    rw [hthis, hoth, hlist, singleton_append]
    exact perm_middle.symm
  · rwa [recordAccess_of_notMem h hkey]

lemma Linked.remove {e : LruNode} {newer older : List LruNode}
    (hlist : m.lruList = newer ++ e :: older) :
    Linked { m with lruMap := m.lruMap.erase e.key, lruList := newer ++ older } := by
  have hsub : (newer ++ older).Sublist m.lruList := by
    rw [hlist]
    exact (List.Sublist.refl newer).append (sublist_cons_self e older)
  have hkeys := h.keys
  rw [tracked, nodup_reverse, hlist, map_append, map_cons, nodup_middle,
    ← map_append, nodup_cons] at hkeys
  refine ⟨(hsub.map _).nodup h.nodes, nodup_reverse.mpr hkeys.2, fun key node => ?_,
    fun e he => h.fresh e (hsub.subset he)⟩
  by_cases hkey : key = e.key
  · rw [hkey, AList.lookup_erase]
    exact iff_of_false (by simp) fun hmem => hkeys.1 (mem_map.mpr ⟨_, hmem, rfl⟩)
  · have hne : (⟨node, key⟩ : LruNode) ≠ e := fun heq => hkey (by rw [← heq])
    rw [AList.lookup_erase_ne hkey, h.lookup, hlist]
    simp [hne]

lemma Linked.dropLast {last : LruNode} (hlast : m.lruList.getLast? = some last) :
    m.tracked = last.key ::
        { m with lruMap := m.lruMap.erase last.key, lruList := m.lruList.dropLast }.tracked ∧
      Linked { m with lruMap := m.lruMap.erase last.key, lruList := m.lruList.dropLast } := by
  have hlist : m.lruList = m.lruList.dropLast ++ [last] :=
    (dropLast_append_getLast? last hlast).symm
  refine ⟨?_, by simpa using h.remove hlist⟩
  rw [tracked, hlist]
  simp [tracked]

lemma tracked_removeLRUPolicy : (m.removeLRUPolicy key).tracked = m.tracked.erase key := by
  by_cases hkey : key ∈ m.tracked
  · obtain ⟨node, hmem⟩ := mem_tracked.mp hkey
    have hnode := (h.lookup key node).mpr hmem
    obtain ⟨newer, older, hlist, -, hoth⟩ := h.exists_split hnode
    rw [removeLRUPolicy, hnode, h.erase_tracked hlist]
    simp only [tracked, hoth]
  · rw [removeLRUPolicy, h.lookup_eq_none hkey, erase_of_not_mem hkey]

lemma Linked.removeLRUPolicy : Linked (m.removeLRUPolicy key) := by
  rw [ExpirationManager.removeLRUPolicy]
  split
  · exact h
  · rename_i node hnode
    obtain ⟨newer, older, hlist, -, hoth⟩ := h.exists_split hnode
    rw [hoth]
    exact h.remove hlist

lemma Linked.evict (n : ℕ) :
    (m.evict n).1 = m.tracked.take n ∧ (m.evict n).2.tracked = m.tracked.drop n ∧
      Linked (m.evict n).2 ∧ (m.evict n).2.maxLruCapacity = m.maxLruCapacity := by
  induction n generalizing m with
  | zero => exact ⟨rfl, rfl, h, rfl⟩
  | succ n ih =>
    cases hlast : m.lruList.getLast? with
    | none =>
      have hemp : m.tracked = [] := by
        rw [tracked, List.getLast?_eq_none_iff.mp hlast]
        rfl
      rw [ExpirationManager.evict, hlast]
      simp [hemp, h]
    | some last =>
      obtain ⟨htr, hlin⟩ := h.dropLast hlast
      obtain ⟨hkeys, hrest, hlin', hcap⟩ := ih hlin
      rw [ExpirationManager.evict, hlast]
      simp only
      rw [htr, take_succ_cons, drop_succ_cons, hkeys]
      exact ⟨rfl, hrest, hlin', hcap⟩

end

lemma length_tracked (m : ExpirationManager) : m.tracked.length = m.lruList.length := by
  simp [tracked]

lemma Linked.getExpiredKeysLRU (h : Linked m) :
    m.getExpiredKeysLRU.1 = m.tracked.take (m.tracked.length - m.maxLruCapacity) ∧
      m.getExpiredKeysLRU.2.tracked = m.tracked.rtake m.maxLruCapacity ∧
      Linked m.getExpiredKeysLRU.2 ∧
      m.getExpiredKeysLRU.2.maxLruCapacity = m.maxLruCapacity := by
  rw [ExpirationManager.getExpiredKeysLRU, List.rtake, length_tracked]
  split_ifs with hfits
  · rw [Nat.sub_eq_zero_of_le hfits]
    exact ⟨rfl, rfl, h, rfl⟩
  · exact h.evict _

lemma removeLRUPolicy_of_notMem (h : Linked m) (hkey : key ∉ m.tracked) :
    m.removeLRUPolicy key = m := by
  rw [removeLRUPolicy, h.lookup_eq_none hkey]

end
end ExpirationManager
end Mxrc.Datastore
