import Mathlib

/-!
# Finite maps

Updates of functions and of `AList`s, and counting the entries with a property.
The entries of `m.insert k v` are those of `m.erase k` with `⟨k, v⟩` in front. A
`SortedMap` keeps its entries in the order of the keys.
-/

namespace Mxrc.Lib
open List AList
variable {κ α : Type*} [DecidableEq κ] {k : κ} {m : AList (fun _ : κ => α)}

lemma update_eq_iff {f : κ → α} {a b : α} (hbef : f k ≠ b) (haft : a ≠ b) (k' : κ) :
    Function.update f k a k' = b ↔ f k' = b := by
  by_cases hk : k' = k
  · subst hk
    simp [hbef, haft]
  · rw [Function.update_of_ne hk]

lemma sum_update [Fintype κ] (g : α → ℕ) (f : κ → α) (k : κ) (a : α) :
    ∑ i, g (Function.update f k a i) + g (f k) = ∑ i, g (f i) + g a := by
  have hrest : ∑ i ∈ Finset.univ.erase k, g (Function.update f k a i) =
      ∑ i ∈ Finset.univ.erase k, g (f i) :=
    Finset.sum_congr rfl fun i hi => by rw [Function.update_of_ne (Finset.ne_of_mem_erase hi)]
  rw [← Finset.add_sum_erase _ _ (Finset.mem_univ k), hrest, Function.update_self,
    ← Finset.add_sum_erase _ (fun i => g (f i)) (Finset.mem_univ k)]
  ring

lemma lookup_insert_ite (m : AList (fun _ : κ => α)) (k k' : κ) (v : α) :
    (m.insert k v).lookup k' = if k' = k then some v else m.lookup k' := by
  split_ifs with h
  · rw [h, lookup_insert]
  · exact lookup_insert_ne h

lemma lookup_insert_cases {k' : κ} {v v' : α} (h : (m.insert k v).lookup k' = some v') :
    (k' = k ∧ v' = v) ∨ (k' ≠ k ∧ m.lookup k' = some v') := by
  rw [lookup_insert_ite] at h
  split_ifs at h with hk
  · exact .inl ⟨hk, (Option.some.inj h).symm⟩
  · exact .inr ⟨hk, h⟩

def modify (m : AList (fun _ : κ => α)) (k : κ) (f : α → α) : AList (fun _ : κ => α) :=
  match m.lookup k with
  | some v => m.insert k (f v)
  | none => m

lemma lookup_modify (m : AList (fun _ : κ => α)) (k k' : κ) (f : α → α) :
    (modify m k f).lookup k' = if k' = k then (m.lookup k).map f else m.lookup k' := by
  rw [modify]
  by_cases h : k' = k
  · subst h
    split <;> simp [*]
  · split <;> simp [*]

variable {f : α → α}

lemma map_lookup_modify {β : Type*} {p : α → β} (hp : ∀ v, p (f v) = p v)
    (m : AList (fun _ : κ => α)) (k k' : κ) :
    ((modify m k f).lookup k').map p = (m.lookup k').map p := by
  rw [lookup_modify]
  split_ifs with h
  · subst h
    rw [Option.map_map, show p ∘ f = p from funext hp]
  · rfl

lemma lookup_foldl_modify (hf : ∀ v, f (f v) = f v) (ks : List κ) (m : AList (fun _ : κ => α))
    (k : κ) :
    (ks.foldl (fun m k => modify m k f) m).lookup k =
      if k ∈ ks then (m.lookup k).map f else m.lookup k := by
  induction ks generalizing m with
  | nil => simp
  | cons a ks ih =>
    rw [foldl_cons, ih, lookup_modify]
    by_cases ha : k = a
    · subst ha
      simp only [if_true, Option.map_map, mem_cons_self]
      rw [show f ∘ f = f from funext hf, ite_self]
    · simp only [mem_cons, ha, false_or, if_false]

lemma lookup_foldl_erase (ks : List κ) (m : AList (fun _ : κ => α)) (k : κ) :
    (ks.foldl (fun m k => m.erase k) m).lookup k = if k ∈ ks then none else m.lookup k := by
  induction ks generalizing m with
  | nil => simp
  | cons a ks ih =>
    rw [foldl_cons, ih]
    by_cases hk : k ∈ ks
    · simp [hk]
    · by_cases ha : k = a
      · subst ha
        simp [hk]
      · simp [hk, ha, lookup_erase_ne ha]

def mapValues (f : κ → α → α) (m : AList (fun _ : κ => α)) : AList (fun _ : κ => α) where
  entries := m.entries.map fun e => ⟨e.1, f e.1 e.2⟩
  nodupKeys := by
    have hkeys :
        (m.entries.map fun e => (⟨e.1, f e.1 e.2⟩ : (_ : κ) × α)).keys = m.entries.keys := by
      simp [List.keys, Function.comp_def]
    rw [List.NodupKeys, hkeys]
    exact m.nodupKeys

lemma lookup_mapValues (f : κ → α → α) (m : AList (fun _ : κ => α)) (k : κ) :
    (mapValues f m).lookup k = (m.lookup k).map (f k) := by
  ext v
  rw [Option.map_eq_some_iff]
  change v ∈ (mapValues f m).lookup k ↔ ∃ a, a ∈ m.lookup k ∧ f k a = v
  simp only [mem_lookup_iff]
  simp [mapValues]

lemma perm_cons_erase {v : α} (h : m.lookup k = some v) :
    m.entries.Perm (⟨k, v⟩ :: (m.erase k).entries) := by
  have hv : ⟨k, v⟩ ∈ m.entries := mem_lookup_iff.mp h
  obtain ⟨w, l₁, l₂, -, hl, herase⟩ := exists_of_kerase (mem_keys_of_mem hv)
  have hw : m.lookup k = some w := mem_lookup_iff.mpr (by simp [hl])
  cases h.symm.trans hw
  change m.entries.Perm (⟨k, v⟩ :: m.entries.kerase k)
  rw [herase, hl]
  exact perm_middle

lemma filter_entries (m : AList (fun _ : κ => α)) (k : κ) :
    m.entries.filter (fun e => e.1 = k) = (m.lookup k).toList.map fun v => ⟨k, v⟩ := by
  cases h : m.lookup k with
  | none =>
    refine filter_eq_nil_iff.mpr fun e he hk => ?_
    have hlk : m.lookup e.1 = some e.2 := mem_lookup_iff.mpr he
    rw [of_decide_eq_true hk, h] at hlk
    cases hlk
  | some v =>
    have hperm := (perm_cons_erase h).filter fun e => e.1 = k
    have hrest : (m.erase k).entries.filter (fun e => e.1 = k) = [] := by
      refine filter_eq_nil_iff.mpr fun e he hk => ?_
      have hlk : (m.erase k).lookup e.1 = some e.2 := mem_lookup_iff.mpr he
      rw [of_decide_eq_true hk, lookup_erase] at hlk
      cases hlk
    rw [filter_cons_of_pos (by simp), hrest] at hperm
    exact perm_singleton.mp hperm

lemma entries_erase_of_lookup_eq_none (h : m.lookup k = none) : (m.erase k).entries = m.entries :=
  kerase_of_notMem_keys (AList.lookup_eq_none.mp h)

section
variable (p : α → Bool)

def count (m : AList (fun _ : κ => α)) : ℕ := m.entries.countP (p ·.2)

lemma count_erase (m : AList (fun _ : κ => α)) (k : κ) :
    count p m = count p (m.erase k) + if (m.lookup k).any p then 1 else 0 := by
  cases h : m.lookup k with
  | none => simp [count, entries_erase_of_lookup_eq_none h]
  | some v =>
    rw [count, (perm_cons_erase h).countP_eq, countP_cons]
    rfl

lemma count_congr {p q : α → Bool} {m : AList (fun _ : κ => α)}
    (h : ∀ k v, m.lookup k = some v → p v = q v) : count p m = count q m :=
  countP_congr fun e he => by rw [h e.1 e.2 (mem_lookup_iff.mpr he)]

lemma count_insert (m : AList (fun _ : κ => α)) (k : κ) (v : α) :
    count p (m.insert k v) + (if (m.lookup k).any p then 1 else 0) =
      count p m + if p v then 1 else 0 := by
  have hins : count p (m.insert k v) = count p (m.erase k) + if p v then 1 else 0 :=
    countP_cons
  rw [hins, count_erase p m k]
  omega

omit [DecidableEq κ] in
lemma count_mapValues (f : κ → α → α) (m : AList (fun _ : κ => α)) :
    count p (mapValues f m) = m.entries.countP fun e => p (f e.1 e.2) := by
  rw [count, mapValues, countP_map]
  rfl

lemma count_modify (m : AList (fun _ : κ => α)) (k : κ) (f : α → α) :
    count p (modify m k f) + (if (m.lookup k).any p then 1 else 0) =
      count p m + if (m.lookup k).any (p ∘ f) then 1 else 0 := by
  rw [modify]
  split
  · rename_i v hv
    rw [count_insert, hv]
    rfl
  · rename_i hnone
    simp [hnone]

omit [DecidableEq κ] in
lemma count_eq_sum_fiber {ι : Type*} [Fintype ι] [DecidableEq ι] (g : α → ι)
    (m : AList (fun _ : κ => α)) : count p m = ∑ i, count (fun v => p v && g v = i) m := by
  simp only [count]
  induction m.entries with
  | nil => simp
  | cons e es ih =>
    simp only [countP_cons, ih, Finset.sum_add_distrib]
    cases p e.2 <;> simp

lemma count_pos_iff (m : AList (fun _ : κ => α)) :
    0 < count p m ↔ ∃ k v, m.lookup k = some v ∧ p v = true := by
  rw [count, countP_pos_iff]
  constructor
  · intro hent
    obtain ⟨⟨k, v⟩, hmem, hp⟩ := hent
    exact ⟨k, v, mem_lookup_iff.mpr hmem, hp⟩
  · intro hvl
    obtain ⟨k, v, hk, hp⟩ := hvl
    exact ⟨⟨k, v⟩, mem_lookup_iff.mp hk, hp⟩

lemma count_eq_zero_iff (m : AList (fun _ : κ => α)) :
    count p m = 0 ↔ ∀ k v, m.lookup k = some v → p v = false := by
  simpa using (count_pos_iff p m).not

end

@[ext]
structure SortedMap (κ α : Type*) [LinearOrder κ] where
  entries : List (κ × α)
  sorted : entries.Pairwise (·.1 < ·.1)
deriving DecidableEq

namespace SortedMap
variable {κ α : Type*} [LinearOrder κ]

def insertEntry (k : κ) (v : α) : List (κ × α) → List (κ × α)
  | [] => [(k, v)]
  | e :: es =>
    if k < e.1 then (k, v) :: e :: es
    else if e.1 < k then e :: insertEntry k v es
    else (k, v) :: es

variable {k : κ} {v : α} {e : κ × α} {es : List (κ × α)}

lemma mem_insertEntry (h : e ∈ insertEntry k v es) : e = (k, v) ∨ e ∈ es := by
  induction es with
  | nil => exact .inl (mem_singleton.mp h)
  | cons e' es ih =>
    rw [insertEntry] at h
    split_ifs at h <;> grind

lemma pairwise_insertEntry (h : es.Pairwise (·.1 < ·.1)) :
    (insertEntry k v es).Pairwise (·.1 < ·.1) := by
  induction es with
  | nil => exact pairwise_singleton _ _
  | cons e es ih =>
    rw [pairwise_cons] at h
    rw [insertEntry]
    split_ifs with hlt hgt
    · exact .cons (forall_mem_cons.mpr ⟨hlt, fun e' he' => hlt.trans (h.1 e' he')⟩) (.cons h.1 h.2)
    · refine .cons (fun e' he' => ?_) (ih h.2)
      rcases mem_insertEntry he' with rfl | he'
      · exact hgt
      · exact h.1 e' he'
    · have heq : k = e.1 := le_antisymm (not_lt.mp hgt) (not_lt.mp hlt)
      exact .cons (heq ▸ h.1) h.2

lemma insertEntry_of_lt (h : ∀ e ∈ es, e.1 < k) : insertEntry k v es = es ++ [(k, v)] := by
  induction es with
  | nil => rfl
  | cons e es ih =>
    rw [forall_mem_cons] at h
    rw [insertEntry, if_neg h.1.not_gt, if_pos h.1, ih h.2, cons_append]

def insert (m : SortedMap κ α) (e : κ × α) : SortedMap κ α :=
  ⟨insertEntry e.1 e.2 m.entries, pairwise_insertEntry m.sorted⟩

def ofEntries (es : List (κ × α)) : SortedMap κ α := es.foldl insert ⟨[], .nil⟩

lemma ofEntries_concat (es : List (κ × α)) (e : κ × α) :
    ofEntries (es ++ [e]) = (ofEntries es).insert e :=
  foldl_concat ..

lemma mem_ofEntries (h : e ∈ (ofEntries es).entries) : e ∈ es := by
  induction es using List.reverseRecOn with
  | nil => exact h
  | append_singleton es e' ih =>
    rw [ofEntries_concat] at h
    rcases mem_insertEntry h with rfl | h
    · simp
    · exact mem_append_left _ (ih h)

lemma entries_ofEntries (h : es.Pairwise (·.1 < ·.1)) : (ofEntries es).entries = es := by
  induction es using List.reverseRecOn with
  | nil => rfl
  | append_singleton es e ih =>
    obtain ⟨hes, -, hlt⟩ := List.pairwise_append.mp h
    calc
      (ofEntries (es ++ [e])).entries = insertEntry e.1 e.2 (ofEntries es).entries := by
        rw [ofEntries_concat]
        rfl
      _ = insertEntry e.1 e.2 es := by rw [ih hes]
      _ = es ++ [e] := insertEntry_of_lt fun e' he' => hlt e' he' e (by simp)

lemma ofEntries_entries (m : SortedMap κ α) : ofEntries m.entries = m :=
  SortedMap.ext (entries_ofEntries m.sorted)

end SortedMap
end Mxrc.Lib
