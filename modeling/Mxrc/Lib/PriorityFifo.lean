import Mathlib

/-!
# Priority-then-FIFO queues without duplicates

The abstract queue is the list of its elements in the order of their arrival,
each with its level. `ordered` lists them by level and, within a level, by
arrival. No two elements have the same key.
-/

namespace Mxrc.Lib.PriorityFifo
open List
variable {ι τ κ : Type*}

def level [DecidableEq ι] (l : List (ι × τ)) (i : ι) : List τ :=
  (l.filter (·.1 = i)).map Prod.snd

def ordered [DecidableEq ι] (levels : List ι) (l : List (ι × τ)) : List τ :=
  levels.flatMap (level l)

section
variable [DecidableEq κ] (key : τ → κ)

def levelOf (l : List (ι × τ)) (k : κ) : Option ι := (l.find? (key ·.2 = k)).map Prod.fst

def without (k : κ) (l : List (ι × τ)) : List (ι × τ) := l.filter (key ·.2 ≠ k)

def enqueue (t : τ) (i : ι) (l : List (ι × τ)) : List (ι × τ) :=
  match levelOf key l (key t) with
  | none => l ++ [(i, t)]
  | some _ => l

def dequeue [DecidableEq ι] (levels : List ι) (l : List (ι × τ)) : List (ι × τ) :=
  match (ordered levels l).head? with
  | none => l
  | some t => without key (key t) l

end

def Distinct (key : τ → κ) (l : List (ι × τ)) : Prop := (l.map (key ·.2)).Nodup

variable {key : τ → κ} {l : List (ι × τ)} {k : κ} {i : ι} {t : τ}

lemma Distinct.of_cons {e : ι × τ} (h : Distinct key (e :: l)) :
    (∀ f ∈ l, key f.2 ≠ key e.2) ∧ Distinct key l := by
  rw [Distinct, map_cons, nodup_cons] at h
  refine ⟨fun f hf heq => h.1 ?_, h.2⟩
  exact mem_map.mpr ⟨f, hf, heq⟩

section
variable [DecidableEq κ]

lemma levelOf_cons (e : ι × τ) (l : List (ι × τ)) (k : κ) :
    levelOf key (e :: l) k = if key e.2 = k then some e.1 else levelOf key l k := by
  by_cases h : key e.2 = k
  · simp [levelOf, h]
  · simp [levelOf, h]

lemma levelOf_eq_none_iff : levelOf key l k = none ↔ ∀ e ∈ l, key e.2 ≠ k := by
  simp [levelOf]

lemma exists_of_levelOf (h : levelOf key l k = some i) : ∃ t, (i, t) ∈ l ∧ key t = k := by
  rw [levelOf, Option.map_eq_some_iff] at h
  obtain ⟨⟨j, t⟩, hfind, rfl⟩ := h
  exact ⟨t, mem_of_find?_eq_some hfind, by simpa using find?_some hfind⟩

lemma levelOf_append (h : levelOf key l (key t) = none) (k : κ) :
    levelOf key (l ++ [(i, t)]) k = if k = key t then some i else levelOf key l k := by
  induction l with
  | nil =>
    rw [nil_append, levelOf_cons]
    exact if_congr eq_comm rfl rfl
  | cons e l ih =>
    rw [levelOf_cons] at h
    split_ifs at h with he
    rw [cons_append, levelOf_cons, ih h, levelOf_cons]
    by_cases hk : k = key t
    · simp [hk, he]
    · simp [hk]

lemma without_cons (e : ι × τ) (l : List (ι × τ)) :
    without key k (e :: l) = if key e.2 = k then without key k l else e :: without key k l := by
  by_cases h : key e.2 = k
  · simp [without, h]
  · simp [without, h]

lemma without_eq_self (h : ∀ e ∈ l, key e.2 ≠ k) : without key k l = l :=
  filter_eq_self.mpr fun e he => by simpa using h e he

lemma levelOf_without (k k' : κ) :
    levelOf key (without key k l) k' = if k' = k then none else levelOf key l k' := by
  induction l with
  | nil => simp [levelOf, without]
  | cons e l ih =>
    rw [without_cons, levelOf_cons]
    by_cases he : key e.2 = k
    · subst he
      rw [if_pos rfl, ih]
      by_cases hk : k' = key e.2
      · simp [hk]
      · simp [hk, Ne.symm hk]
    · rw [if_neg he, levelOf_cons, ih]
      by_cases hk : k' = k
      · simp [hk, he]
      · simp [hk]

lemma Distinct.without (h : Distinct key l) (k : κ) : Distinct key (without key k l) :=
  h.sublist (filter_sublist.map _)

lemma Distinct.snoc (h : Distinct key l) (hnew : levelOf key l (key t) = none) (i : ι) :
    Distinct key (l ++ [(i, t)]) := by
  rw [Distinct, map_append, map_singleton]
  refine List.Nodup.append h (nodup_singleton _) ?_
  have hne := levelOf_eq_none_iff.mp hnew
  simpa using hne

end

section
variable [DecidableEq ι]

lemma level_cons (e : ι × τ) (l : List (ι × τ)) (j : ι) :
    level (e :: l) j = if e.1 = j then e.2 :: level l j else level l j := by
  by_cases h : e.1 = j
  · simp [level, h]
  · simp [level, h]

lemma level_append (l : List (ι × τ)) (i : ι) (t : τ) (j : ι) :
    level (l ++ [(i, t)]) j = level l j ++ if j = i then [t] else [] := by
  induction l with
  | nil =>
    rw [nil_append, level_cons]
    exact if_congr eq_comm rfl rfl
  | cons e l ih =>
    rw [cons_append, level_cons, ih, level_cons]
    split_ifs <;> rfl

lemma mem_ordered {levels : List ι} : t ∈ ordered levels l ↔ ∃ i ∈ levels, (i, t) ∈ l := by
  simp [ordered, level]

variable [DecidableEq κ]

lemma ordered_without (levels : List ι) (l : List (ι × τ)) (k : κ) :
    ordered levels (without key k l) = (ordered levels l).filter (key · ≠ k) := by
  rw [ordered, ordered, filter_flatMap]
  congr 1
  funext j
  rw [level, without, filter_filter, level, filter_map, filter_filter]
  congr 2
  funext e
  exact Bool.and_comm _ _

lemma Distinct.level_without (h : Distinct key l) (hk : levelOf key l k = some i) (j : ι) :
    level (PriorityFifo.without key k l) j =
      if j = i then (level l i).eraseP (key · = k) else level l j := by
  induction l with
  | nil => cases hk
  | cons e l ih =>
    obtain ⟨hne, hl⟩ := h.of_cons
    rw [levelOf_cons] at hk
    rw [without_cons]
    split_ifs at hk with he
    · cases hk
      subst he
      rw [if_pos rfl, without_eq_self hne, level_cons, level_cons]
      by_cases hj : j = e.1
      · simp [hj]
      · simp [hj, Ne.symm hj]
    · rw [if_neg he, level_cons, ih hl hk, level_cons, level_cons]
      by_cases hj : j = i
      · subst hj
        by_cases hej : e.1 = j
        · simp [hej, he]
        · simp [hej]
      · simp [hj]

lemma Distinct.countP_level (h : Distinct key l) (k : κ) (j : ι) :
    (level l j).countP (key · = k) = if levelOf key l k = some j then 1 else 0 := by
  induction l with
  | nil => rfl
  | cons e l ih =>
    obtain ⟨hne, hl⟩ := h.of_cons
    rw [level_cons, levelOf_cons]
    by_cases he : key e.2 = k
    · have hnone : levelOf key l k = none := levelOf_eq_none_iff.mpr (he ▸ hne)
      have hzero : (level l j).countP (key · = k) = 0 := by
        rw [ih hl, hnone]
        rfl
      rw [if_pos he]
      by_cases hj : e.1 = j
      · simp [hj, he, hzero]
      · simp [hj, hzero]
    · rw [if_neg he, ← ih hl]
      by_cases hj : e.1 = j
      · simp [hj, he]
      · simp [hj]

end
end Mxrc.Lib.PriorityFifo
