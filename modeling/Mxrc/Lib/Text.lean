import Mathlib

/-!
# Trimming and searching texts

A text is a list. `trim p` drops the elements of `p` at both ends, and `find` is
the position of the first occurrence of a text in another one.
-/

namespace Mxrc.Lib
open List
variable {α : Type*}

section
variable (p : α → Bool)

def trim (s : List α) : List α := (s.dropWhile p).rdropWhile p

variable {p} {s a b m : List α}

lemma rdropWhile_append_of_pos (hb : ∀ x ∈ b, p x) :
    (s ++ b).rdropWhile p = s.rdropWhile p := by
  induction b using List.reverseRecOn with
  | nil => rw [append_nil]
  | append_singleton b x ih =>
    rw [← append_assoc, rdropWhile_concat_pos _ _ _ (hb x (by simp))]
    exact ih fun y hy => hb y (by simp [hy])

lemma rdropWhile_append_of_ne_nil (h : b.rdropWhile p ≠ []) :
    (s ++ b).rdropWhile p = s ++ b.rdropWhile p := by
  induction b using List.reverseRecOn with
  | nil => exact absurd rfl h
  | append_singleton b x ih =>
    by_cases hx : p x
    · rw [rdropWhile_concat_pos _ _ _ hx] at h
      rw [← append_assoc, rdropWhile_concat_pos _ _ _ hx, rdropWhile_concat_pos _ _ _ hx, ih h]
    · rw [← append_assoc, rdropWhile_concat_neg _ _ _ hx,
        rdropWhile_concat_neg _ _ _ hx, append_assoc]

lemma rdropWhile_append_self (s : List α) :
    ∃ b, s = s.rdropWhile p ++ b ∧ ∀ x ∈ b, p x := by
  induction s using List.reverseRecOn with
  | nil => exact ⟨[], rfl, by simp⟩
  | append_singleton s x ih =>
    by_cases hx : p x
    · obtain ⟨b, hs, hb⟩ := ih
      refine ⟨b ++ [x], ?_, ?_⟩
      · rw [rdropWhile_concat_pos _ _ _ hx, ← append_assoc, ← hs]
      · intro y hy
        rcases mem_append.mp hy with hy | hy
        · exact hb y hy
        · rwa [mem_singleton.mp hy]
    · exact ⟨[], by rw [rdropWhile_concat_neg _ _ _ hx, append_nil], by simp⟩

lemma trim_append_left (ha : ∀ x ∈ a, p x) : trim p (a ++ s) = trim p s := by
  rw [trim, dropWhile_append_of_pos ha, trim]

lemma trim_append_right (hb : ∀ x ∈ b, p x) : trim p (s ++ b) = trim p s := by
  rw [trim, dropWhile_append, trim]
  split_ifs with hs
  · rw [List.isEmpty_iff.mp hs, dropWhile_eq_nil_iff.mpr hb]
  · exact rdropWhile_append_of_pos hb

lemma trim_dropWhile (s : List α) : trim p (s.dropWhile p) = trim p s := by
  have hbln : ∀ x ∈ s.takeWhile p, p x := fun x hx => mem_takeWhile_imp hx
  rw [← trim_append_left hbln, takeWhile_append_dropWhile]

lemma trim_rdropWhile (s : List α) : trim p (s.rdropWhile p) = trim p s := by
  obtain ⟨b, hs, hb⟩ := rdropWhile_append_self (p := p) s
  conv_rhs => rw [hs]
  exact (trim_append_right hb).symm

lemma trim_trim (s : List α) : trim p (trim p s) = trim p s :=
  (trim_rdropWhile (s.dropWhile p)).trans (trim_dropWhile s)

lemma trim_eq_self (hs : ∀ x ∈ s, ¬p x) : trim p s = s := by
  have hfrn : s.dropWhile p = s := by
    rw [dropWhile_eq_self_iff]
    intro h
    exact hs _ (getElem_mem h)
  rw [trim, hfrn, rdropWhile_eq_self_iff]
  intro h
  exact hs _ (getLast_mem h)

lemma trim_append_append (hne : m ≠ []) (hm : ∀ x ∈ m, ¬p x) :
    trim p (a ++ m ++ b) = a.dropWhile p ++ m ++ b.rdropWhile p := by
  have hfrn : (a ++ (m ++ b)).dropWhile p = a.dropWhile p ++ (m ++ b) := by
    obtain ⟨x, m, rfl⟩ := exists_cons_of_ne_nil hne
    rw [dropWhile_append]
    split_ifs with ha
    · rw [List.isEmpty_iff.mp ha, cons_append, dropWhile_cons_of_neg (hm x (by simp)), nil_append]
    · rfl
  have hback : (m ++ b).rdropWhile p = m ++ b.rdropWhile p := by
    by_cases hb : b.rdropWhile p = []
    · rw [hb, rdropWhile_append_of_pos (rdropWhile_eq_nil_iff.mp hb), append_nil,
        rdropWhile_eq_self_iff]
      intro h
      exact hm _ (getLast_mem h)
    · exact rdropWhile_append_of_ne_nil hb
  have hkept : (m ++ b).rdropWhile p ≠ [] := by
    rw [hback]
    exact append_ne_nil_of_left_ne_nil hne _
  rw [trim, append_assoc, hfrn, rdropWhile_append_of_ne_nil hkept, hback, append_assoc]

end

lemma append_cons_inj {a b s t : List α} {x : α} (ha : x ∉ a) (hb : x ∉ b)
    (h : a ++ x :: s = b ++ x :: t) : a = b ∧ s = t := by
  induction a generalizing b with
  | nil =>
    cases b with
    | nil => exact ⟨rfl, (List.cons.inj h).2⟩
    | cons y b => exact absurd (List.cons.inj h).1 (fun hxy => hb (by simp [hxy]))
  | cons y a ih =>
    cases b with
    | nil => exact absurd (List.cons.inj h).1 (fun hyx => ha (by simp [hyx]))
    | cons z b =>
      obtain ⟨rfl, htail⟩ := List.cons.inj h
      obtain ⟨rfl, hst⟩ := ih (not_mem_of_not_mem_cons ha) (not_mem_of_not_mem_cons hb) htail
      exact ⟨rfl, hst⟩

lemma notMem_of_mem_splitOn [DecidableEq α] {x : α} {s t : List α} (h : t ∈ s.splitOn x) :
    x ∉ t := by
  induction s generalizing t with
  | nil =>
    rw [splitOn_nil, mem_singleton] at h
    simp [h]
  | cons y s ih =>
    rw [List.splitOn, splitOnP_cons_eq_if_modifyHead] at h
    split_ifs at h with hy
    · rcases mem_cons.mp h with rfl | h
      · exact not_mem_nil
      · exact ih h
    · obtain ⟨t', ts, hts⟩ := exists_cons_of_ne_nil (splitOnP_ne_nil (· == x) s)
      rw [hts, modifyHead_cons, mem_cons] at h
      rcases h with rfl | h
      · have ht' := ih (t := t') (by rw [List.splitOn, hts]; exact mem_cons_self)
        simpa [ht'] using fun hxy => hy (by simp [hxy])
      · exact ih (by rw [List.splitOn, hts]; exact mem_cons_of_mem _ h)

section
variable [DecidableEq α] {needle s a : List α} {x c : α} {i : ℕ}

def find (needle s : List α) : Option ℕ := s.tails.findIdx? (needle.isPrefixOf ·)

lemma find_eq_none_iff : find needle s = none ↔ ¬needle <:+: s := by
  rw [find, findIdx?_eq_none_iff, infix_iff_prefix_suffix]
  simp only [mem_tails, Bool.eq_false_iff, ne_eq, List.isPrefixOf_iff_prefix]
  exact ⟨fun h ⟨t, ht, hs⟩ => h t hs ht, fun h t hs ht => h ⟨t, ht, hs⟩⟩

lemma find_of_prefix (h : needle <+: s) : find needle s = some 0 := by
  have hhere := List.isPrefixOf_iff_prefix.mpr h
  cases s with
  | nil => simp [find, hhere]
  | cons c s => rw [find, tails_cons, findIdx?_cons, if_pos hhere]

lemma find_cons_of_not_prefix (h : ¬needle <+: c :: s) :
    find needle (c :: s) = (find needle s).map (· + 1) := by
  have hhere : ¬needle.isPrefixOf (c :: s) = true := fun hc => h (List.isPrefixOf_iff_prefix.mp hc)
  rw [find, tails_cons, findIdx?_cons, if_neg hhere, find]

lemma find_append_of_notMem (h : x ∉ a) :
    find (x :: needle) (a ++ s) = (find (x :: needle) s).map (· + a.length) := by
  induction a with
  | nil => simp
  | cons c a ih =>
    have hc : ¬(x :: needle) <+: c :: (a ++ s) := by
      rw [cons_prefix_cons]
      exact fun hx => h (by simp [hx.1])
    rw [cons_append, find_cons_of_not_prefix hc, ih fun hx => h (by simp [hx]),
      Option.map_map, length_cons]
    rfl

lemma infix_append_left_iff {m : List α} (hne : m ≠ []) (h : ∀ x ∈ m, x ∉ a) :
    m <:+: a ++ s ↔ m <:+: s := by
  obtain ⟨x, t, rfl⟩ := exists_cons_of_ne_nil hne
  rw [← not_iff_not, ← find_eq_none_iff, ← find_eq_none_iff,
    find_append_of_notMem (h x (by simp)), Option.map_eq_none_iff]

lemma infix_append_right_iff {m : List α} (hne : m ≠ []) (h : ∀ x ∈ m, x ∉ a) :
    m <:+: s ++ a ↔ m <:+: s := by
  have hrev : m.reverse ≠ [] := reverse_ne_nil_iff.mpr hne
  rw [← reverse_infix, reverse_append, infix_append_left_iff hrev, reverse_infix]
  intro x hx
  rw [mem_reverse] at hx ⊢
  exact h x hx

end
end Mxrc.Lib
