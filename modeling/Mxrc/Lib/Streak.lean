import Mathlib

/-!
# Streaks

The streak of a list is its longest suffix in which each element is related to
the next one. The elements with a property at the end of the list are as many as
there are in all exactly if they form one block that ends the list.
-/

namespace Mxrc.Lib
open List
variable {α : Type*} {R : α → α → Prop} {l : List α} {a b : α} {n : ℕ}

def IsStreak (R : α → α → Prop) (l : List α) (n : ℕ) : Prop :=
  IsGreatest {k | k ≤ l.length ∧ (l.rtake k).IsChain R} n

lemma getLast?_rtake (hn : 0 < n) (l : List α) : (l.rtake n).getLast? = l.getLast? := by
  rw [List.rtake, getLast?_drop]
  split_ifs with hle
  · have hnil : l = [] := eq_nil_of_length_eq_zero (by omega)
    rw [hnil, getLast?_nil]
  · rfl

lemma isChain_rtake_concat (hlast : l.getLast? = some b) (n : ℕ) :
    ((l ++ [a]).rtake (n + 2)).IsChain R ↔ (l.rtake (n + 1)).IsChain R ∧ R b a := by
  rw [rtake_concat_succ, isChain_append, getLast?_rtake (Nat.succ_pos n), hlast]
  simp

lemma isChain_rtake_one (l : List α) (a : α) : ((l ++ [a]).rtake 1).IsChain R := by
  rw [rtake_concat_succ, rtake_zero]
  exact .singleton a

namespace IsStreak

lemma unique {m : ℕ} (h : IsStreak R l n) (h' : IsStreak R l m) : n = m :=
  IsGreatest.unique h h'

lemma pos (h : IsStreak R l n) (hne : l ≠ []) : 0 < n := by
  obtain ⟨init, last, rfl⟩ := eq_nil_or_concat l |>.resolve_left hne
  rw [List.concat_eq_append] at h
  exact h.2 ⟨by simp, isChain_rtake_one init last⟩

lemma le_length (h : IsStreak R l n) : n ≤ l.length := h.1.1

lemma singleton (R : α → α → Prop) (a : α) : IsStreak R [a] 1 :=
  ⟨⟨le_rfl, isChain_rtake_one [] a⟩, fun _ hk => hk.1⟩

lemma extend (h : IsStreak R l n) (hlast : l.getLast? = some b) (hR : R b a) :
    IsStreak R (l ++ [a]) (n + 1) := by
  have hne : l ≠ [] := by
    rintro rfl
    cases hlast
  obtain ⟨m, rfl⟩ := Nat.exists_eq_add_of_lt (h.pos hne)
  obtain ⟨⟨hlen, hchn⟩, hgreat⟩ := h
  rw [Nat.zero_add] at hlen hchn hgreat ⊢
  refine ⟨⟨?_, (isChain_rtake_concat hlast m).mpr ⟨hchn, hR⟩⟩, ?_⟩
  · rw [length_append, length_singleton]
    omega
  · rintro k ⟨hk, hkch⟩
    rw [length_append, length_singleton] at hk
    rcases k with _ | _ | k
    · exact Nat.zero_le _
    · omega
    · have hle : k + 1 ≤ m + 1 :=
        hgreat ⟨by omega, ((isChain_rtake_concat hlast k).mp hkch).1⟩
      omega

lemma restart (hlast : l.getLast? = some b) (hR : ¬ R b a) : IsStreak R (l ++ [a]) 1 := by
  refine ⟨⟨by simp, isChain_rtake_one l a⟩, ?_⟩
  rintro k ⟨-, hkch⟩
  rcases k with _ | _ | k
  · exact Nat.zero_le _
  · exact le_rfl
  · exact absurd ((isChain_rtake_concat hlast k).mp hkch).2 hR

end IsStreak

lemma isChain_congr {R' : α → α → Prop} (h : l.IsChain fun a b => R a b ↔ R' a b) :
    l.IsChain R ↔ l.IsChain R' := by
  induction l with
  | nil => simp
  | cons a l ih =>
    rw [isChain_cons] at h
    rw [isChain_cons, isChain_cons, ih h.2]
    refine and_congr_left fun _ => forall₂_congr fun b hb => h.1 b hb

lemma isStreak_congr {R' : α → α → Prop} (h : l.IsChain fun a b => R a b ↔ R' a b) (n : ℕ) :
    IsStreak R l n ↔ IsStreak R' l n := by
  have hset : {k | k ≤ l.length ∧ (l.rtake k).IsChain R} =
      {k | k ≤ l.length ∧ (l.rtake k).IsChain R'} := by
    ext k
    exact and_congr_right fun _ => isChain_congr (h.drop _)
  rw [IsStreak, IsStreak, hset]

section
variable {p : α → Bool}

def OneBlock (p : α → Bool) (l : List α) : Prop :=
  ∃ before block after, l = before ++ block ++ after ∧ (∀ a ∈ before, p a = false) ∧
    (∀ a ∈ block, p a = true) ∧ ∀ a ∈ after, p a = false

def EndBlock (p : α → Bool) (l : List α) : Prop :=
  ∃ before block, l = before ++ block ∧ (∀ a ∈ before, p a = false) ∧ ∀ a ∈ block, p a = true

lemma concat_eq_append {l₁ l₂ : List α} (h : l ++ [a] = l₁ ++ l₂) :
    (l₁ = l ++ [a] ∧ l₂ = []) ∨ ∃ l₃, l₂ = l₃ ++ [a] ∧ l = l₁ ++ l₃ := by
  rcases eq_nil_or_concat l₂ with rfl | ⟨l₃, b, rfl⟩
  · exact .inl ⟨by rw [h, append_nil], rfl⟩
  · rw [List.concat_eq_append, ← append_assoc] at h
    obtain ⟨rfl, hb⟩ := append_inj' h rfl
    cases hb
    exact .inr ⟨l₃, List.concat_eq_append, rfl⟩

lemma countP_eq_add_rtakeWhile (p : α → Bool) (l : List α) :
    l.countP p = (l.rdropWhile p).countP p + (l.rtakeWhile p).length := by
  have hblc : (l.rtakeWhile p).countP p = (l.rtakeWhile p).length :=
    countP_eq_length.mpr fun _ ha => mem_rtakeWhile_imp ha
  conv_lhs => rw [← rdropWhile_append_rtakeWhile (p := p) (l := l)]
  rw [countP_append, hblc]

lemma length_rtakeWhile_le_countP (p : α → Bool) (l : List α) :
    (l.rtakeWhile p).length ≤ l.countP p := by
  rw [countP_eq_add_rtakeWhile p l]
  omega

lemma endBlock_of_countP_le (h : l.countP p ≤ (l.rtakeWhile p).length) : EndBlock p l := by
  have hzero : (l.rdropWhile p).countP p = 0 := by
    have hsum := countP_eq_add_rtakeWhile p l
    omega
  refine ⟨l.rdropWhile p, l.rtakeWhile p, rdropWhile_append_rtakeWhile.symm, ?_,
    fun _ ha => mem_rtakeWhile_imp ha⟩
  intro a ha
  exact Bool.eq_false_iff.mpr (countP_eq_zero.mp hzero a ha)

lemma EndBlock.length_rtakeWhile (h : EndBlock p l) : (l.rtakeWhile p).length = l.countP p := by
  obtain ⟨before, block, rfl, hbef, hblc⟩ := h
  have hnone : before.countP p = 0 :=
    countP_eq_zero.mpr fun a ha => Bool.eq_false_iff.mp (hbef a ha)
  have hall : block.countP p = block.length := countP_eq_length.mpr hblc
  have hrev : ∀ a ∈ block.reverse, p a = true := fun a ha =>
    hblc a (mem_reverse.mp ha)
  rw [countP_append, hnone, hall, Nat.zero_add, List.rtakeWhile, reverse_append,
    takeWhile_append_of_pos hrev, length_reverse, length_append,
    length_reverse]
  have hstop : before.reverse.takeWhile p = [] := by
    rw [takeWhile_eq_nil_iff]
    intro hpos
    exact Bool.eq_false_iff.mp (hbef _ (mem_reverse.mp (getElem_mem hpos)))
  rw [hstop, length_nil, Nat.add_zero]

lemma EndBlock.oneBlock_concat (h : EndBlock p l) (ha : p a = true) : OneBlock p (l ++ [a]) := by
  obtain ⟨before, block, rfl, hbef, hblc⟩ := h
  refine ⟨before, block ++ [a], [], by simp, hbef, ?_, by simp⟩
  intro b hb
  rcases mem_append.mp hb with hb | hb
  · exact hblc b hb
  · cases mem_singleton.mp hb
    exact ha

lemma OneBlock.concat_of_false (h : OneBlock p l) (ha : p a = false) :
    OneBlock p (l ++ [a]) := by
  obtain ⟨before, block, after, rfl, hbef, hblc, haft⟩ := h
  refine ⟨before, block, after ++ [a], by simp, hbef, hblc, ?_⟩
  intro b hb
  rcases mem_append.mp hb with hb | hb
  · exact haft b hb
  · cases mem_singleton.mp hb
    exact ha

lemma OneBlock.endBlock_of_streak (h : OneBlock p l) (hpos : 0 < (l.rtakeWhile p).length) :
    EndBlock p l := by
  obtain ⟨before, block, after, rfl, hbef, hblc, haft⟩ := h
  rcases eq_nil_or_concat after with rfl | ⟨after, b, rfl⟩
  · exact ⟨before, block, by simp, hbef, hblc⟩
  · have hb : p b = false := haft b (by simp)
    rw [List.concat_eq_append, ← append_assoc, rtakeWhile_concat,
      if_neg (by rw [hb]; exact Bool.false_ne_true)] at hpos
    cases hpos

lemma EndBlock.oneBlock (h : EndBlock p l) : OneBlock p l := by
  obtain ⟨before, block, rfl, hbef, hblc⟩ := h
  exact ⟨before, block, [], by simp, hbef, hblc, by simp⟩

lemma OneBlock.concat_cases (h : OneBlock p (l ++ [a])) :
    (p a = false ∧ OneBlock p l) ∨ EndBlock p l := by
  obtain ⟨before, block, after, hl, hbef, hblc, haft⟩ := h
  rcases concat_eq_append hl with ⟨hbloc, -⟩ | ⟨after, rfl, rfl⟩
  · right
    rcases concat_eq_append hbloc.symm with ⟨rfl, rfl⟩ | ⟨block, rfl, rfl⟩
    · exact ⟨l, [], by simp, fun b hb => hbef b (by simp [hb]), by simp⟩
    · exact ⟨before, block, rfl, hbef, fun b hb => hblc b (by simp [hb])⟩
  · left
    exact ⟨haft a (by simp), before, block, after, rfl, hbef, hblc,
      fun b hb => haft b (by simp [hb])⟩

lemma OneBlock.endBlock (h : OneBlock p (l ++ [a])) (ha : p a = true) : EndBlock p l := by
  rcases h.concat_cases with ⟨hfal, -⟩ | h
  · rw [ha] at hfal
    cases hfal
  · exact h

lemma OneBlock.of_concat (h : OneBlock p (l ++ [a])) : OneBlock p l := by
  rcases h.concat_cases with ⟨-, h⟩ | h
  · exact h
  · exact h.oneBlock

end
end Mxrc.Lib
