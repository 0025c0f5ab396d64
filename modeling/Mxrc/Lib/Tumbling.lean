import Mathlib

/-!
# Tumbling windows

Events are counted in windows of length `W` that begin with their first event,
so two windows can meet in an interval of length `W`. With at most `m` events in
a window, the interval has at most `m` of the later window, and of the earlier
one at most `b`.
-/

namespace Mxrc.Lib
open List

def within (a W : ℤ) (events : List ℤ) : ℕ := events.countP fun t => a ≤ t ∧ t ≤ a + W

/-- The window began at `start` with the events `current`; `previous` are those of the window
before. -/
structure Tumbling (W : ℤ) (m b : ℕ) (start last : ℤ) (old previous current : List ℤ) : Prop where
  old_lt : ∀ t ∈ old, t + W < start
  previous_lt : ∀ t ∈ previous, t < start
  previous_le : previous.countP (fun t => start ≤ t + W) ≤ b
  current_le : ∀ t ∈ current, t ≤ start + W
  length_current : current.length ≤ m
  anchored : b = m ∨ current = [] ∨ start ∈ current
  start_le : old ++ previous ≠ [] → start ≤ last
  bounded : ∀ a, within a W (old ++ previous ++ current) ≤ m + b

namespace Tumbling
variable {W : ℤ} {m b : ℕ} {start last t : ℤ} {old previous current : List ℤ}

lemma empty (start last : ℤ) : Tumbling W m b start last [] [] [] := by
  constructor <;> simp [within]

lemma later {last' : ℤ} (h : Tumbling W m b start last old previous current)
    (hlast : last ≤ last') : Tumbling W m b start last' old previous current :=
  { h with start_le := fun hne => (h.start_le hne).trans hlast }

lemma within_snoc_le {events : List ℤ} (hboun : ∀ a, within a W events ≤ m + b)
    (heven : events ++ [t] = old ++ previous ++ current) (hold : ∀ t' ∈ old, t' + W < t)
    (hprev : previous.countP (fun t' => t ≤ t' + W) ≤ b) (hcur : current.length ≤ m)
    (a : ℤ) : within a W (old ++ previous ++ current) ≤ m + b := by
  by_cases ht : a ≤ t ∧ t ≤ a + W
  · have hold' : within a W old = 0 := by
      rw [within, countP_eq_zero]
      intro t' ht'
      have := hold t' ht'
      simp only [decide_eq_true_eq]
      omega
    have hprev' : within a W previous ≤ b := by
      refine (countP_mono_left fun t' _ ht' => ?_).trans hprev
      simp only [decide_eq_true_eq] at ht' ⊢
      omega
    have hcur' : within a W current ≤ current.length := countP_le_length
    have hspl : within a W (old ++ previous ++ current) =
        within a W old + within a W previous + within a W current := by
      simp only [within, countP_append]
    omega
  · have hlast : within a W [t] = 0 := by
      rw [within, countP_eq_zero]
      simpa using ht
    rw [← heven, within, countP_append]
    simp only [within] at hlast hboun
    rw [hlast]
    exact hboun a

lemma extend (h : Tumbling W m b start last old previous current) (hlast : last ≤ t)
    (ht : t ≤ start + W) (hroom : current.length < m) (hanc : b = m ∨ current ≠ []) :
    Tumbling W m b start t old previous (current ++ [t]) := by
  have hstr : old ++ previous ≠ [] → start ≤ t := fun hne => (h.start_le hne).trans hlast
  refine ⟨h.old_lt, h.previous_lt, h.previous_le, ?_, by simpa using hroom, ?_, hstr,
    within_snoc_le h.bounded (append_assoc ..) ?_ ?_ (by simpa using hroom)⟩
  · intro t' ht'
    rcases mem_append.mp ht' with ht' | ht'
    · exact h.current_le t' ht'
    · rwa [mem_singleton.mp ht']
  · rcases hanc with hb | hne
    · exact .inl hb
    · rcases h.anchored with hb | hemp | hmem
      · exact .inl hb
      · exact absurd hemp hne
      · exact .inr (.inr (mem_append_left _ hmem))
  · intro t' ht'
    have hle := hstr (append_ne_nil_of_left_ne_nil (ne_nil_of_mem ht') _)
    exact (h.old_lt t' ht').trans_le hle
  · refine (countP_mono_left fun t' ht' hge => ?_).trans h.previous_le
    have hle := hstr (append_ne_nil_of_right_ne_nil _ (ne_nil_of_mem ht'))
    simp only [decide_eq_true_eq] at hge ⊢
    omega

lemma restart (h : Tumbling W m b start last old previous current) (hW : 0 ≤ W)
    (hm : 0 < m) (hb : m ≤ b + 1) (ht : start + W < t) :
    Tumbling W m b t t (old ++ previous) current [t] := by
  have hold : ∀ t' ∈ old ++ previous, t' + W < t := by
    intro t' ht'
    rcases mem_append.mp ht' with ht' | ht'
    · have := h.old_lt t' ht'
      omega
    · have := h.previous_lt t' ht'
      omega
  have hcur : current.countP (fun t' => t ≤ t' + W) ≤ b := by
    have hlen := h.length_current
    rcases h.anchored with hm | hemp | hmem
    · exact countP_le_length.trans (by omega)
    · simp [hemp]
    · have hlt : current.countP (fun t' => t ≤ t' + W) < current.length := by
        refine lt_of_le_of_ne countP_le_length fun hall => ?_
        have := countP_eq_length.mp hall start hmem
        simp only [decide_eq_true_eq] at this
        omega
      omega
  refine ⟨hold, ?_, hcur, by simpa using hW, hm, .inr (.inr (by simp)),
    fun _ => le_rfl, within_snoc_le h.bounded rfl hold hcur hm⟩
  intro t' ht'
  exact (h.current_le t' ht').trans_lt ht

end Tumbling
end Mxrc.Lib
