import Mathlib

/-!
# Lower bound by bisection

The loop of `std::lower_bound` over the first position and the length of the
range that is left. `below i` says that element `i` is smaller than the value
searched for. The loop takes fuel; the length of the range is enough.
-/

namespace Mxrc.Lib

def lowerBoundLoop (below : ℕ → Bool) : ℕ → ℕ → ℕ → ℕ
  | 0, first, _ => first
  | fuel + 1, first, len =>
    if len = 0 then first
    else if below (first + len / 2) then
      lowerBoundLoop below fuel (first + len / 2 + 1) (len - len / 2 - 1)
    else lowerBoundLoop below fuel first (len / 2)

def lowerBound (below : ℕ → Bool) (n : ℕ) : ℕ := lowerBoundLoop below n 0 n

variable {below : ℕ → Bool}

lemma lowerBoundLoop_spec (hmono : ∀ i j, i ≤ j → below j = true → below i = true)
    {fuel first len : ℕ} (hfuel : len ≤ fuel) (hfir : ∀ i < first, below i = true)
    (hlast : ∀ i, first + len ≤ i → below i = false) :
    (∀ i < lowerBoundLoop below fuel first len, below i = true) ∧
      ∀ i, lowerBoundLoop below fuel first len ≤ i → below i = false := by
  induction fuel generalizing first len with
  | zero =>
    obtain rfl : len = 0 := by omega
    exact ⟨hfir, hlast⟩
  | succ fuel ih =>
    rw [lowerBoundLoop]
    split_ifs with hlen hbel
    · subst hlen
      exact ⟨hfir, hlast⟩
    · refine ih (by omega) ?_ ?_
      · intro i hi
        exact hmono i _ (by omega) hbel
      · intro i hi
        exact hlast i (by omega)
    · refine ih (by omega) hfir ?_
      intro i hi
      by_contra hne
      exact hbel (hmono _ i hi (by simpa using hne))

lemma lowerBound_spec {n : ℕ} (hmono : ∀ i j, i ≤ j → below j = true → below i = true)
    (hlast : ∀ i, n ≤ i → below i = false) :
    (∀ i < lowerBound below n, below i = true) ∧ ∀ i, lowerBound below n ≤ i → below i = false := by
  refine lowerBoundLoop_spec hmono le_rfl (fun i hi => absurd hi (Nat.not_lt_zero i)) ?_
  intro i hi
  exact hlast i (by omega)

end Mxrc.Lib
