import Mathlib

/-!
# Windows of a memory

A memory gives a cell for every address. A store changes the cells of its window
and no others, so windows that lie apart do not see each other's stores.
-/

namespace Mxrc.Lib
open List
variable {α : Type*}

def store (m : ℕ → α) (address : ℕ) (cells : List α) : ℕ → α := fun a =>
  if address ≤ a then cells.getD (a - address) (m a) else m a

def load (m : ℕ → α) (address size : ℕ) : List α :=
  (List.range size).map fun i => m (address + i)

def Apart (address size address' size' : ℕ) : Prop :=
  address + size ≤ address' ∨ address' + size' ≤ address

lemma load_store_self (m : ℕ → α) (address : ℕ) (cells : List α) :
    load (store m address cells) address cells.length = cells := by
  apply ext_getElem
  · simp [load]
  · intro i _ hi
    simp [load, store, hi]

lemma load_store_of_apart {m : ℕ → α} {address address' size : ℕ} {cells : List α}
    (h : Apart address cells.length address' size) :
    load (store m address cells) address' size = load m address' size := by
  refine map_congr_left fun i hi => ?_
  rw [mem_range] at hi
  rw [store]
  split_ifs with hle
  · rcases h with h | h
    · rw [getD_eq_default _ _ (by omega)]
    · omega
  · rfl

lemma load_foldl_store {β : Type*} (address : β → ℕ) (cells : β → List α) {address' size : ℕ}
    (ws : List β) (h : ∀ w ∈ ws, Apart (address w) (cells w).length address' size) (m : ℕ → α) :
    load (ws.foldl (fun m w => store m (address w) (cells w)) m) address' size =
      load m address' size := by
  induction ws generalizing m with
  | nil => rfl
  | cons w ws ih =>
    rw [foldl_cons, ih (fun w' hw' => h w' (mem_cons_of_mem w hw')),
      load_store_of_apart (h w mem_cons_self)]

end Mxrc.Lib
