import Mxrc.Lib.Runs

/-!
# Bounded FIFO queues

The abstract queue of at most `n` elements. `Admits` says which answers the
queue may give, and `History` that every call of a list was answered in this
way. `queued` is what was pushed without what was popped.
-/

namespace Mxrc.Lib.Fifo
open List
variable {α : Type*}

inductive Call (α : Type*)
  | push (item : α) (ok : Bool)
  | pop (answer : Option α)
deriving DecidableEq

def Admits (n : ℕ) (queue : List α) : Call α → Prop
  | .push _ true => queue.length < n
  | .push _ false => queue.length = n
  | .pop (some item) => queue.head? = some item
  | .pop none => queue = []

def apply (queue : List α) : Call α → List α
  | .push item true => queue ++ [item]
  | .pop (some _) => queue.tail
  | .push _ false | .pop none => queue

def Call.pushed : Call α → Option α
  | .push item true => some item
  | _ => none

def Call.popped : Call α → Option α
  | .pop answer => answer
  | .push _ _ => none

def pushed (calls : List (Call α)) : List α := calls.filterMap Call.pushed

def popped (calls : List (Call α)) : List α := calls.filterMap Call.popped

def queued (calls : List (Call α)) : List α := (pushed calls).drop (popped calls).length

def History (n : ℕ) (calls : List (Call α)) : Prop :=
  ∃ queue, Run (fun queue call => some (apply queue call)) (Admits n) [] calls queue

lemma pushed_append (calls : List (Call α)) (call : Call α) :
    pushed (calls ++ [call]) = pushed calls ++ call.pushed.toList := by
  rw [pushed, filterMap_append, pushed]
  cases h : call.pushed <;> simp [h]

lemma popped_append (calls : List (Call α)) (call : Call α) :
    popped (calls ++ [call]) = popped calls ++ call.popped.toList := by
  rw [popped, filterMap_append, popped]
  cases h : call.popped <;> simp [h]

variable {n : ℕ} {calls : List (Call α)} {call : Call α}

lemma pushed_eq_of_run {queue : List α}
    (h : Run (fun queue call => some (apply queue call)) (Admits n) [] calls queue) :
    pushed calls = popped calls ++ queue := by
  refine h.invariant_history (fun calls queue => pushed calls = popped calls ++ queue) rfl ?_
  intro calls queue call queue' heq hadm hnext
  cases hnext
  rw [pushed_append, popped_append, heq]
  cases call with
  | push item ok => cases ok <;> simp [Call.pushed, Call.popped, apply]
  | pop answer =>
    cases answer with
    | none => simp [Call.pushed, Call.popped, apply]
    | some item =>
      obtain ⟨rest, rfl⟩ := head?_eq_some_iff.mp hadm
      simp [Call.pushed, Call.popped, apply]

lemma queued_eq_of_run {queue : List α}
    (h : Run (fun queue call => some (apply queue call)) (Admits n) [] calls queue) :
    queued calls = queue := by
  rw [queued, pushed_eq_of_run h, drop_left]

lemma History.run (h : History n calls) :
    Run (fun queue call => some (apply queue call)) (Admits n) [] calls (queued calls) := by
  obtain ⟨queue, hrun⟩ := h
  rwa [queued_eq_of_run hrun]

lemma History.nil : History n ([] : List (Call α)) := ⟨[], .nil⟩

lemma History.snoc (h : History n calls) (hadm : Admits n (queued calls) call) :
    History n (calls ++ [call]) :=
  ⟨_, h.run.snoc hadm rfl⟩

lemma History.queued_snoc (h : History n calls) (hadm : Admits n (queued calls) call) :
    queued (calls ++ [call]) = apply (queued calls) call :=
  queued_eq_of_run (h.run.snoc hadm rfl)

lemma History.admits (h : History n (calls ++ [call])) : Admits n (queued calls) call := by
  obtain ⟨queue, hrun⟩ := h
  obtain ⟨queue, hcal, hadm, -⟩ := hrun.snoc_inv
  rwa [queued_eq_of_run hcal]

lemma History.order (h : History n calls) : popped calls <+: pushed calls :=
  ⟨queued calls, (pushed_eq_of_run h.run).symm⟩

lemma History.length_le (h : History n calls) : (queued calls).length ≤ n := by
  refine h.run.invariant (fun queue => queue.length ≤ n) (Nat.zero_le n) ?_
  intro queue call queue' hle hadm hnext
  cases hnext
  cases call with
  | push item ok =>
    cases ok with
    | true =>
      rw [apply, length_append]
      exact hadm
    | false => exact hle
  | pop answer =>
    cases answer with
    | none => exact hle
    | some item =>
      rw [apply, length_tail]
      omega

end Mxrc.Lib.Fifo
