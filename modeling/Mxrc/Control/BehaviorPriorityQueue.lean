import Mathlib

/-!
# Behavior requests and their priority queue

`Priority` is an eight-bit enumeration; values outside its five enumerators are
`unknown`, and `push` refuses them. A queued request carries a ticket, the
number of the accepting call, by which equal requests are told apart; the code
has no such number and no function reads it.
-/

namespace Mxrc.Control
open Multiset

inductive Priority
  | emergencyStop
  | safetyIssue
  | urgentTask
  | normalTask
  | maintenance
  | unknown (k : Fin 251)
deriving DecidableEq

def Priority.toNat : Priority → ℕ
  | .emergencyStop => 0
  | .safetyIssue => 1
  | .urgentTask => 2
  | .normalTask => 3
  | .maintenance => 4
  | .unknown k => 5 + k

instance : LT Priority := ⟨fun p q => p.toNat < q.toNat⟩

instance : LE Priority := ⟨fun p q => p.toNat ≤ q.toNat⟩

instance (p q : Priority) : Decidable (p < q) := inferInstanceAs (Decidable (p.toNat < q.toNat))

instance (p q : Priority) : Decidable (p ≤ q) := inferInstanceAs (Decidable (p.toNat ≤ q.toNat))

def canPreempt (priority : Priority) : Bool := priority ≤ .urgentTask

structure BehaviorRequest (τ : Type) where
  behaviorId : String
  priority : Priority
  task : τ
  cancellable : Bool
deriving DecidableEq

structure Accepted (τ : Type) extends BehaviorRequest τ where
  ticket : ℕ
deriving DecidableEq

structure BehaviorPriorityQueue (τ : Type) where
  emergencyStop : List (Accepted τ)
  safetyIssue : List (Accepted τ)
  urgentTask : List (Accepted τ)
  normalTask : List (Accepted τ)
  maintenance : List (Accepted τ)
deriving DecidableEq

namespace BehaviorPriorityQueue
variable {τ : Type}

def empty : BehaviorPriorityQueue τ := ⟨[], [], [], [], []⟩

def push (q : BehaviorPriorityQueue τ) (request : Accepted τ) :
    Option (BehaviorPriorityQueue τ) :=
  match request.priority with
  | .emergencyStop => some { q with emergencyStop := q.emergencyStop ++ [request] }
  | .safetyIssue => some { q with safetyIssue := q.safetyIssue ++ [request] }
  | .urgentTask => some { q with urgentTask := q.urgentTask ++ [request] }
  | .normalTask => some { q with normalTask := q.normalTask ++ [request] }
  | .maintenance => some { q with maintenance := q.maintenance ++ [request] }
  | .unknown _ => none

def pop (q : BehaviorPriorityQueue τ) : Option (Accepted τ × BehaviorPriorityQueue τ) :=
  match q.emergencyStop with
  | r :: rs => some (r, { q with emergencyStop := rs })
  | [] => match q.safetyIssue with
    | r :: rs => some (r, { q with safetyIssue := rs })
    | [] => match q.urgentTask with
      | r :: rs => some (r, { q with urgentTask := rs })
      | [] => match q.normalTask with
        | r :: rs => some (r, { q with normalTask := rs })
        | [] => match q.maintenance with
          | r :: rs => some (r, { q with maintenance := rs })
          | [] => none

def toList (q : BehaviorPriorityQueue τ) : List (Accepted τ) :=
  q.emergencyStop ++ (q.safetyIssue ++ (q.urgentTask ++ (q.normalTask ++ q.maintenance)))

@[simp] lemma toList_empty : (empty : BehaviorPriorityQueue τ).toList = [] := rfl

lemma toList_push {q q' : BehaviorPriorityQueue τ} {r : Accepted τ} (h : q.push r = some q') :
    q'.toList.Perm (r :: q.toList) := by
  rw [← coe_eq_coe, ← cons_coe, ← singleton_add]
  rw [push] at h
  split at h <;> cases h <;>
    simp only [toList, ← coe_add, coe_singleton] <;> abel

lemma toList_pop {q q' : BehaviorPriorityQueue τ} {r : Accepted τ}
    (h : q.pop = some (r, q')) : q.toList = r :: q'.toList := by
  rw [pop] at h
  repeat' split at h
  all_goals cases h <;> simp [toList, *]

end BehaviorPriorityQueue
end Mxrc.Control
