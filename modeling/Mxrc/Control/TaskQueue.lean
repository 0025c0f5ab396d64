import Mxrc.Control.BehaviorPriorityQueue
import Mxrc.Lib.PriorityFifo
import Mxrc.Lib.Runs

/-!
# The task queue

Five FIFO queues, one for each priority, and a map from the queued ids to their
priorities. Every operation holds the mutex. The abstract queue lists the tasks
in the order of their arrival; `Represents` reads the sub-queues and the map off
it.
-/

namespace Mxrc.Control
open Mxrc.Lib List

structure TaskQueue (τ : Type) where
  emergencyStop : List τ
  safetyIssue : List τ
  urgentTask : List τ
  normalTask : List τ
  maintenance : List τ
  taskPriorityMap : AList (fun _ : String => Priority)

namespace TaskQueue
variable {τ : Type}

def empty : TaskQueue τ := ⟨[], [], [], [], [], ∅⟩

def getQueue (q : TaskQueue τ) : Priority → List τ
  | .emergencyStop => q.emergencyStop
  | .safetyIssue => q.safetyIssue
  | .urgentTask => q.urgentTask
  | .normalTask => q.normalTask
  | .maintenance => q.maintenance
  | .unknown _ => q.normalTask

def setQueue (q : TaskQueue τ) (priority : Priority) (tasks : List τ) : TaskQueue τ :=
  match priority with
  | .emergencyStop => { q with emergencyStop := tasks }
  | .safetyIssue => { q with safetyIssue := tasks }
  | .urgentTask => { q with urgentTask := tasks }
  | .normalTask => { q with normalTask := tasks }
  | .maintenance => { q with maintenance := tasks }
  | .unknown _ => { q with normalTask := tasks }

def size (q : TaskQueue τ) : ℕ :=
  q.emergencyStop.length + q.safetyIssue.length + q.urgentTask.length + q.normalTask.length +
    q.maintenance.length

def getAllTasks (q : TaskQueue τ) : List τ :=
  q.emergencyStop ++ q.safetyIssue ++ q.urgentTask ++ q.normalTask ++ q.maintenance

def peek (q : TaskQueue τ) : Option τ :=
  q.emergencyStop.head? <|> q.safetyIssue.head? <|> q.urgentTask.head? <|> q.normalTask.head? <|>
    q.maintenance.head?

def clear (_ : TaskQueue τ) : TaskQueue τ := empty

section
variable (getId : τ → String)

def enqueue (q : TaskQueue τ) (task : τ) (priority : Priority) : Bool × TaskQueue τ :=
  match q.taskPriorityMap.lookup (getId task) with
  | some _ => (false, q)
  | none =>
    (true, { q.setQueue priority (q.getQueue priority ++ [task]) with
      taskPriorityMap := q.taskPriorityMap.insert (getId task) priority })

def popFrom (q : TaskQueue τ) (priority : Priority) : Option (τ × TaskQueue τ) :=
  match q.getQueue priority with
  | [] => none
  | task :: tasks =>
    some (task, { q.setQueue priority tasks with
      taskPriorityMap := q.taskPriorityMap.erase (getId task) })

def dequeue (q : TaskQueue τ) : Option τ × TaskQueue τ :=
  match q.popFrom getId .emergencyStop <|> q.popFrom getId .safetyIssue <|>
      q.popFrom getId .urgentTask <|> q.popFrom getId .normalTask <|>
      q.popFrom getId .maintenance with
  | some (task, q') => (some task, q')
  | none => (none, q)

def remove (q : TaskQueue τ) (taskId : String) : Bool × TaskQueue τ :=
  match q.taskPriorityMap.lookup taskId with
  | none => (false, q)
  | some priority =>
    if (q.getQueue priority).any (getId · = taskId) then
      (true, { q.setQueue priority ((q.getQueue priority).eraseP (getId · = taskId)) with
        taskPriorityMap := q.taskPriorityMap.erase taskId })
    else (false, q)

inductive Op (τ : Type)
  | enqueue (task : τ) (priority : Priority)
  | dequeue
  | remove (taskId : String)
  | clear

def next (q : TaskQueue τ) : Op τ → Option (TaskQueue τ)
  | .enqueue task priority => some (q.enqueue getId task priority).2
  | .dequeue => some (q.dequeue getId).2
  | .remove taskId => some (q.remove getId taskId).2
  | .clear => some q.clear

end

def levels : List Priority :=
  [.emergencyStop, .safetyIssue, .urgentTask, .normalTask, .maintenance]

def Known (_ : TaskQueue τ) : Op τ → Prop
  | .enqueue _ priority => priority ∈ levels
  | _ => True

section
variable (getId : τ → String)

def arrive (l : List (Priority × τ)) : Op τ → List (Priority × τ)
  | .enqueue task priority => PriorityFifo.enqueue getId task priority l
  | .dequeue => PriorityFifo.dequeue getId levels l
  | .remove taskId => PriorityFifo.without getId taskId l
  | .clear => []

def arrivals (ops : List (Op τ)) : List (Priority × τ) := ops.foldl (arrive getId) []

def RefinesPriorityFifo (ops : List (Op τ)) : Prop :=
  ∀ q, Run (next getId) Known empty ops q →
    (∀ taskId, taskId ∈ q.taskPriorityMap ↔ ∃ task ∈ q.getAllTasks, getId task = taskId) ∧
    (∀ taskId priority, q.taskPriorityMap.lookup taskId = some priority →
      priority ∈ levels ∧ ∀ p ∈ levels,
        (q.getQueue p).countP (getId · = taskId) = if p = priority then 1 else 0) ∧
    q.getAllTasks = PriorityFifo.ordered levels (arrivals getId ops) ∧
    (q.dequeue getId).1 = q.getAllTasks.head? ∧
    q.peek = q.getAllTasks.head? ∧
    q.size = q.getAllTasks.length ∧
    ∀ taskId, ((q.remove getId taskId).1 = true ↔ ∃ task ∈ q.getAllTasks, getId task = taskId) ∧
      (q.remove getId taskId).2.getAllTasks = q.getAllTasks.filter (getId · ≠ taskId)

end

lemma getQueue_setQueue {q : TaskQueue τ} {priority p : Priority} {tasks : List τ}
    (hprior : priority ∈ levels) (hp : p ∈ levels) :
    (q.setQueue priority tasks).getQueue p = if p = priority then tasks else q.getQueue p := by
  cases priority <;> cases p <;> simp [levels] at hprior hp <;> rfl

lemma getAllTasks_eq (q : TaskQueue τ) : q.getAllTasks = levels.flatMap q.getQueue := by
  simp [getAllTasks, levels, getQueue]

lemma peek_eq (q : TaskQueue τ) : q.peek = q.getAllTasks.head? := by
  simp [peek, getAllTasks, head?_append]

lemma size_eq (q : TaskQueue τ) : q.size = q.getAllTasks.length := by
  simp [size, getAllTasks, add_assoc]

section
variable {getId : τ → String} {q : TaskQueue τ} {l : List (Priority × τ)} {priority : Priority}
  {task : τ} {taskId : String}

lemma dequeue_eq (getId : τ → String) (q : TaskQueue τ) :
    q.dequeue getId = match levels.findSome? (q.popFrom getId) with
      | some (task, q') => (some task, q')
      | none => (none, q) := by
  rw [dequeue]
  congr 1
  simp only [levels, findSome?_cons, findSome?_nil]
  cases q.popFrom getId .emergencyStop <;> cases q.popFrom getId .safetyIssue <;>
    cases q.popFrom getId .urgentTask <;> cases q.popFrom getId .normalTask <;>
    cases q.popFrom getId .maintenance <;> rfl

lemma findSome?_popFrom (getId : τ → String) (q : TaskQueue τ) (ps : List Priority) :
    (ps.flatMap q.getQueue = [] ∧ ps.findSome? (q.popFrom getId) = none) ∨
    ∃ priority ∈ ps, ∃ task q', q.popFrom getId priority = some (task, q') ∧
      (ps.flatMap q.getQueue).head? = some task ∧
      ps.findSome? (q.popFrom getId) = some (task, q') := by
  induction ps with
  | nil => exact Or.inl ⟨rfl, rfl⟩
  | cons p ps ih =>
    rw [flatMap_cons, findSome?_cons]
    cases hqu : q.getQueue p with
    | nil =>
      have hpop : q.popFrom getId p = none := by simp [popFrom, hqu]
      rw [hpop, nil_append]
      rcases ih with hnone | ⟨priority, hmem, task, q', hsome⟩
      · exact Or.inl hnone
      · exact Or.inr ⟨priority, mem_cons_of_mem _ hmem, task, q', hsome⟩
    | cons task tasks =>
      have hpop : q.popFrom getId p = some (task, { q.setQueue p tasks with
          taskPriorityMap := q.taskPriorityMap.erase (getId task) }) := by
        simp [popFrom, hqu]
      rw [hpop]
      exact Or.inr ⟨p, mem_cons_self, task, _, hpop, rfl, rfl⟩

lemma dequeue_cases (getId : τ → String) (q : TaskQueue τ) :
    (q.getAllTasks = [] ∧ q.dequeue getId = (none, q)) ∨
    ∃ priority ∈ levels, ∃ task q', q.popFrom getId priority = some (task, q') ∧
      q.getAllTasks.head? = some task ∧ q.dequeue getId = (some task, q') := by
  rw [dequeue_eq, getAllTasks_eq]
  rcases findSome?_popFrom getId q levels with ⟨hemp, hnone⟩ |
    ⟨priority, hmem, task, q', hpop, hhead, hsome⟩
  · exact Or.inl ⟨hemp, by rw [hnone]⟩
  · exact Or.inr ⟨priority, hmem, task, q', hpop, hhead, by rw [hsome]⟩

structure Represents (getId : τ → String) (l : List (Priority × τ)) (q : TaskQueue τ) : Prop where
  distinct : PriorityFifo.Distinct getId l
  known : ∀ e ∈ l, e.1 ∈ levels
  queue : ∀ p ∈ levels, q.getQueue p = PriorityFifo.level l p
  map : ∀ taskId, q.taskPriorityMap.lookup taskId = PriorityFifo.levelOf getId l taskId

lemma represents_empty (getId : τ → String) : Represents getId [] empty where
  distinct := List.nodup_nil
  known := by simp
  queue p _ := by cases p <;> rfl
  map _ := rfl

section
variable (h : Represents getId l q)
include h

lemma Represents.getAllTasks_eq : q.getAllTasks = PriorityFifo.ordered levels l := by
  rw [TaskQueue.getAllTasks_eq]
  exact flatMap_congr h.queue

lemma Represents.mem_getAllTasks : task ∈ q.getAllTasks ↔ ∃ e ∈ l, e.2 = task := by
  rw [h.getAllTasks_eq, PriorityFifo.mem_ordered]
  constructor
  · rintro ⟨p, -, hmem⟩
    exact ⟨_, hmem, rfl⟩
  · rintro ⟨e, hmem, rfl⟩
    exact ⟨e.1, h.known e hmem, hmem⟩

lemma Represents.lookup_eq_none_iff :
    q.taskPriorityMap.lookup taskId = none ↔ ∀ task ∈ q.getAllTasks, getId task ≠ taskId := by
  rw [h.map, PriorityFifo.levelOf_eq_none_iff]
  constructor
  · intro hne task htask
    obtain ⟨e, he, rfl⟩ := h.mem_getAllTasks.mp htask
    exact hne e he
  · intro hne e he
    exact hne e.2 (h.mem_getAllTasks.mpr ⟨e, he, rfl⟩)

lemma Represents.level_mem (hlk : q.taskPriorityMap.lookup taskId = some priority) :
    priority ∈ levels ∧ ∃ task ∈ q.getQueue priority, getId task = taskId := by
  rw [h.map] at hlk
  obtain ⟨task, hmem, hid⟩ := PriorityFifo.exists_of_levelOf hlk
  have hknw := h.known _ hmem
  refine ⟨hknw, task, ?_, hid⟩
  rw [h.queue _ hknw]
  simpa [PriorityFifo.level] using hmem

lemma Represents.enqueue (hprior : priority ∈ levels) :
    Represents getId (PriorityFifo.enqueue getId task priority l)
      (q.enqueue getId task priority).2 := by
  rw [TaskQueue.enqueue, PriorityFifo.enqueue, h.map]
  cases hlev : PriorityFifo.levelOf getId l (getId task) with
  | some p => exact h
  | none =>
    constructor
    case distinct => exact h.distinct.snoc hlev priority
    case known =>
      intro e he
      rcases mem_append.mp he with he | he
      · exact h.known e he
      · cases mem_singleton.mp he
        exact hprior
    case queue =>
      intro p hp
      refine (getQueue_setQueue hprior hp).trans ?_
      rw [PriorityFifo.level_append, h.queue priority hprior, h.queue p hp]
      by_cases heq : p = priority
      · simp [heq]
      · simp [heq]
    case map =>
      intro taskId
      rw [PriorityFifo.levelOf_append hlev, ← h.map]
      by_cases heq : taskId = getId task
      · subst heq
        simp
      · simp [heq, AList.lookup_insert_ne heq]

lemma Represents.without (hlk : q.taskPriorityMap.lookup taskId = some priority) :
    Represents getId (PriorityFifo.without getId taskId l)
      { q.setQueue priority ((q.getQueue priority).eraseP (getId · = taskId)) with
        taskPriorityMap := q.taskPriorityMap.erase taskId } := by
  obtain ⟨hprior, -⟩ := h.level_mem hlk
  rw [h.map] at hlk
  constructor
  case distinct => exact h.distinct.without taskId
  case known => exact fun e he => h.known e (mem_of_mem_filter he)
  case queue =>
    intro p hp
    refine (getQueue_setQueue hprior hp).trans ?_
    rw [h.distinct.level_without hlk, h.queue p hp, h.queue priority hprior]
  case map =>
    intro id
    rw [PriorityFifo.levelOf_without, ← h.map]
    by_cases heq : id = taskId
    · subst heq
      simp
    · simp [heq, AList.lookup_erase_ne heq]

end

lemma remove_of_lookup_eq_none (hlk : q.taskPriorityMap.lookup taskId = none) :
    q.remove getId taskId = (false, q) := by
  rw [TaskQueue.remove, hlk]

lemma Represents.remove_of_lookup (h : Represents getId l q)
    (hlk : q.taskPriorityMap.lookup taskId = some priority) :
    q.remove getId taskId =
      (true, { q.setQueue priority ((q.getQueue priority).eraseP (getId · = taskId)) with
        taskPriorityMap := q.taskPriorityMap.erase taskId }) := by
  obtain ⟨-, task, hmem, hid⟩ := h.level_mem hlk
  have hany : (q.getQueue priority).any (getId · = taskId) = true :=
    any_eq_true.mpr ⟨task, hmem, by simpa using hid⟩
  rw [TaskQueue.remove, hlk]
  exact if_pos hany

lemma Represents.remove (h : Represents getId l q) (taskId : String) :
    Represents getId (PriorityFifo.without getId taskId l) (q.remove getId taskId).2 := by
  cases hlk : q.taskPriorityMap.lookup taskId with
  | none =>
    rw [remove_of_lookup_eq_none hlk]
    rw [h.map] at hlk
    rwa [PriorityFifo.without_eq_self (PriorityFifo.levelOf_eq_none_iff.mp hlk)]
  | some priority =>
    rw [h.remove_of_lookup hlk]
    exact h.without hlk

lemma Represents.dequeue (h : Represents getId l q) :
    Represents getId (PriorityFifo.dequeue getId levels l) (q.dequeue getId).2 := by
  rw [PriorityFifo.dequeue, ← h.getAllTasks_eq]
  rcases dequeue_cases getId q with ⟨hemp, hnone⟩ | ⟨priority, hp, task, q', hpop, hhead, hsome⟩
  · rw [hemp, hnone]
    exact h
  · rw [hhead, hsome]
    rw [popFrom] at hpop
    split at hpop
    · cases hpop
    · rename_i task' tasks hqu
      cases hpop
      have hlk : q.taskPriorityMap.lookup (getId task) = some priority := by
        have hcnt := h.distinct.countP_level (getId task) priority
        rw [← h.queue priority hp, hqu, ← h.map] at hcnt
        by_contra hne
        simp [hne] at hcnt
      have hwit := h.without hlk
      rw [hqu, eraseP_cons_of_pos (by simp)] at hwit
      exact hwit

lemma Represents.next {op : Op τ} {q' : TaskQueue τ} (h : Represents getId l q)
    (hop : Known q op) (hn : next getId q op = some q') :
    Represents getId (arrive getId l op) q' := by
  cases op with
  | enqueue task priority =>
    cases hn
    exact h.enqueue hop
  | dequeue =>
    cases hn
    exact h.dequeue
  | remove taskId =>
    cases hn
    exact h.remove taskId
  | clear =>
    cases hn
    exact represents_empty getId

lemma represents_of_run {ops : List (Op τ)} (h : Run (TaskQueue.next getId) Known empty ops q) :
    Represents getId (arrivals getId ops) q := by
  refine h.invariant_history (fun ops q => Represents getId (arrivals getId ops) q)
    (represents_empty getId) fun ops q op q' hq hop hn => ?_
  rw [arrivals, foldl_append]
  exact hq.next hop hn

end

theorem refinesPriorityFifo (getId : τ → String) (ops : List (Op τ)) :
    RefinesPriorityFifo getId ops := by
  intro q hrun
  have h := represents_of_run hrun
  have hmem : ∀ taskId, q.taskPriorityMap.lookup taskId ≠ none ↔
      ∃ task ∈ q.getAllTasks, getId task = taskId := by
    intro taskId
    rw [ne_eq, h.lookup_eq_none_iff]
    push Not
    rfl
  refine ⟨?_, ?_, h.getAllTasks_eq, ?_, peek_eq q, size_eq q, ?_⟩
  · intro taskId
    rw [← hmem, ne_eq, AList.lookup_eq_none, not_not]
  · intro taskId priority hlk
    refine ⟨(h.level_mem hlk).1, fun p hp => ?_⟩
    rw [h.queue p hp, h.distinct.countP_level, ← h.map, hlk]
    exact if_congr (by simp [eq_comm]) rfl rfl
  · rcases dequeue_cases getId q with ⟨hemp, hnone⟩ | ⟨-, -, task, q', -, hhead, hsome⟩
    · rw [hemp, hnone]
      rfl
    · rw [hhead, hsome]
  · intro taskId
    refine ⟨?_, ?_⟩
    · rw [← hmem]
      cases hlk : q.taskPriorityMap.lookup taskId with
      | none => simp [remove_of_lookup_eq_none hlk]
      | some priority => simp [h.remove_of_lookup hlk]
    · rw [(h.remove taskId).getAllTasks_eq, h.getAllTasks_eq, PriorityFifo.ordered_without]

end TaskQueue
end Mxrc.Control
