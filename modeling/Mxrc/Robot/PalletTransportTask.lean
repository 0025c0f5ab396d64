import Mxrc.Control.BehaviorArbiter

/-!
# The pallet transport task

Each call of `PalletTransportTask` is allowed in one status and throws in every
other. The sequence behind it is a mock. The arbiter holds tasks by reference,
so several behaviors may have the same one: the tasks are the objects of a
world.
-/

namespace Mxrc.Robot
open Mxrc.Control

structure PalletTransportTask where
  taskId : String
  status : TaskStatus
deriving DecidableEq

namespace PalletTransportTask

def move (required target : TaskStatus) (complaint : String) (t : PalletTransportTask) :
    Option String × PalletTransportTask :=
  if t.status ≠ required then (some (complaint ++ t.taskId), t)
  else (none, { t with status := target })

def start : PalletTransportTask → Option String × PalletTransportTask :=
  move .idle .running "Task already started: "

def stop : PalletTransportTask → Option String × PalletTransportTask :=
  move .running .cancelled "Task not running: "

def pause : PalletTransportTask → Option String × PalletTransportTask :=
  move .running .paused "Task not running: "

def resume : PalletTransportTask → Option String × PalletTransportTask :=
  move .paused .running "Task not paused: "

abbrev Objects := ℕ → PalletTransportTask

def call (method : PalletTransportTask → Option String × PalletTransportTask) (task : ℕ)
    (w : Objects) : Option String × Objects :=
  ((method (w task)).1, Function.update w task (method (w task)).2)

def api : TaskApi ℕ Objects where
  getStatus task w := (w task).status
  start := call start
  stop := call stop
  pause := call pause
  resume := call resume

variable {required target : TaskStatus} {complaint : String} {task : ℕ} {w : Objects}

lemma call_move_of_eq (h : (w task).status = required) :
    call (move required target complaint) task w =
      (none, Function.update w task { w task with status := target }) := by
  simp [call, move, h]

lemma call_move_of_ne (h : (w task).status ≠ required) :
    (call (move required target complaint) task w).1 = some (complaint ++ (w task).taskId) := by
  simp [call, move, h]

end PalletTransportTask
end Mxrc.Robot
