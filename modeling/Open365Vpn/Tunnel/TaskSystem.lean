import Mathlib.Logic.Function.Basic
import Open365Vpn.Lib.Runs

/-!
# The scheduler of the task system

`hev-task-system-schedule.c`: which of the running tasks has its turn. The tree of the running tasks is a list in the order of
their keys. The build has no clock for the scheduler, so a turn counts one, and the 64 bits of a key last for more turns than a
device can give: keys are natural numbers.
-/

namespace Open365Vpn

/-- `HEV_TASK_PRIORITY_DEFAULT`. -/
def taskPriorityDefault : Nat := 8

/-- A task in the tree of the running tasks, with the fields that are read there. -/
structure SchedNode where
  task : Nat
  schedKey : Nat
  priority : Nat
  deriving DecidableEq, Repr

/-- `HevTaskState`; `schedKey` of a task that waits is what it has been set to when the task was removed. -/
inductive TaskState where
  | stopped
  | running
  | waiting (schedKey : Nat)
  deriving DecidableEq, Repr

/-- `HevTaskSystemContext`. `turn` is the task whose code runs; between two turns the scheduler runs, and before the first one
(`started`) what is before `hev_task_system_run`. -/
structure TaskSystem where
  runningTasks : List SchedNode
  state : Nat → TaskState
  nextPriority : Nat → Nat
  turn : Option Nat
  started : Bool

/-- What happens: the task that has its turn yields, waits or comes to its end; a task is woken, by the task that has its turn, an
event or a timer; a task is run; its priority is set; the scheduler picks a task. -/
inductive TaskSystemEvent where
  | switch
  | waitio
  | exit
  | wakeup (task : Nat)
  | run (task : Nat)
  | setPriority (task priority : Nat)
  | pick
  deriving DecidableEq, Repr

/-- The turn of a task ends. -/
def TaskSystemEvent.endsTurn : TaskSystemEvent → Bool
  | .switch => true
  | .waitio => true
  | .exit => true
  | _ => false

namespace TaskSystem

/-- `hev_task_system_get_min_sched_key`. -/
def minSchedKey (tasks : List SchedNode) : Nat :=
  match tasks with
  | [] => 0
  | node :: _ => node.schedKey

/-- `_hev_task_system_insert_task`: to the right of equal keys. -/
def insertNode (node : SchedNode) (tasks : List SchedNode) : List SchedNode :=
  tasks.takeWhile (·.schedKey ≤ node.schedKey) ++ node :: tasks.dropWhile (·.schedKey ≤ node.schedKey)

/-- `hev_task_system_insert_task`. -/
def insertTask (self : TaskSystem) (task schedKey : Nat) : TaskSystem :=
  { self with
    runningTasks := insertNode ⟨task, schedKey, self.nextPriority task⟩ self.runningTasks
    state := Function.update self.state task .running }

/-- `hev_task_system_remove_current_task`, when the state is set. -/
def removeCurrentTask (self : TaskSystem) (task : Nat) (state : TaskState) : TaskSystem :=
  { self with
    runningTasks := self.runningTasks.eraseP (·.task = task)
    state := Function.update self.state task state
    turn := none }

/-- `hev_task_system_update_sched_key` and `hev_task_system_reinsert_current_task`. -/
def reinsertCurrentTask (self : TaskSystem) (task : Nat) : TaskSystem :=
  match self.runningTasks.find? (·.task = task) with
  | none => { self with turn := none }
  | some node =>
    { self with
      runningTasks := insertNode ⟨task, node.schedKey + node.priority, self.nextPriority task⟩
        (self.runningTasks.eraseP (·.task = task))
      turn := none }

/-- `hev_task_set_priority` keeps a priority between 0 and 15. A task that has stopped is not woken: the program aborts. -/
def step (self : TaskSystem) : TaskSystemEvent → Option TaskSystem
  | .switch => self.turn.map self.reinsertCurrentTask
  | .waitio => self.turn.map fun task => self.removeCurrentTask task (.waiting (self.nextPriority task))
  | .exit => self.turn.map fun task => self.removeCurrentTask task .stopped
  | .wakeup task =>
    match self.state task with
    | .stopped => none
    | .running => some self
    | .waiting schedKey => some (self.insertTask task (schedKey + minSchedKey self.runningTasks))
  | .run task =>
    if self.started ∧ self.turn = none then none
    else if self.state task = .stopped then
      some (self.insertTask task (self.nextPriority task + if self.started then minSchedKey self.runningTasks else 0))
    else some self
  | .setPriority task priority => some { self with nextPriority := Function.update self.nextPriority task (min priority 15) }
  | .pick =>
    match self.turn, self.runningTasks with
    | none, node :: _ => some { self with turn := some node.task, started := true }
    | _, _ => none

def init : TaskSystem :=
  { runningTasks := [], state := fun _ => .stopped, nextPriority := fun _ => taskPriorityDefault, turn := none, started := false }

end TaskSystem

end Open365Vpn
