import Mathlib.Logic.Function.Basic
import Open365Vpn.Lib.Runs

/-!
# The mutex of the task system

`hev-task-mutex.c`, over which the sessions share lwIP. Tasks take turns and give way only in `hev_task_yield`, so what a task does
between two yields is one step. Which of the running tasks has its turn is open, and so is what else wakes a task.
-/

namespace Open365Vpn

/-- Where a task is: outside, in the loop of `hev_task_mutex_lock` with its node among the waiters, or with the mutex. -/
inductive LockPlace where
  | outside
  | waiting
  | holding
  deriving DecidableEq, Repr

/-- `HevTaskMutex` with the tasks. `waiters` are the tasks of the nodes, from the first on; `running` is
`HEV_TASK_RUNNING`. -/
structure TaskMutex where
  locker : Bool
  waiters : List Nat
  place : Nat → LockPlace
  running : Nat → Bool

/-- What happens: a task calls `hev_task_mutex_lock`, `hev_task_mutex_trylock` or `hev_task_mutex_unlock`; a task that waits comes
back from its yield; a task is woken by an event, a timer or another task; a task waits for something else. -/
inductive TaskMutexEvent where
  | lock (task : Nat)
  | trylock (task : Nat)
  | unlock (task : Nat)
  | resume (task : Nat)
  | wakeup (task : Nat)
  | yield (task : Nat)
  deriving DecidableEq, Repr

namespace TaskMutex

/-- `locker = 1`. -/
def acquire (self : TaskMutex) (task : Nat) : TaskMutex :=
  { self with locker := true, place := Function.update self.place task .holding }

/-- `hev_task_wakeup`. -/
def wakeup (self : TaskMutex) (task : Nat) : TaskMutex := { self with running := Function.update self.running task true }

/-- `hev_task_yield (HEV_TASK_WAITIO)`. -/
def waitio (self : TaskMutex) (task : Nat) : TaskMutex := { self with running := Function.update self.running task false }

def lock (self : TaskMutex) (task : Nat) : TaskMutex :=
  if self.locker then
    { self with waiters := task :: self.waiters, place := Function.update self.place task .waiting }.waitio task
  else self.acquire task

def trylock (self : TaskMutex) (task : Nat) : TaskMutex := if self.locker then self else self.acquire task

/-- The condition of the loop in `hev_task_mutex_lock`, and what comes behind it. -/
def resume (self : TaskMutex) (task : Nat) : TaskMutex :=
  if self.locker ∨ self.waiters.head? ≠ some task then self.waitio task
  else { self with waiters := self.waiters.tail }.acquire task

def unlock (self : TaskMutex) (task : Nat) : TaskMutex :=
  let self := { self with locker := false, place := Function.update self.place task .outside }
  match self.waiters with
  | [] => self
  | waiter :: _ => self.wakeup waiter

/-- A task has a turn while it is running; it unlocks only what it has locked. -/
def step (self : TaskMutex) : TaskMutexEvent → Option TaskMutex
  | .lock task => if self.place task = .outside ∧ self.running task = true then some (self.lock task) else none
  | .trylock task => if self.place task = .outside ∧ self.running task = true then some (self.trylock task) else none
  | .unlock task => if self.place task = .holding ∧ self.running task = true then some (self.unlock task) else none
  | .resume task => if self.place task = .waiting ∧ self.running task = true then some (self.resume task) else none
  | .wakeup task => some (self.wakeup task)
  | .yield task => if self.place task ≠ .waiting ∧ self.running task = true then some (self.waitio task) else none

/-- `hev_task_mutex_init`, with any tasks running. -/
def init (running : Nat → Bool) : TaskMutex := { locker := false, waiters := [], place := fun _ => .outside, running }

end TaskMutex

end Open365Vpn
