import Open365Vpn.Lib.Runs

/-!
# Start and stop of the tunnel

`native_start_service` and `native_stop_service` of `hev-jni.c`, which Java threads call, the thread they make, which runs
`hev_socks5_tunnel_main`, and the flags of `hev-socks5-tunnel.c` over which a stop and that thread talk. A step is an access to
memory that threads share; accesses that only the holder of the mutex makes go with the step before them.
-/

namespace Open365Vpn

/-- `tsync`. -/
structure Tsync where
  send : Bool
  sent : Bool
  wait : Bool
  stop : Bool
  deriving DecidableEq, Repr

/-- Where a thread is in `hev_socks5_tunnel_stop`: before `SYNC_WAIT` is set; behind it, with `SYNC_SEND` seen or not; before the
write to `event_fds`; before `SYNC_WAIT` is cleared. -/
inductive StopPoint where
  | retry
  | seen
  | unseen
  | write
  | release
  deriving DecidableEq, Repr

/-- Where a Java thread is in `native_start_service` or `native_stop_service`, with the mutex. `broken` is a write to a closed
`event_fds`, where the assertion fails, or a join of a thread that is not there, which has no meaning. -/
inductive Caller where
  | startCheck
  | startJoin
  | startPrepare
  | startCreate
  | startUndo
  | stopCheck
  | quit (p : StopPoint)
  | stopJoin
  | stopStore
  | unlock (result : Bool)
  | broken
  deriving DecidableEq, Repr

/-- Where the thread of the tunnel is: in `hev_config_init_from_file` and what follows it up to `hev_socks5_tunnel_init`; in there
before and behind the making of `event_fds`; before the look at `SYNC_STOP` in `hev_socks5_tunnel_run`; in
`hev_task_system_run`, until `event_task_entry` reads an event; behind the read; waiting for the other tasks; in the loop of
`hev_socks5_tunnel_fini` and behind it; before the store to `is_running`; at its end; joined. -/
inductive WorkThread where
  | config
  | init
  | opened
  | ready
  | serving
  | stopping
  | draining
  | fini
  | closing
  | exiting
  | terminated
  | joined
  deriving DecidableEq, Repr

/-- What the threads share: the variables of `hev-jni.c` with its mutex, the threads that have been made (`work_thread` is the place
of the last one), and `tsync` and `event_fds` of `hev-socks5-tunnel.c`. `events` is the number of bytes to be read from
`event_fds`, when they are open. -/
structure Globals where
  isRunning : Bool
  threadJoinable : Bool
  workThread : Nat
  mutex : Bool
  workers : List WorkThread
  tsync : Tsync
  events : Option Nat
  deriving DecidableEq, Repr

namespace Globals

/-- `pthread_join` of `work_thread`, which waits for its end, and `thread_joinable = 0`. -/
def pthreadJoin (g : Globals) (next : Caller) : Option (Globals × Option Caller) :=
  match g.workers[g.workThread]? with
  | none | some .joined => some (g, some .broken)
  | some .terminated => some ({ g with workers := g.workers.set g.workThread .joined, threadJoinable := false }, some next)
  | some _ => none

end Globals

/-- A step of a Java thread. `ok` says whether `malloc` and `strdup`, or `pthread_create`, succeed. -/
def Caller.step (g : Globals) (ok : Bool) : Caller → Option (Globals × Option Caller)
  | .startCheck =>
    if g.isRunning then some (g, some (.unlock false))
    else if g.threadJoinable then some (g, some .startJoin)
    else some (g, some .startPrepare)
  | .startJoin => g.pthreadJoin .startPrepare
  | .startPrepare =>
    if ok then some ({ g with isRunning := true }, some .startCreate)
    else some (g, some (.unlock false))
  | .startCreate =>
    if ok then
      some ({ g with workers := g.workers ++ [.config], workThread := g.workers.length, threadJoinable := true },
        some (.unlock true))
    else some (g, some .startUndo)
  | .startUndo => some ({ g with isRunning := false }, some (.unlock false))
  | .stopCheck =>
    if !g.threadJoinable then some (g, some (.unlock true))
    else if g.isRunning then some (g, some (.quit .retry))
    else some (g, some .stopJoin)
  | .quit .retry =>
    if g.tsync.wait then some (g, some (.quit .retry))
    else some ({ g with tsync := { g.tsync with wait := true } }, some (.quit (if g.tsync.send then .seen else .unseen)))
  | .quit .seen =>
    some ({ g with tsync := { g.tsync with sent := true } }, some (.quit (if g.tsync.sent then .release else .write)))
  | .quit .unseen => some ({ g with tsync := { g.tsync with stop := true } }, some (.quit .release))
  | .quit .write =>
    match g.events with
    | none => some (g, some .broken)
    | some n => some ({ g with events := some (n + 1) }, some (.quit .release))
  | .quit .release => some ({ g with tsync := { g.tsync with wait := false } }, some .stopJoin)
  | .stopJoin => g.pthreadJoin .stopStore
  | .stopStore => some ({ g with isRunning := false }, some (.unlock true))
  | .unlock _ => some ({ g with mutex := false }, none)
  | .broken => none

/-- A step of the thread of the tunnel. `ok` says whether what it does before the tunnel runs succeeds; the tunnel itself ends only by
an event. The read of `event_task_entry` is one of four bytes. -/
def WorkThread.step (g : Globals) (ok : Bool) : WorkThread → Option (Globals × WorkThread)
  | .config => some (g, if ok then .init else .exiting)
  | .init => if ok then some ({ g with events := some 0 }, .opened) else some (g, .fini)
  | .opened => if ok then some ({ g with tsync := { g.tsync with send := true } }, .ready) else some (g, .fini)
  | .ready => some ({ g with tsync := { g.tsync with stop := false } }, if g.tsync.stop then .fini else .serving)
  | .serving =>
    match g.events with
    | some (n + 1) => some ({ g with events := some (n + 1 - 4) }, .stopping)
    | _ => none
  | .stopping => some ({ g with tsync := { g.tsync with sent := false } }, .draining)
  | .draining => some (g, .fini)
  | .fini =>
    some ({ g with tsync := { g.tsync with send := false, sent := false } }, if g.tsync.wait then .fini else .closing)
  | .closing => some ({ g with events := none }, .exiting)
  | .exiting => some ({ g with isRunning := false }, .terminated)
  | .terminated => none
  | .joined => none

/-- The process: what is shared, and the Java threads that are inside of a call. -/
structure Native where
  globals : Globals
  callers : List Caller
  deriving DecidableEq, Repr

/-- A Java thread calls `TProxyStartService` or `TProxyStopService` and gets the mutex; a thread inside of a call makes a step; a
thread of the tunnel does. -/
inductive NativeEvent where
  | startService
  | stopService
  | caller (i : Nat) (ok : Bool)
  | worker (i : Nat) (ok : Bool)
  deriving DecidableEq, Repr

namespace Native

/-- `pthread_mutex_lock` at the beginning of a call. -/
def enter (s : Native) (c : Caller) : Option Native :=
  if s.globals.mutex then none
  else some { globals := { s.globals with mutex := true }, callers := s.callers ++ [c] }

def step (s : Native) : NativeEvent → Option Native
  | .startService => s.enter .startCheck
  | .stopService => s.enter .stopCheck
  | .caller i ok => do
    let c ← s.callers[i]?
    let (globals, c') ← c.step s.globals ok
    match c' with
    | none => return { globals, callers := s.callers.eraseIdx i }
    | some c' => return { globals, callers := s.callers.set i c' }
  | .worker i ok => do
    let w ← s.globals.workers[i]?
    let (globals, w') ← w.step s.globals ok
    return { s with globals := { globals with workers := globals.workers.set i w' } }

/-- The library is loaded. -/
def init : Native where
  globals := { isRunning := false, threadJoinable := false, workThread := 0, mutex := false, workers := [],
               tsync := ⟨false, false, false, false⟩, events := none }
  callers := []

end Native

end Open365Vpn
