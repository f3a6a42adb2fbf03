import Open365Vpn.Lib.KotlinText
import Open365Vpn.Lib.Runs
import Open365Vpn.Lib.Slots

/-!
# The VPN service

`X365VpnService.kt` as one instance of the service with all its threads. `onStartCommand`, `onDestroy` and `onRevoke` are calls
on the main thread; every start command leaves a worker thread behind, which nobody joins or cancels, and every connection a
thread that polls the traffic. A step of a thread is one call of the source that acquires or releases something, or one write
to a field that the other threads see; what the outside world answers to the call comes with the step (`Outcome`).

Of the world outside the source: an `x365mobile.Proxy` starts only while no other started one holds `127.0.0.1:10808`, and
`stop` stops it; `TProxyStartService` returns true only while no tunnel thread runs, and then one does, until
`TProxyStopService` or its own end; `close` closes a descriptor, and `fd` of a closed one throws. The log, the notification
and the text of the tunnel configuration are left out, and so is `stopSelf`, since the system may call `onDestroy` at any time.
-/

namespace Open365Vpn

open Kotlin Slots

/-- `ConnState`. -/
inductive ConnState where
  | disconnected
  | connecting (label : Str)
  | connected (label : Str)
  | failed (message : Str)
  deriving DecidableEq, Repr

/-- `Traffic`. -/
structure Traffic where
  txBytes : Int
  rxBytes : Int
  deriving DecidableEq, Repr

/-- An `x365mobile.Proxy`: created, started for a node and listening, or stopped. -/
inductive Proxy where
  | created
  | started (nodeUri : Str)
  | stopped
  deriving DecidableEq

/-- The proxy listens. -/
def Proxy.isStarted : Proxy → Bool
  | .started _ => true
  | .created | .stopped => false

/-- `stop`. -/
def Proxy.stop : Proxy → Proxy
  | .created => .created
  | .started _ | .stopped => .stopped

/-- What the call of a step comes to: it does what it is for; it says no (`null` or `false`); it throws, before it has had any
effect that counts here, in the middle, or when the effect is there; or it finds no native library. -/
inductive Outcome where
  | ok
  | refused
  | thrownBefore (message : Option Str)
  | thrown (message : Option Str)
  | thrownAfter (message : Option Str)
  | linkError (message : Option Str)
  deriving DecidableEq

/-- Where a worker stands: the calls and writes of `startProxy`, `startVpn` and `startHevTun2Socks` in order, or the catch and
else branches, which write `Failed`. -/
inductive WorkerPc where
  | stopExisting
  | startProxy
  | establish
  | tProxyStartService
  | setRunning
  | setConnected
  | clearTraffic
  | startStatsThread
  | updateNotification
  | fail (message : Str)
  | done
  deriving DecidableEq

/-- The thread of a start command. `connected` is a record of the past that the source does not keep: the worker has written
`Connected`. -/
structure Worker where
  nodeUri : Str
  nodeLabel : Str
  pc : WorkerPc
  connected : Bool
  deriving DecidableEq

/-- Where a thread that polls the traffic stands. -/
inductive StatsPc where
  | testRunning
  | sleep
  | getStats
  | setTraffic (traffic : Traffic)
  | done
  deriving DecidableEq

/-- One instance of the service, the two flows of its companion, the native tunnel and the threads it has left behind. The
descriptors are true while they are open. `destroyed` records that `onDestroy` has run. -/
structure X365VpnService where
  vpnInterface : Slot Bool
  proxy : Slot Proxy
  running : Bool
  connState : ConnState
  traffic : Option Traffic
  tunnel : Bool
  workers : List Worker
  statsThreads : List StatsPc
  destroyed : Bool
  deriving DecidableEq

namespace X365VpnService

/-- A new instance in a new process. -/
def create : X365VpnService where
  vpnInterface := .empty
  proxy := .empty
  running := false
  connState := .disconnected
  traffic := none
  tunnel := false
  workers := []
  statsThreads := []
  destroyed := false

/-- A started proxy holds the port. -/
def portHeld (s : X365VpnService) : Bool := s.proxy.objects.any Proxy.isStarted

/-! ## The main thread -/

/-- `onStartCommand`, up to the start of its thread. -/
def onStartCommand (s : X365VpnService) (nodeUri nodeLabel : Option Str) : X365VpnService :=
  match nodeUri with
  | none => s
  | some nodeUri =>
    let nodeLabel := nodeLabel.getD "X365".toList
    { s with
      connState := .connecting nodeLabel
      workers := s.workers ++ [⟨nodeUri, nodeLabel, .stopExisting, false⟩] }

/-- `TProxyStopService()`, `vpnInterface?.close()` and `proxy?.stop()`. -/
def release (s : X365VpnService) : X365VpnService :=
  { s with
    tunnel := false
    vpnInterface := s.vpnInterface.modifyHeld fun _ => false
    proxy := s.proxy.modifyHeld Proxy.stop }

/-- `onDestroy`: a failure stays on display, and the fields are not cleared. -/
def onDestroy (s : X365VpnService) : X365VpnService :=
  { s.release with
    running := false
    connState :=
      match s.connState with
      | .failed message => .failed message
      | _ => .disconnected
    traffic := none
    destroyed := true }

/-- `onRevoke`. -/
def onRevoke (s : X365VpnService) : X365VpnService := { s with running := false, connState := .disconnected }

/-! ## The worker of a start command -/

/-- `stopExisting`. -/
def stopExisting (s : X365VpnService) : X365VpnService :=
  if s.running then
    { s.release with running := false, vpnInterface := s.release.vpnInterface.drop, proxy := s.release.proxy.drop }
  else s

/-- The catch branch of the thread. -/
def failed (message : Option Str) : WorkerPc := .fail (message.getD "未知错误".toList)

/-- `startProxy`: the new object is in the field before it is started, and the line that logs its path can throw when it
is. -/
def startProxy (s : X365VpnService) (nodeUri : Str) : Outcome → Option (X365VpnService × WorkerPc)
  | .ok => if s.portHeld then none else some ({ s with proxy := s.proxy.put (.started nodeUri) }, .establish)
  | .thrownBefore message => some (s, failed message)
  | .thrown message => some ({ s with proxy := s.proxy.put .created }, failed message)
  | .thrownAfter message =>
    if s.portHeld then none else some ({ s with proxy := s.proxy.put (.started nodeUri) }, failed message)
  | .refused | .linkError _ => none

/-- `startVpn`, whose builder can throw, up to `startHevTun2Socks`. -/
def establish (s : X365VpnService) : Outcome → Option (X365VpnService × WorkerPc)
  | .ok => some ({ s with vpnInterface := s.vpnInterface.put true }, .tProxyStartService)
  | .refused => some ({ s with vpnInterface := s.vpnInterface.drop }, .fail "TUN 接口创建失败".toList)
  | .thrownBefore message => some (s, failed message)
  | .thrown _ | .thrownAfter _ | .linkError _ => none

/-- `startHevTun2Socks` up to the answer of `TProxyStartService`. The file with the configuration is written outside the inner
try; a field that another thread has cleared, or a descriptor that it has closed, throws inside. -/
def tProxyStartService (s : X365VpnService) : Outcome → Option (X365VpnService × WorkerPc)
  | .thrownBefore message => some (s, failed message)
  | .ok =>
    match s.vpnInterface.heldObject with
    | none => some (s, .fail "tunnel 异常".toList)
    | some false => some (s, .fail "Already closed".toList)
    | some true => if s.tunnel then none else some ({ s with tunnel := true }, .setRunning)
  | .refused => some (s, .fail "hev-socks5-tunnel 启动失败".toList)
  | .linkError message => some (s, .fail ("native 库未找到: ".toList ++ message.getD "null".toList))
  | .thrown message => some (s, .fail (message.getD "tunnel 异常".toList))
  | .thrownAfter _ => none

/-- `updateNotificationConnected`, still in the inner try. -/
def updateNotificationConnected (s : X365VpnService) : Outcome → Option (X365VpnService × WorkerPc)
  | .ok => some (s, .done)
  | .thrown message => some (s, .fail (message.getD "tunnel 异常".toList))
  | .refused | .thrownBefore _ | .thrownAfter _ | .linkError _ => none

/-- One step of a worker: the state it leaves, and where the worker stands then. -/
def work (s : X365VpnService) (w : Worker) (o : Outcome) : Option (X365VpnService × WorkerPc) :=
  match w.pc with
  | .stopExisting => some (s.stopExisting, .startProxy)
  | .startProxy => s.startProxy w.nodeUri o
  | .establish => s.establish o
  | .tProxyStartService => s.tProxyStartService o
  | .setRunning => some ({ s with running := true }, .setConnected)
  | .setConnected => some ({ s with connState := .connected w.nodeLabel }, .clearTraffic)
  | .clearTraffic => some ({ s with traffic := none }, .startStatsThread)
  | .startStatsThread => some ({ s with statsThreads := s.statsThreads ++ [.testRunning] }, .updateNotification)
  | .updateNotification => s.updateNotificationConnected o
  | .fail message => some ({ s with connState := .failed message }, .done)
  | .done => none

/-! ## The thread that polls the traffic -/

/-- One step of the loop; `stats` is what `TProxyGetStats` returns to the step that calls it, `none` when it throws. -/
def poll (s : X365VpnService) (stats : Option (List Int)) : StatsPc → Option (X365VpnService × StatsPc)
  | .testRunning => some (s, if s.running then .sleep else .done)
  | .sleep => some (s, .getStats)
  | .getStats =>
    some (s,
      match stats with
      | some (_ :: txBytes :: _ :: rxBytes :: _) =>
        if 0 < txBytes ∨ 0 < rxBytes then .setTraffic ⟨txBytes, rxBytes⟩ else .testRunning
      | _ => .testRunning)
  | .setTraffic traffic => some ({ s with traffic := some traffic }, .testRunning)
  | .done => none

end X365VpnService

/-- What can happen to an instance. The tunnel can end on its own. -/
inductive ServiceEvent where
  | onStartCommand (nodeUri nodeLabel : Option Str)
  | worker (i : Nat) (o : Outcome)
  | stats (j : Nat) (stats : Option (List Int))
  | onDestroy
  | onRevoke
  | tunnelExit
  deriving DecidableEq

namespace X365VpnService

/-- A worker after a step of its own. -/
def advance (w : Worker) (pc : WorkerPc) : Worker :=
  { w with pc := pc, connected := w.connected || w.pc == .setConnected }

/-- One event. -/
def step (s : X365VpnService) : ServiceEvent → Option X365VpnService
  | .onStartCommand nodeUri nodeLabel => some (s.onStartCommand nodeUri nodeLabel)
  | .worker i o =>
    (s.workers[i]?).bind fun w =>
      (s.work w o).map fun r => { r.1 with workers := s.workers.set i (advance w r.2) }
  | .stats j stats =>
    (s.statsThreads[j]?).bind fun pc =>
      (s.poll stats pc).map fun r => { r.1 with statsThreads := s.statsThreads.set j r.2 }
  | .onDestroy => some s.onDestroy
  | .onRevoke => some s.onRevoke
  | .tunnelExit => if s.tunnel then some { s with tunnel := false } else none

end X365VpnService

end Open365Vpn
