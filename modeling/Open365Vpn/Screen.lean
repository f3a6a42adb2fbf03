import Open365Vpn.Service
import Open365Vpn.ViewModel

/-!
# The node list on the screen

`ui/screen/NodesTab.kt` over the view model and the service: which rows of the list are marked as connected and which flag the
status card shows, with `connect` of `ui/MainViewModel.kt`, which may have to ask for the permission first. The rest of the
screen keeps nodes apart by their URI (the keys of the rows, the latencies, the tests under way); the marks and the flag go by
the label that the service was started with. A start command is taken to arrive when it is sent, and a service that is started
again after `onDestroy` to be the same one: `onDestroy` has released what it holds.
-/

namespace Open365Vpn

open Kotlin Runs X365VpnService

/-- The view model with the fields of `connect`, and the service. `permissionResult` is true while the callback is set. -/
structure Screen where
  vm : ViewModel
  service : X365VpnService
  pendingNode : Option NodeItem
  permissionResult : Bool
  deriving DecidableEq

namespace Screen

/-- The app started over some preferences. -/
def start (p : Prefs) (randomUUID : Str) : Screen where
  vm := .start p randomUUID
  service := .create
  pendingNode := none
  permissionResult := false

/-! ## What is on the screen -/

/-- `connState is ConnState.Connected && connState.label == node.label`. -/
def connected (s : Screen) (node : NodeItem) : Bool :=
  match s.service.connState with
  | .connected label => label == node.label
  | .disconnected | .connecting _ | .failed _ => false

/-- `connectedCountry`. -/
def connectedCountry (s : Screen) : Option Str := (s.vm.nodes.find? s.connected).bind (·.countryCode)

/-- The flag of the status card. -/
def countryFlag (s : Screen) : Str := CountryFlags.flagEmoji s.connectedCountry

/-! ## Connecting -/

/-- `startVpn`. -/
def startVpn (s : Screen) (node : NodeItem) : Screen :=
  { s with service := s.service.onStartCommand (some node.uri) (some node.label) }

/-- `connect`; `prepared` says that `VpnService.prepare` returned null. -/
def connect (s : Screen) (node : NodeItem) (prepared : Bool) : Screen :=
  if prepared then s.startVpn node else { s with pendingNode := some node, permissionResult := true }

/-- `onVpnPermissionResult`. -/
def onVpnPermissionResult (s : Screen) (granted : Bool) : Screen :=
  if s.permissionResult then
    let s' := { s with pendingNode := none, permissionResult := false }
    match s.pendingNode with
    | some target => if granted then s'.startVpn target else s'
    | none => s'
  else s

end Screen

/-- What can happen: an operation on the list, a tap on a row, the answer to the question for the permission, or an event of the
service that is not a start command of its own. -/
inductive ScreenEvent where
  | importNodes (text : Str)
  | renameNode (node : NodeItem) (newLabel : Str)
  | deleteNode (node : NodeItem)
  | fetchNodes (replies : Replies)
  | connect (node : NodeItem) (prepared : Bool)
  | onVpnPermissionResult (granted : Bool)
  | service (ev : ServiceEvent)

/-- The event is a start command with a URI. -/
def ServiceEvent.isStart : ServiceEvent → Bool
  | .onStartCommand (some _) _ => true
  | _ => false

namespace Screen

/-- One event. -/
def step (s : Screen) : ScreenEvent → Option Screen
  | .importNodes text => some { s with vm := s.vm.importNodes text }
  | .renameNode node newLabel => some { s with vm := s.vm.renameNode node newLabel }
  | .deleteNode node => some { s with vm := s.vm.deleteNode node }
  | .fetchNodes replies => some { s with vm := (s.vm.fetchNodes replies).2 }
  | .connect node prepared => some (s.connect node prepared)
  | .onVpnPermissionResult granted => some (s.onVpnPermissionResult granted)
  | .service ev => if ev.isStart then none else (s.service.step ev).map fun t => { s with service := t }

end Screen

/-! ## The node that is connected -/

/-- What an observer records: for each worker, the URI it was started with, followed through the renames of the entry; and the
worker whose `Connected` is on display. -/
structure Followed where
  uri : Nat → Str
  shown : Option Nat

namespace Followed

def start : Followed where
  uri _ := []
  shown := none

/-- The URI of an entry after a rename. -/
def rename (nodes : List NodeItem) (node : NodeItem) (newLabel uri : Str) : Str :=
  if node.uri = uri ∧ uri ∈ uris nodes ∧ trim newLabel ≠ [] then relabel uri (trim newLabel) else uri

/-- The record of an event that may have brought a new worker. -/
def recordStart (s t : X365VpnService) (g : Followed) : Followed :=
  (t.workers[s.workers.length]?).elim g fun w => { uri := Function.update g.uri s.workers.length w.nodeUri, shown := none }

/-- The record of a step of worker `i` at a place of its code. -/
def recordWork (g : Followed) (i : Nat) : WorkerPc → Followed
  | .setConnected => { g with shown := some i }
  | .fail _ => { g with shown := none }
  | _ => g

/-- The record of an event of the service. -/
def recordService (s : X365VpnService) (g : Followed) : ServiceEvent → Followed
  | .worker i _ => (s.workers[i]?).elim g fun w => g.recordWork i w.pc
  | .onDestroy | .onRevoke => { g with shown := none }
  | .onStartCommand .. | .stats .. | .tunnelExit => g

/-- The record of an event. -/
def record (s : Screen) (ev : ScreenEvent) (t : Screen) (g : Followed) : Followed :=
  match ev with
  | .renameNode node newLabel => { g with uri := fun i => rename s.vm.nodes node newLabel (g.uri i) }
  | .connect .. | .onVpnPermissionResult _ => g.recordStart s.service t.service
  | .service ev => g.recordService s.service ev
  | .importNodes _ | .deleteNode _ | .fetchNodes _ => g

/-- The screen and the record. -/
def step : Screen × Followed → ScreenEvent → Option (Screen × Followed) := observe Screen.step record

end Followed

end Open365Vpn
