import Open365Vpn.Service

/-!
# The exit information

`ui/data/NetworkProbe.kt` with the collector of `ui/MainViewModel.kt` that drives it. The service writes the connection state
from its own threads; the collector sees the state the flow holds when it gets its turn, not every state it held, and not the
same value twice in a row. For `Connected` it launches a query, for `Disconnected` and `Failed` it clears what the probe knows.
A query begins on the IO dispatcher, where it may be turned down by the rate limit, and ends with the answer of the server; in
between anything can happen. The answer is taken as parsed.
-/

namespace Open365Vpn

open Kotlin

/-- `ExitInfo`. -/
structure ExitInfo where
  ip : Str
  country : Str
  countryCode : Str
  asn : Str
  org : Str
  deriving DecidableEq, Repr

/-- `MIN_QUERY_INTERVAL_MS`. -/
def minQueryIntervalMs : Int := 15000

/-- Where a call of `queryExitInfo` stands: launched and not yet on the IO dispatcher, waiting for the server, or returned. A
query in flight knows how many connections there had been when it began. -/
inductive QueryStage where
  | launched
  | inFlight (began : Nat)
  | returned
  deriving DecidableEq

/-- A call of `queryExitInfo`. -/
structure Query where
  force : Bool
  stage : QueryStage
  deriving DecidableEq

/-- The connection state, the probe and the collector. Three things record the past, which the source does not keep:
`connections` counts the changes of the state to `Connected`; the exit information carries the number of connections at the
start of the query that wrote it; and `handled` is the connection the collector handled last with the query it launched for
it. -/
structure NetworkProbe where
  connState : ConnState
  connections : Nat
  clock : Int
  exitInfo : Option (ExitInfo × Nat)
  lastQueryTime : Int
  queries : List Query
  seen : Option ConnState
  handled : Option (Nat × Nat)
  deriving DecidableEq

/-- What can happen: the service writes the state, the collector gets its turn, the user asks for a refresh, time passes, a
query begins, or its server answers (`none` when it fails). -/
inductive ProbeEvent where
  | setConnState (state : ConnState)
  | collect
  | refreshExitInfo
  | tick (ms : Nat)
  | begin (q : Nat)
  | complete (q : Nat) (answer : Option ExitInfo)
  deriving DecidableEq

namespace NetworkProbe

/-- A new process, at some time. -/
def create (now : Int) : NetworkProbe where
  connState := .disconnected
  connections := 0
  clock := now
  exitInfo := none
  lastQueryTime := 0
  queries := []
  seen := none
  handled := none

/-- A write to the state flow; an equal value changes nothing. -/
def setConnState (s : NetworkProbe) (state : ConnState) : NetworkProbe :=
  if state = s.connState then s
  else
    match state with
    | .connected label => { s with connState := .connected label, connections := s.connections + 1 }
    | state => { s with connState := state }

/-- `clear`. -/
def clear (s : NetworkProbe) : NetworkProbe := { s with exitInfo := none, lastQueryTime := 0 }

/-- `launch { NetworkProbe.queryExitInfo(force) }`. -/
def launch (s : NetworkProbe) (force : Bool) : NetworkProbe := { s with queries := s.queries ++ [⟨force, .launched⟩] }

/-- The body of the collector, for the state that the flow holds. -/
def collect (s : NetworkProbe) : NetworkProbe :=
  match s.connState with
  | .connected label =>
    { s.launch false with seen := some (.connected label), handled := some (s.connections, s.queries.length) }
  | .disconnected => { s.clear with seen := some .disconnected }
  | .failed message => { s.clear with seen := some (.failed message) }
  | .connecting label => { s with seen := some (.connecting label) }

/-- A query at a new place. -/
def setStage (s : NetworkProbe) (q : Nat) (stage : QueryStage) : NetworkProbe :=
  { s with queries := s.queries.modify q fun query => { query with stage := stage } }

/-- The rate limit turns a query down. -/
def limited (s : NetworkProbe) (query : Query) : Bool :=
  !query.force && decide (s.clock - s.lastQueryTime < minQueryIntervalMs)

/-- The start of `queryExitInfo`, up to the request. -/
def begin (s : NetworkProbe) (q : Nat) (query : Query) : NetworkProbe :=
  if s.limited query then s.setStage q .returned
  else { s.setStage q (.inFlight s.connections) with lastQueryTime := s.clock }

/-- The end of `queryExitInfo`, from the answer of the server on. -/
def complete (s : NetworkProbe) (q began : Nat) : Option ExitInfo → NetworkProbe
  | some info => { s.setStage q .returned with exitInfo := some (info, began) }
  | none => s.setStage q .returned

/-- One event. -/
def step (s : NetworkProbe) : ProbeEvent → Option NetworkProbe
  | .setConnState state => some (s.setConnState state)
  | .collect => if s.seen = some s.connState then none else some s.collect
  | .refreshExitInfo => some (s.launch true)
  | .tick ms => some { s with clock := s.clock + ms }
  | .begin q =>
    (s.queries[q]?).bind fun query =>
      match query.stage with
      | .launched => some (s.begin q query)
      | .inFlight _ | .returned => none
  | .complete q answer =>
    (s.queries[q]?).bind fun query =>
      match query.stage with
      | .inFlight began => some (s.complete q began answer)
      | .launched | .returned => none

end NetworkProbe

end Open365Vpn
