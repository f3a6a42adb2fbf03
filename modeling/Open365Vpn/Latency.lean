import Mathlib.Data.Finset.Basic
import Open365Vpn.Nodes

/-!
# Latency tests

`testLatency` of `ui/MainViewModel.kt` with `measureLatency` of `ui/data/NetworkProbe.kt`. A call on the main thread marks the
URI and launches a coroutine, which leaves the main thread for the measurement and comes back to write the result and take the
mark away; what follows a suspension runs to its end before the main thread does anything else. The lines posted to the log are
left out.
-/

namespace Open365Vpn

open Kotlin

/-- What comes of a measurement: the proxy cannot be created, `testConnect` throws, or it returns a text after some time. -/
inductive TestOutcome where
  | noProxy
  | thrown
  | returned (result : Str) (elapsed : Int)
  deriving DecidableEq

/-- `measureLatency`: the milliseconds, or null. -/
def measureLatency : TestOutcome → Option Int
  | .noProxy | .thrown => none
  | .returned result elapsed => if result.all isWhitespace then none else some elapsed

/-- The flows `_testing` and `latencies`, and the URIs that the suspended coroutines measure. `completed` is a record of the
past that the source does not keep: the measurements that have come back, the last one first. -/
structure LatencyTests where
  testing : Finset Str
  latencies : Str → Option Int
  inFlight : List Str
  completed : List (Str × Option Int)

/-- What can happen: a tap on the test button of a node, or the end of a measurement. -/
inductive LatencyEvent where
  | testLatency (node : NodeItem)
  | complete (k : Nat) (outcome : TestOutcome)
  deriving DecidableEq

namespace LatencyTests

/-- A new view model; the latencies are kept by the process. -/
def start (latencies : Str → Option Int) : LatencyTests := { testing := ∅, latencies := latencies, inFlight := [], completed := [] }

/-- `testLatency`, up to the suspension in `measureLatency`. -/
def testLatency (s : LatencyTests) (node : NodeItem) : LatencyTests :=
  if node.uri ∈ s.testing then s
  else { s with testing := insert node.uri s.testing, inFlight := s.inFlight ++ [node.uri] }

/-- The rest of the coroutine of `testLatency`, with the result of its measurement. -/
def complete (s : LatencyTests) (k : Nat) (uri : Str) (ms : Option Int) : LatencyTests where
  latencies := Function.update s.latencies uri ms
  testing := s.testing.erase uri
  inFlight := s.inFlight.eraseIdx k
  completed := (uri, ms) :: s.completed

/-- One event. -/
def step (s : LatencyTests) : LatencyEvent → Option LatencyTests
  | .testLatency node => some (s.testLatency node)
  | .complete k outcome => (s.inFlight[k]?).map fun uri => s.complete k uri (measureLatency outcome)

end LatencyTests

end Open365Vpn
