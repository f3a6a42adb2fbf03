import Open365Vpn.Latency
import Open365Vpn.Lib.Runs

/-!
# Latency tests neither overlap nor lose results

The marks are the URIs in flight, each once, so a tap on a node that is being measured starts nothing; and every completion
writes the entry of its own URI and no other.
-/

namespace Open365Vpn

open Kotlin Runs

/-- The result of the measurement of a URI that came back last, when one has. -/
def lastResult (completed : List (Str × Option Int)) (uri : Str) : Option (Option Int) :=
  (completed.find? fun r => r.1 == uri).map Prod.snd

namespace LatencyAux

theorem lastResult_cons_self (completed : List (Str × Option Int)) (uri : Str) (ms : Option Int) :
    lastResult ((uri, ms) :: completed) uri = some ms := by
  simp [lastResult]

theorem lastResult_cons_of_ne (completed : List (Str × Option Int)) {uri uri' : Str} (h : uri' ≠ uri) (ms : Option Int) :
    lastResult ((uri, ms) :: completed) uri' = lastResult completed uri' := by
  have hb : (uri == uri') = false := by simpa using fun e : uri = uri' => h e.symm
  simp [lastResult, hb]

/-- The marks are the URIs in flight, each once, and every entry is the last result of its URI, or the one from before. -/
structure Consistent (latencies : Str → Option Int) (s : LatencyTests) : Prop where
  nodup : s.inFlight.Nodup
  testing : ∀ u, u ∈ s.testing ↔ u ∈ s.inFlight
  entries : ∀ u, s.latencies u = (lastResult s.completed u).getD (latencies u)

variable {latencies : Str → Option Int} {s : LatencyTests}

/-- A tap on a node that is measured does nothing; any other starts a measurement of a URI that is not in flight. -/
theorem Consistent.testLatency (h : Consistent latencies s) (node : NodeItem) : Consistent latencies (s.testLatency node) := by
  unfold LatencyTests.testLatency
  split
  · exact h
  · rename_i hn
    have hfresh : node.uri ∉ s.inFlight := fun hm => hn ((h.testing _).2 hm)
    refine ⟨?_, fun u => ?_, h.entries⟩
    · exact List.nodup_append.2 ⟨h.nodup, List.nodup_singleton _, fun a ha b hb hab =>
        hfresh (List.mem_singleton.1 hb ▸ hab ▸ ha)⟩
    · simp only [Finset.mem_insert, List.mem_append, List.mem_singleton, h.testing]
      exact or_comm

/-- A completion takes its own URI out of flight and writes its own entry. -/
theorem Consistent.complete (h : Consistent latencies s) {k : Nat} {uri : Str} (hk : s.inFlight[k]? = some uri)
    (ms : Option Int) : Consistent latencies (s.complete k uri ms) := by
  obtain ⟨hlt, hget⟩ := List.getElem?_eq_some_iff.1 hk
  have herase : s.inFlight.eraseIdx k = s.inFlight.erase uri := by
    rw [← hget]
    exact (h.nodup.erase_getElem k hlt).symm
  refine ⟨?_, fun u => ?_, fun u => ?_⟩
  · exact h.nodup.sublist (List.eraseIdx_sublist _ k)
  · simp only [LatencyTests.complete, herase, Finset.mem_erase, h.nodup.mem_erase_iff, h.testing]
  · simp only [LatencyTests.complete]
    by_cases hu : u = uri
    · rw [hu, Function.update_self, lastResult_cons_self]
      rfl
    · rw [Function.update_of_ne hu, lastResult_cons_of_ne _ hu, h.entries]

theorem Consistent.step (h : Consistent latencies s) {ev : LatencyEvent} {t : LatencyTests} (hs : s.step ev = some t) :
    Consistent latencies t := by
  cases ev with
  | testLatency node =>
    obtain rfl := Option.some.inj hs
    exact h.testLatency node
  | complete k outcome =>
    obtain ⟨uri, hk, rfl⟩ := Option.map_eq_some_iff.1 hs
    exact h.complete hk _

end LatencyAux

open LatencyAux

/-- In every state of every interleaving of taps and completions: no URI is measured twice at a time, the marks are the URIs in
flight, the entry of a URI with a completed measurement is the result of the last one that came back (none when it failed), and
that of any other URI is what it was; and whichever measurement completes next writes its own entry and leaves the others. -/
theorem latency_tests (latencies : Str → Option Int) (es : List LatencyEvent) (s : LatencyTests)
    (hx : exec LatencyTests.step (LatencyTests.start latencies) es = some s) :
    s.inFlight.Nodup ∧
      s.testing = s.inFlight.toFinset ∧
      (∀ u ms, lastResult s.completed u = some ms → s.latencies u = ms) ∧
      (∀ u, lastResult s.completed u = none → s.latencies u = latencies u) ∧
      ∀ k outcome u t, s.inFlight[k]? = some u → s.step (.complete k outcome) = some t →
        t.latencies u = measureLatency outcome ∧ ∀ v, v ≠ u → t.latencies v = s.latencies v := by
  have h : Consistent latencies s := by
    refine exec_invariant (Consistent latencies) (fun s e t hi _ ht => hi.step ht) ?_ (meets_true _ es) hx
    exact ⟨List.nodup_nil, fun u => by simp [LatencyTests.start], fun u => rfl⟩
  refine ⟨h.nodup, ?_, fun u ms hu => ?_, fun u hu => ?_, fun k outcome u t hk ht => ?_⟩
  · ext u
    rw [h.testing, List.mem_toFinset]
  · rw [h.entries, hu]
    rfl
  · rw [h.entries, hu]
    rfl
  · simp only [LatencyTests.step, hk, Option.map_some, Option.some.injEq] at ht
    subst ht
    exact ⟨Function.update_self .., fun v hv => Function.update_of_ne hv ..⟩

/-- Two nodes tapped, the first of them twice; the second comes back after 30 ms and the first fails. -/
def twoTests : List LatencyEvent :=
  let u : NodeItem := { (default : NodeItem) with uri := "x365://u@h:1".toList }
  let v : NodeItem := { (default : NodeItem) with uri := "x365://v@h:1".toList }
  [.testLatency u, .testLatency v, .testLatency u, .complete 1 (.returned "ok".toList 30), .complete 0 .thrown]

/-- The second node has its 30 ms, the first has no entry, and nothing is in flight. -/
theorem latency_tests_two :
    (exec LatencyTests.step (LatencyTests.start fun _ => none) twoTests).map (fun s => s.inFlight) = some [] ∧
      ∀ s, exec LatencyTests.step (LatencyTests.start fun _ => none) twoTests = some s →
        s.testing = ∅ ∧ s.latencies "x365://v@h:1".toList = some 30 ∧ s.latencies "x365://u@h:1".toList = none := by
  refine ⟨by decide, fun s hs => ?_⟩
  obtain ⟨-, h2, h3, -, -⟩ := latency_tests (fun _ => none) twoTests s hs
  obtain rfl := Option.some.inj hs
  exact ⟨h2, h3 _ _ (by decide), h3 _ _ (by decide)⟩

end Open365Vpn
