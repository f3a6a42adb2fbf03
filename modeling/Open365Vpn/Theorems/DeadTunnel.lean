import Open365Vpn.Lemmas.Service
import Mathlib.Logic.Function.Basic

/-!
# A tunnel that has exited

`TProxyStartService` answers when the thread of the tunnel is created, and the thread may exit later, on its own. The service
writes `Connected` on that answer and never asks again: `TProxyIsRunning` is declared and not called, and the loop that reads
the traffic reads it whether the tunnel runs or not. So a connection whose tunnel has exited stays on display. A worker starts
one tunnel at most, and the observer calls a tunnel by the number of its worker; `dead_tunnel_not_shown` says when no iteration
of the loop begins and ends behind the exit of the tunnel on display.
-/

namespace Open365Vpn

open Kotlin Runs X365VpnService

/-- What the observer records: the worker that has started a tunnel last; the tunnels that have exited on their own; the one for
which `Connected` is on display; for each thread that polls, those that had exited when it began its iteration; and those
behind whose exit an iteration has begun and ended. -/
structure Tunnels where
  last : Nat
  exited : List Nat
  shown : Option Nat
  began : Nat → List Nat
  polled : List Nat

namespace Tunnels

def start : Tunnels where
  last := 0
  exited := []
  shown := none
  began _ := []
  polled := []

/-- The record of a step of worker `i` at a place of its code. -/
def recordWork (s t : X365VpnService) (g : Tunnels) (i : Nat) : WorkerPc → Tunnels
  | .tProxyStartService => if t.tunnel && !s.tunnel then { g with last := i } else g
  | .setConnected => { g with shown := some i }
  | .fail _ => { g with shown := none }
  | _ => g

/-- The record of a step of thread `j` at a place of its code. An iteration begins when the test is passed and ends when the
thread is at its test again. -/
def recordPoll (s t : X365VpnService) (g : Tunnels) (j : Nat) : StatsPc → Tunnels
  | .testRunning => if s.running then { g with began := Function.update g.began j g.exited } else g
  | _ => if t.statsThreads[j]? = some .testRunning then { g with polled := g.polled ++ g.began j } else g

/-- The record of a step. Only one tunnel runs at a time, so the one that exits is the last that was started. -/
def record (s : X365VpnService) (ev : ServiceEvent) (t : X365VpnService) (g : Tunnels) : Tunnels :=
  match ev with
  | .onStartCommand nodeUri _ => if nodeUri.isSome then { g with shown := none } else g
  | .worker i _ => (s.workers[i]?).elim g fun w => g.recordWork s t i w.pc
  | .stats j _ => (s.statsThreads[j]?).elim g fun pc => g.recordPoll s t j pc
  | .onDestroy | .onRevoke => { g with shown := none }
  | .tunnelExit => { g with exited := g.last :: g.exited }

/-- The service and the record of its tunnels. -/
def step : X365VpnService × Tunnels → ServiceEvent → Option (X365VpnService × Tunnels) :=
  observe X365VpnService.step record

end Tunnels

/-- While `Connected` is on display it is so for a tunnel behind whose exit no iteration of the loop has begun and ended. -/
def NoDeadTunnelShown (s : X365VpnService × Tunnels) : Prop :=
  ∀ label, s.1.connState = .connected label → ∃ i, s.2.shown = some i ∧ i ∉ s.2.polled

/-- The worker has started its tunnel and has not written `Connected`. -/
def WorkerPc.reporting : WorkerPc → Bool
  | .setRunning | .setConnected => true
  | _ => false

/-- A thread begins an iteration only while the tunnel on display has not exited, and neither has one that a worker is about to
put on display. -/
def BeginsWithTunnel (s : X365VpnService × Tunnels) : ServiceEvent → Prop
  | .stats j _ =>
    s.1.statsThreads[j]? = some .testRunning → s.1.running = true →
      ∀ x ∈ s.2.exited, s.2.shown ≠ some x ∧ ∀ w ∈ s.1.workers[x]?, w.pc.reporting = false
  | _ => True

instance (s : X365VpnService × Tunnels) : ∀ ev, Decidable (BeginsWithTunnel s ev)
  | .stats j _ =>
    inferInstanceAs (Decidable (s.1.statsThreads[j]? = some .testRunning → s.1.running = true →
      ∀ x ∈ s.2.exited, s.2.shown ≠ some x ∧ ∀ w ∈ s.1.workers[x]?, w.pc.reporting = false))
  | .worker .. | .onDestroy | .onRevoke | .onStartCommand .. | .tunnelExit => inferInstanceAs (Decidable True)

namespace DeadTunnelAux

/-- The worker has called `TProxyStartService` or never will. -/
def pastStart : WorkerPc → Bool
  | .stopExisting | .startProxy | .establish | .tProxyStartService => false
  | _ => true

/-- The worker exists and has passed the call. -/
def Past (workers : List Worker) (x : Nat) : Prop := StandsAt pastStart workers x

/-- The worker is about to put its tunnel on display. -/
def Reporting (workers : List Worker) (x : Nat) : Prop := StandsAt WorkerPc.reporting workers x

/-- An iteration has begun behind the exit of the tunnel. -/
def Overdue (g : Tunnels) (x : Nat) : Prop := x ∈ g.polled ∨ ∃ j, x ∈ g.began j

/-- The invariant: the observer knows what is on display; what has exited was started, and so was the last; and a tunnel behind
whose exit an iteration has begun is not on display and will not be. -/
structure Inv (workers : List Worker) (conn : ConnState) (tunnel : Bool) (g : Tunnels) : Prop where
  shown : ∀ label, conn = .connected label → ∃ i, g.shown = some i
  connected : ∀ i, g.shown = some i → ∃ label, conn = .connected label
  exited : ∀ x ∈ g.exited, Past workers x
  last : tunnel = true → Past workers g.last
  overdue : ∀ x, Overdue g x → x ∈ g.exited
  safe : ∀ x, Overdue g x → g.shown ≠ some x ∧ ¬Reporting workers x

theorem inv_create : Inv [] .disconnected false .start := by
  have hno : ∀ x, ¬Overdue .start x := by
    rintro x (hx | ⟨j, hx⟩) <;> cases hx
  refine ⟨?_, ?_, ?_, ?_, ?_, ?_⟩
  · intro label h
    cases h
  · intro i h
    cases h
  · intro x hx
    cases hx
  · intro h
    cases h
  · intro x hx
    exact absurd hx (hno x)
  · intro x hx
    exact absurd hx (hno x)

/-! ### Steps -/

/-- A step of a worker that writes nothing to the display: it comes to report only by starting its tunnel. -/
theorem Inv.moved {workers : List Worker} {conn : ConnState} {tunnel tunnel' : Bool} {g : Tunnels}
    (h : Inv workers conn tunnel g) {i : Nat} {w v : Worker} (hw : workers[i]? = some w)
    (hpast : pastStart w.pc = true → pastStart v.pc = true)
    (hrep : v.pc.reporting = true → w.pc.reporting = true ∨ pastStart w.pc = false) (htun : tunnel' = true → tunnel = true) :
    Inv (workers.set i v) conn tunnel' g := by
  refine ⟨h.shown, h.connected, ?_, ?_, h.overdue, ?_⟩
  · intro x hx
    exact (h.exited x hx).set hw hpast
  · intro ht
    exact (h.last (htun ht)).set hw hpast
  · intro x hx
    obtain ⟨hns, hnr⟩ := h.safe x hx
    refine ⟨hns, fun hr => ?_⟩
    rcases standsAt_set hr with ⟨rfl, hv⟩ | ⟨-, hr⟩
    · rcases hrep hv with hwr | hnp
      · exact hnr ⟨w, hw, hwr⟩
      · -- a tunnel that has exited was started, and this worker has not started one
        obtain ⟨u, hu, hup⟩ := h.exited x (h.overdue x hx)
        obtain rfl := Option.some.inj (hw.symm.trans hu)
        rw [hnp] at hup
        cases hup
    · exact hnr hr

/-- Something else than `Connected` is put on display. -/
theorem Inv.hidden {workers : List Worker} {conn conn' : ConnState} {tunnel tunnel' : Bool} {g : Tunnels}
    (h : Inv workers conn tunnel g) (hconn : ∀ label, conn' ≠ .connected label) (htun : tunnel' = true → tunnel = true) :
    Inv workers conn' tunnel' { g with shown := none } := by
  refine ⟨?_, ?_, h.exited, ?_, h.overdue, ?_⟩
  · intro label hc
    exact absurd hc (hconn label)
  · intro i hi
    cases hi
  · intro ht
    exact h.last (htun ht)
  · intro x hx
    exact ⟨fun e => (by cases e), (h.safe x hx).2⟩

/-- A worker that was about to report puts its tunnel on display. -/
theorem Inv.setConnected {workers : List Worker} {conn : ConnState} {tunnel : Bool} {g : Tunnels}
    (h : Inv workers conn tunnel g) {i : Nat} (hi : Reporting workers i) (label : Str) :
    Inv workers (.connected label) tunnel { g with shown := some i } := by
  refine ⟨?_, ?_, h.exited, h.last, h.overdue, ?_⟩
  · intro _ _
    exact ⟨i, rfl⟩
  · intro _ _
    exact ⟨label, rfl⟩
  · intro x hx
    refine ⟨fun e => ?_, (h.safe x hx).2⟩
    obtain rfl := Option.some.inj e
    exact (h.safe i hx).2 hi

theorem tunnel_stopExisting {s : X365VpnService} (h : s.stopExisting.tunnel = true) : s.tunnel = true := by
  rw [X365VpnService.stopExisting] at h
  split at h
  · cases h
  · exact h

/-- A step of a worker keeps the invariant. -/
theorem inv_worker {s s' t : X365VpnService} {g : Tunnels} {i : Nat} {o : Outcome} {w : Worker} {pc' : WorkerPc}
    (h : Inv s.workers s.connState s.tunnel g) (hw : s.workers[i]? = some w) (hmove : Move w s w.pc o s' pc')
    (ht : t.tunnel = s'.tunnel) :
    Inv (s.workers.set i (advance w pc')) s'.connState s'.tunnel (g.recordWork s t i w.pc) := by
  generalize hpc : w.pc = pc at hmove
  have hmoved : ∀ tunnel', (pastStart pc = true → pastStart pc' = true) →
      (pc'.reporting = true → pc.reporting = true ∨ pastStart pc = false) → (tunnel' = true → s.tunnel = true) →
      Inv (s.workers.set i (advance w pc')) s.connState tunnel' g := by
    intro tunnel' hp hr htun
    exact h.moved hw (by rw [hpc]; exact hp) (by rw [hpc]; exact hr) htun
  cases hmove with
  | stopExisting =>
    rw [connState_stopExisting]
    exact hmoved _ (fun e => by cases e) (fun e => by cases e) tunnel_stopExisting
  | tunnel hheld htun =>
    have hrec : g.recordWork s t i .tProxyStartService = { g with last := i } := by
      rw [Tunnels.recordWork, ht, htun]
      rfl
    have hnew := hmoved false (fun e => by cases e) (fun _ => .inr rfl) (fun e => by cases e)
    rw [hrec]
    refine ⟨hnew.shown, hnew.connected, hnew.exited, fun _ => ?_, hnew.overdue, hnew.safe⟩
    exact ⟨advance w .setRunning, List.getElem?_set_self (List.getElem?_eq_some_iff.1 hw).1, rfl⟩
  | setRunning => exact hmoved _ (fun _ => rfl) (fun _ => .inl rfl) (fun e => e)
  | setConnected =>
    have hnew := h.setConnected ⟨w, hw, by rw [hpc]; rfl⟩ w.nodeLabel
    exact hnew.moved hw (fun _ => rfl) (fun e => by cases e) (fun e => e)
  | fail message =>
    have hnew := hmoved s.tunnel (fun _ => rfl) (fun e => by cases e) (fun e => e)
    exact hnew.hidden (fun _ e => by cases e) (fun e => e)
  | caught pc o message hor =>
    have hrec : g.recordWork s t i pc = g := by
      rcases hor with rfl | rfl | rfl | rfl
      · rfl
      · rfl
      · rw [Tunnels.recordWork, ht, Bool.and_not_self]
        rfl
      · rfl
    rw [hrec]
    exact hmoved _ (fun _ => rfl) (fun e => by cases e) (fun e => e)
  | clearTraffic | startStatsThread | notified => exact hmoved _ (fun _ => rfl) (fun e => by cases e) (fun e => e)
  | start | establish | startThenThrow | create | noInterface =>
    exact hmoved _ (fun e => by cases e) (fun e => by cases e) (fun e => e)

/-- A step of a thread keeps the invariant. -/
theorem inv_poll {s t : X365VpnService} {g : Tunnels} {j : Nat} {pc : StatsPc} (h : Inv s.workers s.connState s.tunnel g)
    (hok : pc = .testRunning → s.running = true → ∀ x ∈ g.exited, g.shown ≠ some x ∧ ¬Reporting s.workers x) :
    Inv s.workers s.connState s.tunnel (g.recordPoll s t j pc) := by
  by_cases hpc : pc = .testRunning
  · subst hpc
    rw [Tunnels.recordPoll]
    split
    · rename_i hr
      have hnew : ∀ x, Overdue { g with began := Function.update g.began j g.exited } x → Overdue g x ∨ x ∈ g.exited := by
        rintro x (hx | ⟨k, hx⟩)
        · exact .inl (.inl hx)
        · by_cases hkj : k = j
          · subst hkj
            exact .inr (by simpa using hx)
          · exact .inl (.inr ⟨k, by simpa [hkj] using hx⟩)
      refine ⟨h.shown, h.connected, h.exited, h.last, ?_, ?_⟩
      · intro x hx
        exact (hnew x hx).elim (h.overdue x) id
      · intro x hx
        exact (hnew x hx).elim (h.safe x) (hok rfl hr x)
    · exact h
  · have hrec : g.recordPoll s t j pc =
        if t.statsThreads[j]? = some .testRunning then { g with polled := g.polled ++ g.began j } else g := by
      cases pc with
      | testRunning => exact absurd rfl hpc
      | _ => rfl
    rw [hrec]
    split
    · have hold : ∀ x, Overdue { g with polled := g.polled ++ g.began j } x → Overdue g x := by
        rintro x (hx | hx)
        · rcases List.mem_append.1 hx with hx | hx
          · exact .inl hx
          · exact .inr ⟨j, hx⟩
        · exact .inr hx
      exact ⟨h.shown, h.connected, h.exited, h.last, fun x hx => h.overdue x (hold x hx), fun x hx => h.safe x (hold x hx)⟩
    · exact h

/-- A step of the service keeps the invariant. -/
theorem inv_step {s t : X365VpnService × Tunnels} {ev : ServiceEvent} (h : Inv s.1.workers s.1.connState s.1.tunnel s.2)
    (hok : BeginsWithTunnel s ev) (hs : Tunnels.step s ev = some t) : Inv t.1.workers t.1.connState t.1.tunnel t.2 := by
  obtain ⟨hstep, hrec⟩ := observe_eq_some.1 hs
  rw [hrec]
  generalize t.1 = u at hstep
  cases ev with
  | stats j stats =>
    obtain ⟨pc, pc', traffic, hpc, -, rfl⟩ := stats_cases hstep
    simp only [Tunnels.record, hpc, Option.elim_some]
    refine inv_poll h fun htest hr x hx => ?_
    obtain ⟨hns, hnr⟩ := hok (htest ▸ hpc) hr x hx
    refine ⟨hns, ?_⟩
    rintro ⟨w, hw, hrep⟩
    rw [hnr w hw] at hrep
    cases hrep
  | worker i o =>
    cases step_cases hstep with
    | @worker _ _ w s' pc' hw hmove =>
      simp only [Tunnels.record, hw, Option.elim_some]
      exact inv_worker h hw hmove rfl
  | onStartCommand nodeUri nodeLabel =>
    cases step_cases hstep with
    | noUri => exact h
    | command uri =>
      have hnew : Inv s.1.workers (.connecting (nodeLabel.getD "X365".toList)) s.1.tunnel { s.2 with shown := none } :=
        h.hidden (fun _ e => by cases e) (fun e => e)
      refine ⟨hnew.shown, hnew.connected, fun x hx => (h.exited x hx).append _, fun ht => (h.last ht).append _,
        hnew.overdue, fun x hx => ?_⟩
      obtain ⟨hns, hnr⟩ := hnew.safe x hx
      exact ⟨hns, fun hr => hnr (standsAt_append rfl hr)⟩
  | onDestroy =>
    obtain rfl := Option.some.inj hstep
    refine h.hidden (fun label hc => ?_) (fun e => by cases e)
    simp only [X365VpnService.onDestroy] at hc
    split at hc <;> cases hc
  | onRevoke =>
    obtain rfl := Option.some.inj hstep
    exact h.hidden (fun _ e => by cases e) (fun e => e)
  | tunnelExit =>
    simp only [X365VpnService.step] at hstep
    split at hstep
    · rename_i htun
      obtain rfl := Option.some.inj hstep
      refine ⟨h.shown, h.connected, ?_, fun e => (by cases e), fun x hx => List.mem_cons_of_mem _ (h.overdue x hx), h.safe⟩
      intro x hx
      rcases List.mem_cons.1 hx with rfl | hx
      · exact h.last htun
      · exact h.exited x hx
    · cases hstep

/-! ### An iteration behind the exit -/

/-- A later state shows a tunnel behind whose exit an iteration has begun and ended. -/
def ShowsDead (s : X365VpnService × Tunnels) : Prop := MayLead Tunnels.step (fun u => ¬NoDeadTunnelShown u) s

/-- The thread ends an iteration that it began behind the exit of the tunnel on display. -/
theorem showsDead_of_shown {s : X365VpnService × Tunnels} {j x : Nat} {label : Str} (hj : s.1.statsThreads[j]? = some .sleep)
    (hx : x ∈ s.2.began j) (hshown : s.2.shown = some x) (hconn : s.1.connState = .connected label) : ShowsDead s := by
  have hlen := (List.getElem?_eq_some_iff.1 hj).1
  have hget : (s.1.statsThreads.set j .getStats)[j]? = some .getStats := List.getElem?_set_self hlen
  have htest : ((s.1.statsThreads.set j .getStats).set j .testRunning)[j]? = some .testRunning :=
    List.getElem?_set_self (by rw [List.length_set]; exact hlen)
  have hrec1 : ∀ t : X365VpnService, t.statsThreads[j]? = some .getStats → s.2.recordPoll s.1 t j .sleep = s.2 := by
    intro t ht
    rw [Tunnels.recordPoll, if_neg (by rw [ht]; decide)]
    exact fun e => by cases e
  have hrec2 : ∀ u t : X365VpnService, t.statsThreads[j]? = some .testRunning →
      s.2.recordPoll u t j .getStats = { s.2 with polled := s.2.polled ++ s.2.began j } := by
    intro u t ht
    rw [Tunnels.recordPoll, if_pos ht]
    exact fun e => by cases e
  refine .of_step (observe_stats (fun _ _ _ _ _ => rfl) none hj rfl) ?_
  rw [hrec1 _ hget]
  refine .of_step (observe_stats (fun _ _ _ _ _ => rfl) none hget rfl) (.now fun h => ?_)
  rw [hrec2 _ _ htest] at h
  obtain ⟨i, hi, hnot⟩ := h label hconn
  obtain rfl := Option.some.inj (hshown.symm.trans hi)
  exact hnot (List.mem_append_right _ hx)

/-- A worker puts its tunnel on display when the iteration has begun. -/
theorem showsDead_of_reporting {s : X365VpnService × Tunnels} {j x : Nat} (hj : s.1.statsThreads[j]? = some .sleep)
    (hx : x ∈ s.2.began j) (hr : Reporting s.1.workers x) : ShowsDead s := by
  have hset : ∀ (s : X365VpnService × Tunnels) (w : Worker), s.1.statsThreads[j]? = some .sleep → x ∈ s.2.began j →
      s.1.workers[x]? = some w → w.pc = .setConnected → ShowsDead s := by
    intro s w hj hx hw hpc
    refine .of_step (observe_worker (fun _ _ _ _ _ => rfl) (o := .ok) hw (by rw [work, hpc])) ?_
    rw [hpc]
    exact showsDead_of_shown hj hx rfl rfl
  obtain ⟨w, hw, hrep⟩ := hr
  cases hpc : w.pc with
  | setConnected => exact hset s w hj hx hw hpc
  | setRunning =>
    refine .of_step (observe_worker (fun _ _ _ _ _ => rfl) (o := .ok) hw (by rw [work, hpc])) ?_
    rw [hpc]
    exact hset _ (advance w .setConnected) hj hx (List.getElem?_set_self (List.getElem?_eq_some_iff.1 hw).1) rfl
  | _ =>
    rw [hpc] at hrep
    cases hrep

/-- An iteration that begins behind the exit of the tunnel on display can end there. -/
theorem showsDead_of_not_beginsWithTunnel {s t : X365VpnService × Tunnels} {ev : ServiceEvent}
    (h : Inv s.1.workers s.1.connState s.1.tunnel s.2) (hn : ¬BeginsWithTunnel s ev) (hs : Tunnels.step s ev = some t) :
    ShowsDead t := by
  cases ev with
  | stats j stats =>
    simp only [BeginsWithTunnel, not_forall, not_and_or] at hn
    obtain ⟨hj, hr, x, hx, hn⟩ := hn
    have hpoll : s.1.poll stats .testRunning = some (s.1, .sleep) := by
      rw [poll, if_pos hr]
    have hrec : ∀ u : X365VpnService,
        s.2.recordPoll s.1 u j .testRunning = { s.2 with began := Function.update s.2.began j s.2.exited } := by
      intro u
      rw [Tunnels.recordPoll, if_pos hr]
    have hmoved : Tunnels.step s (.stats j stats) = some _ := observe_stats (fun _ _ _ _ _ => rfl) stats hj hpoll
    rw [hmoved, hrec] at hs
    obtain rfl := Option.some.inj hs
    have hj' : (s.1.statsThreads.set j .sleep)[j]? = some .sleep :=
      List.getElem?_set_self (List.getElem?_eq_some_iff.1 hj).1
    have hx' : x ∈ Function.update s.2.began j s.2.exited j := by
      rw [Function.update_self]
      exact hx
    rcases hn with hshown | ⟨w, hw, hrep⟩
    · have hshown' := not_not.1 hshown
      obtain ⟨label, hconn⟩ := h.connected x hshown'
      exact showsDead_of_shown hj' hx' hshown' hconn
    · exact showsDead_of_reporting hj' hx' ⟨w, hw, Bool.of_not_eq_false hrep⟩
  | onStartCommand | worker | onDestroy | onRevoke | tunnelExit => exact absurd trivial hn

end DeadTunnelAux

open DeadTunnelAux

/-- In every run of an instance, with exits of the tunnel at any moments, whose threads begin an iteration only while the tunnel
on display, or about to be, has not exited: `Connected` is never on display for a tunnel behind whose exit an iteration of the
loop has begun and ended. And as soon as a thread begins an iteration otherwise, the run can go on so that it is. -/
theorem dead_tunnel_not_shown (es : List ServiceEvent) (hm : Meets Tunnels.step BeginsWithTunnel (.create, .start) es) :
    (∀ pre t, pre <+: es → exec Tunnels.step (.create, .start) pre = some t → NoDeadTunnelShown t) ∧
      ∀ s ev t, exec Tunnels.step (.create, .start) es = some s → Tunnels.step s ev = some t →
        ¬BeginsWithTunnel s ev → ∃ u, Reaches Tunnels.step t u ∧ ¬NoDeadTunnelShown u := by
  refine hm.safe_and_tight (fun s => Inv s.1.workers s.1.connState s.1.tunnel s.2) NoDeadTunnelShown
    (fun s ev t h hok hs => inv_step h hok hs) ?_ (fun s ev t h hn hs => showsDead_of_not_beginsWithTunnel h hn hs) inv_create
  intro s h label hconn
  obtain ⟨i, hi⟩ := h.shown label hconn
  exact ⟨i, hi, fun hp => (h.safe i (.inl hp)).1 hi⟩

/-- The tunnel exits while the thread sleeps, and the user disconnects before it wakes. -/
def exitThenDisconnect : List ServiceEvent :=
  .onStartCommand (some "x365://a".toList) none :: List.replicate 9 (.worker 0 .ok) ++
    [.stats 0 (some [0, 0, 0, 0]), .tunnelExit, .onDestroy] ++ List.replicate 3 (.stats 0 (some [0, 0, 0, 0]))

theorem dead_tunnel_not_shown_disconnected :
    Meets Tunnels.step BeginsWithTunnel (.create, .start) exitThenDisconnect ∧
      ∃ t, exec Tunnels.step (.create, .start) exitThenDisconnect = some t ∧ t.2.exited = [0] ∧ NoDeadTunnelShown t := by
  have hm : Meets Tunnels.step BeginsWithTunnel (.create, .start) exitThenDisconnect := by decide
  refine ⟨hm, _, rfl, rfl, ?_⟩
  exact (dead_tunnel_not_shown exitThenDisconnect hm).1 exitThenDisconnect _ (List.prefix_refl _) rfl

/-- The tunnel exits, for instance since its configuration cannot be read, and the thread goes through an iteration. -/
def exitUnseen : List ServiceEvent :=
  .onStartCommand (some "x365://a".toList) none :: List.replicate 9 (.worker 0 .ok) ++
    .tunnelExit :: List.replicate 3 (.stats 0 (some [0, 0, 0, 0]))

/-- `Connected` stays on display. -/
theorem connected_without_tunnel :
    ∃ t, exec Tunnels.step (.create, .start) exitUnseen = some t ∧ t.1.tunnel = false ∧
      t.1.connState = .connected "X365".toList ∧ t.2.shown = some 0 ∧ t.2.polled = [0] ∧ ¬NoDeadTunnelShown t := by
  refine ⟨_, rfl, rfl, rfl, rfl, rfl, fun h => ?_⟩
  obtain ⟨i, hi, hnot⟩ := h _ rfl
  obtain rfl := Option.some.inj hi
  exact hnot (List.mem_singleton_self _)

end Open365Vpn
