import Open365Vpn.Lemmas.Service
import Mathlib.Logic.Function.Basic

/-!
# The threads that poll the traffic

A thread that polls is told to stop by nothing but `running`, which it tests once in an iteration. A switch of nodes clears the
flag and sets it again in much less time than an iteration takes, so the thread of the old connection may miss the moment and
poll on, beside the thread of the new one. The observer numbers the connections in the order in which they set `running`;
`one_poller` says when no thread outlives its own.
-/

namespace Open365Vpn

open Kotlin Runs X365VpnService

/-- What the observer records: how many connections have set `running`; which of them a worker has made and a thread was
started for, 0 when none; which was the last when a thread passed its test the last time; and whether a thread has passed its
test when a connection later than its own had set `running`. -/
structure Connections where
  count : Nat
  ofWorker : Nat → Nat
  ofThread : Nat → Nat
  passed : Nat → Nat
  outlived : Bool

namespace Connections

def start : Connections where
  count := 0
  ofWorker _ := 0
  ofThread _ := 0
  passed _ := 0
  outlived := false

/-- The record of a step of worker `i` at a place of its code. -/
def recordWork (s : X365VpnService) (g : Connections) (i : Nat) : WorkerPc → Connections
  | .setRunning => { g with count := g.count + 1, ofWorker := Function.update g.ofWorker i (g.count + 1) }
  | .startStatsThread => { g with ofThread := Function.update g.ofThread s.statsThreads.length (g.ofWorker i) }
  | _ => g

/-- The record of a step of thread `j` at a place of its code. -/
def recordPoll (s : X365VpnService) (g : Connections) (j : Nat) : StatsPc → Connections
  | .testRunning =>
    if s.running then
      { g with passed := Function.update g.passed j g.count, outlived := g.outlived || decide (g.ofThread j < g.count) }
    else g
  | _ => g

/-- The record of a step. -/
def record (s : X365VpnService) (ev : ServiceEvent) (_ : X365VpnService) (g : Connections) : Connections :=
  match ev with
  | .worker i _ => (s.workers[i]?).elim g fun w => g.recordWork s i w.pc
  | .stats j _ => (s.statsThreads[j]?).elim g fun pc => g.recordPoll s j pc
  | .onStartCommand .. | .onDestroy | .onRevoke | .tunnelExit => g

/-- The service and the record of its connections. -/
def step : X365VpnService × Connections → ServiceEvent → Option (X365VpnService × Connections) :=
  observe X365VpnService.step record

end Connections

/-- The thread is in its loop and has passed its test for the current connection. -/
def Polls (s : X365VpnService × Connections) (j : Nat) : Prop :=
  ∃ pc, s.1.statsThreads[j]? = some pc ∧ pc ≠ .done ∧ 0 < s.2.count ∧ s.2.passed j = s.2.count

/-- No thread has passed its test after a connection later than its own, and at most one polls for the current connection. -/
structure OnePoller (s : X365VpnService × Connections) : Prop where
  none_outlived : s.2.outlived = false
  one : ∀ j k, Polls s j → Polls s k → j = k

/-- The worker has set `running` and has not started its thread. -/
def WorkerPc.awaitsThread : WorkerPc → Bool
  | .setConnected | .clearTraffic | .startStatsThread => true
  | _ => false

/-- A worker sets `running` only when every thread that polls has ended and no other worker is about to start one. -/
def EndsOldThreads (s : X365VpnService) : ServiceEvent → Prop
  | .worker i _ =>
    ∀ w ∈ s.workers[i]?, w.pc = .setRunning →
      (∀ pc ∈ s.statsThreads, pc = .done) ∧ ∀ v ∈ s.workers, v.pc.awaitsThread = false
  | _ => True

instance (s : X365VpnService) : ∀ ev, Decidable (EndsOldThreads s ev)
  | .worker i _ =>
    inferInstanceAs (Decidable (∀ w ∈ s.workers[i]?, w.pc = .setRunning →
      (∀ pc ∈ s.statsThreads, pc = .done) ∧ ∀ v ∈ s.workers, v.pc.awaitsThread = false))
  | .onDestroy | .onRevoke | .onStartCommand .. | .stats .. | .tunnelExit => inferInstanceAs (Decidable True)

namespace PollingAux

/-- A worker that has set `running` and has not started its thread. -/
def Awaits (workers : List Worker) (i : Nat) : Prop := StandsAt WorkerPc.awaitsThread workers i

/-- A thread that has not ended. -/
def Live (threads : List StatsPc) (j : Nat) : Prop := ∃ pc, threads[j]? = some pc ∧ pc ≠ .done

/-- The invariant: a worker that is about to start its thread is the only one, it has made the last connection and no thread is
live; a live thread is the only one and belongs to the last connection. -/
structure Inv (workers : List Worker) (threads : List StatsPc) (g : Connections) : Prop where
  outlived : g.outlived = false
  awaits : ∀ i, Awaits workers i → g.ofWorker i = g.count ∧ ∀ j, ¬Live threads j
  awaits_one : ∀ i k, Awaits workers i → Awaits workers k → i = k
  live : ∀ j, Live threads j → g.ofThread j = g.count
  live_one : ∀ j k, Live threads j → Live threads k → j = k

theorem inv_create : Inv X365VpnService.create.workers X365VpnService.create.statsThreads .start := by
  have hw : ∀ i, ¬Awaits X365VpnService.create.workers i := by
    rintro i ⟨w, hw, -⟩
    cases hw
  have ht : ∀ j, ¬Live X365VpnService.create.statsThreads j := by
    rintro j ⟨pc, hpc, -⟩
    cases hpc
  exact ⟨rfl, fun i h => absurd h (hw i), fun i _ h => absurd h (hw i), fun j h => absurd h (ht j),
    fun j _ h => absurd h (ht j)⟩

/-- The invariant needs no more than the workers that are about to start a thread and the threads that are live. -/
theorem Inv.mono {workers workers' : List Worker} {threads threads' : List StatsPc} {g : Connections}
    (h : Inv workers threads g) (hw : ∀ i, Awaits workers' i → Awaits workers i) (ht : ∀ j, Live threads' j → Live threads j) :
    Inv workers' threads' g := by
  refine ⟨h.outlived, ?_, ?_, ?_, ?_⟩
  · intro i hi
    obtain ⟨hc, hnone⟩ := h.awaits i (hw i hi)
    exact ⟨hc, fun j hj => hnone j (ht j hj)⟩
  · intro i k hi hk
    exact h.awaits_one i k (hw i hi) (hw k hk)
  · intro j hj
    exact h.live j (ht j hj)
  · intro j k hj hk
    exact h.live_one j k (ht j hj) (ht k hk)

/-- What a move of a worker means to the threads that poll. -/
theorem move_threads {s s' : X365VpnService} {w : Worker} {o : Outcome} {pc pc' : WorkerPc} (h : Move w s pc o s' pc') :
    (pc = .setRunning ∧ pc' = .setConnected ∧ s'.statsThreads = s.statsThreads) ∨
    (pc = .startStatsThread ∧ pc' = .updateNotification ∧ s'.statsThreads = s.statsThreads ++ [.testRunning]) ∨
    ((∀ (g : Connections) i, g.recordWork s i pc = g) ∧ (pc'.awaitsThread = true → pc.awaitsThread = true) ∧
      s'.statsThreads = s.statsThreads) := by
  cases h with
  | setRunning => exact .inl ⟨rfl, rfl, rfl⟩
  | startStatsThread => exact .inr (.inl ⟨rfl, rfl, rfl⟩)
  | stopExisting =>
    refine .inr (.inr ⟨fun _ _ => rfl, fun h => h, ?_⟩)
    rw [X365VpnService.stopExisting]
    split <;> rfl
  | caught pc o message hpc =>
    refine .inr (.inr ⟨fun g i => ?_, fun h => (by cases h), rfl⟩)
    rcases hpc with rfl | rfl | rfl | rfl <;> rfl
  | setConnected | clearTraffic => exact .inr (.inr ⟨fun _ _ => rfl, fun _ => rfl, rfl⟩)
  | _ => exact .inr (.inr ⟨fun _ _ => rfl, fun h => (by cases h), rfl⟩)

/-! ### Steps -/

/-- A worker that sets `running` when no thread is live and no other worker is about to start one. -/
theorem Inv.setRunning {workers : List Worker} {threads : List StatsPc} {g : Connections} (h : Inv workers threads g) {i : Nat}
    {w : Worker} (ht : ∀ j, ¬Live threads j) (hw : ∀ k, ¬Awaits workers k) :
    Inv (workers.set i w) threads
      { g with count := g.count + 1, ofWorker := Function.update g.ofWorker i (g.count + 1) } := by
  have hself : ∀ k, Awaits (workers.set i w) k → k = i := by
    intro k hk
    rcases standsAt_set hk with ⟨he, -⟩ | ⟨-, ha⟩
    · exact he
    · exact absurd ha (hw k)
  refine ⟨h.outlived, ?_, ?_, ?_, ?_⟩
  · intro k hk
    obtain rfl := hself k hk
    exact ⟨Function.update_self _ _ _, ht⟩
  · intro k l hk hl
    rw [hself k hk, hself l hl]
  · intro j hj
    exact absurd hj (ht j)
  · intro j _ hj
    exact absurd hj (ht j)

/-- A worker that starts its thread. -/
theorem Inv.startStatsThread {workers : List Worker} {threads : List StatsPc} {g : Connections} (h : Inv workers threads g)
    {i : Nat} {w : Worker} (hi : Awaits workers i) (hw : w.pc.awaitsThread = false) :
    Inv (workers.set i w) (threads ++ [.testRunning])
      { g with ofThread := Function.update g.ofThread threads.length (g.ofWorker i) } := by
  obtain ⟨hcount, hnone⟩ := h.awaits i hi
  have hno : ∀ k, ¬Awaits (workers.set i w) k := by
    intro k hk
    rcases standsAt_set hk with ⟨-, ha⟩ | ⟨hne, ha⟩
    · rw [hw] at ha
      cases ha
    · exact hne (h.awaits_one k i ha hi)
  -- the new thread is the only one that is live
  have hnew : ∀ j, Live (threads ++ [.testRunning]) j → j = threads.length := by
    rintro j ⟨pc, hpc, hlive⟩
    rcases Nat.lt_trichotomy j threads.length with hlt | heq | hgt
    · rw [List.getElem?_append_left hlt] at hpc
      exact absurd ⟨pc, hpc, hlive⟩ (hnone j)
    · exact heq
    · rw [List.getElem?_eq_none (by simp; omega)] at hpc
      cases hpc
  refine ⟨h.outlived, ?_, ?_, ?_, ?_⟩
  · intro k hk
    exact absurd hk (hno k)
  · intro k _ hk
    exact absurd hk (hno k)
  · intro j hj
    obtain rfl := hnew j hj
    exact (Function.update_self _ _ _).trans hcount
  · intro j k hj hk
    rw [hnew j hj, hnew k hk]

/-- What is live after a step of a live thread was live before. -/
theorem live_set {threads : List StatsPc} {j k : Nat} {pc pc' : StatsPc} (hpc : threads[j]? = some pc) (hlive : pc ≠ .done)
    (h : Live (threads.set j pc') k) : Live threads k := by
  obtain ⟨q, hq, hne⟩ := h
  rw [List.getElem?_set] at hq
  by_cases hjk : j = k
  · subst hjk
    exact ⟨pc, hpc, hlive⟩
  · rw [if_neg hjk] at hq
    exact ⟨q, hq, hne⟩

/-- A live thread passes its test in time. -/
theorem Inv.recordPoll {s : X365VpnService} {g : Connections} {workers : List Worker} {threads : List StatsPc}
    (h : Inv workers threads g) {j : Nat} {pc : StatsPc} (hj : Live threads j) :
    Inv workers threads (g.recordPoll s j pc) := by
  cases pc with
  | testRunning =>
    rw [Connections.recordPoll]
    split
    · have hin : decide (g.ofThread j < g.count) = false := by
        rw [h.live j hj]
        exact decide_eq_false (Nat.lt_irrefl _)
      refine ⟨?_, h.awaits, h.awaits_one, h.live, h.live_one⟩
      rw [hin, h.outlived]
      rfl
    · exact h
  | sleep | getStats | setTraffic | done => exact h

/-- A step of the service keeps the invariant. -/
theorem inv_step {s t : X365VpnService × Connections} {ev : ServiceEvent} (h : Inv s.1.workers s.1.statsThreads s.2)
    (hok : EndsOldThreads s.1 ev) (hs : Connections.step s ev = some t) : Inv t.1.workers t.1.statsThreads t.2 := by
  obtain ⟨hstep, hrec⟩ := observe_eq_some.1 hs
  rw [hrec]
  generalize t.1 = u at hstep
  cases ev with
  | stats j stats =>
    obtain ⟨pc, pc', traffic, hpc, hlive, rfl⟩ := stats_cases hstep
    simp only [Connections.record, hpc, Option.elim_some]
    exact (h.recordPoll ⟨pc, hpc, hlive⟩).mono (fun _ hk => hk) (fun _ hk => live_set hpc hlive hk)
  | worker i o =>
    cases step_cases hstep with
    | @worker _ _ w s' pc' hw hmove =>
      simp only [Connections.record, hw, Option.elim_some]
      rcases move_threads hmove with ⟨hpc, -, hth⟩ | ⟨hpc, rfl, hth⟩ | ⟨hrecord, haw, hth⟩
      · obtain ⟨hdone, hno⟩ := hok w hw hpc
        rw [hpc, hth]
        refine h.setRunning ?_ ?_
        · rintro j ⟨pc, hj, hne⟩
          exact hne (hdone pc (List.mem_of_getElem? hj))
        · rintro k ⟨v, hv, ha⟩
          rw [hno v (List.mem_of_getElem? hv)] at ha
          cases ha
      · rw [hpc, hth]
        exact h.startStatsThread ⟨w, hw, by rw [hpc]; rfl⟩ rfl
      · rw [hrecord, hth]
        refine h.mono (fun k hk => ?_) (fun _ hj => hj)
        rcases standsAt_set hk with ⟨rfl, ha⟩ | ⟨-, ha⟩
        · exact ⟨w, hw, haw ha⟩
        · exact ha
  | onStartCommand nodeUri nodeLabel =>
    cases step_cases hstep with
    | noUri => exact h
    | command => exact h.mono (fun _ hk => standsAt_append rfl hk) (fun _ hj => hj)
  | onDestroy | onRevoke | tunnelExit =>
    cases step_cases hstep
    exact h

/-! ### A thread that is left over -/

/-- A later state has a thread that outlived its connection. -/
def LeftOver (s : X365VpnService × Connections) : Prop := MayLead Connections.step (fun u => ¬OnePoller u) s

/-- A thread of an older connection that is live while `running` is set goes on to its test and passes it. -/
theorem leftOver_of_live {s : X365VpnService × Connections} {j : Nat} (hr : s.1.running = true) (hl : Live s.1.statsThreads j)
    (hold : s.2.ofThread j < s.2.count) : LeftOver s := by
  have htest : ∀ s : X365VpnService × Connections, s.1.running = true → s.1.statsThreads[j]? = some .testRunning →
      s.2.ofThread j < s.2.count → LeftOver s := by
    intro s hr hpc hold
    have hrec : (s.2.recordPoll s.1 j .testRunning).outlived = true := by
      simp only [Connections.recordPoll, hr, if_true, decide_eq_true hold, Bool.or_true]
    refine .of_step (observe_stats (fun _ _ _ _ _ => rfl) none hpc rfl) (.now fun h => ?_)
    have := h.none_outlived
    rw [hrec] at this
    cases this
  have hget : ∀ s : X365VpnService × Connections, s.1.running = true → s.1.statsThreads[j]? = some .getStats →
      s.2.ofThread j < s.2.count → LeftOver s := by
    intro s hr hpc hold
    exact .of_step (observe_stats (fun _ _ _ _ _ => rfl) none hpc rfl)
      (htest _ hr (List.getElem?_set_self (List.getElem?_eq_some_iff.1 hpc).1) hold)
  obtain ⟨pc, hpc, hlive⟩ := hl
  have hself : ∀ pc', (s.1.statsThreads.set j pc')[j]? = some pc' := by
    intro pc'
    exact List.getElem?_set_self (List.getElem?_eq_some_iff.1 hpc).1
  cases pc with
  | testRunning => exact htest s hr hpc hold
  | sleep => exact .of_step (observe_stats (fun _ _ _ _ _ => rfl) none hpc rfl) (hget _ hr (hself _) hold)
  | getStats => exact hget s hr hpc hold
  | setTraffic traffic => exact .of_step (observe_stats (fun _ _ _ _ _ => rfl) none hpc rfl) (htest _ hr (hself _) hold)
  | done => exact absurd rfl hlive

/-- A worker of an older connection goes on to start its thread. -/
theorem leftOver_of_awaits {s : X365VpnService × Connections} {i : Nat} (hr : s.1.running = true) (hi : Awaits s.1.workers i)
    (hold : s.2.ofWorker i < s.2.count) : LeftOver s := by
  have hstart : ∀ (s : X365VpnService × Connections) (w : Worker), s.1.running = true → s.1.workers[i]? = some w →
      w.pc = .startStatsThread → s.2.ofWorker i < s.2.count → LeftOver s := by
    intro s w hr hw hpc hold
    refine .of_step (observe_worker (fun _ _ _ _ _ => rfl) (o := .ok) hw (by rw [work, hpc])) (leftOver_of_live (j := s.1.statsThreads.length) hr ?_ ?_)
    · exact ⟨.testRunning, List.getElem?_concat_length, by decide⟩
    · have hnew : (s.2.recordWork s.1 i .startStatsThread).ofThread s.1.statsThreads.length = s.2.ofWorker i :=
        Function.update_self _ _ _
      rw [hpc]
      exact lt_of_eq_of_lt hnew hold
  have hclear : ∀ (s : X365VpnService × Connections) (w : Worker), s.1.running = true → s.1.workers[i]? = some w →
      w.pc = .clearTraffic → s.2.ofWorker i < s.2.count → LeftOver s := by
    intro s w hr hw hpc hold
    refine .of_step (observe_worker (fun _ _ _ _ _ => rfl) (o := .ok) hw (by rw [work, hpc])) (hstart _ (advance w .startStatsThread) hr ?_ rfl ?_)
    · exact List.getElem?_set_self (List.getElem?_eq_some_iff.1 hw).1
    · rw [hpc]
      exact hold
  obtain ⟨w, hw, ha⟩ := hi
  cases hpc : w.pc with
  | startStatsThread => exact hstart s w hr hw hpc hold
  | clearTraffic => exact hclear s w hr hw hpc hold
  | setConnected =>
    refine .of_step (observe_worker (fun _ _ _ _ _ => rfl) (o := .ok) hw (by rw [work, hpc])) (hclear _ (advance w .clearTraffic) hr ?_ rfl ?_)
    · exact List.getElem?_set_self (List.getElem?_eq_some_iff.1 hw).1
    · rw [hpc]
      exact hold
  | _ =>
    rw [hpc] at ha
    cases ha

/-- When `running` is set before the old threads have ended, one of them can outlive its connection. -/
theorem leftOver_of_not_endsOldThreads {s t : X365VpnService × Connections} {ev : ServiceEvent}
    (h : Inv s.1.workers s.1.statsThreads s.2) (hn : ¬EndsOldThreads s.1 ev) (hs : Connections.step s ev = some t) :
    LeftOver t := by
  cases ev with
  | worker i o =>
    simp only [EndsOldThreads, not_forall, not_and_or] at hn
    obtain ⟨w, hw, hpc, hn⟩ := hn
    have hmoved : Connections.step s (.worker i o) = some _ :=
      observe_worker (fun _ _ _ _ _ => rfl) (o := o) hw (by rw [work, hpc])
    rw [hmoved] at hs
    obtain rfl := Option.some.inj hs
    rw [hpc]
    rcases hn with ⟨pc, hpc', hne⟩ | ⟨v, hv, ha⟩
    · obtain ⟨j, hj⟩ := List.mem_iff_getElem?.1 hpc'
      have hlive : Live s.1.statsThreads j := ⟨pc, hj, hne⟩
      exact leftOver_of_live rfl hlive (h.live j hlive ▸ Nat.lt_succ_self _)
    · obtain ⟨k, hk⟩ := List.mem_iff_getElem?.1 hv
      have haw : Awaits s.1.workers k := ⟨v, hk, Bool.of_not_eq_false ha⟩
      have hki : k ≠ i := by
        rintro rfl
        obtain rfl := Option.some.inj (hk.symm.trans hw)
        rw [hpc] at ha
        exact ha rfl
      refine leftOver_of_awaits (i := k) rfl ⟨v, ?_, Bool.of_not_eq_false ha⟩ ?_
      · exact (List.getElem?_set_ne (fun e => hki e.symm)).trans hk
      · have hold : (s.2.recordWork s.1 i .setRunning).ofWorker k = s.2.count :=
          (Function.update_of_ne hki _ _).trans (h.awaits k haw).1
        exact lt_of_eq_of_lt hold (Nat.lt_succ_self _)
  | onStartCommand | stats | onDestroy | onRevoke | tunnelExit => exact absurd trivial hn

end PollingAux

open PollingAux

/-- In every run of an instance whose workers set `running` only when the old threads have ended: no thread passes its test
after a connection later than its own has set `running`, and at most one polls for the current connection. And as soon as a
worker does not wait for them, the run can go on so that one does. -/
theorem one_poller (es : List ServiceEvent) (hm : Meets X365VpnService.step EndsOldThreads .create es) :
    (∀ pre t, pre <+: es → exec Connections.step (.create, .start) pre = some t → OnePoller t) ∧
      ∀ s ev t, exec Connections.step (.create, .start) es = some s → Connections.step s ev = some t →
        ¬EndsOldThreads s.1 ev → ∃ u, Reaches Connections.step t u ∧ ¬OnePoller u := by
  have hm' : Meets Connections.step (fun s ev => EndsOldThreads s.1 ev) (.create, .start) es := meets_observe.2 hm
  refine hm'.safe_and_tight (fun s => Inv s.1.workers s.1.statsThreads s.2) OnePoller
    (fun s ev t h hok hs => inv_step h hok hs) ?_ (fun s ev t h hn hs => leftOver_of_not_endsOldThreads h hn hs) inv_create
  intro s h
  refine ⟨h.outlived, ?_⟩
  rintro j k ⟨pc, hj, hlj, -⟩ ⟨pc', hk, hlk, -⟩
  exact h.live_one j k ⟨pc, hj, hlj⟩ ⟨pc', hk, hlk⟩

/-- A start command and all the steps of its worker. -/
def connectWith (nodeUri : String) (i : Nat) : List ServiceEvent :=
  .onStartCommand (some nodeUri.toList) none :: List.replicate 9 (.worker i .ok)

/-- A switch of nodes that takes so long that the old thread finds `running` cleared and ends. -/
def slowSwitch : List ServiceEvent :=
  connectWith "x365://a" 0 ++ [.stats 0 (some [0, 0, 0, 0]), .onStartCommand (some "x365://b".toList) none, .worker 1 .ok] ++
    List.replicate 3 (.stats 0 (some [0, 0, 0, 0])) ++ List.replicate 8 (.worker 1 .ok) ++ [.stats 1 (some [0, 0, 0, 0])]

theorem one_poller_slowSwitch :
    Meets X365VpnService.step EndsOldThreads .create slowSwitch ∧
      ∃ t, exec Connections.step (.create, .start) slowSwitch = some t ∧ t.2.count = 2 ∧ Polls t 1 ∧ OnePoller t := by
  have hm : Meets X365VpnService.step EndsOldThreads .create slowSwitch := by decide
  refine ⟨hm, _, rfl, rfl, ⟨_, rfl, by decide, by decide, rfl⟩, ?_⟩
  exact (one_poller slowSwitch hm).1 slowSwitch _ (List.prefix_refl _) rfl

/-- A switch of nodes while the old thread sleeps. -/
def switchInSleep : List ServiceEvent :=
  connectWith "x365://a" 0 ++ [.stats 0 (some [0, 0, 0, 0])] ++ connectWith "x365://b" 1 ++ [.stats 1 (some [0, 0, 0, 0])] ++
    List.replicate 3 (.stats 0 (some [0, 0, 0, 0]))

/-- The old thread wakes, finds `running` set again and goes on: two threads poll for the second connection. -/
theorem two_threads_poll :
    ∃ t, exec Connections.step (.create, .start) switchInSleep = some t ∧ t.2.count = 2 ∧ t.2.ofThread 0 = 1 ∧
      t.2.outlived = true ∧ Polls t 0 ∧ Polls t 1 ∧ ¬OnePoller t := by
  refine ⟨_, rfl, rfl, rfl, rfl, ⟨_, rfl, by decide, by decide, rfl⟩, ⟨_, rfl, by decide, by decide, rfl⟩, fun h => ?_⟩
  have := h.none_outlived
  cases this

end Open365Vpn
