import Open365Vpn.Service

/-!
# What a step of the service does

`Move` lists what one step of a worker can do, and `Step` what an event can do to the service; `step_cases` reads a step of the
machine as one of these, and the proofs about runs split on it and never unfold the machine. `Owned` and `Idle` are the two
facts about the proxies and the descriptors that the theorems rest on: every one in use is in its field, and none is in use.
-/

namespace Open365Vpn

open Kotlin Runs Slots

namespace X365VpnService

/-- Every proxy that is started is the one in `proxy`, and every descriptor that is open the one in `vpnInterface`. -/
def Owned (s : X365VpnService) : Prop := s.proxy.Owned Proxy.isStarted ∧ s.vpnInterface.Owned id

/-- No proxy is started and no descriptor is open. -/
def Idle (s : X365VpnService) : Prop := s.proxy.Idle Proxy.isStarted ∧ s.vpnInterface.Idle id

theorem Idle.owned {s : X365VpnService} (h : s.Idle) : s.Owned := ⟨h.1.owned, h.2.owned⟩

theorem portHeld_eq_false {s : X365VpnService} : s.portHeld = false ↔ s.proxy.Idle Proxy.isStarted := by
  simp [portHeld, Slot.Idle]

/-! ## The moves of a worker -/

/-- What a step of a worker can do: the move from a place of its code to another under an outcome. -/
inductive Move (w : Worker) (s : X365VpnService) : WorkerPc → Outcome → X365VpnService → WorkerPc → Prop where
  | stopExisting (o : Outcome) : Move w s .stopExisting o s.stopExisting .startProxy
  | start (h : s.portHeld = false) :
      Move w s .startProxy .ok { s with proxy := s.proxy.put (.started w.nodeUri) } .establish
  | startThenThrow (h : s.portHeld = false) (message : Option Str) :
      Move w s .startProxy (.thrownAfter message) { s with proxy := s.proxy.put (.started w.nodeUri) } (failed message)
  | create (message : Option Str) :
      Move w s .startProxy (.thrown message) { s with proxy := s.proxy.put .created } (failed message)
  | establish : Move w s .establish .ok { s with vpnInterface := s.vpnInterface.put true } .tProxyStartService
  | noInterface :
      Move w s .establish .refused { s with vpnInterface := s.vpnInterface.drop } (.fail "TUN 接口创建失败".toList)
  | tunnel (h : s.vpnInterface.heldObject = some true) (ht : s.tunnel = false) :
      Move w s .tProxyStartService .ok { s with tunnel := true } .setRunning
  | setRunning (o : Outcome) : Move w s .setRunning o { s with running := true } .setConnected
  | setConnected (o : Outcome) :
      Move w s .setConnected o { s with connState := .connected w.nodeLabel } .clearTraffic
  | clearTraffic (o : Outcome) : Move w s .clearTraffic o { s with traffic := none } .startStatsThread
  | startStatsThread (o : Outcome) :
      Move w s .startStatsThread o { s with statsThreads := s.statsThreads ++ [.testRunning] } .updateNotification
  | notified : Move w s .updateNotification .ok s .done
  | fail (message : Str) (o : Outcome) : Move w s (.fail message) o { s with connState := .failed message } .done
  | caught (pc : WorkerPc) (o : Outcome) (message : Str)
      (h : pc = .startProxy ∨ pc = .establish ∨ pc = .tProxyStartService ∨ pc = .updateNotification) :
      Move w s pc o s (.fail message)

/-- `startProxy` is a move: started, created and not started, or nothing but an exception. -/
theorem startProxy_move {s s' : X365VpnService} {w : Worker} {o : Outcome} {pc' : WorkerPc}
    (h : s.startProxy w.nodeUri o = some (s', pc')) : Move w s .startProxy o s' pc' := by
  cases o with
  | ok =>
    simp only [startProxy] at h
    split at h
    · cases h
    · rename_i hp
      cases h
      exact .start (Bool.eq_false_iff.2 hp)
  | thrownBefore message =>
    cases h
    exact .caught _ _ _ (.inl rfl)
  | thrown message =>
    cases h
    exact .create message
  | thrownAfter message =>
    simp only [startProxy] at h
    split at h
    · cases h
    · rename_i hp
      cases h
      exact .startThenThrow (Bool.eq_false_iff.2 hp) message
  | refused | linkError => cases h

theorem establish_move {s s' : X365VpnService} {w : Worker} {o : Outcome} {pc' : WorkerPc}
    (h : s.establish o = some (s', pc')) : Move w s .establish o s' pc' := by
  cases o with
  | ok =>
    cases h
    exact .establish
  | refused =>
    cases h
    exact .noInterface
  | thrownBefore message =>
    cases h
    exact .caught _ _ _ (.inr (.inl rfl))
  | thrown | thrownAfter | linkError => cases h

/-- `TProxyStartService` is reached only with an open descriptor in the field. -/
theorem tProxyStartService_move {s s' : X365VpnService} {w : Worker} {o : Outcome} {pc' : WorkerPc}
    (h : s.tProxyStartService o = some (s', pc')) : Move w s .tProxyStartService o s' pc' := by
  have hcaught : ∀ message, Move w s .tProxyStartService o s (.fail message) :=
    fun message => .caught _ _ _ (.inr (.inr (.inl rfl)))
  cases o with
  | ok =>
    simp only [tProxyStartService] at h
    split at h
    · cases h
      exact hcaught _
    · cases h
      exact hcaught _
    · rename_i hheld
      split at h
      · cases h
      · rename_i ht
        cases h
        exact .tunnel hheld (Bool.eq_false_iff.2 ht)
  | refused | thrownBefore | thrown | linkError =>
    cases h
    exact hcaught _
  | thrownAfter => cases h

theorem updateNotification_move {s s' : X365VpnService} {w : Worker} {o : Outcome} {pc' : WorkerPc}
    (h : s.updateNotificationConnected o = some (s', pc')) : Move w s .updateNotification o s' pc' := by
  cases o with
  | ok =>
    cases h
    exact .notified
  | thrown message =>
    cases h
    exact .caught _ _ _ (.inr (.inr (.inr rfl)))
  | refused | thrownBefore | thrownAfter | linkError => cases h

/-- A step of a worker is a move from where it stands. -/
theorem work_move {s s' : X365VpnService} {w : Worker} {o : Outcome} {pc' : WorkerPc} (h : s.work w o = some (s', pc')) :
    Move w s w.pc o s' pc' := by
  unfold work at h
  generalize w.pc = pc at h
  cases pc with
  | startProxy => exact startProxy_move h
  | establish => exact establish_move h
  | tProxyStartService => exact tProxyStartService_move h
  | updateNotification => exact updateNotification_move h
  | stopExisting =>
    cases h
    exact .stopExisting o
  | setRunning =>
    cases h
    exact .setRunning o
  | setConnected =>
    cases h
    exact .setConnected o
  | clearTraffic =>
    cases h
    exact .clearTraffic o
  | startStatsThread =>
    cases h
    exact .startStatsThread o
  | fail message =>
    cases h
    exact .fail message o
  | done => cases h

theorem connState_stopExisting (s : X365VpnService) : s.stopExisting.connState = s.connState := by
  unfold X365VpnService.stopExisting
  split <;> rfl

/-- A move writes `Connected`, or `Failed`, or leaves the state of the connection as it is. -/
theorem Move.connState {s s' : X365VpnService} {w : Worker} {o : Outcome} {pc pc' : WorkerPc} (h : Move w s pc o s' pc') :
    (pc = .setConnected ∧ s'.connState = .connected w.nodeLabel) ∨
    (∃ message, pc = .fail message ∧ s'.connState = .failed message) ∨
    (pc ≠ .setConnected ∧ (∀ message, pc ≠ .fail message) ∧ s'.connState = s.connState) := by
  cases h with
  | setConnected => exact .inl ⟨rfl, rfl⟩
  | fail message => exact .inr (.inl ⟨message, rfl, rfl⟩)
  | stopExisting => exact .inr (.inr ⟨fun e => (by cases e), fun _ e => (by cases e), connState_stopExisting s⟩)
  | caught pc o message hpc =>
    refine .inr (.inr ⟨?_, ?_, rfl⟩)
    · rcases hpc with rfl | rfl | rfl | rfl <;> exact fun e => by cases e
    · intro m
      rcases hpc with rfl | rfl | rfl | rfl <;> exact fun e => by cases e
  | _ => exact .inr (.inr ⟨fun e => (by cases e), fun _ e => (by cases e), rfl⟩)

/-! ## The steps of the machine -/

/-- What an event can do to the service: the state it leaves. A thread that polls the traffic writes it, or writes nothing. -/
inductive Step (s : X365VpnService) : ServiceEvent → X365VpnService → Prop where
  | noUri (nodeLabel : Option Str) : Step s (.onStartCommand none nodeLabel) s
  | command (nodeUri : Str) (nodeLabel : Option Str) :
      Step s (.onStartCommand (some nodeUri) nodeLabel)
        { s with
          connState := .connecting (nodeLabel.getD "X365".toList)
          workers := s.workers ++ [⟨nodeUri, nodeLabel.getD "X365".toList, .stopExisting, false⟩] }
  | worker {i : Nat} {o : Outcome} {w : Worker} {s' : X365VpnService} {pc' : WorkerPc} (hw : s.workers[i]? = some w)
      (hmove : Move w s w.pc o s' pc') : Step s (.worker i o) { s' with workers := s.workers.set i (advance w pc') }
  | poll (j : Nat) (stats : Option (List Int)) (pc' : StatsPc) :
      Step s (.stats j stats) { s with statsThreads := s.statsThreads.set j pc' }
  | setTraffic {j : Nat} (stats : Option (List Int)) {traffic : Traffic} (hpc : s.statsThreads[j]? = some (.setTraffic traffic)) :
      Step s (.stats j stats) { s with traffic := some traffic, statsThreads := s.statsThreads.set j .testRunning }
  | onDestroy : Step s .onDestroy s.onDestroy
  | onRevoke : Step s .onRevoke s.onRevoke
  | tunnelExit : Step s .tunnelExit { s with tunnel := false }

/-- Every step of the machine is one of these. -/
theorem step_cases {s t : X365VpnService} {ev : ServiceEvent} (h : s.step ev = some t) : Step s ev t := by
  cases ev with
  | onStartCommand nodeUri nodeLabel =>
    obtain rfl := Option.some.inj h
    cases nodeUri with
    | none => exact .noUri nodeLabel
    | some uri => exact .command uri nodeLabel
  | worker i o =>
    obtain ⟨w, hw, h⟩ := Option.bind_eq_some_iff.1 h
    obtain ⟨⟨s', pc'⟩, hwork, rfl⟩ := Option.map_eq_some_iff.1 h
    exact .worker hw (work_move hwork)
  | stats j stats =>
    obtain ⟨pc, hpc, h⟩ := Option.bind_eq_some_iff.1 h
    obtain ⟨⟨s', pc'⟩, hpoll, rfl⟩ := Option.map_eq_some_iff.1 h
    cases pc with
    | testRunning | sleep | getStats =>
      cases hpoll
      exact .poll j stats _
    | setTraffic traffic =>
      cases hpoll
      exact .setTraffic stats hpc
    | done => cases hpoll
  | onDestroy =>
    obtain rfl := Option.some.inj h
    exact .onDestroy
  | onRevoke =>
    obtain rfl := Option.some.inj h
    exact .onRevoke
  | tunnelExit =>
    simp only [step] at h
    split at h
    · obtain rfl := Option.some.inj h
      exact .tunnelExit
    · cases h

/-- A step of a thread that polls: it was not done, and nothing changes but its place and the traffic. -/
theorem stats_cases {s t : X365VpnService} {j : Nat} {stats : Option (List Int)} (h : s.step (.stats j stats) = some t) :
    ∃ pc pc' traffic, s.statsThreads[j]? = some pc ∧ pc ≠ .done ∧
      t = { s with traffic := traffic, statsThreads := s.statsThreads.set j pc' } := by
  obtain ⟨pc, hpc, h⟩ := Option.bind_eq_some_iff.1 h
  obtain ⟨⟨s', pc'⟩, hpoll, rfl⟩ := Option.map_eq_some_iff.1 h
  cases pc with
  | testRunning | sleep | getStats =>
    cases hpoll
    exact ⟨_, _, s.traffic, hpc, by decide, rfl⟩
  | setTraffic traffic =>
    cases hpoll
    exact ⟨_, _, some traffic, hpc, fun e => (by cases e), rfl⟩
  | done => cases hpoll

/-- The step of a worker that can move. -/
theorem step_worker {s : X365VpnService} {i : Nat} {o : Outcome} {w : Worker} {r : X365VpnService × WorkerPc}
    (hw : s.workers[i]? = some w) (hr : s.work w o = some r) :
    s.step (.worker i o) = some { r.1 with workers := s.workers.set i (advance w r.2) } := by
  simp only [step, hw, hr, Option.bind_some, Option.map_some]

/-- The step of a thread that can move. -/
theorem step_stats {s : X365VpnService} {j : Nat} {pc : StatsPc} {r : X365VpnService × StatsPc} (stats : Option (List Int))
    (hpc : s.statsThreads[j]? = some pc) (hr : s.poll stats pc = some r) :
    s.step (.stats j stats) = some { r.1 with statsThreads := s.statsThreads.set j r.2 } := by
  simp only [step, hpc, hr, Option.bind_some, Option.map_some]

section Observe

variable {γ : Type} {record : X365VpnService → ServiceEvent → X365VpnService → γ → γ}

/-- The step of a worker that can move, under an observer who watches the workers. -/
theorem observe_worker {watch : Nat → Worker → X365VpnService → X365VpnService → γ → γ}
    (hrec : ∀ s i o t g, record s (.worker i o) t g = (s.workers[i]?).elim g fun w => watch i w s t g) {s : X365VpnService × γ}
    {i : Nat} {o : Outcome} {w : Worker} {r : X365VpnService × WorkerPc} (hw : s.1.workers[i]? = some w)
    (hr : s.1.work w o = some r) :
    observe X365VpnService.step record s (.worker i o) =
      some ({ r.1 with workers := s.1.workers.set i (advance w r.2) },
        watch i w s.1 { r.1 with workers := s.1.workers.set i (advance w r.2) } s.2) := by
  refine observe_eq_some.2 ⟨step_worker hw hr, ?_⟩
  rw [hrec, hw, Option.elim_some]

/-- The step of a thread that can move, under an observer who watches the threads. -/
theorem observe_stats {watch : Nat → StatsPc → X365VpnService → X365VpnService → γ → γ}
    (hrec : ∀ s j stats t g, record s (.stats j stats) t g = (s.statsThreads[j]?).elim g fun pc => watch j pc s t g)
    {s : X365VpnService × γ} {j : Nat} {pc : StatsPc} {r : X365VpnService × StatsPc} (stats : Option (List Int))
    (hpc : s.1.statsThreads[j]? = some pc) (hr : s.1.poll stats pc = some r) :
    observe X365VpnService.step record s (.stats j stats) =
      some ({ r.1 with statsThreads := s.1.statsThreads.set j r.2 },
        watch j pc s.1 { r.1 with statsThreads := s.1.statsThreads.set j r.2 } s.2) := by
  refine observe_eq_some.2 ⟨step_stats stats hpc hr, ?_⟩
  rw [hrec, hpc, Option.elim_some]

end Observe

/-! ## Where the workers stand -/

/-- The worker exists and stands at one of these places. -/
def StandsAt (p : WorkerPc → Bool) (workers : List Worker) (i : Nat) : Prop := ∃ w, workers[i]? = some w ∧ p w.pc = true

/-- A worker that stands there after a step of worker `i` is that one, or another one that stood there before. -/
theorem standsAt_set {p : WorkerPc → Bool} {workers : List Worker} {i k : Nat} {v : Worker}
    (h : StandsAt p (workers.set i v) k) : k = i ∧ p v.pc = true ∨ k ≠ i ∧ StandsAt p workers k := by
  obtain ⟨w, hw, hp⟩ := h
  rw [List.getElem?_set] at hw
  by_cases hik : i = k
  · rw [if_pos hik] at hw
    split at hw
    · obtain rfl := Option.some.inj hw
      exact .inl ⟨hik.symm, hp⟩
    · cases hw
  · rw [if_neg hik] at hw
    exact .inr ⟨fun e => hik e.symm, w, hw, hp⟩

/-- A new worker that does not stand there. -/
theorem standsAt_append {p : WorkerPc → Bool} {workers : List Worker} {k : Nat} {v : Worker} (hv : p v.pc = false)
    (h : StandsAt p (workers ++ [v]) k) : StandsAt p workers k := by
  obtain ⟨w, hw, hp⟩ := h
  rw [List.getElem?_append] at hw
  split at hw
  · exact ⟨w, hw, hp⟩
  · obtain rfl := List.mem_singleton.1 (List.mem_of_getElem? hw)
    rw [hv] at hp
    cases hp

/-- Places that a step does not leave. -/
theorem StandsAt.set {p : WorkerPc → Bool} {workers : List Worker} {i k : Nat} {w v : Worker} (h : StandsAt p workers k)
    (hw : workers[i]? = some w) (hv : p w.pc = true → p v.pc = true) : StandsAt p (workers.set i v) k := by
  obtain ⟨u, hu, hp⟩ := h
  by_cases hik : i = k
  · subst hik
    obtain rfl := Option.some.inj (hw.symm.trans hu)
    exact ⟨v, List.getElem?_set_self (List.getElem?_eq_some_iff.1 hw).1, hv hp⟩
  · exact ⟨u, (List.getElem?_set_ne hik).trans hu, hp⟩

theorem StandsAt.append {p : WorkerPc → Bool} {workers : List Worker} {k : Nat} (h : StandsAt p workers k) (v : Worker) :
    StandsAt p (workers ++ [v]) k := by
  obtain ⟨u, hu, hp⟩ := h
  exact ⟨u, (List.getElem?_append_left (List.getElem?_eq_some_iff.1 hu).1).trans hu, hp⟩

/-! ## Proxies and descriptors under each operation -/

theorem isStarted_stop (p : Proxy) : p.stop.isStarted = false := by
  cases p <;> rfl

/-- The release of the fields releases everything when everything is in the fields. -/
theorem Owned.idle_release {s : X365VpnService} (h : s.Owned) : s.release.Idle :=
  ⟨h.1.idle_modifyHeld isStarted_stop, h.2.idle_modifyHeld fun _ => rfl⟩

theorem Owned.idle_stopExisting {s : X365VpnService} (h : s.Owned) (hr : s.running = true) : s.stopExisting.Idle := by
  have hi := h.idle_release
  rw [stopExisting, if_pos hr]
  exact ⟨hi.1.drop, hi.2.drop⟩

theorem stopExisting_of_not_running {s : X365VpnService} (hr : s.running = false) : s.stopExisting = s := by
  rw [stopExisting, hr]
  rfl

end X365VpnService

end Open365Vpn
