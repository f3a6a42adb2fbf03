import Open365Vpn.Lemmas.Service

/-!
# Proxies, descriptors and the end of the service

`stopExisting` releases what a former start has left only when `running` is set, which is the last thing a start does; and
`onDestroy` releases what is in the fields at that moment, while the workers go on. So a start that failed midway, or whose
connection was revoked, leaves a proxy behind that the next one overwrites (`owned_iff`), and a worker that is still under way
when the service is destroyed brings everything up again (`quiescent_iff`). Both theorems say exactly when this does not happen.
-/

namespace Open365Vpn

open Kotlin Runs Slots X365VpnService

/-! ## Workers that run one after another -/

/-- The worker has begun and has not ended. -/
def Worker.inFlight (w : Worker) : Bool :=
  match w.pc with
  | .stopExisting | .done => false
  | _ => true

/-- The runs considered: a worker takes a step only while no other is in flight, and the service is destroyed or revoked
between workers. -/
def Sequential (s : X365VpnService) : ServiceEvent → Prop
  | .worker i _ => ∀ j < s.workers.length, ∀ w ∈ s.workers[j]?, w.inFlight = true → j = i
  | .onDestroy | .onRevoke => ∀ w ∈ s.workers, w.inFlight = false
  | .onStartCommand .. | .stats .. | .tunnelExit => True

/-- `stopExisting` is called while `running` is set, or while the proxy in the field, if there is one, is not started. -/
def StopsHeld (s : X365VpnService) : ServiceEvent → Prop
  | .worker i _ =>
    ∀ w ∈ s.workers[i]?, w.pc = .stopExisting → s.running = true ∨ s.proxy.heldLive Proxy.isStarted = false
  | _ => True

instance (s : X365VpnService) : ∀ ev, Decidable (Sequential s ev)
  | .worker i _ => inferInstanceAs (Decidable (∀ j < s.workers.length, ∀ w ∈ s.workers[j]?, w.inFlight = true → j = i))
  | .onDestroy | .onRevoke => inferInstanceAs (Decidable (∀ w ∈ s.workers, w.inFlight = false))
  | .onStartCommand .. | .stats .. | .tunnelExit => inferInstanceAs (Decidable True)

instance (s : X365VpnService) : ∀ ev, Decidable (StopsHeld s ev)
  | .worker i _ =>
    inferInstanceAs (Decidable (∀ w ∈ s.workers[i]?, w.pc = .stopExisting →
      s.running = true ∨ s.proxy.heldLive Proxy.isStarted = false))
  | .onDestroy | .onRevoke | .onStartCommand .. | .stats .. | .tunnelExit => inferInstanceAs (Decidable True)

namespace ResourcesAux

/-- The invariant of such runs: everything in use is in its field; a descriptor is open only while a proxy is started; and
what the worker in flight finds where it stands. -/
structure SeqInv (tun : Slot Bool) (proxy : Slot Proxy) (workers : List Worker) : Prop where
  ownsProxy : proxy.Owned Proxy.isStarted
  ownsTun : tun.Owned id
  idle : proxy.Idle Proxy.isStarted → tun.Idle id
  atStart : ∀ w ∈ workers, w.pc = .startProxy → proxy.Idle Proxy.isStarted
  atEstablish : ∀ w ∈ workers, w.pc = .establish → tun.Idle id ∧ ¬proxy.Idle Proxy.isStarted

theorem seqInv_create :
    SeqInv X365VpnService.create.vpnInterface X365VpnService.create.proxy X365VpnService.create.workers :=
  ⟨Slot.idle_empty.owned, Slot.idle_empty.owned, fun _ => Slot.idle_empty, nofun, nofun⟩

/-- A worker of the list after a step of the only one in flight is that one or is not in flight. -/
theorem mem_set_of_sequential {s : X365VpnService} {i : Nat} {o : Outcome} (hseq : Sequential s (.worker i o)) {w x : Worker}
    (hx : x ∈ s.workers.set i w) : x = w ∨ x.inFlight = false := by
  obtain ⟨j, hj⟩ := List.mem_iff_getElem?.1 hx
  rw [List.getElem?_set] at hj
  by_cases hij : i = j
  · rw [if_pos hij] at hj
    split at hj
    · exact .inl (Option.some.inj hj).symm
    · cases hj
  · rw [if_neg hij] at hj
    refine .inr (Bool.eq_false_iff.2 fun hf => ?_)
    exact hij (hseq j (List.getElem?_eq_some_iff.1 hj).1 x hj hf).symm

theorem inFlight_of_pc {w : Worker} (h : w.pc = .startProxy ∨ w.pc = .establish) : w.inFlight = true := by
  rcases h with h | h <;> rw [Worker.inFlight, h]

/-- The invariant after a step of a worker: what is in use, and what the worker finds at its next place. -/
theorem SeqInv.moved {s : X365VpnService} {i : Nat} {o : Outcome} (hseq : Sequential s (.worker i o)) {w : Worker}
    {pc : WorkerPc} {tun : Slot Bool} {proxy : Slot Proxy} (hp : proxy.Owned Proxy.isStarted) (ht : tun.Owned id)
    (hi : proxy.Idle Proxy.isStarted → tun.Idle id) (hs : pc = .startProxy → proxy.Idle Proxy.isStarted)
    (he : pc = .establish → tun.Idle id ∧ ¬proxy.Idle Proxy.isStarted) :
    SeqInv tun proxy (s.workers.set i (advance w pc)) := by
  refine ⟨hp, ht, hi, fun x hx hpc => ?_, fun x hx hpc => ?_⟩
  · rcases mem_set_of_sequential hseq hx with rfl | hf
    · exact hs hpc
    · rw [inFlight_of_pc (.inl hpc)] at hf
      cases hf
  · rcases mem_set_of_sequential hseq hx with rfl | hf
    · exact he hpc
    · rw [inFlight_of_pc (.inr hpc)] at hf
      cases hf

/-- The invariant when no worker is in flight. -/
theorem SeqInv.between {tun : Slot Bool} {proxy : Slot Proxy} {workers : List Worker} (hp : proxy.Owned Proxy.isStarted)
    (ht : tun.Owned id) (hi : proxy.Idle Proxy.isStarted → tun.Idle id) (hw : ∀ w ∈ workers, w.inFlight = false) :
    SeqInv tun proxy workers := by
  refine ⟨hp, ht, hi, fun w hm hpc => ?_, fun w hm hpc => ?_⟩
  · have := hw w hm
    rw [inFlight_of_pc (.inl hpc)] at this
    cases this
  · have := hw w hm
    rw [inFlight_of_pc (.inr hpc)] at this
    cases this

/-- After `stopExisting` nothing is in use. -/
theorem idle_stopExisting {s : X365VpnService} (h : SeqInv s.vpnInterface s.proxy s.workers)
    (hok : s.running = true ∨ s.proxy.heldLive Proxy.isStarted = false) : s.stopExisting.Idle := by
  have howned : s.Owned := ⟨h.ownsProxy, h.ownsTun⟩
  cases hr : s.running with
  | true => exact howned.idle_stopExisting hr
  | false =>
    rw [stopExisting_of_not_running hr]
    have hheld : s.proxy.heldLive Proxy.isStarted = false := hok.resolve_left (by rw [hr]; decide)
    have hidle := h.ownsProxy.idle hheld
    exact ⟨hidle, h.idle hidle⟩

theorem not_idle_put_started (p : Slot Proxy) (uri : Str) : ¬(p.put (.started uri)).Idle Proxy.isStarted := by
  intro h
  have := h (.started uri) (List.mem_append_right _ (List.mem_singleton_self _))
  cases this

/-- A step of a worker keeps the invariant. -/
theorem seqInv_worker {s s' : X365VpnService} {i : Nat} {o : Outcome} {w : Worker} {pc' : WorkerPc}
    (h : SeqInv s.vpnInterface s.proxy s.workers) (hseq : Sequential s (.worker i o)) (hok : StopsHeld s (.worker i o))
    (hw : s.workers[i]? = some w) (hmove : Move w s w.pc o s' pc') :
    SeqInv s'.vpnInterface s'.proxy (s.workers.set i (advance w pc')) := by
  have hmem : w ∈ s.workers := List.mem_of_getElem? hw
  generalize hpc : w.pc = pc at hmove
  cases hmove with
  | stopExisting =>
    have hidle := idle_stopExisting h (hok w hw hpc)
    exact .moved hseq hidle.owned.1 hidle.owned.2 (fun _ => hidle.2) (fun _ => hidle.1) nofun
  | start hport =>
    have hidle := portHeld_eq_false.1 hport
    exact .moved hseq hidle.owned_put h.ownsTun (fun _ => h.idle hidle) nofun
      fun _ => ⟨h.idle hidle, not_idle_put_started _ _⟩
  | startThenThrow hport message =>
    have hidle := portHeld_eq_false.1 hport
    exact .moved hseq hidle.owned_put h.ownsTun (fun _ => h.idle hidle) nofun nofun
  | create message =>
    have hidle := h.atStart w hmem hpc
    exact .moved hseq hidle.owned_put h.ownsTun (fun _ => h.idle hidle) nofun nofun
  | establish =>
    obtain ⟨hidle, hne⟩ := h.atEstablish w hmem hpc
    exact .moved hseq h.ownsProxy hidle.owned_put (fun hp => absurd hp hne) nofun nofun
  | noInterface =>
    obtain ⟨hidle, hne⟩ := h.atEstablish w hmem hpc
    exact .moved hseq h.ownsProxy hidle.drop.owned (fun hp => absurd hp hne) nofun nofun
  | tunnel | setRunning | setConnected | clearTraffic | startStatsThread | notified | fail | caught =>
    exact .moved hseq h.ownsProxy h.ownsTun h.idle nofun nofun

/-- Every event keeps the invariant. -/
theorem seqInv_step {s t : X365VpnService} {ev : ServiceEvent} (h : SeqInv s.vpnInterface s.proxy s.workers)
    (hseq : Sequential s ev) (hok : StopsHeld s ev) (hs : s.step ev = some t) :
    SeqInv t.vpnInterface t.proxy t.workers := by
  cases step_cases hs with
  | command uri label =>
    refine ⟨h.ownsProxy, h.ownsTun, h.idle, fun w hw hpc => ?_, fun w hw hpc => ?_⟩
    · rcases List.mem_append.1 hw with hw | hw
      · exact h.atStart w hw hpc
      · rw [List.mem_singleton.1 hw] at hpc
        cases hpc
    · rcases List.mem_append.1 hw with hw | hw
      · exact h.atEstablish w hw hpc
      · rw [List.mem_singleton.1 hw] at hpc
        cases hpc
  | worker hw hmove =>
    have hmoved := seqInv_worker h hseq hok hw hmove
    exact hmoved
  | onDestroy =>
    have hidle : s.release.Idle := Owned.idle_release ⟨h.ownsProxy, h.ownsTun⟩
    exact .between hidle.owned.1 hidle.owned.2 (fun _ => hidle.2) hseq
  | noUri | poll | setTraffic | onRevoke | tunnelExit => exact h

end ResourcesAux

open ResourcesAux

/-- In every run whose workers do not overlap and in which the service is destroyed or revoked between them, with any outcome
of each call: every started proxy is in `proxy`, every open descriptor is in `vpnInterface`, and a worker past its
`stopExisting` finds the port free, in every state of the run, exactly when every `stopExisting` finds `running` set or no
started proxy in the field. -/
theorem owned_iff (es : List ServiceEvent) (hseq : Meets X365VpnService.step Sequential .create es) :
    (∀ pre t, pre <+: es → exec X365VpnService.step .create pre = some t →
      t.Owned ∧ ∀ w ∈ t.workers, w.pc = .startProxy → t.portHeld = false) ↔
    Meets X365VpnService.step StopsHeld .create es := by
  refine meets_iff_forall_states_of (fun s : X365VpnService => SeqInv s.vpnInterface s.proxy s.workers) _
    (fun s ev t h hd hok hs => seqInv_step h hd hok hs)
    (fun s h => ⟨⟨h.ownsProxy, h.ownsTun⟩, fun w hw hpc => portHeld_eq_false.2 (h.atStart w hw hpc)⟩) ?_ seqInv_create hseq
  -- a `stopExisting` that leaves a started proxy in the field shows at once: the port is held
  intro s ev h hd hn
  cases ev with
  | worker i o =>
    simp only [StopsHeld, not_forall, not_or] at hn
    obtain ⟨w, hw, hpc, hr, hlive⟩ := hn
    have hw' : s.workers[i]? = some w := hw
    have hstop : s.stopExisting = s := stopExisting_of_not_running (Bool.eq_false_iff.2 hr)
    refine ⟨{ s with workers := s.workers.set i (advance w .startProxy) }, ?_, fun hP => ?_⟩
    · simp [X365VpnService.step, hw', work, hpc, hstop]
    · have hmem : advance w .startProxy ∈ s.workers.set i (advance w .startProxy) :=
        List.mem_set (List.getElem?_eq_some_iff.1 hw').1 _
      have hidle := portHeld_eq_false.1 (hP.2 _ hmem rfl)
      exact hlive hidle.heldLive
  | onStartCommand | stats | onDestroy | onRevoke | tunnelExit => exact absurd trivial hn

/-- A node, then another: the second `stopExisting` finds `running` set. -/
def switchNodes : List ServiceEvent :=
  .onStartCommand (some "x365://a".toList) none :: List.replicate 9 (.worker 0 .ok) ++
    .onStartCommand (some "x365://b".toList) none :: List.replicate 2 (.worker 1 .ok)

theorem owned_iff_switch :
    (exec X365VpnService.step .create switchNodes).isSome = true ∧
      ∀ pre t, pre <+: switchNodes → exec X365VpnService.step .create pre = some t →
        t.Owned ∧ ∀ w ∈ t.workers, w.pc = .startProxy → t.portHeld = false :=
  ⟨by decide, (owned_iff switchNodes (by decide)).2 (by decide)⟩

/-- The first start gets no descriptor and fails with its proxy up; a second start follows before the service is destroyed. -/
def startAfterFailure : List ServiceEvent :=
  [.onStartCommand (some "x365://a".toList) none, .worker 0 .ok, .worker 0 .ok, .worker 0 .refused, .worker 0 .ok,
    .onStartCommand (some "x365://b".toList) none, .worker 1 .ok]

/-- The second `stopExisting` leaves the first proxy running; the port is held when the second proxy is started, which then
fails and takes the place of the first in the field. -/
theorem failed_start_orphans_proxy :
    Meets X365VpnService.step Sequential .create (startAfterFailure ++ [.worker 1 (.thrown none)]) ∧
      (∃ t, exec X365VpnService.step .create startAfterFailure = some t ∧
        t.workers.map (·.pc) = [.done, .startProxy] ∧ t.portHeld = true) ∧
      ∃ t, exec X365VpnService.step .create (startAfterFailure ++ [.worker 1 (.thrown none)]) = some t ∧ ¬t.Owned := by
  refine ⟨by decide, ⟨_, rfl, rfl, rfl⟩, _, rfl, fun h => ?_⟩
  have := h.1 0 (.started "x365://a".toList) rfl rfl
  revert this
  decide

/-! ## After `onDestroy` -/

/-- The state is one of a connection that is up or on its way up. -/
def ConnState.isUp : ConnState → Bool
  | .connecting _ | .connected _ => true
  | .disconnected | .failed _ => false

/-- Nothing is left of the service. -/
structure X365VpnService.Quiescent (s : X365VpnService) : Prop where
  proxy : s.proxy.Idle Proxy.isStarted
  tun : s.vpnInterface.Idle id
  tunnel : s.tunnel = false
  traffic : s.traffic = none
  connState : s.connState.isUp = false

/-- The step takes a proxy that is started, or a descriptor that is open, out of its field. -/
def X365VpnService.overwrites (s : X365VpnService) : WorkerPc → Outcome → Bool
  | .startProxy, .thrown _ => s.proxy.heldLive Proxy.isStarted
  | .establish, .ok | .establish, .refused => s.vpnInterface.heldLive id
  | _, _ => false

/-- The step starts a proxy, gets a descriptor, or announces the connection. -/
def WorkerPc.bringsUp : WorkerPc → Outcome → Bool
  | .startProxy, .ok | .startProxy, .thrownAfter _ | .establish, .ok | .setConnected, _ => true
  | _, _ => false

/-- The step writes the traffic. -/
def StatsPc.writes : StatsPc → Bool
  | .setTraffic _ => true
  | _ => false

/-- No step takes anything in use out of its field; and once the service is destroyed there is no start command, no worker
gets through one of the steps that bring something up, and no traffic is written. -/
def StaysDown (s : X365VpnService) : ServiceEvent → Prop
  | .onStartCommand nodeUri _ => s.destroyed = true → nodeUri = none
  | .worker i o => ∀ w ∈ s.workers[i]?, s.overwrites w.pc o = false ∧ (s.destroyed = true → w.pc.bringsUp o = false)
  | .stats j _ => s.destroyed = true → ∀ pc ∈ s.statsThreads[j]?, pc.writes = false
  | .onDestroy | .onRevoke | .tunnelExit => True

instance (s : X365VpnService) : ∀ ev, Decidable (StaysDown s ev)
  | .onStartCommand nodeUri _ => inferInstanceAs (Decidable (s.destroyed = true → nodeUri = none))
  | .worker i o =>
    inferInstanceAs (Decidable (∀ w ∈ s.workers[i]?, s.overwrites w.pc o = false ∧
      (s.destroyed = true → w.pc.bringsUp o = false)))
  | .stats j _ => inferInstanceAs (Decidable (s.destroyed = true → ∀ pc ∈ s.statsThreads[j]?, pc.writes = false))
  | .onDestroy | .onRevoke | .tunnelExit => inferInstanceAs (Decidable True)

namespace ResourcesAux

/-- The invariant: everything in use is in its field, and nothing is left once the service is destroyed. -/
def DownInv (s : X365VpnService) : Prop := s.Owned ∧ (s.destroyed = true → s.Quiescent)

theorem downInv_create : DownInv .create := ⟨⟨Slot.idle_empty.owned, Slot.idle_empty.owned⟩, nofun⟩

/-- A slot that does not lose what it holds stays owned when something is put in. -/
theorem owned_put {α : Type} {live : α → Bool} {s : Slot α} (h : s.Owned live) (hl : s.heldLive live = false) (x : α) :
    (s.put x).Owned live :=
  (h.idle hl).owned_put

theorem Quiescent.stopExisting {s : X365VpnService} (h : s.Quiescent) : s.stopExisting.Quiescent := by
  cases hr : s.running with
  | true =>
    have hidle := Owned.idle_stopExisting ⟨h.proxy.owned, h.tun.owned⟩ hr
    refine ⟨hidle.1, hidle.2, ?_, ?_, ?_⟩
    · rw [X365VpnService.stopExisting, if_pos hr]
      rfl
    · rw [X365VpnService.stopExisting, if_pos hr]
      exact h.traffic
    · rw [X365VpnService.stopExisting, if_pos hr]
      exact h.connState
  | false =>
    rw [stopExisting_of_not_running hr]
    exact h

theorem destroyed_stopExisting (s : X365VpnService) : s.stopExisting.destroyed = s.destroyed := by
  unfold X365VpnService.stopExisting
  split
  · rfl
  · rfl

theorem owned_stopExisting {s : X365VpnService} (h : s.Owned) : s.stopExisting.Owned := by
  cases hr : s.running with
  | true => exact (h.idle_stopExisting hr).owned
  | false =>
    rw [stopExisting_of_not_running hr]
    exact h

/-- A step of a worker keeps the invariant. -/
theorem downInv_worker {s s' : X365VpnService} {w : Worker} {o : Outcome} {pc pc' : WorkerPc} (ws : List Worker)
    (h : DownInv s) (hov : s.overwrites pc o = false) (hup : s.destroyed = true → pc.bringsUp o = false)
    (hmove : Move w s pc o s' pc') : DownInv { s' with workers := ws } := by
  have hquiet : s.destroyed = true → s.Quiescent := h.2
  cases hmove with
  | stopExisting =>
    refine ⟨owned_stopExisting h.1, fun hd => ?_⟩
    have hd' : s.stopExisting.destroyed = true := hd
    rw [destroyed_stopExisting] at hd'
    obtain ⟨h1, h2, h3, h4, h5⟩ := Quiescent.stopExisting (hquiet hd')
    exact ⟨h1, h2, h3, h4, h5⟩
  | start hport | startThenThrow hport =>
    refine ⟨⟨(portHeld_eq_false.1 hport).owned_put, h.1.2⟩, fun hd => ?_⟩
    cases hup hd
  | create =>
    refine ⟨⟨owned_put h.1.1 hov _, h.1.2⟩, fun hd => ?_⟩
    obtain ⟨h1, h2, h3, h4, h5⟩ := hquiet hd
    exact ⟨h1.put rfl, h2, h3, h4, h5⟩
  | establish =>
    refine ⟨⟨h.1.1, owned_put h.1.2 hov _⟩, fun hd => ?_⟩
    cases hup hd
  | noInterface =>
    refine ⟨⟨h.1.1, (h.1.2.idle hov).drop.owned⟩, fun hd => ?_⟩
    obtain ⟨h1, h2, h3, h4, h5⟩ := hquiet hd
    exact ⟨h1, h2.drop, h3, h4, h5⟩
  | tunnel hheld =>
    -- once the service is destroyed the descriptor in the field is closed, so `TProxyStartService` is not reached
    refine ⟨h.1, fun hd => ?_⟩
    have hlive : s.vpnInterface.heldLive id = true := by rw [Slot.heldLive, hheld]; rfl
    rw [(hquiet hd).tun.heldLive] at hlive
    cases hlive
  | setConnected =>
    refine ⟨h.1, fun hd => ?_⟩
    cases hup hd
  | setRunning | startStatsThread | notified | caught =>
    refine ⟨h.1, fun hd => ?_⟩
    obtain ⟨h1, h2, h3, h4, h5⟩ := hquiet hd
    exact ⟨h1, h2, h3, h4, h5⟩
  | clearTraffic =>
    refine ⟨h.1, fun hd => ?_⟩
    obtain ⟨h1, h2, h3, -, h5⟩ := hquiet hd
    exact ⟨h1, h2, h3, rfl, h5⟩
  | fail =>
    refine ⟨h.1, fun hd => ?_⟩
    obtain ⟨h1, h2, h3, h4, -⟩ := hquiet hd
    exact ⟨h1, h2, h3, h4, rfl⟩

/-- `onDestroy` leaves nothing behind when everything in use is in its field. -/
theorem quiescent_onDestroy {s : X365VpnService} (h : s.Owned) : s.onDestroy.Quiescent := by
  have hidle := h.idle_release
  refine ⟨hidle.1, hidle.2, rfl, rfl, ?_⟩
  unfold X365VpnService.onDestroy
  dsimp only
  split
  · rfl
  · rfl

/-- Every event keeps the invariant. -/
theorem downInv_step {s t : X365VpnService} {ev : ServiceEvent} (h : DownInv s) (hok : StaysDown s ev)
    (hs : s.step ev = some t) : DownInv t := by
  cases step_cases hs with
  | noUri => exact h
  | command uri label =>
    refine ⟨h.1, fun hd => ?_⟩
    cases hok hd
  | worker hw hmove => exact downInv_worker _ h (hok _ hw).1 (hok _ hw).2 hmove
  | poll =>
    refine ⟨h.1, fun hd => ?_⟩
    obtain ⟨h1, h2, h3, h4, h5⟩ := h.2 hd
    exact ⟨h1, h2, h3, h4, h5⟩
  | setTraffic stats hpc =>
    refine ⟨h.1, fun hd => ?_⟩
    cases hok hd _ hpc
  | onDestroy =>
    have hq := quiescent_onDestroy h.1
    exact ⟨⟨hq.proxy.owned, hq.tun.owned⟩, fun _ => hq⟩
  | onRevoke =>
    refine ⟨h.1, fun hd => ?_⟩
    obtain ⟨h1, h2, h3, h4, -⟩ := h.2 hd
    exact ⟨h1, h2, h3, h4, rfl⟩
  | tunnelExit =>
    refine ⟨h.1, fun hd => ?_⟩
    obtain ⟨h1, h2, -, h4, h5⟩ := h.2 hd
    exact ⟨h1, h2, rfl, h4, h5⟩

theorem not_idle_put_open (p : Slot Bool) : ¬(p.put true).Idle id := by
  intro h
  have := h true (List.mem_append_right _ (List.mem_singleton_self _))
  cases this

/-- A step that takes something in use out of its field loses it at once. -/
theorem not_downInv_of_overwrites {s : X365VpnService} {w : Worker} {o : Outcome} (h : s.overwrites w.pc o = true) :
    ∃ r, s.work w o = some r ∧ ∀ ws, ¬DownInv { r.1 with workers := ws } := by
  unfold X365VpnService.overwrites at h
  split at h
  · rename_i message hpc
    exact ⟨_, by rw [work, hpc]; rfl, fun ws hd => Slot.not_owned_put (.inr h) _ hd.1.1⟩
  · rename_i hpc
    exact ⟨_, by rw [work, hpc]; rfl, fun ws hd => Slot.not_owned_put (.inr h) _ hd.1.2⟩
  · rename_i hpc
    exact ⟨_, by rw [work, hpc]; rfl, fun ws hd => Slot.not_owned_drop (.inr h) hd.1.2⟩
  · cases h

/-- A step that brings something up after `onDestroy` shows at once. -/
theorem not_downInv_of_bringsUp {s : X365VpnService} {w : Worker} {o : Outcome} (hinv : DownInv s)
    (hd : s.destroyed = true) (h : w.pc.bringsUp o = true) :
    ∃ r, s.work w o = some r ∧ ∀ ws, ¬DownInv { r.1 with workers := ws } := by
  have hport : s.portHeld = false := portHeld_eq_false.2 (hinv.2 hd).proxy
  unfold WorkerPc.bringsUp at h
  split at h
  · rename_i hpc
    refine ⟨({ s with proxy := s.proxy.put (.started w.nodeUri) }, .establish), ?_, fun ws hq => ?_⟩
    · simp [work, hpc, startProxy, hport]
    · exact not_idle_put_started _ _ (hq.2 hd).proxy
  · rename_i message hpc
    refine ⟨({ s with proxy := s.proxy.put (.started w.nodeUri) }, failed message), ?_, fun ws hq => ?_⟩
    · simp [work, hpc, startProxy, hport]
    · exact not_idle_put_started _ _ (hq.2 hd).proxy
  · rename_i hpc
    exact ⟨_, by rw [work, hpc]; rfl, fun ws hq => not_idle_put_open _ (hq.2 hd).tun⟩
  · rename_i hpc
    refine ⟨({ s with connState := .connected w.nodeLabel }, .clearTraffic), by rw [work, hpc], fun ws hq => ?_⟩
    cases (hq.2 hd).connState
  · cases h

/-- A step that breaks the condition breaks the invariant. -/
theorem not_downInv_of_not_staysDown {s : X365VpnService} {ev : ServiceEvent} (h : DownInv s) (hn : ¬StaysDown s ev) :
    ∃ t, s.step ev = some t ∧ ¬DownInv t := by
  cases ev with
  | onStartCommand nodeUri nodeLabel =>
    simp only [StaysDown, Classical.not_imp] at hn
    obtain ⟨hd, hne⟩ := hn
    obtain ⟨uri, rfl⟩ := Option.ne_none_iff_exists'.1 hne
    refine ⟨_, rfl, fun hq => ?_⟩
    cases (hq.2 hd).connState
  | worker i o =>
    simp only [StaysDown, not_forall] at hn
    obtain ⟨w, hw, hn⟩ := hn
    have hw' : s.workers[i]? = some w := hw
    have key : ∃ r, s.work w o = some r ∧ ∀ ws, ¬DownInv { r.1 with workers := ws } := by
      cases hov : s.overwrites w.pc o with
      | true => exact not_downInv_of_overwrites hov
      | false =>
        have hup : ¬(s.destroyed = true → w.pc.bringsUp o = false) := fun hup => hn ⟨hov, hup⟩
        rw [Classical.not_imp, Bool.not_eq_false] at hup
        exact not_downInv_of_bringsUp h hup.1 hup.2
    obtain ⟨r, hr, hbad⟩ := key
    exact ⟨_, by rw [X365VpnService.step, hw', Option.bind_some, hr, Option.map_some], hbad _⟩
  | stats j stats =>
    simp only [StaysDown, not_forall] at hn
    obtain ⟨hd, pc, hpc, hwr⟩ := hn
    have hpc' : s.statsThreads[j]? = some pc := hpc
    cases pc with
    | setTraffic traffic =>
      refine ⟨{ s with traffic := some traffic, statsThreads := s.statsThreads.set j .testRunning }, ?_, fun hq => ?_⟩
      · rw [X365VpnService.step, hpc']
        rfl
      · cases (hq.2 hd).traffic
    | testRunning | sleep | getStats | done => exact absurd rfl hwr
  | onDestroy | onRevoke | tunnelExit => exact absurd trivial hn

/-- A release does not reach what is out of its field. -/
theorem not_owned_release {s : X365VpnService} (h : ¬s.Owned) : ¬s.release.Owned := by
  rintro ⟨hp, ht⟩
  refine h ⟨?_, ?_⟩
  · by_contra hn
    exact Slot.not_owned_modifyHeld hn _ hp
  · by_contra hn
    exact Slot.not_owned_modifyHeld hn _ ht

theorem not_owned_stopExisting {s : X365VpnService} (h : ¬s.Owned) : ¬s.stopExisting.Owned := by
  cases hr : s.running with
  | true =>
    rintro ⟨hp, ht⟩
    simp only [X365VpnService.stopExisting, hr, if_true] at hp ht
    refine not_owned_release h ⟨?_, ?_⟩
    · by_contra hn
      exact Slot.not_owned_drop (.inl hn) hp
    · by_contra hn
      exact Slot.not_owned_drop (.inl hn) ht
  | false =>
    rw [stopExisting_of_not_running hr]
    exact h

/-- No move of a worker brings back what is out of its field and in use. -/
theorem not_owned_move {s s' : X365VpnService} {w : Worker} {o : Outcome} {pc pc' : WorkerPc} (h : ¬s.Owned)
    (hmove : Move w s pc o s' pc') : ¬s'.Owned := by
  cases hmove with
  | stopExisting => exact not_owned_stopExisting h
  | start | startThenThrow | create =>
    rintro ⟨hp, ht⟩
    refine h ⟨?_, ht⟩
    by_contra hn
    exact Slot.not_owned_put (.inl hn) _ hp
  | establish =>
    rintro ⟨hp, ht⟩
    refine h ⟨hp, ?_⟩
    by_contra hn
    exact Slot.not_owned_put (.inl hn) _ ht
  | noInterface =>
    rintro ⟨hp, ht⟩
    refine h ⟨hp, ?_⟩
    by_contra hn
    exact Slot.not_owned_drop (.inl hn) ht
  | tunnel | setRunning | setConnected | clearTraffic | startStatsThread | notified | fail | caught => exact h

/-- What is out of its field and in use stays so, whatever happens. -/
theorem not_owned_step {s t : X365VpnService} {ev : ServiceEvent} (h : ¬s.Owned) (hs : s.step ev = some t) : ¬t.Owned := by
  cases step_cases hs with
  | worker hw hmove =>
    have hmoved := not_owned_move h hmove
    exact hmoved
  | onDestroy => exact not_owned_release h
  | noUri | command | poll | setTraffic | onRevoke | tunnelExit => exact h

/-- A destroyed service stays destroyed. -/
theorem destroyed_step {s t : X365VpnService} {ev : ServiceEvent} (h : s.destroyed = true) (hs : s.step ev = some t) :
    t.destroyed = true := by
  cases step_cases hs with
  | @worker i o w s' pc' hw hmove =>
    generalize w.pc = pc at hmove
    cases hmove with
    | stopExisting => exact (destroyed_stopExisting s).trans h
    | _ => exact h
  | onDestroy => rfl
  | noUri | command | poll | setTraffic | onRevoke | tunnelExit => exact h

/-- A run with an `onDestroy` in it ends destroyed. -/
theorem destroyed_of_mem {s t : X365VpnService} {es : List ServiceEvent} (hx : exec X365VpnService.step s es = some t)
    (hd : .onDestroy ∈ es) : t.destroyed = true := by
  obtain ⟨pre, post, rfl⟩ := List.append_of_mem hd
  obtain ⟨u, -, hx⟩ := exec_append_eq_some.1 hx
  obtain ⟨v, hv, hx⟩ := exec_cons_eq_some.1 hx
  obtain rfl := Option.some.inj hv
  exact exec_invariant (fun s : X365VpnService => s.destroyed = true) (fun s ev t h _ hs => destroyed_step h hs)
    rfl (meets_true _ _) hx

end ResourcesAux

/-- In every run of an instance with an `onDestroy` in it (any number of start commands, the steps of the workers and of the
threads that poll the traffic in any order, any outcome of each call): in every state after `onDestroy` no proxy is started, no
descriptor is open, the tunnel does not run, the traffic is null and the state is neither `Connecting` nor `Connected`,
exactly when no step takes anything in use out of its field and, once the service is destroyed, no step brings anything up. -/
theorem quiescent_iff (es : List ServiceEvent) (s : X365VpnService) (hx : exec X365VpnService.step .create es = some s)
    (hd : .onDestroy ∈ es) :
    (∀ pre t, pre <+: es → exec X365VpnService.step .create pre = some t → t.destroyed = true → t.Quiescent) ↔
    Meets X365VpnService.step StaysDown .create es := by
  rw [← meets_iff_forall_states DownInv DownInv (fun s ev t h hok hs => downInv_step h hok hs) (fun _ h => h)
    (fun s ev h hn => not_downInv_of_not_staysDown h hn) downInv_create es]
  constructor
  · intro h pre t hpre ht
    refine ⟨?_, h pre t hpre ht⟩
    -- what is lost on the way is still lost at the end, after `onDestroy`
    by_contra hn
    obtain ⟨post, rfl⟩ := hpre
    obtain ⟨u, hu, hpost⟩ := exec_append_eq_some.1 hx
    obtain rfl : u = t := Option.some.inj (hu.symm.trans ht)
    have hlost : ¬s.Owned := exec_invariant (fun s : X365VpnService => ¬s.Owned)
      (fun s ev t h _ hs => not_owned_step h hs) hn (meets_true _ _) hpost
    have hq := h _ s (List.prefix_refl _) hx (destroyed_of_mem hx hd)
    exact hlost ⟨hq.proxy.owned, hq.tun.owned⟩
  · intro h pre t hpre ht
    exact (h pre t hpre ht).2

/-- A connection that is up when the service is destroyed, and a thread that finds `running` cleared. -/
def connectThenDestroy : List ServiceEvent :=
  .onStartCommand (some "x365://a".toList) none :: List.replicate 9 (.worker 0 .ok) ++ [.onDestroy, .stats 0 none]

theorem quiescent_iff_connected :
    (exec X365VpnService.step .create connectThenDestroy).isSome = true ∧
      ∀ pre t, pre <+: connectThenDestroy → exec X365VpnService.step .create pre = some t →
        t.destroyed = true → t.Quiescent := by
  refine ⟨by decide, ?_⟩
  obtain ⟨s, hs⟩ := Option.isSome_iff_exists.1 (show (exec X365VpnService.step .create connectThenDestroy).isSome by decide)
  exact (quiescent_iff connectThenDestroy s hs (by decide)).2 (by decide)

/-- The service is destroyed while the worker is still connecting. -/
def destroyWhileConnecting : List ServiceEvent :=
  [.onStartCommand (some "x365://a".toList) none, .worker 0 .ok, .onDestroy] ++ List.replicate 5 (.worker 0 .ok)

/-- The worker goes on: the proxy, the descriptor and the tunnel come up after `onDestroy`, and the state is `Connected`. -/
theorem connected_after_destroy :
    ∃ t, exec X365VpnService.step .create destroyWhileConnecting = some t ∧ t.destroyed = true ∧ t.portHeld = true ∧
      t.vpnInterface.objects = [true] ∧ t.tunnel = true ∧ t.connState = .connected "X365".toList ∧ ¬t.Quiescent := by
  refine ⟨_, rfl, rfl, rfl, rfl, rfl, rfl, fun h => ?_⟩
  cases h.connState

end Open365Vpn
