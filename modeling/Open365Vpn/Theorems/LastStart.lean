import Open365Vpn.Lemmas.Service

/-!
# The last start command

Every start command leaves a worker of its own behind, and nothing keeps an older worker from going on when a newer one is
under way: it may take the port from it, stop its proxy, or report over it. While an older worker neither stops a connection
that the newest worker has begun nor reports after it, the connection on display is that of the newest command
(`last_start_wins`).
-/

namespace Open365Vpn

open Kotlin Runs Slots X365VpnService

/-- The worker has started its proxy and has not failed since, or has reported the connection. -/
def Worker.underway (w : Worker) : Bool :=
  match w.pc with
  | .establish | .tProxyStartService | .setRunning | .setConnected | .clearTraffic | .startStatsThread
  | .updateNotification => true
  | .stopExisting | .startProxy | .fail _ | .done => w.connected

/-- The worker has reported the connection, or has ended. -/
def Worker.reported (w : Worker) : Bool := w.connected || w.pc == .done

/-- The worker has ended, or it stands where its step leaves `connState` as it is. -/
def WorkerPc.silent : WorkerPc → Bool
  | .stopExisting | .startProxy | .establish | .tProxyStartService | .setRunning | .clearTraffic | .startStatsThread
  | .updateNotification | .done => true
  | .setConnected | .fail _ => false

/-- A worker that is not the newest stops a running connection only while the newest has not started its proxy; and once the
newest has reported, it steps only where that leaves `connState` as it is. -/
def GivesWay (s : X365VpnService) : ServiceEvent → Prop
  | .worker i _ =>
    ∀ w ∈ s.workers[i]?, ∀ l ∈ s.workers.getLast?, i + 1 ≠ s.workers.length →
      (w.pc = .stopExisting → s.running = true → l.underway = false) ∧ (l.reported = true → w.pc.silent = true)
  | _ => True

instance (s : X365VpnService) : ∀ ev, Decidable (GivesWay s ev)
  | .worker i _ =>
    inferInstanceAs (Decidable (∀ w ∈ s.workers[i]?, ∀ l ∈ s.workers.getLast?, i + 1 ≠ s.workers.length →
      (w.pc = .stopExisting → s.running = true → l.underway = false) ∧ (l.reported = true → w.pc.silent = true)))
  | .onDestroy | .onRevoke | .onStartCommand .. | .stats .. | .tunnelExit => inferInstanceAs (Decidable True)

/-- The runs considered: nobody destroys or revokes the service. -/
def IsConnecting : ServiceEvent → Prop
  | .onDestroy | .onRevoke => False
  | .onStartCommand .. | .worker .. | .stats .. | .tunnelExit => True

/-- One proxy listens, and it was started with the URI. -/
def Serves (proxy : Slot Proxy) (nodeUri : Str) : Prop :=
  ∃ p : Nat, proxy.objects[p]? = some (.started nodeUri) ∧ ∀ (q : Nat) (u : Str), proxy.objects[q]? = some (.started u) → q = p

theorem Serves.not_idle {proxy : Slot Proxy} {uri : Str} (h : Serves proxy uri) : ¬proxy.Idle Proxy.isStarted := by
  obtain ⟨p, hp, -⟩ := h
  intro hidle
  have := hidle _ (List.mem_of_getElem? hp)
  cases this

/-- An object that is not started does not change who listens. -/
theorem Serves.put_created {proxy : Slot Proxy} {uri : Str} (h : Serves proxy uri) : Serves (proxy.put .created) uri := by
  obtain ⟨p, hp, hall⟩ := h
  obtain ⟨hlt, -⟩ := List.getElem?_eq_some_iff.1 hp
  refine ⟨p, ?_, fun q u hq => ?_⟩
  · rw [Slot.put, List.getElem?_append_left hlt]
    exact hp
  · rw [Slot.put] at hq
    rcases Nat.lt_or_ge q proxy.objects.length with hql | hqg
    · rw [List.getElem?_append_left hql] at hq
      exact hall q u hq
    · rw [List.getElem?_append_right hqg] at hq
      have hmem := List.mem_of_getElem? hq
      cases List.mem_singleton.1 hmem

/-- A proxy started while no other one listens is the one that listens. -/
theorem serves_put_started {proxy : Slot Proxy} (h : proxy.Idle Proxy.isStarted) (uri : Str) :
    Serves (proxy.put (.started uri)) uri := by
  refine ⟨proxy.objects.length, ?_, fun q u hq => ?_⟩
  · rw [Slot.put, List.getElem?_append_right (Nat.le_refl _), Nat.sub_self]
    rfl
  · have howned : (proxy.put (.started uri)).Owned Proxy.isStarted := h.owned_put
    exact (Option.some.inj (howned q (.started u) hq rfl)).symm

namespace LastStartAux

/-- Where a worker that has reported the connection can stand, and one that has not. -/
def Placed (w : Worker) : Prop :=
  match w.pc with
  | .clearTraffic | .startStatsThread | .updateNotification => w.connected = true
  | .fail _ | .done => True
  | .stopExisting | .startProxy | .establish | .tProxyStartService | .setRunning | .setConnected => w.connected = false

/-- What holds of the newest worker: once it is under way its proxy listens, and once it has reported, its own report is on
display, or a failure. -/
structure LastInv (proxy : Slot Proxy) (conn : ConnState) (l : Worker) : Prop where
  placed : Placed l
  serves : l.underway = true → Serves proxy l.nodeUri
  shows : l.reported = true → (conn = .connected l.nodeLabel ∧ l.connected = true) ∨ ∃ message, conn = .failed message

/-- The invariant: what holds of the newest worker, and nothing is connected before the first command. -/
structure Inv (proxy : Slot Proxy) (conn : ConnState) (workers : List Worker) : Prop where
  last : ∀ l, workers.getLast? = some l → LastInv proxy conn l
  none : workers = [] → ∀ label, conn ≠ .connected label

theorem inv_create : Inv X365VpnService.create.proxy X365VpnService.create.connState X365VpnService.create.workers :=
  ⟨nofun, fun _ _ => nofun⟩

/-! ## Steps -/

/-- A step of a worker that is not the newest. -/
theorem lastInv_other {s s' : X365VpnService} {w l : Worker} {o : Outcome} {pc pc' : WorkerPc}
    (h : LastInv s.proxy s.connState l) (hstop : pc = .stopExisting → s.running = true → l.underway = false)
    (hrep : l.reported = true → pc.silent = true) (hmove : Move w s pc o s' pc') :
    LastInv s'.proxy s'.connState l := by
  cases hmove with
  | stopExisting =>
    cases hr : s.running with
    | true =>
      have hnot := hstop rfl hr
      rw [X365VpnService.stopExisting, if_pos hr]
      refine ⟨h.placed, fun hu => ?_, h.shows⟩
      rw [hnot] at hu
      cases hu
    | false =>
      rw [stopExisting_of_not_running hr]
      exact h
  | start hport | startThenThrow hport =>
    have hidle := portHeld_eq_false.1 hport
    exact ⟨h.placed, fun hu => absurd hidle (h.serves hu).not_idle, h.shows⟩
  | create => exact ⟨h.placed, fun hu => (h.serves hu).put_created, h.shows⟩
  | setConnected =>
    refine ⟨h.placed, h.serves, fun hr => ?_⟩
    cases hrep hr
  | fail message => exact ⟨h.placed, h.serves, fun _ => .inr ⟨message, rfl⟩⟩
  | establish | noInterface | tunnel | setRunning | clearTraffic | startStatsThread | notified | caught => exact h

/-- A step of the newest worker. -/
theorem lastInv_own {s s' : X365VpnService} {w : Worker} {o : Outcome} {pc' : WorkerPc}
    (h : LastInv s.proxy s.connState w) (hmove : Move w s w.pc o s' pc') :
    LastInv s'.proxy s'.connState (advance w pc') := by
  have hplaced := h.placed
  have hserves := h.serves
  have hshows := h.shows
  generalize hpc : w.pc = pc at hmove
  unfold Placed at hplaced
  unfold Worker.underway at hserves
  unfold Worker.reported at hshows
  rw [hpc] at hplaced hserves hshows
  cases hmove with
  | stopExisting | startThenThrow | create =>
    dsimp only at hplaced
    refine ⟨?_, fun hu => ?_, fun hr => ?_⟩
    · simp [Placed, advance, hpc, hplaced, failed]
    · simp [Worker.underway, advance, hpc, hplaced, failed] at hu
    · simp [Worker.reported, advance, hpc, hplaced, failed] at hr
  | start hport =>
    dsimp only at hplaced
    refine ⟨?_, fun _ => serves_put_started (portHeld_eq_false.1 hport) _, fun hr => ?_⟩
    · simp [Placed, advance, hpc, hplaced]
    · simp [Worker.reported, advance, hpc, hplaced] at hr
  | establish | tunnel | setRunning =>
    dsimp only at hplaced
    refine ⟨?_, fun _ => hserves rfl, fun hr => ?_⟩
    · simp [Placed, advance, hpc, hplaced]
    · simp [Worker.reported, advance, hpc, hplaced] at hr
  | noInterface =>
    dsimp only at hplaced
    refine ⟨trivial, fun _ => hserves rfl, fun hr => ?_⟩
    simp [Worker.reported, advance, hpc, hplaced] at hr
  | setConnected =>
    refine ⟨?_, fun _ => hserves rfl, fun _ => .inl ⟨rfl, ?_⟩⟩
    · simp [Placed, advance, hpc]
    · simp [advance, hpc]
  | clearTraffic | startStatsThread | notified =>
    dsimp only at hplaced
    have hcon : (w.connected || (w.pc == .setConnected)) = true := by rw [hplaced]; rfl
    refine ⟨?_, fun _ => hserves rfl, fun _ => ?_⟩
    · simp [Placed, advance, hpc, hplaced]
    · rcases hshows (by rw [hplaced]; rfl) with ⟨h1, -⟩ | h2
      · exact .inl ⟨h1, hcon⟩
      · exact .inr h2
  | fail message =>
    refine ⟨trivial, fun hu => ?_, fun _ => .inr ⟨message, rfl⟩⟩
    simp only [Worker.underway, advance, hpc] at hu
    exact hserves (by simpa using hu)
  | caught pc o message hfrom =>
    have hcon : (advance w (.fail message)).connected = true → w.connected = true ∧ pc = .updateNotification := by
      rcases hfrom with rfl | rfl | rfl | rfl
      all_goals
        dsimp only at hplaced
        simp [advance, hpc, hplaced]
    refine ⟨trivial, fun hu => ?_, fun hr => ?_⟩
    · obtain ⟨-, rfl⟩ := hcon hu
      exact hserves rfl
    · have hr' : (advance w (.fail message)).connected = true := by simpa [Worker.reported, advance] using hr
      rcases hshows (by rw [(hcon hr').1]; rfl) with ⟨h1, -⟩ | h2
      · exact .inl ⟨h1, hr'⟩
      · exact .inr h2

/-- The newest worker after a step of one of them. -/
theorem getLast?_set {ws : List Worker} {i : Nat} {w x l : Worker} (hw : ws[i]? = some w)
    (hl : (ws.set i x).getLast? = some l) :
    (i + 1 = ws.length ∧ ws.getLast? = some w ∧ l = x) ∨ (i + 1 ≠ ws.length ∧ ws.getLast? = some l) := by
  have hlt : i < ws.length := (List.getElem?_eq_some_iff.1 hw).1
  rw [List.getLast?_eq_getElem?, List.length_set, List.getElem?_set] at hl
  by_cases hi : i + 1 = ws.length
  · have hidx : i = ws.length - 1 := by omega
    rw [if_pos hidx, if_pos hlt] at hl
    refine .inl ⟨hi, ?_, (Option.some.inj hl).symm⟩
    rw [List.getLast?_eq_getElem?, ← hidx]
    exact hw
  · have hidx : i ≠ ws.length - 1 := by omega
    rw [if_neg hidx] at hl
    refine .inr ⟨hi, ?_⟩
    rw [List.getLast?_eq_getElem?]
    exact hl

/-- A step of a worker keeps the invariant. -/
theorem inv_worker {s s' : X365VpnService} {i : Nat} {o : Outcome} {w : Worker} {pc' : WorkerPc}
    (h : Inv s.proxy s.connState s.workers) (hok : GivesWay s (.worker i o)) (hw : s.workers[i]? = some w)
    (hmove : Move w s w.pc o s' pc') : Inv s'.proxy s'.connState (s.workers.set i (advance w pc')) := by
  refine ⟨fun l hl => ?_, fun hnil => ?_⟩
  · rcases getLast?_set hw hl with ⟨-, hlast, rfl⟩ | ⟨hne, hlast⟩
    · exact lastInv_own (h.last w hlast) hmove
    · obtain ⟨hstop, hrep⟩ := hok w hw l hlast hne
      exact lastInv_other (h.last l hlast) hstop hrep hmove
  · have hlen := congrArg List.length hnil
    have hlt := (List.getElem?_eq_some_iff.1 hw).1
    rw [List.length_set, List.length_nil] at hlen
    omega

/-- Every event keeps the invariant. -/
theorem inv_step {s t : X365VpnService} {ev : ServiceEvent} (h : Inv s.proxy s.connState s.workers)
    (hev : IsConnecting ev) (hok : GivesWay s ev) (hs : s.step ev = some t) : Inv t.proxy t.connState t.workers := by
  cases step_cases hs with
  | command uri label =>
    refine ⟨fun l hl => ?_, fun hnil => ?_⟩
    · have hl' : l = ⟨uri, label.getD "X365".toList, .stopExisting, false⟩ := by simpa using hl.symm
      subst hl'
      exact ⟨rfl, nofun, nofun⟩
    · simp at hnil
  | worker hw hmove =>
    have hmoved := inv_worker h hok hw hmove
    exact hmoved
  | onDestroy => cases hev
  | onRevoke => cases hev
  | noUri | poll | setTraffic | tunnelExit => exact h

end LastStartAux

open LastStartAux

/-- In every run of start commands and of the steps of their workers in any order, with any outcome of each call and no
`onDestroy` or `onRevoke`, in which an older worker neither stops the connection of the newest nor reports after it: when all
workers have ended and the state is `Connected`, the label is that of the last command and the one proxy that listens was
started with its URI; and no older worker writes `Failed` after the newest has written `Connected`. -/
theorem last_start_wins (es : List ServiceEvent) (s : X365VpnService) (hes : ∀ ev ∈ es, IsConnecting ev)
    (hm : Meets X365VpnService.step GivesWay .create es) (hx : exec X365VpnService.step .create es = some s) :
    ((∀ w ∈ s.workers, w.pc = .done) → ∀ label, s.connState = .connected label →
      ∃ l, s.workers.getLast? = some l ∧ label = l.nodeLabel ∧ Serves s.proxy l.nodeUri) ∧
    ∀ pre i o post t w message l, es = pre ++ .worker i o :: post → exec X365VpnService.step .create pre = some t →
      t.workers[i]? = some w → w.pc = .fail message → t.workers.getLast? = some l → i + 1 < t.workers.length →
      l.connected = false := by
  constructor
  · intro hdone label hconn
    have h := exec_invariant (fun s : X365VpnService => Inv s.proxy s.connState s.workers)
      (fun s ev t h hok hs => inv_step h hok.1 hok.2 hs) inv_create (hm.and_mem hes) hx
    cases hlast : s.workers.getLast? with
    | none => exact absurd hconn (h.none (List.getLast?_eq_none_iff.1 hlast) label)
    | some l =>
      have hl := h.last l hlast
      have hend : l.pc = .done := hdone l (List.mem_of_getLast? hlast)
      have hrep : l.reported = true := by simp [Worker.reported, hend]
      rcases hl.shows hrep with ⟨hshow, hcon⟩ | ⟨message, hfail⟩
      · rw [hconn] at hshow
        refine ⟨l, rfl, ConnState.connected.inj hshow, hl.serves ?_⟩
        simp [Worker.underway, hend, hcon]
      · rw [hconn] at hfail
        cases hfail
  · intro pre i o post t w message l he ht hw hpc hl hlt
    subst he
    have hok := (meets_cons.1 ((meets_append.1 hm).2 t ht)).1
    -- the newest has reported once it is connected, and a failure is no silent place
    by_contra hcon
    have hrep : l.reported = true := by rw [Worker.reported, (Bool.not_eq_false _).mp hcon, Bool.true_or]
    have hsilent := (hok w hw l hl (by omega)).2 hrep
    rw [hpc] at hsilent
    cases hsilent

/-- Two commands; the second worker begins when the first has ended. -/
def startTwice : List ServiceEvent :=
  [.onStartCommand (some "x365://a".toList) (some "A".toList), .onStartCommand (some "x365://b".toList) (some "B".toList)] ++
    List.replicate 9 (.worker 0 .ok) ++ List.replicate 9 (.worker 1 .ok)

theorem last_start_wins_twice :
    ((exec X365VpnService.step .create startTwice).map fun s => (s.connState, s.workers.map (·.pc))) =
      some (.connected "B".toList, [.done, .done]) ∧
    ∀ s, exec X365VpnService.step .create startTwice = some s → (∀ w ∈ s.workers, w.pc = .done) →
      ∀ label, s.connState = .connected label →
        ∃ l, s.workers.getLast? = some l ∧ label = l.nodeLabel ∧ Serves s.proxy l.nodeUri :=
  ⟨by decide, fun s hx => (last_start_wins startTwice s (by simp [startTwice, IsConnecting]) (by decide) hx).1⟩

/-- Two commands in quick succession: the second worker looks at `running` before the first has set it, finds the port taken,
and fails; then the first one connects. -/
def startOverlapping : List ServiceEvent :=
  [.onStartCommand (some "x365://a".toList) (some "A".toList), .worker 0 .ok, .worker 0 .ok,
    .onStartCommand (some "x365://b".toList) (some "B".toList), .worker 1 .ok, .worker 1 (.thrown none), .worker 1 .ok] ++
    List.replicate 7 (.worker 0 .ok)

/-- Both workers have ended, and the node of the first command is connected. -/
theorem first_start_wins :
    ∃ s, exec X365VpnService.step .create startOverlapping = some s ∧ (∀ w ∈ s.workers, w.pc = .done) ∧
      s.connState = .connected "A".toList ∧
      ¬∃ l, s.workers.getLast? = some l ∧ "A".toList = l.nodeLabel ∧ Serves s.proxy l.nodeUri := by
  refine ⟨_, rfl, by decide, rfl, ?_⟩
  rintro ⟨l, hl, hlabel, -⟩
  obtain rfl := Option.some.inj hl
  revert hlabel
  decide

end Open365Vpn
