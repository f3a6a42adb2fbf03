import Mathlib.Data.List.Find
import Open365Vpn.Lemmas.Operations
import Open365Vpn.Lemmas.Service
import Open365Vpn.Lemmas.Uri
import Open365Vpn.Screen

/-!
# The row that is marked as connected

The service is started with the URI and the label of a node and reports the label, and the screen marks every row with that
label. Labels are not keys: a sync gives all nodes of a region one label, an import takes what it finds, and a rename changes
the label while the connection keeps the old one. `highlight_iff` says exactly when the rows that are marked are the entries
with the URI that the service was started with, and the flag is that of the entry.
-/

namespace Open365Vpn

open Kotlin Runs X365VpnService

/-- The rows marked are those with the URI, and the flag on the status card is that of the entry with the URI. -/
structure Screen.Highlights (s : Screen) (uri : Str) : Prop where
  rows : ∀ n ∈ s.vm.nodes, s.connected n = true ↔ n.uri = uri
  flag : s.countryFlag = CountryFlags.flagEmoji ((s.vm.nodes.find? fun n => n.uri == uri).bind (·.countryCode))

/-- While a connection is on display, the rows and the flag are those of the node that the service was started with. -/
def HighlightsConnected (s : Screen × Followed) : Prop :=
  ∀ label, s.1.service.connState = .connected label → ∃ i, s.2.shown = some i ∧ s.1.Highlights (s.2.uri i)

/-- The connection on display: its label, and the URI of its node. -/
def onDisplay (s : Screen × Followed) : Option (Str × Str) :=
  match s.1.service.connState with
  | .connected label => s.2.shown.map fun i => (label, s.2.uri i)
  | .disconnected | .connecting _ | .failed _ => none

/-- The label tells whether the node is the one with the URI. -/
def Tells (d : Str × Str) (n : NodeItem) : Prop := n.label = d.1 ↔ n.uri = d.2

/-- The nodes that an operation brings into the list are told by the label on display; a rename gives this label to the connected
node and to no other; and when a worker reports, its label tells its node from the others. -/
def LabelTells (s : Screen × Followed) : ScreenEvent → Prop
  | .importNodes text =>
    ∀ d ∈ onDisplay s, ∀ line ∈ lines (trim text), ∀ n ∈ parseNode (trim line), n.uri ∉ uris s.1.vm.nodes → Tells d n
  | .fetchNodes replies =>
    ∀ d ∈ onDisplay s, ∀ found ∈ (s.1.vm.fetchNodes replies).1.toOption, ∀ pair ∈ found, ∀ n ∈ pairItem pair,
      n.uri ∉ uris (withoutUris s.1.vm.nodes s.1.vm.prefs.apiNodes) → Tells d n
  | .renameNode node newLabel =>
    ∀ d ∈ onDisplay s, trim newLabel ≠ [] → node.uri ∈ uris s.1.vm.nodes →
      (trim newLabel = d.1 ↔ node.uri = d.2 ∨ relabel node.uri (trim newLabel) = d.2)
  | .service (.worker i _) =>
    ∀ w ∈ s.1.service.workers[i]?, w.pc = .setConnected → ∀ n ∈ s.1.vm.nodes, Tells (w.nodeLabel, s.2.uri i) n
  | _ => True

namespace HighlightAux

/-- Every node is told by the label. -/
def Agree (nodes : List NodeItem) (d : Str × Str) : Prop := ∀ n ∈ nodes, Tells d n

/-- Every node is what its URI parses to. -/
def AllParsed (nodes : List NodeItem) : Prop := ∀ n ∈ nodes, parseNode n.uri = some n

/-! ### What is on the screen -/

/-- The rows and the flag are right when the label tells the nodes. -/
theorem highlights_iff {s : Screen} {label : Str} (hc : s.service.connState = .connected label) (uri : Str) :
    s.Highlights uri ↔ Agree s.vm.nodes (label, uri) := by
  have hrow : ∀ n, s.connected n = true ↔ n.label = label := by
    intro n
    simp only [Screen.connected, hc, beq_iff_eq]
    exact eq_comm
  constructor
  · intro h n hn
    exact (hrow n).symm.trans (h.rows n hn)
  · intro h
    have hrows : ∀ n ∈ s.vm.nodes, s.connected n = true ↔ n.uri = uri := fun n hn => (hrow n).trans (h n hn)
    refine ⟨hrows, ?_⟩
    have hfind : s.vm.nodes.find? s.connected = s.vm.nodes.find? fun n => n.uri == uri := by
      apply List.find?_congr
      intro n hn
      rw [Bool.eq_iff_iff, hrows n hn, beq_iff_eq]
    simp only [Screen.countryFlag, Screen.connectedCountry, hfind]

theorem onDisplay_eq_some {s : Screen × Followed} {label uri : Str} :
    onDisplay s = some (label, uri) ↔
      s.1.service.connState = .connected label ∧ ∃ i, s.2.shown = some i ∧ s.2.uri i = uri := by
  unfold onDisplay
  cases s.1.service.connState with
  | connected l =>
    simp only [Option.map_eq_some_iff, Prod.mk.injEq, ConnState.connected.injEq]
    constructor
    · rintro ⟨i, hi, rfl, hu⟩
      exact ⟨rfl, i, hi, hu⟩
    · rintro ⟨rfl, i, hi, hu⟩
      exact ⟨i, hi, rfl, hu⟩
  | disconnected | connecting | failed => simp

/-! ### The list under each operation -/

/-- An import leaves the nodes told exactly when those it brings are. -/
theorem agree_importedNodes {nodes : List NodeItem} {d : Str × Str} (h : Agree nodes d) (text : Str) :
    Agree (importedNodes nodes text) d ↔
      ∀ line ∈ lines (trim text), ∀ n ∈ parseNode (trim line), n.uri ∉ uris nodes → Tells d n := by
  constructor
  · intro h' line hl n hn hnew
    exact h' n (mem_importedNodes.2 (.inr ⟨⟨line, hl, hn⟩, hnew⟩))
  · intro h' n hn
    rcases mem_importedNodes.1 hn with hn | ⟨⟨line, hl, hp⟩, hnew⟩
    · exact h n hn
    · exact h' line hl n hp hnew

/-- A merge leaves the nodes told exactly when those it brings are. -/
theorem agree_merge {nodes : List NodeItem} {d : Str × Str} (h : Agree nodes d) (api : List Str) (found : List (Str × Str)) :
    Agree (merge nodes api found).1 d ↔
      ∀ pair ∈ found, ∀ n ∈ pairItem pair, n.uri ∉ uris (withoutUris nodes api) → Tells d n := by
  constructor
  · intro h' pair hp n hn hnew
    exact h' n (mem_merge.2 (.inr ⟨⟨pair, hp, hn⟩, hnew⟩))
  · intro h' n hn
    rcases mem_merge.1 hn with hn | ⟨⟨pair, hp, hpn⟩, hnew⟩
    · exact h n (mem_withoutUris.1 hn).1
    · exact h' pair hp n hpn hnew

/-- A rename of a node that is not in the list changes nothing. -/
theorem renamedNodes_of_not_mem {nodes : List NodeItem} {uri : Str} (h : uri ∉ uris nodes) (newLabel : Str) :
    ViewModel.renamedNodes nodes uri newLabel = nodes := by
  unfold ViewModel.renamedNodes
  split
  · rfl
  · have hid : ∀ it ∈ nodes, renameItem uri (relabel uri (trim newLabel)) it = it := by
      intro it hit
      unfold renameItem
      rw [if_neg]
      intro he
      exact h (beq_iff_eq.1 he ▸ mem_uris_of_mem hit)
    rw [List.map_congr_left hid, List.map_id']

/-- The nodes after a rename: the others, and the one that the new URI parses to. -/
theorem mem_renamedNodes {nodes : List NodeItem} {uri newLabel : Str} {m n : NodeItem} (hl : trim newLabel ≠ [])
    (hm : parseNode (relabel uri (trim newLabel)) = some m) (hu : uri ∈ uris nodes) :
    n ∈ ViewModel.renamedNodes nodes uri newLabel ↔ (n ∈ nodes ∧ n.uri ≠ uri) ∨ n = m := by
  have hitem : ∀ it : NodeItem, renameItem uri (relabel uri (trim newLabel)) it = if it.uri = uri then m else it := by
    intro it
    simp [renameItem, hm]
  unfold ViewModel.renamedNodes
  rw [if_neg (by simpa using hl), List.mem_map]
  constructor
  · rintro ⟨it, hit, rfl⟩
    rw [hitem]
    by_cases he : it.uri = uri
    · rw [if_pos he]
      exact .inr rfl
    · rw [if_neg he]
      exact .inl ⟨hit, he⟩
  · rintro (⟨hn, hne⟩ | rfl)
    · exact ⟨n, hn, by rw [hitem, if_neg hne]⟩
    · obtain ⟨it, hit, he⟩ := List.mem_map.1 hu
      exact ⟨it, hit, by rw [hitem, if_pos he]⟩

/-- A rename leaves the nodes told exactly when it gives the label on display to the connected node and to no other. -/
theorem agree_renamedNodes {nodes : List NodeItem} {d : Str × Str} (hparsed : AllParsed nodes) (h : Agree nodes d)
    (node : NodeItem) (newLabel : Str) :
    Agree (ViewModel.renamedNodes nodes node.uri newLabel) (d.1, Followed.rename nodes node newLabel d.2) ↔
      (trim newLabel ≠ [] → node.uri ∈ uris nodes →
        (trim newLabel = d.1 ↔ node.uri = d.2 ∨ relabel node.uri (trim newLabel) = d.2)) := by
  by_cases hl : trim newLabel = []
  · have hnodes : ViewModel.renamedNodes nodes node.uri newLabel = nodes := by simp [ViewModel.renamedNodes, hl]
    have huri : Followed.rename nodes node newLabel d.2 = d.2 := by simp [Followed.rename, hl]
    rw [hnodes, huri]
    exact ⟨fun _ hne => absurd hl hne, fun _ => h⟩
  by_cases hu : node.uri ∈ uris nodes
  · obtain ⟨it, hit, he⟩ := List.mem_map.1 hu
    have hscheme : startsWith scheme node.uri = true := he ▸ startsWith_of_parseNode (hparsed it hit)
    obtain ⟨m, hm⟩ := exists_parseNode (startsWith_relabel hscheme (trim newLabel))
    have hmlabel : m.label = trim newLabel := (UriAux.label_of_relabel hm).trans (trim_trim newLabel)
    have hmuri := parseNode_uri hm
    have hall : Agree (ViewModel.renamedNodes nodes node.uri newLabel) (d.1, Followed.rename nodes node newLabel d.2) ↔
        (∀ n ∈ nodes, n.uri ≠ node.uri → (n.label = d.1 ↔ n.uri = Followed.rename nodes node newLabel d.2)) ∧
          (trim newLabel = d.1 ↔ relabel node.uri (trim newLabel) = Followed.rename nodes node newLabel d.2) := by
      simp only [Agree, Tells, mem_renamedNodes hl hm hu, or_imp, forall_and, and_imp, forall_eq, hmlabel, hmuri]
    rw [hall]
    by_cases hd : node.uri = d.2
    · -- the connected node itself is renamed
      have hren : Followed.rename nodes node newLabel d.2 = relabel node.uri (trim newLabel) := by
        rw [Followed.rename, if_pos ⟨hd, hd ▸ hu, hl⟩, hd]
      rw [hren]
      simp only [hd, true_or, iff_true, ne_eq, hl, not_false_eq_true, hd ▸ hu, forall_const]
      constructor
      · intro h'
        exact h'.2
      · intro hlabel
        refine ⟨fun n hn hne => ?_, hlabel⟩
        have hnl : ¬n.label = d.1 := fun e => hne ((h n hn).1 e)
        refine iff_of_false hnl fun e => hnl ?_
        -- another node with the new URI would have the new label
        have hnm : some n = some m := by rw [← hparsed n hn, e, ← hd, hm]
        rw [Option.some.inj hnm, hmlabel, hlabel]
    · have hren : Followed.rename nodes node newLabel d.2 = d.2 := by
        rw [Followed.rename, if_neg fun e => hd e.1]
      rw [hren]
      simp only [hd, false_or, ne_eq, hl, not_false_eq_true, hu, forall_const]
      constructor
      · intro h'
        exact h'.2
      · intro h'
        exact ⟨fun n hn _ => h n hn, h'⟩
  · have huri : Followed.rename nodes node newLabel d.2 = d.2 := by
      rw [Followed.rename, if_neg]
      rintro ⟨he, hm, -⟩
      exact hu (he ▸ hm)
    rw [renamedNodes_of_not_mem hu, huri]
    exact ⟨fun _ _ hm => absurd hm hu, fun _ => h⟩

/-! ### Every node parses from its URI -/

theorem AllParsed.importedNodes {nodes : List NodeItem} (h : AllParsed nodes) (text : Str) :
    AllParsed (importedNodes nodes text) := by
  intro n hn
  rcases mem_importedNodes.1 hn with hn | ⟨⟨line, -, hp⟩, -⟩
  · exact h n hn
  · exact parseNode_self hp

theorem AllParsed.merge {nodes : List NodeItem} (h : AllParsed nodes) (api : List Str) (found : List (Str × Str)) :
    AllParsed (merge nodes api found).1 := by
  intro n hn
  rcases mem_merge.1 hn with hn | ⟨⟨pair, -, hp⟩, -⟩
  · exact h n (mem_withoutUris.1 hn).1
  · exact parseNode_self hp

theorem AllParsed.renamedNodes {nodes : List NodeItem} (h : AllParsed nodes) (uri newLabel : Str) :
    AllParsed (ViewModel.renamedNodes nodes uri newLabel) := by
  unfold ViewModel.renamedNodes
  split
  · exact h
  · intro n hn
    obtain ⟨it, hit, rfl⟩ := List.mem_map.1 hn
    rcases ViewModel.renameItem_cases uri (relabel uri (trim newLabel)) it with he | ⟨-, hp⟩
    · rw [he]
      exact h it hit
    · exact parseNode_self hp

/-! ### Steps -/

/-- The invariant: every node is what its URI parses to, and the label on display tells the nodes. -/
structure Inv (s : Screen × Followed) : Prop where
  parsed : AllParsed s.1.vm.nodes
  shown : ∀ label, s.1.service.connState = .connected label → ∃ i, s.2.shown = some i ∧ Agree s.1.vm.nodes (label, s.2.uri i)

theorem Inv.highlightsConnected {s : Screen × Followed} (h : Inv s) : HighlightsConnected s := by
  intro label hc
  obtain ⟨i, hi, hag⟩ := h.shown label hc
  exact ⟨i, hi, (highlights_iff hc _).2 hag⟩

/-- The nodes on display are not told by the label. -/
theorem not_highlightsConnected {s : Screen × Followed} {label : Str} {i : Nat} (hc : s.1.service.connState = .connected label)
    (hi : s.2.shown = some i) (hn : ¬Agree s.1.vm.nodes (label, s.2.uri i)) : ¬HighlightsConnected s := by
  intro h
  obtain ⟨j, hj, hh⟩ := h label hc
  obtain rfl := Option.some.inj (hi.symm.trans hj)
  exact hn ((highlights_iff hc _).1 hh)

theorem inv_start (p : Prefs) (uuid : Str) : Inv (.start p uuid, .start) := by
  refine ⟨fun n hn => ?_, fun label h => by cases h⟩
  have hnodes : (Screen.start p uuid).vm.nodes = NodeStore.parseLines p.nodes := ViewModel.restart_nodes _ uuid
  exact (NodeStore.storables_parseLines p.nodes n (hnodes ▸ hn)).1

/-- An operation on the list keeps the invariant when the label on display tells the nodes it leaves. -/
theorem Inv.withNodes {s : Screen × Followed} (h : Inv s) {vm : ViewModel} {uri : Nat → Str} (hp : AllParsed vm.nodes)
    (hag : ∀ label i, onDisplay s = some (label, s.2.uri i) → Agree s.1.vm.nodes (label, s.2.uri i) →
      Agree vm.nodes (label, uri i)) :
    Inv ({ s.1 with vm := vm }, { s.2 with uri := uri }) := by
  refine ⟨hp, fun label hc => ?_⟩
  obtain ⟨i, hi, hs⟩ := h.shown label hc
  exact ⟨i, hi, hag label i (onDisplay_eq_some.2 ⟨hc, i, hi, rfl⟩) hs⟩

/-- The invariant when nothing is connected. -/
theorem Inv.withService {s : Screen × Followed} (h : Inv s) {t : Screen} {g : Followed} (hvm : t.vm = s.1.vm)
    (hc : ∀ label, t.service.connState ≠ .connected label) : Inv (t, g) := by
  refine ⟨?_, fun label e => absurd e (hc label)⟩
  intro n hn
  have hn' : n ∈ t.vm.nodes := hn
  rw [hvm] at hn'
  exact h.parsed n hn'

/-- The invariant when the connection on display is what it was. -/
theorem Inv.sameDisplay {s : Screen × Followed} (h : Inv s) {t : Screen} (hvm : t.vm = s.1.vm)
    (hc : t.service.connState = s.1.service.connState) : Inv (t, s.2) := by
  obtain ⟨vm, service, pending, asked⟩ := t
  obtain rfl : vm = s.1.vm := hvm
  refine ⟨h.parsed, fun label e => ?_⟩
  exact h.shown label (hc.symm.trans e)

/-- A start command for a node is sent, or none is and the service is as it was. -/
def MayStart (s t : Screen) : Prop :=
  (∃ u : Screen, u.vm = s.vm ∧ ∃ node, t = u.startVpn node) ∨ (t.vm = s.vm ∧ t.service = s.service)

theorem mayStart_connect (s : Screen) (node : NodeItem) (prepared : Bool) : MayStart s (s.connect node prepared) := by
  unfold Screen.connect
  split
  · exact .inl ⟨s, rfl, node, rfl⟩
  · exact .inr ⟨rfl, rfl⟩

theorem mayStart_onVpnPermissionResult (s : Screen) (granted : Bool) : MayStart s (s.onVpnPermissionResult granted) := by
  unfold Screen.onVpnPermissionResult
  split
  · dsimp only
    split
    · split
      · exact .inl ⟨{ s with pendingNode := none, permissionResult := false }, rfl, _, rfl⟩
      · exact .inr ⟨rfl, rfl⟩
    · exact .inr ⟨rfl, rfl⟩
  · exact .inr ⟨rfl, rfl⟩

/-- A start command takes the connection off the display. -/
theorem Inv.mayStart {s : Screen × Followed} (h : Inv s) {t : Screen} (ht : MayStart s.1 t) :
    Inv (t, s.2.recordStart s.1.service t.service) := by
  rcases ht with ⟨u, hvm, node, rfl⟩ | ⟨hvm, hserv⟩
  · have hconn : ∀ label, (u.startVpn node).service.connState ≠ .connected label := by
      intro label e
      cases e
    exact h.withService hvm hconn
  · have hrec : s.2.recordStart s.1.service t.service = s.2 := by
      unfold Followed.recordStart
      rw [hserv, List.getElem?_eq_none (Nat.le_refl _)]
      rfl
    rw [hrec]
    exact h.sameDisplay hvm (by rw [hserv])

/-- A step of a worker keeps the invariant, if its label tells its node when it reports. -/
theorem Inv.worker {s : Screen × Followed} (h : Inv s) {i : Nat} {o : Outcome} {w : Worker} {t : X365VpnService}
    {pc' : WorkerPc} (hok : w.pc = .setConnected → Agree s.1.vm.nodes (w.nodeLabel, s.2.uri i))
    (hmove : Move w s.1.service w.pc o t pc') (workers : List Worker) :
    Inv ({ s.1 with service := { t with workers := workers } }, s.2.recordWork i w.pc) := by
  rcases hmove.connState with ⟨hpc, hconn⟩ | ⟨message, hpc, hconn⟩ | ⟨hne, hnf, hconn⟩
  · refine ⟨h.parsed, fun label e => ⟨i, by rw [hpc]; rfl, ?_⟩⟩
    obtain rfl : w.nodeLabel = label := ConnState.connected.inj (hconn.symm.trans e)
    have huri : (s.2.recordWork i w.pc).uri = s.2.uri := by
      rw [hpc]
      rfl
    rw [huri]
    exact hok hpc
  · refine h.withService rfl fun label e => ?_
    have e' : t.connState = .connected label := e
    rw [hconn] at e'
    cases e'
  · have hrec : s.2.recordWork i w.pc = s.2 := by
      cases hpc : w.pc with
      | setConnected => exact absurd hpc hne
      | fail message => exact absurd hpc (hnf message)
      | _ => rfl
    rw [hrec]
    exact h.sameDisplay rfl hconn

/-- An event of the service keeps the invariant. -/
theorem Inv.service {s : Screen × Followed} (h : Inv s) {ev : ServiceEvent} {t : X365VpnService} (hstart : ev.isStart = false)
    (hok : LabelTells s (.service ev)) (hs : s.1.service.step ev = some t) :
    Inv ({ s.1 with service := t }, s.2.recordService s.1.service ev) := by
  cases step_cases hs with
  | noUri => exact h
  | command uri label => cases hstart
  | @worker i o w u pc' hw hmove =>
    have hrec : s.2.recordService s.1.service (.worker i o) = s.2.recordWork i w.pc := by
      simp only [Followed.recordService, hw, Option.elim_some]
    rw [hrec]
    exact h.worker (fun hpc => hok w hw hpc) hmove _
  | poll | setTraffic | tunnelExit => exact h.sameDisplay rfl rfl
  | onDestroy =>
    refine h.withService rfl fun label e => ?_
    simp only [X365VpnService.onDestroy] at e
    split at e <;> cases e
  | onRevoke => exact h.withService rfl fun label e => by cases e

/-- A step keeps the invariant. -/
theorem inv_step {s t : Screen × Followed} {ev : ScreenEvent} (h : Inv s) (hok : LabelTells s ev)
    (hs : Followed.step s ev = some t) : Inv t := by
  cases ev with
  | importNodes text =>
    obtain rfl := Option.some.inj hs
    have hnodes := s.1.vm.importNodes_nodes text
    refine h.withNodes (by rw [hnodes]; exact h.parsed.importedNodes text) fun label i hd hag => ?_
    rw [hnodes]
    exact (agree_importedNodes hag text).2 (hok _ hd)
  | renameNode node newLabel =>
    obtain rfl := Option.some.inj hs
    have hnodes := s.1.vm.renameNode_nodes node newLabel
    refine h.withNodes (by rw [hnodes]; exact h.parsed.renamedNodes _ _) fun label i hd hag => ?_
    rw [hnodes]
    exact (agree_renamedNodes h.parsed hag node newLabel).2 (hok _ hd)
  | deleteNode node =>
    obtain rfl := Option.some.inj hs
    refine h.withNodes (fun n hn => h.parsed n (List.mem_filter.1 hn).1) fun label i hd hag n hn => ?_
    exact hag n (List.mem_filter.1 hn).1
  | fetchNodes replies =>
    obtain rfl := Option.some.inj hs
    obtain ⟨token, ⟨message, hf⟩ | ⟨yaml, hf⟩⟩ := s.1.vm.fetchNodes_cases replies
    · rw [hf]
      exact h.withNodes h.parsed fun _ _ _ hag => hag
    · rw [hf]
      refine h.withNodes (h.parsed.merge _ _) fun label i hd hag => ?_
      exact (agree_merge hag _ _).2 (hok _ hd _ (by rw [hf]; rfl))
  | connect node prepared =>
    obtain rfl := Option.some.inj hs
    exact h.mayStart (mayStart_connect s.1 node prepared)
  | onVpnPermissionResult granted =>
    obtain rfl := Option.some.inj hs
    exact h.mayStart (mayStart_onVpnPermissionResult s.1 granted)
  | service ev =>
    obtain ⟨hstep, hrec⟩ := observe_eq_some.1 hs
    simp only [Screen.step] at hstep
    split at hstep
    · cases hstep
    · rename_i hstart
      obtain ⟨u, hu, ht⟩ := Option.map_eq_some_iff.1 hstep
      have htt : t = ({ s.1 with service := u }, s.2.recordService s.1.service ev) := Prod.ext ht.symm hrec
      rw [htt]
      exact h.service (Bool.eq_false_iff.2 hstart) hok hu

/-- The step of an event of the service that is no start command. -/
theorem observed_service {s : Screen × Followed} {ev : ServiceEvent} {t : X365VpnService} (hstart : ev.isStart = false)
    (hs : s.1.service.step ev = some t) :
    Followed.step s (.service ev) = some ({ s.1 with service := t }, s.2.recordService s.1.service ev) := by
  refine observe_eq_some.2 ⟨?_, rfl⟩
  simp only [Screen.step, hstart, hs, Bool.false_eq_true, if_false, Option.map_some]

/-- A step after which the label does not tell the nodes shows at once. -/
theorem not_highlightsConnected_step {s : Screen × Followed} {ev : ScreenEvent} (h : Inv s) (hn : ¬LabelTells s ev) :
    ∃ t, Followed.step s ev = some t ∧ ¬HighlightsConnected t := by
  -- what is on display before an operation on the list is on display after it
  have hshown : ∀ d, onDisplay s = some d → ∃ i, s.1.service.connState = .connected d.1 ∧ s.2.shown = some i ∧
      s.2.uri i = d.2 ∧ Agree s.1.vm.nodes d := by
    rintro ⟨label, uri⟩ hd
    obtain ⟨hc, i, hi, rfl⟩ := onDisplay_eq_some.1 hd
    obtain ⟨j, hj, hag⟩ := h.shown label hc
    obtain rfl := Option.some.inj (hi.symm.trans hj)
    exact ⟨i, hc, hi, rfl, hag⟩
  cases ev with
  | importNodes text =>
    rw [LabelTells, not_forall] at hn
    obtain ⟨d, hn⟩ := hn
    obtain ⟨hd, hn⟩ := Classical.not_imp.1 hn
    obtain ⟨i, hc, hi, hu, hag⟩ := hshown d hd
    refine ⟨_, rfl, not_highlightsConnected hc hi fun hag' => hn ?_⟩
    have hag'' : Agree (s.1.vm.importNodes text).nodes (d.1, s.2.uri i) := hag'
    rw [s.1.vm.importNodes_nodes, hu] at hag''
    exact (agree_importedNodes hag text).1 hag''
  | renameNode node newLabel =>
    rw [LabelTells, not_forall] at hn
    obtain ⟨d, hn⟩ := hn
    obtain ⟨hd, hn⟩ := Classical.not_imp.1 hn
    obtain ⟨i, hc, hi, hu, hag⟩ := hshown d hd
    refine ⟨_, rfl, not_highlightsConnected hc hi fun hag' => hn ?_⟩
    have hag'' : Agree (s.1.vm.renameNode node newLabel).nodes
        (d.1, Followed.rename s.1.vm.nodes node newLabel (s.2.uri i)) := hag'
    rw [s.1.vm.renameNode_nodes, hu] at hag''
    exact (agree_renamedNodes h.parsed hag node newLabel).1 hag''
  | fetchNodes replies =>
    rw [LabelTells, not_forall] at hn
    obtain ⟨d, hn⟩ := hn
    obtain ⟨hd, hn⟩ := Classical.not_imp.1 hn
    rw [not_forall] at hn
    obtain ⟨found, hn⟩ := hn
    obtain ⟨hfound, hn⟩ := Classical.not_imp.1 hn
    obtain ⟨i, hc, hi, hu, hag⟩ := hshown d hd
    refine ⟨_, rfl, not_highlightsConnected hc hi fun hag' => hn ?_⟩
    obtain ⟨token, ⟨message, hf⟩ | ⟨yaml, hf⟩⟩ := s.1.vm.fetchNodes_cases replies
    · rw [hf] at hfound
      cases hfound
    · have hag'' : Agree (s.1.vm.fetchNodes replies).2.nodes (d.1, s.2.uri i) := hag'
      rw [hf] at hfound hag''
      obtain rfl := Option.some.inj hfound
      rw [hu] at hag''
      exact (agree_merge hag _ _).1 hag''
  | service ev =>
    cases ev with
    | worker i o =>
      simp only [LabelTells, not_forall] at hn
      obtain ⟨w, hw, hpc, n, hmem, hn⟩ := hn
      have hw' : s.1.service.workers[i]? = some w := hw
      have hstep := step_worker (o := o) hw' (by rw [work, hpc])
      refine ⟨_, observed_service rfl hstep, ?_⟩
      have hrec : s.2.recordService s.1.service (.worker i o) = { s.2 with shown := some i } := by
        simp only [Followed.recordService, hw', Option.elim_some, hpc, Followed.recordWork]
      rw [hrec]
      exact not_highlightsConnected (i := i) rfl rfl fun hag => hn (hag n hmem)
    | onStartCommand | stats | onDestroy | onRevoke | tunnelExit => exact absurd trivial hn
  | deleteNode | connect | onVpnPermissionResult => exact absurd trivial hn

end HighlightAux

open HighlightAux

/-- In every run of the app over any preferences (operations on the list, taps, answers to the question for the permission, and
the steps of the service in any order): in every state with a connection on display, the rows marked are those with the URI that
the service was started with, followed through renames, and the flag is that of the entry, exactly when the label tells the
nodes at every step. -/
theorem highlight_iff (p : Prefs) (uuid : Str) (es : List ScreenEvent) :
    (∀ pre t, pre <+: es → exec Followed.step (.start p uuid, .start) pre = some t → HighlightsConnected t) ↔
      Meets Followed.step LabelTells (.start p uuid, .start) es :=
  meets_iff_forall_states Inv HighlightsConnected (fun _ _ _ h hok hs => inv_step h hok hs)
    (fun _ h => h.highlightsConnected) (fun _ _ h hn => not_highlightsConnected_step h hn) (inv_start p uuid) es

/-- A node of Hong Kong and one of Japan, both with the label that a sync or the user gave them. -/
def nodeHk : NodeItem := (parseNode "x365://u@h:1?path=hk#N".toList).getD default

def nodeJp : NodeItem := (parseNode "x365://u@j:1?path=jp#N".toList).getD default

/-- Two nodes with one label, and a tap on the second. -/
def connectSecond : List ScreenEvent :=
  [.importNodes "x365://u@h:1?path=hk#N\nx365://u@j:1?path=jp#N".toList, .connect nodeJp true] ++
    List.replicate 6 (.service (.worker 0 .ok))

/-- Both rows are marked, and the flag is that of the other node. -/
theorem both_rows_marked :
    ∃ t, exec Followed.step (.start .empty [], .start) connectSecond = some t ∧
      t.1.service.connState = .connected "N".toList ∧ t.2.shown = some 0 ∧ t.2.uri 0 = nodeJp.uri ∧
      t.1.vm.nodes = [nodeHk, nodeJp] ∧ t.1.connected nodeHk = true ∧ t.1.connected nodeJp = true ∧
      t.1.countryFlag = CountryFlags.flagEmoji nodeHk.countryCode ∧ ¬HighlightsConnected t := by
  refine ⟨_, rfl, rfl, rfl, rfl, rfl, rfl, rfl, rfl, fun h => ?_⟩
  obtain ⟨i, hi, hh⟩ := h _ rfl
  obtain rfl := Option.some.inj hi
  have := (hh.rows nodeHk List.mem_cons_self).1 rfl
  exact absurd this (by decide)

end Open365Vpn
