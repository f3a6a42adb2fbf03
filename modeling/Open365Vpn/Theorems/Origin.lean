import Open365Vpn.Origin

/-!
# Nodes of the account and nodes of the user

The account owns the nodes whose URI is in the stored set `api_nodes`. Two properties ought to follow: a logout and a sync take
away every node that an earlier sync brought (`no_stale_api_node_iff`), and they take away no node that the user imported
(`imported_survives_iff`). Each statement says exactly which steps of a run break the property: a rename takes a node out of
the set, and a sync puts a node of the user into it.
-/

namespace Open365Vpn

open Kotlin Runs

/-! ## No node of the account stays behind -/

/-- A logout now leaves no entry of the API, and a sync now leaves no entry of the API but those of its own response. -/
def Tagged.NoStale (t : Tagged) : Prop :=
  (∀ n, (n, Origin.api) ∉ (t.perform .logout).entries) ∧
    ∀ r found, (t.vm.fetchNodes r).1 = .ok found →
      ∀ n, (n, Origin.api) ∈ (t.perform (.fetchNodes r)).entries → IsItem found n

/-- A rename of an entry of the API gives it a URI that is in the stored set. -/
def KeepsApi (t : Tagged) : Op → Prop
  | .renameNode node newLabel =>
    trim newLabel ≠ [] → (∃ e ∈ t.entries, e.2 = .api ∧ e.1.uri = node.uri) →
      relabel node.uri (trim newLabel) ∈ t.vm.prefs.apiNodes
  | _ => True

/-- The invariant behind: every entry of the API, in the list or in the store, has its URI in the stored set, and the store
can hold the URIs of the set. -/
structure Tagged.Inv (t : Tagged) : Prop where
  scheme : ∀ e ∈ t.entries, startsWith scheme e.1.uri = true
  storable : ∀ u ∈ t.vm.prefs.apiNodes, Storable u
  entries : ∀ e ∈ t.entries, e.2 = .api → e.1.uri ∈ t.vm.prefs.apiNodes
  saved : ∀ l ∈ t.saved, l.2 = .api → l.1 ∈ t.vm.prefs.apiNodes

namespace OriginAux

open Tagged

/-- The lines of the entries of the API are their URIs. -/
theorem tagLines_api {es : List Entry} {set : List Str} (hs : ∀ u ∈ set, Storable u)
    (he : ∀ e ∈ es, e.2 = .api → e.1.uri ∈ set) : ∀ l ∈ tagLines es, l.2 = .api → l.1 ∈ set := by
  intro l hl ho
  cases es with
  | nil =>
    rw [tagLines, List.mem_singleton] at hl
    rw [hl] at ho
    cases ho
  | cons e es =>
    rw [tagLines] at hl
    · obtain ⟨x, hx, hlx⟩ := List.mem_flatMap.1 hl
      obtain ⟨line, hline, rfl⟩ := List.mem_map.1 hlx
      have hu := he x hx ho
      rw [split_eq_self (hs _ hu).noFeed, List.mem_singleton] at hline
      rw [hline]
      exact hu
    · simp

/-- A saved state satisfies the invariant when its entries do. -/
theorem inv_ofSave {vm : ViewModel} {es : List Entry} {h : es.map Prod.fst = vm.nodes}
    (hs : vm.prefs.nodes = NodeStore.save vm.nodes) (hsch : ∀ e ∈ es, startsWith scheme e.1.uri = true)
    (hst : ∀ u ∈ vm.prefs.apiNodes, Storable u) (he : ∀ e ∈ es, e.2 = .api → e.1.uri ∈ vm.prefs.apiNodes) :
    (ofSave vm es h hs).Inv :=
  ⟨hsch, hst, he, tagLines_api hst he⟩

theorem inv_withVm {t : Tagged} (ht : t.Inv) {vm : ViewModel} {hn : vm.nodes = t.vm.nodes}
    {hs : vm.prefs.nodes = t.vm.prefs.nodes} (ha : vm.prefs.apiNodes = t.vm.prefs.apiNodes) : (t.withVm vm hn hs).Inv := by
  refine ⟨ht.scheme, ?_, ?_, ?_⟩
  · simp only [withVm, ha]
    exact ht.storable
  · simp only [withVm, ha]
    exact ht.entries
  · simp only [withVm, ha]
    exact ht.saved

/-- An entry of an extended list is an old one or a new node. -/
theorem mem_extend {es : List Entry} {P : NodeItem → Prop} {l nodes : List NodeItem} {o : Origin}
    (hl : es.map Prod.fst = l) (h : Adds P l nodes) {e : Entry} (he : e ∈ extend es nodes o) :
    e ∈ es ∨ (e.2 = o ∧ P e.1) := by
  obtain ⟨new, rfl, hnew⟩ := h.exists_append
  rcases List.mem_append.1 he with he | he
  · exact Or.inl he
  · right
    have hd : (l ++ new).drop es.length = new := List.drop_left' (by simp [← hl])
    rw [hd] at he
    obtain ⟨n, hn, rfl⟩ := List.mem_map.1 he
    exact ⟨rfl, hnew n hn⟩

theorem mem_without {t : Tagged} {set : List Str} {e : Entry} : e ∈ t.without set ↔ e ∈ t.entries ∧ e.1.uri ∉ set := by
  simp [Tagged.without]

/-- No entry of the API is outside the stored set. -/
theorem without_api {t : Tagged} (ht : t.Inv) {e : Entry} (he : e ∈ t.without t.vm.prefs.apiNodes) : e.2 ≠ .api := by
  obtain ⟨h1, h2⟩ := mem_without.1 he
  exact fun ho => h2 (ht.entries e h1 ho)

/-- The entries after a sync: those kept, and nodes of the response. -/
theorem fetchNodes_entries (t : Tagged) {r : Replies} {found : List (Str × Str)} (h : (t.vm.fetchNodes r).1 = .ok found) :
    ∀ e ∈ (t.fetchNodes r).entries, e ∈ t.without t.vm.prefs.apiNodes ∨ (e.2 = .api ∧ IsItem found e.1) := by
  intro e he
  unfold Tagged.fetchNodes at he
  split at he
  · rename_i hf
    rw [hf] at h
    cases h
  · obtain ⟨token, ⟨message, hf⟩ | ⟨yaml, hf⟩⟩ := t.vm.fetchNodes_cases r
    · rw [hf] at h
      cases h
    · have hfound : X365Api.extractNodes yaml = found := by
        rw [hf] at h
        exact Except.ok.inj h
      have hadds : Adds (IsItem found) (withoutUris t.vm.nodes t.vm.prefs.apiNodes) (t.vm.fetchNodes r).2.nodes := by
        rw [hf, ← hfound]
        exact merge_adds _ _ _
      exact mem_extend (t.without_fst _) hadds he

/-- A logout and a sync take away every stale entry of the API. -/
theorem noStale_of_inv {t : Tagged} (ht : t.Inv) : t.NoStale := by
  refine ⟨fun n hn => without_api ht hn rfl, fun r found h n hn => ?_⟩
  rcases fetchNodes_entries t h _ hn with hk | hi
  · exact absurd rfl (without_api ht hk)
  · exact hi.2

theorem inv_restart {t : Tagged} (hst : ∀ u ∈ t.vm.prefs.apiNodes, Storable u)
    (hs : ∀ l ∈ t.saved, l.2 = .api → l.1 ∈ t.vm.prefs.apiNodes) (uuid : Str) : (t.restart uuid).Inv := by
  have ha : (t.restart uuid).vm.prefs.apiNodes = t.vm.prefs.apiNodes := t.vm.restart_apiNodes uuid
  refine ⟨?_, ?_, ?_, ?_⟩
  · intro e he
    obtain ⟨l, -, hp⟩ := List.mem_filterMap.1 he
    obtain ⟨n, hn, rfl⟩ := Option.map_eq_some_iff.1 hp
    rw [parseNode_uri hn]
    exact startsWith_of_parseNode hn
  · rw [ha]
    exact hst
  · rw [ha]
    intro e he ho
    obtain ⟨l, hl, hp⟩ := List.mem_filterMap.1 he
    obtain ⟨n, hn, rfl⟩ := Option.map_eq_some_iff.1 hp
    have hm := hs l hl ho
    rw [parseNode_uri hn, (hst _ hm).trimmed]
    exact hm
  · rw [ha]
    intro l hl ho
    simp only [Tagged.restart] at hl
    split at hl
    · rw [tagLines, List.mem_singleton] at hl
      rw [hl] at ho
      cases ho
    · exact hs l hl ho

/-- An import adds entries of the user only. -/
theorem inv_importNodes {t : Tagged} (ht : t.Inv) (text : Str) : (t.importNodes text).Inv := by
  have ha := t.vm.importNodes_apiNodes text
  unfold Tagged.importNodes
  split
  · exact inv_withVm ht ha
  · have hmem : ∀ e ∈ extend t.entries (importedNodes t.vm.nodes text) .manual,
        e ∈ t.entries ∨ (e.2 = .manual ∧ Parsed e.1) :=
      fun e he => mem_extend t.entries_fst (importedNodes_adds t.vm.nodes text) he
    apply inv_ofSave
    · intro e he
      rcases hmem e he with he | ⟨-, hp⟩
      · exact ht.scheme e he
      · exact hp.2.scheme
    · rw [ha]
      exact ht.storable
    · rw [ha]
      intro e he ho
      rcases hmem e he with he | ⟨hm, -⟩
      · exact ht.entries e he ho
      · rw [hm] at ho
        cases ho

/-- A rename keeps the invariant when it leaves the entries of the API in the stored set. -/
theorem inv_renameNode {t : Tagged} (ht : t.Inv) {node : NodeItem} {newLabel : Str}
    (hok : KeepsApi t (.renameNode node newLabel)) : (t.renameNode node newLabel).Inv := by
  have ha := t.vm.renameNode_apiNodes node newLabel
  unfold Tagged.renameNode
  split
  · exact inv_withVm ht ha
  · rename_i hl
    apply inv_ofSave
    · intro e he
      obtain ⟨x, hx, rfl⟩ := List.mem_map.1 he
      dsimp only
      rcases ViewModel.renameItem_cases node.uri (relabel node.uri (trim newLabel)) x.1 with hi | ⟨-, hp⟩
      · rw [hi]
        exact ht.scheme x hx
      · rw [parseNode_uri hp]
        exact startsWith_of_parseNode hp
    · rw [ha]
      exact ht.storable
    · rw [ha]
      intro e he ho
      obtain ⟨x, hx, rfl⟩ := List.mem_map.1 he
      dsimp only at ho ⊢
      rcases ViewModel.renameItem_cases node.uri (relabel node.uri (trim newLabel)) x.1 with hi | ⟨hu, hp⟩
      · rw [hi]
        exact ht.entries x hx ho
      · rw [parseNode_uri hp]
        exact hok hl ⟨x, hx, ho, hu⟩

/-- A sync that fails changes neither the entries nor the set. -/
theorem inv_fetchNodes_error {t : Tagged} (ht : t.Inv) {r : Replies} {message : Option Str}
    (hr : (t.vm.fetchNodes r).1 = .error message) : (t.fetchNodes r).Inv := by
  obtain ⟨token, ⟨_, hf⟩ | ⟨yaml, hf⟩⟩ := t.vm.fetchNodes_cases r
  · unfold Tagged.fetchNodes
    split
    · exact inv_withVm ht (by rw [hf]; rfl)
    · rename_i h
      rw [hr] at h
      cases h
  · rw [hf] at hr
    cases hr

/-- A sync that succeeds leaves the URIs of its items in the set, and no other entries of the API. -/
theorem inv_fetchNodes_ok {t : Tagged} (ht : t.Inv) {r : Replies} {found : List (Str × Str)}
    (hr : (t.vm.fetchNodes r).1 = .ok found) : (t.fetchNodes r).Inv := by
  obtain ⟨token, ⟨_, hf⟩ | ⟨yaml, hf⟩⟩ := t.vm.fetchNodes_cases r
  · rw [hf] at hr
    cases hr
  · have hfound : X365Api.extractNodes yaml = found := by
      rw [hf] at hr
      exact Except.ok.inj hr
    have hset : ∀ u, u ∈ (t.vm.fetchNodes r).2.prefs.apiNodes ↔ ∃ n, IsItem found n ∧ n.uri = u := by
      intro u
      rw [hf, ← hfound]
      exact mem_merge_snd
    have hparsed : ∀ n, IsItem found n → Parsed n := by
      rintro n ⟨pair, hp, hn⟩
      exact parsed_of_pairItem (X365Api.extracted_of_mem (hfound ▸ hp)) hn
    have hmem := fetchNodes_entries t hr
    unfold Tagged.fetchNodes at hmem ⊢
    split at hmem
    · rename_i h
      rw [hr] at h
      cases h
    · apply inv_ofSave
      · intro e he
        rcases hmem e he with he | ⟨-, hi⟩
        · exact ht.scheme e (mem_without.1 he).1
        · exact (hparsed e.1 hi).2.scheme
      · intro u hu
        obtain ⟨n, hn, rfl⟩ := (hset u).1 hu
        exact (hparsed n hn).2
      · intro e he ho
        rcases hmem e he with he | ⟨-, hi⟩
        · exact absurd ho (without_api ht he)
        · exact (hset _).2 ⟨e.1, hi, rfl⟩

/-- A logout leaves no entry of the API and an empty set. -/
theorem inv_logout {t : Tagged} (ht : t.Inv) : t.logout.Inv := by
  refine inv_ofSave rfl ?_ ?_ ?_
  · exact fun e he => ht.scheme e (mem_without.1 he).1
  · exact fun u hu => absurd hu List.not_mem_nil
  · exact fun e he ho => absurd ho (without_api ht he)

/-- Every operation that keeps the entries of the API in the stored set keeps the invariant. -/
theorem inv_perform {t : Tagged} (ht : t.Inv) {op : Op} (hok : KeepsApi t op) : (t.perform op).Inv := by
  cases op with
  | importNodes text => exact inv_importNodes ht text
  | deleteNode node =>
    refine inv_ofSave rfl ?_ ht.storable ?_
    · exact fun e he => ht.scheme e (List.mem_of_mem_filter he)
    · exact fun e he => ht.entries e (List.mem_of_mem_filter he)
  | renameNode node newLabel => exact inv_renameNode ht hok
  | fetchNodes r =>
    cases hr : (t.vm.fetchNodes r).1 with
    | error message => exact inv_fetchNodes_error ht hr
    | ok found => exact inv_fetchNodes_ok ht hr
  | logout => exact inv_logout ht
  | restart uuid => exact inv_restart ht.storable ht.saved uuid

/-- A rename that takes an entry of the API out of the stored set leaves it for the next logout to miss. -/
theorem not_noStale_perform {t : Tagged} (ht : t.Inv) {op : Op} (hbad : ¬KeepsApi t op) : ¬(t.perform op).NoStale := by
  cases op with
  | renameNode node newLabel =>
    simp only [KeepsApi, Classical.not_imp] at hbad
    obtain ⟨hl, ⟨e, he, ho, hu⟩, hn⟩ := hbad
    obtain ⟨n, hp⟩ := exists_parseNode (startsWith_relabel (hu ▸ ht.scheme e he) (trim newLabel))
    have ha : (t.perform (.renameNode node newLabel)).vm.prefs.apiNodes = t.vm.prefs.apiNodes := by
      rw [perform_vm]
      exact t.vm.renameNode_apiNodes node newLabel
    have hmem : (n, Origin.api) ∈ (t.perform (.renameNode node newLabel)).entries := by
      simp only [Tagged.perform, Tagged.renameNode, hl, dite_false]
      refine List.mem_map.2 ⟨e, he, ?_⟩
      simp [renameItem, hu, hp, ho]
    intro hs
    refine hs.1 n (mem_without.2 ⟨hmem, ?_⟩)
    rw [ha, parseNode_uri hp]
    exact hn
  | importNodes | deleteNode | fetchNodes | logout | restart => exact absurd trivial hbad

end OriginAux

open OriginAux

/-- From an installation without an account, over any stored string: in every state of a run a logout leaves no entry of the
API and a sync leaves only those of its response, exactly when every rename of an entry of the API gives it a URI that is in
the stored set. The annotated run is a run of the view model. -/
theorem no_stale_api_node_iff (saved uuid : Str) (ops : List Op) :
    exec ViewModel.step (ViewModel.start { Prefs.empty with nodes := saved } uuid) ops =
        (exec Tagged.step (Tagged.start saved uuid) ops).map Tagged.vm ∧
      ((∀ pre t, pre <+: ops → exec Tagged.step (Tagged.start saved uuid) pre = some t → t.NoStale) ↔
        Meets Tagged.step KeepsApi (Tagged.start saved uuid) ops) := by
  refine ⟨Tagged.exec_vm (Tagged.start saved uuid) ops, ?_⟩
  apply meets_iff_forall_states Tagged.Inv Tagged.NoStale
  · intro t op t' h hok ht
    obtain rfl := Option.some.inj ht
    exact inv_perform h hok
  · exact fun t h => noStale_of_inv h
  · exact fun t op h hbad => ⟨t.perform op, rfl, not_noStale_perform h hbad⟩
  · refine inv_restart (fun u hu => absurd hu List.not_mem_nil) (fun l hl ho => ?_) uuid
    obtain ⟨line, -, rfl⟩ := List.mem_map.1 hl
    cases ho

/-- A response with one node in one section. -/
def oneNode : Replies where
  first := .error none
  login := .ok "t".toList
  second := .ok "proxies:\n    香港:\n      - x365://u@h:443\n".toList

/-- The node of that response. -/
def oneNodeItem : NodeItem := (parseNode "x365://u@h:443#香港".toList).getD default

/-- A node of the API that was renamed is still in the list after a logout. -/
theorem logout_misses_renamed :
    ¬∀ e ∈ ([.fetchNodes oneNode, .renameNode oneNodeItem "b".toList, .logout].foldl Tagged.perform
      (Tagged.start [] [])).entries, e.2 ≠ .api := by
  decide

/-! ## No node of the user is taken away -/

/-- The URI of a node that is followed through an operation: a rename of the node changes it; after a deletion of the node, or
a restart of the app, it is no longer followed. -/
def follow (u : Str) : Op → Option Str
  | .deleteNode node => if node.uri = u then none else some u
  | .renameNode node newLabel =>
    if node.uri = u ∧ trim newLabel ≠ [] then some (relabel u (trim newLabel)) else some u
  | .restart _ => none
  | .importNodes _ | .fetchNodes _ | .logout => some u

/-- A run with one node followed: the state, and the URI of the node. -/
def followStep (su : ViewModel × Str) (op : Op) : Option (ViewModel × Str) :=
  (follow su.2 op).map fun u => (su.1.perform op, u)

/-- The node is in the list. -/
def Listed (su : ViewModel × Str) : Prop := su.2 ∈ uris su.1.nodes

/-- A sync that succeeds finds the URI of the node outside the stored set, unless its response has the URI again. -/
def SparedBySync (su : ViewModel × Str) : Except (Option Str) (List (Str × Str)) → Prop
  | .error _ => True
  | .ok found => su.2 ∈ su.1.prefs.apiNodes → ∃ pair ∈ found, (pairItem pair).map (·.uri) = some su.2

/-- A sync spares the node, and a logout finds its URI outside the stored set. -/
def Spares (su : ViewModel × Str) : Op → Prop
  | .fetchNodes r => SparedBySync su (su.1.fetchNodes r).1
  | .logout => su.2 ∉ su.1.prefs.apiNodes
  | _ => True

instance (su : ViewModel × Str) : Decidable (Listed su) := inferInstanceAs (Decidable (_ ∈ _))

instance (su : ViewModel × Str) : ∀ result, Decidable (SparedBySync su result)
  | .error _ => inferInstanceAs (Decidable True)
  | .ok _ => inferInstanceAs (Decidable (_ → _))

instance (su : ViewModel × Str) : ∀ op, Decidable (Spares su op)
  | .fetchNodes r => inferInstanceAs (Decidable (SparedBySync su (su.1.fetchNodes r).1))
  | .logout => inferInstanceAs (Decidable (_ ∉ _))
  | .importNodes _ | .deleteNode _ | .renameNode .. | .restart _ => inferInstanceAs (Decidable True)

namespace OriginAux

/-- The URI that a rename of a node makes is in the list afterwards. -/
theorem mem_uris_renamedNodes {nodes : List NodeItem} {u : Str} (h : u ∈ uris nodes) (hs : startsWith scheme u = true)
    (uri newLabel : Str) :
    (if uri = u ∧ trim newLabel ≠ [] then relabel u (trim newLabel) else u) ∈
      uris (ViewModel.renamedNodes nodes uri newLabel) := by
  obtain ⟨it, hit, rfl⟩ := List.mem_map.1 h
  unfold ViewModel.renamedNodes
  by_cases hl : trim newLabel = []
  · simpa [hl] using h
  · simp only [hl, ne_eq, not_false_eq_true, and_true, List.isEmpty_iff, if_false]
    refine List.mem_map.2 ⟨_, List.mem_map_of_mem hit, ?_⟩
    by_cases hu : uri = it.uri
    · obtain ⟨n, hn⟩ := exists_parseNode (startsWith_relabel hs (trim newLabel))
      simp only [hu, renameItem, beq_self_eq_true, if_true, hn, Option.getD_some]
      exact parseNode_uri hn
    · have hu' : ¬it.uri = uri := fun e => hu e.symm
      simp [renameItem, hu, hu']

/-- The URI of a followed node keeps the scheme. -/
theorem follow_scheme {u u' : Str} (hs : startsWith scheme u = true) {op : Op} (h : follow u op = some u') :
    startsWith scheme u' = true := by
  cases op with
  | renameNode node newLabel =>
    simp only [follow] at h
    split at h
    · exact Option.some.inj h ▸ startsWith_relabel hs _
    · exact Option.some.inj h ▸ hs
  | deleteNode node =>
    simp only [follow] at h
    split at h
    · cases h
    · exact Option.some.inj h ▸ hs
  | importNodes text | fetchNodes r | logout => exact Option.some.inj h ▸ hs
  | restart uuid => cases h

/-- A pair of the response has the URI, in the words of `merge`. -/
theorem exists_pair_iff {found : List (Str × Str)} {u : Str} :
    (∃ pair ∈ found, (pairItem pair).map (·.uri) = some u) ↔ ∃ n, IsItem found n ∧ n.uri = u := by
  simp only [Option.map_eq_some_iff, IsItem]
  constructor
  · rintro ⟨p, hp, n, hn, hu⟩
    exact ⟨n, ⟨p, hp, hn⟩, hu⟩
  · rintro ⟨n, ⟨p, hp, hn⟩, hu⟩
    exact ⟨p, hp, n, hn, hu⟩

/-- What a sync leaves of a URI of the list. -/
theorem mem_uris_fetchNodes {s : ViewModel} {u : Str} (h : u ∈ uris s.nodes) (r : Replies) :
    u ∈ uris (s.fetchNodes r).2.nodes ↔ Spares (s, u) (.fetchNodes r) := by
  obtain ⟨token, ⟨message, hf⟩ | ⟨yaml, hf⟩⟩ := s.fetchNodes_cases r
  · simp only [Spares, SparedBySync, hf, iff_true]
    exact h
  · simp only [Spares, SparedBySync, hf]
    have hm : u ∈ uris ((s.withToken token).syncNodes (X365Api.extractNodes yaml)).nodes ↔
        (u ∈ uris s.nodes ∧ u ∉ s.prefs.apiNodes) ∨ ∃ n, IsItem (X365Api.extractNodes yaml) n ∧ n.uri = u := by
      rw [ViewModel.syncNodes_nodes, mem_uris_merge, mem_uris_withoutUris, mem_merge_snd]
      rfl
    rw [hm]
    constructor
    · rintro (hk | hi) hu
      · exact absurd hu hk.2
      · exact exists_pair_iff.2 hi
    · intro hs
      by_cases hu : u ∈ s.prefs.apiNodes
      · exact Or.inr (exists_pair_iff.1 (hs hu))
      · exact Or.inl ⟨h, hu⟩

theorem mem_uris_logout {s : ViewModel} {u : Str} (h : u ∈ uris s.nodes) :
    u ∈ uris s.logout.nodes ↔ u ∉ s.prefs.apiNodes := by
  have hm : u ∈ uris s.logout.nodes ↔ u ∈ uris s.nodes ∧ u ∉ s.prefs.apiNodes := mem_uris_withoutUris
  rw [hm]
  exact ⟨And.right, fun hu => ⟨h, hu⟩⟩

/-- One operation keeps a followed node in the list exactly when it spares it. -/
theorem listed_followStep {su t : ViewModel × Str} (h : Listed su) (hs : startsWith scheme su.2 = true) {op : Op}
    (ht : followStep su op = some t) : Listed t ↔ Spares su op := by
  obtain ⟨u', hu', rfl⟩ := Option.map_eq_some_iff.1 ht
  obtain ⟨s, u⟩ := su
  unfold Listed at h ⊢
  dsimp only at h hs hu' ⊢
  cases op with
  | importNodes text =>
    obtain rfl := Option.some.inj hu'
    simp only [Spares, iff_true, ViewModel.perform, ViewModel.importNodes_nodes]
    obtain ⟨n, hn, rfl⟩ := List.mem_map.1 h
    exact mem_uris_of_mem ((importedNodes_adds s.nodes text).subset hn)
  | deleteNode node =>
    simp only [follow] at hu'
    split at hu'
    · cases hu'
    · rename_i hne
      obtain rfl := Option.some.inj hu'
      simp only [Spares, iff_true]
      obtain ⟨n, hn, rfl⟩ := List.mem_map.1 h
      refine mem_uris_of_mem (List.mem_filter.2 ⟨hn, ?_⟩)
      simpa using fun e => hne e.symm
  | renameNode node newLabel =>
    have hif : (if node.uri = u ∧ trim newLabel ≠ [] then relabel u (trim newLabel) else u) = u' :=
      Option.some.inj ((apply_ite some _ _ _).trans hu')
    simp only [Spares, iff_true, ViewModel.perform, ViewModel.renameNode_nodes]
    rw [← hif]
    exact mem_uris_renamedNodes h hs node.uri newLabel
  | fetchNodes r =>
    obtain rfl := Option.some.inj hu'
    exact mem_uris_fetchNodes h r
  | logout =>
    obtain rfl := Option.some.inj hu'
    exact mem_uris_logout h
  | restart uuid => cases hu'

end OriginAux

/-- A node that an import added stays in the list, under the URI its renames give it, in every state of a run that does not
delete it, exactly when each logout and each sync that succeeds finds its URI outside the stored set (or a sync finds it in its
own response again). -/
theorem imported_survives_iff (s : ViewModel) (text u : Str) (ops : List Op) (hu : u ∉ uris s.nodes)
    (hi : u ∈ uris (s.importNodes text).nodes) :
    (∀ pre t, pre <+: ops → exec followStep (s.importNodes text, u) pre = some t → Listed t) ↔
      Meets followStep Spares (s.importNodes text, u) ops := by
  have hs : startsWith scheme u = true := by
    rw [ViewModel.importNodes_nodes] at hi
    obtain ⟨n, hn, rfl⟩ := List.mem_map.1 hi
    rcases (importedNodes_adds s.nodes text).mem_or hn with h | h
    · exact absurd (mem_uris_of_mem h) hu
    · exact h.2.scheme
  apply meets_iff_forall_states (fun su => Listed su ∧ startsWith scheme su.2 = true) Listed
  · rintro su op t ⟨h, hs⟩ hok ht
    refine ⟨(listed_followStep h hs ht).2 hok, ?_⟩
    obtain ⟨u', hu', rfl⟩ := Option.map_eq_some_iff.1 ht
    exact follow_scheme hs hu'
  · exact fun su h => h.1
  · rintro su op ⟨h, hs⟩ hbad
    have hx : ∃ t, followStep su op = some t := by
      cases op with
      | fetchNodes r => exact ⟨_, rfl⟩
      | logout => exact ⟨_, rfl⟩
      | importNodes | deleteNode | renameNode | restart => exact absurd trivial hbad
    obtain ⟨t, ht⟩ := hx
    exact ⟨t, ht, fun hl => hbad ((listed_followStep h hs ht).1 hl)⟩
  · exact ⟨hi, hs⟩

/-- The node imported is another than the one the API sends: it outlives a sync and a logout. -/
theorem imported_survives_other_node :
    (exec followStep ((ViewModel.start Prefs.empty []).importNodes "x365://v@h:443#a".toList, "x365://v@h:443#a".toList)
      [.fetchNodes oneNode, .logout]).isSome = true ∧
    ∀ pre t, pre <+: [.fetchNodes oneNode, .logout] →
      exec followStep ((ViewModel.start Prefs.empty []).importNodes "x365://v@h:443#a".toList, "x365://v@h:443#a".toList) pre =
        some t → Listed t :=
  ⟨by decide, (imported_survives_iff (ViewModel.start Prefs.empty []) "x365://v@h:443#a".toList "x365://v@h:443#a".toList
    [.fetchNodes oneNode, .logout] (by decide) (by decide)).2 (by decide)⟩

/-- The node imported is the one the API sends: the sync leaves it in the list and the logout takes it away. -/
theorem logout_takes_imported :
    "x365://u@h:443#香港".toList ∈ uris ((ViewModel.start Prefs.empty []).importNodes "x365://u@h:443#香港".toList).nodes ∧
      (exec followStep ((ViewModel.start Prefs.empty []).importNodes "x365://u@h:443#香港".toList,
        "x365://u@h:443#香港".toList) [.fetchNodes oneNode, .logout]).map (fun t => decide (Listed t)) = some false := by
  decide

end Open365Vpn
