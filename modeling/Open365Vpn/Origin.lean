import Open365Vpn.Lemmas.Operations

/-!
# Where a node came from

The app does not store where a node came from: it stores the set of URIs the API sent last and compares URIs. Here every entry
of the list carries its origin, as a reader of the code would note it beside a run: `api` when a sync added it, `manual` when
the user imported it (or when it was there at the start), and a rename keeps it. `Tagged` holds a state of the view model with
the list so annotated, and the lines of the stored string annotated likewise, so that a restart finds the origins again. Its
two last fields say that without the annotations it is the state of the view model.
-/

namespace Open365Vpn

open Kotlin

/-- The origin of an entry. -/
inductive Origin where
  | api | manual
  deriving DecidableEq, Repr

/-- An entry of the list with its origin. -/
abbrev Entry : Type := NodeItem × Origin

/-- The lines of the stored string of a list, each with the origin of the entry it belongs to. -/
def tagLines : List Entry → List (Str × Origin)
  | [] => [([], .manual)]
  | es => es.flatMap fun e => (split '\n' e.1.uri).map fun line => (line, e.2)

/-- The entries read back from annotated lines. -/
def readLines (saved : List (Str × Origin)) : List Entry :=
  saved.filterMap fun l => (parseNode (trim l.1)).map fun n => (n, l.2)

/-- A state of the view model whose list and stored lines carry origins. -/
structure Tagged where
  vm : ViewModel
  entries : List Entry
  saved : List (Str × Origin)
  entries_fst : entries.map Prod.fst = vm.nodes
  saved_fst : saved.map Prod.fst = split '\n' vm.prefs.nodes

/-- Without the origins the lines are those of the saved string. -/
theorem tagLines_fst (es : List Entry) :
    (tagLines es).map Prod.fst = split '\n' (NodeStore.save (es.map Prod.fst)) := by
  cases es with
  | nil => rfl
  | cons e es =>
    rw [NodeStore.save, split_joinToString _ (by simp), List.flatMap_map, List.flatMap_map, tagLines, List.map_flatMap]
    · congr 1
      funext x
      simp [Function.comp_def]
    · simp

/-- Without the origins the entries read are the nodes that `NodeStore.load` reads. -/
theorem readLines_fst {saved : List (Str × Origin)} {text : Str} (h : saved.map Prod.fst = split '\n' text) :
    (readLines saved).map Prod.fst = NodeStore.parseLines text := by
  have hr : (readLines saved).map Prod.fst = (saved.map Prod.fst).filterMap fun line => parseNode (trim line) := by
    rw [readLines, List.map_filterMap, List.filterMap_map]
    congr 1
    funext l
    simp [Function.comp_def]
  rw [hr, h, NodeStore.parseLines]
  split
  · rename_i he
    rw [List.isEmpty_iff.1 he]
    rfl
  · rfl

/-- A list that begins with the nodes of some entries, annotated: these keep their origins, the rest gets the origin given. -/
def extend (es : List Entry) (nodes : List NodeItem) (o : Origin) : List Entry :=
  es ++ (nodes.drop es.length).map fun n => (n, o)

theorem extend_fst {es : List Entry} {nodes : List NodeItem} (h : es.map Prod.fst <+: nodes) (o : Origin) :
    (extend es nodes o).map Prod.fst = nodes := by
  obtain ⟨new, rfl⟩ := h
  have hd : (es.map Prod.fst ++ new).drop es.length = new := List.drop_left' (by simp)
  rw [extend, hd]
  simp [Function.comp_def]

namespace Tagged

/-- A state whose list was saved. -/
def ofSave (vm : ViewModel) (entries : List Entry) (h : entries.map Prod.fst = vm.nodes)
    (hs : vm.prefs.nodes = NodeStore.save vm.nodes) : Tagged where
  vm := vm
  entries := entries
  saved := tagLines entries
  entries_fst := h
  saved_fst := by rw [tagLines_fst, h, hs]

/-- A state with the same list and the same stored string. -/
def withVm (t : Tagged) (vm : ViewModel) (hn : vm.nodes = t.vm.nodes) (hs : vm.prefs.nodes = t.vm.prefs.nodes) : Tagged where
  vm := vm
  entries := t.entries
  saved := t.saved
  entries_fst := by rw [t.entries_fst, hn]
  saved_fst := by rw [t.saved_fst, hs]

/-- The entries whose URI is not in the set. -/
def without (t : Tagged) (set : List Str) : List Entry := t.entries.filter fun e => !decide (e.1.uri ∈ set)

theorem without_fst (t : Tagged) (set : List Str) : (t.without set).map Prod.fst = withoutUris t.vm.nodes set := by
  rw [without, withoutUris, ← t.entries_fst, List.filter_map]
  rfl

theorem prefix_of_adds {P : NodeItem → Prop} {l l' : List NodeItem} (h : Adds P l l') : l <+: l' := by
  obtain ⟨new, rfl, -⟩ := h.exists_append
  exact List.prefix_append l new

/-! ## The operations -/

/-- An import: the new entries are manual. -/
def importNodes (t : Tagged) (text : Str) : Tagged :=
  if h : importedNodes t.vm.nodes text = t.vm.nodes then
    t.withVm (t.vm.importNodes text) (by rw [ViewModel.importNodes_nodes, h])
      (by
        rcases t.vm.importNodes_cases text with hc | hc
        · exact absurd h hc.1
        · rw [hc.2.2])
  else
    ofSave (t.vm.importNodes text) (extend t.entries (importedNodes t.vm.nodes text) .manual)
      (by
        rw [ViewModel.importNodes_nodes]
        apply extend_fst
        rw [t.entries_fst]
        exact prefix_of_adds (importedNodes_adds t.vm.nodes text))
      (by
        rcases t.vm.importNodes_cases text with hc | hc
        · rw [hc.2.2, hc.2.1, ViewModel.setNodes_prefs_nodes]
        · exact absurd hc.1 h)

/-- A deletion. -/
def deleteNode (t : Tagged) (node : NodeItem) : Tagged :=
  ofSave (t.vm.deleteNode node) (t.entries.filter fun e => !(e.1.uri == node.uri))
    (by
      rw [ViewModel.deleteNode, ViewModel.setNodes_nodes, ← t.entries_fst, List.filter_map]
      rfl)
    rfl

/-- A rename: the entry keeps its origin. -/
def renameNode (t : Tagged) (node : NodeItem) (newLabel : Str) : Tagged :=
  if h : trim newLabel = [] then
    t.withVm (t.vm.renameNode node newLabel) (by simp [ViewModel.renameNode, h]) (by simp [ViewModel.renameNode, h])
  else
    ofSave (t.vm.renameNode node newLabel)
      (t.entries.map fun e => (renameItem node.uri (relabel node.uri (trim newLabel)) e.1, e.2))
      (by
        rw [ViewModel.renameNode_nodes, ViewModel.renamedNodes, if_neg (by simp [h]), ← t.entries_fst, List.map_map,
          List.map_map]
        rfl)
      (by
        rcases t.vm.renameNode_cases node newLabel with hc | hc
        · rw [hc.2, hc.1, ViewModel.setNodes_prefs_nodes]
        · exact absurd hc.1 h)

/-- A sync: what it adds to the entries it keeps is of the API. -/
def fetchNodes (t : Tagged) (r : Replies) : Tagged :=
  match h : (t.vm.fetchNodes r).1 with
  | .error _ =>
    t.withVm (t.vm.fetchNodes r).2
      (by
        obtain ⟨token, ⟨message, hf⟩ | ⟨yaml, hf⟩⟩ := t.vm.fetchNodes_cases r
        · rw [hf]
          rfl
        · rw [hf] at h
          cases h)
      (by
        obtain ⟨token, ⟨message, hf⟩ | ⟨yaml, hf⟩⟩ := t.vm.fetchNodes_cases r
        · rw [hf]
          rfl
        · rw [hf] at h
          cases h)
  | .ok _ =>
    ofSave (t.vm.fetchNodes r).2 (extend (t.without t.vm.prefs.apiNodes) (t.vm.fetchNodes r).2.nodes .api)
      (by
        obtain ⟨token, ⟨message, hf⟩ | ⟨yaml, hf⟩⟩ := t.vm.fetchNodes_cases r
        · rw [hf] at h
          cases h
        · rw [hf]
          apply extend_fst
          rw [without_fst]
          exact prefix_of_adds (merge_adds _ _ _))
      (by
        obtain ⟨token, ⟨message, hf⟩ | ⟨yaml, hf⟩⟩ := t.vm.fetchNodes_cases r
        · rw [hf] at h
          cases h
        · rw [hf]
          rfl)

/-- A logout. -/
def logout (t : Tagged) : Tagged := ofSave t.vm.logout (t.without t.vm.prefs.apiNodes) (t.without_fst _) rfl

/-- A restart: the origins of the entries are those of their lines. -/
def restart (t : Tagged) (uuid : Str) : Tagged where
  vm := t.vm.restart uuid
  entries := readLines t.saved
  saved := if (NodeStore.parseLines t.vm.prefs.nodes).isEmpty then tagLines [] else t.saved
  entries_fst := by rw [ViewModel.restart_nodes, readLines_fst t.saved_fst]
  saved_fst := by
    have hp : (t.vm.restart uuid).prefs.nodes = (NodeStore.load t.vm.prefs.nodes).2 := ViewModel.loadAccount_nodes _ uuid
    rw [hp, NodeStore.load]
    split
    · rfl
    · exact t.saved_fst

/-- One operation. -/
def perform (t : Tagged) : Op → Tagged
  | .importNodes text => t.importNodes text
  | .deleteNode node => t.deleteNode node
  | .renameNode node newLabel => t.renameNode node newLabel
  | .fetchNodes replies => t.fetchNodes replies
  | .logout => t.logout
  | .restart uuid => t.restart uuid

/-- The step function of annotated runs. -/
def step (t : Tagged) (op : Op) : Option Tagged := some (t.perform op)

/-- An installation without an account, over any stored string: every entry is manual. -/
def start (saved : Str) (uuid : Str) : Tagged :=
  restart
    { vm := { nodes := [], accountEmail := none, loginBusy := false, loginError := none, toast := none,
              importExpanded := false, prefs := { Prefs.empty with nodes := saved } }
      entries := []
      saved := (split '\n' saved).map fun line => (line, .manual)
      entries_fst := rfl
      saved_fst := by simp [Function.comp_def] }
    uuid

/-- Without the origins an annotated run is a run of the view model. -/
theorem perform_vm (t : Tagged) (op : Op) : (t.perform op).vm = t.vm.perform op := by
  cases op with
  | importNodes text =>
    simp only [perform, importNodes]
    split <;> rfl
  | deleteNode node => rfl
  | renameNode node newLabel =>
    simp only [perform, renameNode]
    split <;> rfl
  | fetchNodes replies =>
    simp only [perform, fetchNodes]
    split <;> rfl
  | logout => rfl
  | restart uuid => rfl

theorem exec_vm (t : Tagged) (ops : List Op) :
    Runs.exec ViewModel.step t.vm ops = (Runs.exec step t ops).map Tagged.vm := by
  induction ops generalizing t with
  | nil => rfl
  | cons op ops ih =>
    have h := ih (t.perform op)
    rw [perform_vm] at h
    exact h

end Tagged

end Open365Vpn
