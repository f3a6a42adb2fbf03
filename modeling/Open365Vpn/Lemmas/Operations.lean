import Open365Vpn.Lemmas.NodeList
import Open365Vpn.Lib.Runs

/-!
# What each operation leaves

One statement an operation: the list it leaves, the stored string and the stored set of URIs. `InStep` is the invariant that
ties the stored string to the list: every node can be stored, and the lines of the stored string are the nodes of the list.
-/

namespace Open365Vpn

open Kotlin

namespace ViewModel

@[simp] theorem setNodes_nodes (s : ViewModel) (l : List NodeItem) : (s.setNodes l).nodes = l := rfl

@[simp] theorem setNodes_prefs_nodes (s : ViewModel) (l : List NodeItem) :
    (s.setNodes l).prefs.nodes = NodeStore.save l := rfl

@[simp] theorem setNodes_apiNodes (s : ViewModel) (l : List NodeItem) :
    (s.setNodes l).prefs.apiNodes = s.prefs.apiNodes := rfl

/-- The state with another token stored. -/
def withToken (s : ViewModel) (token : Option Str) : ViewModel := { s with prefs := { s.prefs with token := token } }

/-! ## Import, delete, rename -/

/-- An import saves the list with the new nodes, or touches neither the list nor the preferences when there is none. -/
theorem importNodes_cases (s : ViewModel) (text : Str) :
    (importedNodes s.nodes text ≠ s.nodes ∧ (s.importNodes text).nodes = importedNodes s.nodes text ∧
        (s.importNodes text).prefs = (s.setNodes (importedNodes s.nodes text)).prefs) ∨
      (importedNodes s.nodes text = s.nodes ∧ (s.importNodes text).nodes = s.nodes ∧
        (s.importNodes text).prefs = s.prefs) := by
  by_cases ht : (trim text).isEmpty
  · right
    simp [importNodes, importedNodes, ht]
  · by_cases hc : 0 < (importLines s.nodes (trim text)).2
    · left
      refine ⟨fun he => ?_, by simp [importNodes, importedNodes, ht, hc], by simp [importNodes, importedNodes, ht, hc]⟩
      have hlen := (importLines_adds s.nodes (trim text)).2
      simp only [importedNodes, ht, Bool.false_eq_true, if_false] at he
      rw [he] at hlen
      omega
    · right
      simp [importNodes, importedNodes, ht, hc, importLines_eq_self hc]

theorem importNodes_nodes (s : ViewModel) (text : Str) : (s.importNodes text).nodes = importedNodes s.nodes text := by
  rcases s.importNodes_cases text with h | h
  · exact h.2.1
  · rw [h.1, h.2.1]

theorem importNodes_apiNodes (s : ViewModel) (text : Str) :
    (s.importNodes text).prefs.apiNodes = s.prefs.apiNodes := by
  rcases s.importNodes_cases text with h | h
  · rw [h.2.2, setNodes_apiNodes]
  · rw [h.2.2]

/-- The list after a rename. -/
def renamedNodes (nodes : List NodeItem) (uri newLabel : Str) : List NodeItem :=
  if (trim newLabel).isEmpty then nodes else nodes.map (renameItem uri (relabel uri (trim newLabel)))

/-- A rename saves the rewritten list, or touches neither the list nor the preferences when the name is blank. -/
theorem renameNode_cases (s : ViewModel) (node : NodeItem) (newLabel : Str) :
    ((s.renameNode node newLabel).nodes = renamedNodes s.nodes node.uri newLabel ∧
        (s.renameNode node newLabel).prefs = (s.setNodes (renamedNodes s.nodes node.uri newLabel)).prefs) ∨
      (trim newLabel = [] ∧ (s.renameNode node newLabel).nodes = s.nodes ∧
        (s.renameNode node newLabel).prefs = s.prefs) := by
  by_cases hl : (trim newLabel).isEmpty
  · right
    simp [renameNode, List.isEmpty_iff.1 hl]
  · left
    simp [renameNode, renamedNodes, hl]

theorem renameNode_nodes (s : ViewModel) (node : NodeItem) (newLabel : Str) :
    (s.renameNode node newLabel).nodes = renamedNodes s.nodes node.uri newLabel := by
  rcases s.renameNode_cases node newLabel with h | h
  · exact h.1
  · rw [h.2.1, renamedNodes, h.1]
    rfl

theorem renameNode_apiNodes (s : ViewModel) (node : NodeItem) (newLabel : Str) :
    (s.renameNode node newLabel).prefs.apiNodes = s.prefs.apiNodes := by
  rcases s.renameNode_cases node newLabel with h | h
  · rw [h.2, setNodes_apiNodes]
  · rw [h.2.2]

/-! ## Syncs -/

@[simp] theorem syncNodes_nodes (s : ViewModel) (found : List (Str × Str)) :
    (s.syncNodes found).nodes = (merge s.nodes s.prefs.apiNodes found).1 := rfl

@[simp] theorem syncNodes_prefs_nodes (s : ViewModel) (found : List (Str × Str)) :
    (s.syncNodes found).prefs.nodes = NodeStore.save (merge s.nodes s.prefs.apiNodes found).1 := rfl

@[simp] theorem syncNodes_apiNodes (s : ViewModel) (found : List (Str × Str)) :
    (s.syncNodes found).prefs.apiNodes = (merge s.nodes s.prefs.apiNodes found).2 := rfl

/-- Reading the configuration changes at most the stored token. -/
theorem fetchYaml_snd (s : ViewModel) (r : Replies) : ∃ token, (s.fetchYaml r).2 = s.withToken token := by
  unfold fetchYaml
  split
  · exact ⟨s.prefs.token, rfl⟩
  · split
    · exact ⟨s.prefs.token, rfl⟩
    · rename_i token _
      exact ⟨some token, rfl⟩

/-- A sync ends in an exception and has changed at most the stored token, or it merges the pairs of some text. -/
theorem fetchNodes_cases (s : ViewModel) (r : Replies) :
    ∃ token, (∃ message, s.fetchNodes r = (.error message, s.withToken token)) ∨
      ∃ yaml, s.fetchNodes r = (.ok (X365Api.extractNodes yaml), (s.withToken token).syncNodes (X365Api.extractNodes yaml)) := by
  obtain ⟨token, ht⟩ := s.fetchYaml_snd r
  refine ⟨token, ?_⟩
  unfold fetchNodes
  split
  · rename_i message s' h
    obtain rfl : s' = s.withToken token := by rw [← ht, h]
    exact Or.inl ⟨message, rfl⟩
  · rename_i yaml s' h
    obtain rfl : s' = s.withToken token := by rw [← ht, h]
    dsimp only
    split
    · exact Or.inl ⟨_, rfl⟩
    · exact Or.inr ⟨yaml, rfl⟩

/-! ## Restart -/

theorem loadAccount_nodes (p : Prefs) (uuid : Str) : (SettingsStore.loadAccount p uuid).2.nodes = p.nodes := by
  unfold SettingsStore.loadAccount
  split
  · split <;> rfl
  · rfl

theorem loadAccount_apiNodes (p : Prefs) (uuid : Str) : (SettingsStore.loadAccount p uuid).2.apiNodes = p.apiNodes := by
  unfold SettingsStore.loadAccount
  split
  · split <;> rfl
  · rfl

theorem restart_nodes (s : ViewModel) (uuid : Str) : (s.restart uuid).nodes = NodeStore.parseLines s.prefs.nodes :=
  NodeStore.load_fst s.prefs.nodes

theorem restart_apiNodes (s : ViewModel) (uuid : Str) : (s.restart uuid).prefs.apiNodes = s.prefs.apiNodes :=
  loadAccount_apiNodes _ uuid

theorem parseLines_restart (s : ViewModel) (uuid : Str) :
    NodeStore.parseLines (s.restart uuid).prefs.nodes = NodeStore.parseLines s.prefs.nodes := by
  have h : (s.restart uuid).prefs.nodes = (NodeStore.load s.prefs.nodes).2 := loadAccount_nodes _ uuid
  rw [h, NodeStore.parseLines_load_snd]

/-! ## The list and the stored string in step -/

/-- Every node can be stored, and the lines of the stored string are the nodes of the list. -/
structure InStep (s : ViewModel) : Prop where
  storables : Storables s.nodes
  lines : NodeStore.parseLines s.prefs.nodes = s.nodes

/-- A list that can be stored is in step once it is saved. -/
theorem InStep.of_save {s : ViewModel} (h : Storables s.nodes) (hs : s.prefs.nodes = NodeStore.save s.nodes) : s.InStep :=
  ⟨h, by rw [hs, NodeStore.parseLines_save_of_storables h]⟩

/-- The nodes that an import or a merge appends can be stored. -/
theorem storables_adds {P : NodeItem → Prop} {l l' : List NodeItem} (h : Adds P l l') (hP : ∀ n, P n → Parsed n)
    (hl : Storables l) : Storables l' := by
  intro n hn
  rcases h.mem_or hn with hn | hn
  · exact hl n hn
  · exact hP n hn

/-- The item that a rename puts in the place of another keeps its URI, or parses from the new one. -/
theorem renameItem_cases (uri newUri : Str) (it : NodeItem) :
    renameItem uri newUri it = it ∨ (it.uri = uri ∧ parseNode newUri = some (renameItem uri newUri it)) := by
  unfold renameItem
  split
  · rename_i h
    cases hp : parseNode newUri with
    | none => exact Or.inl rfl
    | some n => exact Or.inr ⟨by simpa using h, rfl⟩
  · exact Or.inl rfl

/-- A rename with a label without a line feed keeps the list storable. -/
theorem storables_renamedNodes {nodes : List NodeItem} (h : Storables nodes) {uri newLabel : Str}
    (hf : uri ∈ uris nodes → '\n' ∉ trim newLabel) : Storables (renamedNodes nodes uri newLabel) := by
  unfold renamedNodes
  split
  · exact h
  · rename_i hl
    intro n hn
    obtain ⟨it, hit, rfl⟩ := List.mem_map.1 hn
    rcases renameItem_cases uri (relabel uri (trim newLabel)) it with he | ⟨hu, hp⟩
    · rw [he]
      exact h it hit
    · obtain ⟨-, hs⟩ := h it hit
      rw [hu] at hs
      have hne : trim newLabel ≠ [] := fun e => hl (List.isEmpty_iff.2 e)
      have hm : '\n' ∉ trim newLabel := hf (hu ▸ mem_uris_of_mem hit)
      exact Storables.of_parseNode (storable_relabel hs.scheme hs.noFeed hne (trim_trim newLabel) hm) hp

end ViewModel

end Open365Vpn
