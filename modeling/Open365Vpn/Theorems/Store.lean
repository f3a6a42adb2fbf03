import Open365Vpn.Lemmas.Operations

/-!
# The stored node list

Two properties of runs of the six operations, from any preferences: that a restart gives the list back, and that no two nodes
of the list share a URI. Both fail for a rename. The store writes one URI a line and a rename puts any text into the URI, so a
label with a line feed breaks the line (`restart_restores_iff` says that nothing else does); and a rename is the one operation
that does not look whether the URI it makes is already in the list (`uris_nodup`).
-/

namespace Open365Vpn

open Kotlin Runs

/-! ## A restart gives the list back -/

/-- Loading the stored string gives exactly the nodes in memory. -/
def ViewModel.Restores (s : ViewModel) : Prop := (NodeStore.load s.prefs.nodes).1 = s.nodes

instance (s : ViewModel) : Decidable s.Restores := inferInstanceAs (Decidable (_ = _))

/-- A rename of a node of the list has no line feed inside its label. -/
def KeepsLines (s : ViewModel) : Op → Prop
  | .renameNode node newLabel => node.uri ∈ uris s.nodes → '\n' ∉ trim newLabel
  | _ => True

namespace StoreAux

open ViewModel

theorem restores_of_inStep {s : ViewModel} (h : s.InStep) : s.Restores := by
  unfold ViewModel.Restores
  rw [NodeStore.load_fst, h.lines]

/-- A started app is in step, whatever the preferences hold. -/
theorem inStep_restart (s : ViewModel) (uuid : Str) : (s.restart uuid).InStep := by
  refine ⟨?_, ?_⟩
  · rw [restart_nodes]
    exact NodeStore.storables_parseLines s.prefs.nodes
  · rw [parseLines_restart, restart_nodes]

/-- An operation that keeps the lines of the store keeps the list and the stored string in step. -/
theorem inStep_perform {s : ViewModel} (h : s.InStep) {op : Op} (hok : KeepsLines s op) : (s.perform op).InStep := by
  cases op with
  | importNodes text =>
    simp only [ViewModel.perform]
    have hst : Storables (importedNodes s.nodes text) :=
      storables_adds (importedNodes_adds s.nodes text) (fun _ hn => hn) h.storables
    rcases s.importNodes_cases text with ⟨-, h1, h2⟩ | ⟨-, h1, h2⟩
    · exact InStep.of_save (h1 ▸ hst) (by rw [h1, h2, setNodes_prefs_nodes])
    · exact ⟨h1 ▸ h.storables, by rw [h1, h2, h.lines]⟩
  | deleteNode node => exact InStep.of_save (h.storables.sublist List.filter_sublist) rfl
  | renameNode node newLabel =>
    simp only [ViewModel.perform]
    rcases s.renameNode_cases node newLabel with ⟨h1, h2⟩ | ⟨-, h1, h2⟩
    · refine InStep.of_save ?_ (by rw [h1, h2, setNodes_prefs_nodes])
      rw [h1]
      exact storables_renamedNodes h.storables hok
    · exact ⟨h1 ▸ h.storables, by rw [h1, h2, h.lines]⟩
  | fetchNodes replies =>
    simp only [ViewModel.perform]
    obtain ⟨token, ⟨message, hf⟩ | ⟨yaml, hf⟩⟩ := s.fetchNodes_cases replies
    · rw [hf]
      exact ⟨h.storables, h.lines⟩
    · rw [hf]
      refine InStep.of_save ?_ rfl
      refine storables_adds (merge_adds _ _ _) ?_ (h.storables.sublist (withoutUris_sublist _ _))
      rintro n ⟨pair, hp, hn⟩
      exact parsed_of_pairItem (X365Api.extracted_of_mem hp) hn
  | logout => exact InStep.of_save (h.storables.sublist (withoutUris_sublist _ _)) rfl
  | restart uuid => exact inStep_restart s uuid

/-- A rename that puts a line feed into a URI of the list leaves a list that a restart does not give back: no URI read from
the store has a line feed. -/
theorem not_restores_perform {s : ViewModel} (h : s.InStep) {op : Op} (hbad : ¬KeepsLines s op) : ¬(s.perform op).Restores := by
  cases op with
  | renameNode node newLabel =>
    simp only [KeepsLines, Classical.not_imp, not_not] at hbad
    obtain ⟨hu, hf⟩ := hbad
    obtain ⟨it, hit, hiu⟩ := List.mem_map.1 hu
    have hsch : startsWith scheme node.uri = true := hiu ▸ (h.storables it hit).2.scheme
    obtain ⟨n, hn⟩ := exists_parseNode (startsWith_relabel hsch (trim newLabel))
    have hne : ¬(trim newLabel).isEmpty = true := by
      intro e
      rw [List.isEmpty_iff.1 e] at hf
      exact List.not_mem_nil hf
    have hmem : n ∈ (s.renameNode node newLabel).nodes := by
      rw [renameNode_nodes, renamedNodes, if_neg hne]
      refine List.mem_map.2 ⟨it, hit, ?_⟩
      simp [renameItem, hiu, hn]
    intro hr
    unfold ViewModel.Restores at hr
    rw [NodeStore.load_fst] at hr
    have hst := NodeStore.storables_parseLines (s.renameNode node newLabel).prefs.nodes
    simp only [ViewModel.perform] at hr
    rw [hr] at hst
    refine (hst n hmem).2.noFeed ?_
    rw [parseNode_uri hn]
    exact mem_relabel_of_mem_label hf
  | importNodes | deleteNode | fetchNodes | logout | restart => exact absurd trivial hbad

end StoreAux

open StoreAux

/-- From any preferences, a restart would give back the node list in every state of a run exactly when no rename of a node of
the list has a line feed inside its label. -/
theorem restart_restores_iff (p : Prefs) (uuid : Str) (ops : List Op) :
    (∀ pre s, pre <+: ops → exec ViewModel.step (ViewModel.start p uuid) pre = some s → s.Restores) ↔
      Meets ViewModel.step KeepsLines (ViewModel.start p uuid) ops := by
  apply meets_iff_forall_states ViewModel.InStep ViewModel.Restores
  · intro s op t h hok ht
    obtain rfl := Option.some.inj ht
    exact inStep_perform h hok
  · exact fun s h => restores_of_inStep h
  · exact fun s op h hbad => ⟨s.perform op, rfl, not_restores_perform h hbad⟩
  · exact inStep_restart _ uuid

/-- A node renamed to two lines: the restart reads the first line back under the first half of the name, and drops the
second. -/
theorem restart_loses_rename :
    ¬([Op.importNodes "x365://u@h:443#a".toList,
        Op.renameNode ((parseNode "x365://u@h:443#a".toList).getD default) "b\nc".toList].foldl ViewModel.perform (ViewModel.start Prefs.empty [])).Restores := by
  decide

/-! ## No two nodes share a URI -/

/-- A rename that changes the list has no line feed inside its label, and makes no URI that another node has. -/
def KeepsUris (s : ViewModel) : Op → Prop
  | .renameNode node newLabel =>
    trim newLabel ≠ [] → node.uri ∈ uris s.nodes →
      '\n' ∉ trim newLabel ∧
        (relabel node.uri (trim newLabel) ∈ uris s.nodes → relabel node.uri (trim newLabel) = node.uri)
  | _ => True

instance (s : ViewModel) : ∀ op, Decidable (KeepsUris s op)
  | .renameNode .. => inferInstanceAs (Decidable (_ → _))
  | .importNodes _ | .deleteNode _ | .fetchNodes _ | .logout | .restart _ => inferInstanceAs (Decidable True)

namespace StoreAux

open ViewModel

theorem keepsLines_of_keepsUris {s : ViewModel} {op : Op} (h : KeepsUris s op) : KeepsLines s op := by
  cases op with
  | renameNode node newLabel =>
    intro hu
    by_cases hl : trim newLabel = []
    · rw [hl]
      exact List.not_mem_nil
    · exact (h hl hu).1
  | importNodes | deleteNode | fetchNodes | logout | restart => trivial

/-- A map that is injective on the URIs of the list, as a rename is when the new URI is not another node's. -/
theorem nodup_renamedNodes {nodes : List NodeItem} (h : (uris nodes).Nodup) {uri newLabel : Str}
    (hok : trim newLabel ≠ [] → uri ∈ uris nodes →
      (relabel uri (trim newLabel) ∈ uris nodes → relabel uri (trim newLabel) = uri)) :
    (uris (renamedNodes nodes uri newLabel)).Nodup := by
  unfold renamedNodes
  split
  · exact h
  · rename_i hl
    have hne : trim newLabel ≠ [] := fun e => hl (List.isEmpty_iff.2 e)
    generalize relabel uri (trim newLabel) = newUri at hok
    -- the URI of the image of a node is a function of the URI of the node
    have himg : ∀ it ∈ nodes, (renameItem uri newUri it).uri = it.uri ∨
        (it.uri = uri ∧ (renameItem uri newUri it).uri = newUri) := by
      intro it _
      rcases renameItem_cases uri newUri it with he | ⟨hu, hp⟩
      · exact Or.inl (by rw [he])
      · exact Or.inr ⟨hu, parseNode_uri hp⟩
    have hp : nodes.Pairwise fun a b => a.uri ≠ b.uri := List.pairwise_map.1 h
    unfold uris
    rw [List.map_map]
    refine List.pairwise_map.2 (hp.imp_of_mem ?_)
    intro a b ha hb hab he
    simp only [Function.comp_apply] at he
    rcases himg a ha with h1 | ⟨h1, h1'⟩ <;> rcases himg b hb with h2 | ⟨h2, h2'⟩
    · exact hab (by rw [← h1, ← h2, he])
    · have hmem : newUri ∈ uris nodes := by
        rw [← h2', ← he, h1]
        exact mem_uris_of_mem ha
      have := hok hne (h2 ▸ mem_uris_of_mem hb) hmem
      exact hab (by rw [← h1, he, h2', this, h2])
    · have hmem : newUri ∈ uris nodes := by
        rw [← h1', he, h2]
        exact mem_uris_of_mem hb
      have := hok hne (h1 ▸ mem_uris_of_mem ha) hmem
      exact hab (by rw [← h2, ← he, h1', this, h1])
    · exact hab (h1.trans h2.symm)

/-- An operation that keeps the URIs apart keeps them distinct, from a list in step with the store. -/
theorem nodup_perform {s : ViewModel} (hs : s.InStep) (h : (uris s.nodes).Nodup) {op : Op} (hok : KeepsUris s op) :
    (uris (s.perform op).nodes).Nodup := by
  cases op with
  | importNodes text =>
    simp only [ViewModel.perform]
    rw [importNodes_nodes]
    exact (importedNodes_adds s.nodes text).nodup h
  | deleteNode node => exact h.sublist (uris_sublist List.filter_sublist)
  | renameNode node newLabel =>
    simp only [ViewModel.perform]
    rw [renameNode_nodes]
    exact nodup_renamedNodes h fun hl hu => (hok hl hu).2
  | fetchNodes replies =>
    simp only [ViewModel.perform]
    obtain ⟨token, ⟨message, hf⟩ | ⟨yaml, hf⟩⟩ := s.fetchNodes_cases replies
    · rw [hf]
      exact h
    · rw [hf]
      exact (merge_adds _ _ _).nodup (h.sublist (uris_sublist (withoutUris_sublist _ _)))
  | logout => exact h.sublist (uris_sublist (withoutUris_sublist _ _))
  | restart uuid =>
    simp only [ViewModel.perform]
    rw [restart_nodes, hs.lines]
    exact h

end StoreAux

/-- From any preferences whose stored lines have distinct URIs, no two nodes of the list share a URI in any state of a run in
which every rename has a label without a line feed and makes no URI that another node has. -/
theorem uris_nodup (p : Prefs) (uuid : Str) (ops : List Op) (s : ViewModel)
    (hp : (uris (NodeStore.parseLines p.nodes)).Nodup)
    (hm : Meets ViewModel.step KeepsUris (ViewModel.start p uuid) ops)
    (hx : exec ViewModel.step (ViewModel.start p uuid) ops = some s) : (uris s.nodes).Nodup := by
  have h0 : (ViewModel.start p uuid).InStep ∧ (uris (ViewModel.start p uuid).nodes).Nodup := by
    refine ⟨inStep_restart _ uuid, ?_⟩
    unfold ViewModel.start
    rw [ViewModel.restart_nodes]
    exact hp
  refine (exec_invariant (fun s => s.InStep ∧ (uris s.nodes).Nodup) ?_ h0 hm hx).2
  rintro s op t ⟨hs, hd⟩ hok ht
  obtain rfl := Option.some.inj ht
  exact ⟨inStep_perform hs (keepsLines_of_keepsUris hok), nodup_perform hs hd hok⟩

/-- Two nodes of one server imported, and the first renamed. -/
def importTwoAndRename (newLabel : String) : List Op :=
  [.importNodes "x365://u@h:443#a\nx365://u@h:443#b".toList,
    .renameNode ((parseNode "x365://u@h:443#a".toList).getD default) newLabel.toList]

/-- The second node has another name: the URIs stay distinct. -/
theorem uris_nodup_import_rename :
    (uris ((importTwoAndRename "c").foldl ViewModel.perform (ViewModel.start Prefs.empty [])).nodes).Nodup :=
  uris_nodup Prefs.empty [] (importTwoAndRename "c") _ (by decide) (by decide) rfl

/-- The second node has the name: its URI is in the list twice. -/
theorem rename_duplicates_uri :
    (uris (NodeStore.parseLines Prefs.empty.nodes)).Nodup ∧
      ¬(uris ((importTwoAndRename "b").foldl ViewModel.perform (ViewModel.start Prefs.empty [])).nodes).Nodup := by
  decide

end Open365Vpn
