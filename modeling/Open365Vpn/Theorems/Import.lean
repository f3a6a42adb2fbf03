import Open365Vpn.Lemmas.Operations
import Open365Vpn.Lib.Merging
import Open365Vpn.Lib.TextLines

/-!
# Import as a merge

An import reads the trimmed lines of a text that start with the scheme and appends the nodes whose URI is new, in order. The
text may be cut into pieces at line ends, and a piece that was imported before adds nothing.
-/

namespace Open365Vpn

open Kotlin Merging

/-- The nodes of the lines of a text that start with the scheme, the first one of each URI. -/
def textItems (text : Str) : List NodeItem := firsts (·.uri) ((trimmedLines (startsWith scheme) text).filterMap parseNode)

namespace ImportAux

/-! ## The loop -/

/-- The node of a line is pushed on the list. -/
theorem importLine_fst {line : Str} {n : NodeItem} (hn : parseNode (trim line) = some n) (acc : List NodeItem × Nat) :
    (importLine acc line).1 = push (·.uri) acc.1 n := by
  rw [importLine_of_some hn, push_uri]
  split <;> rfl

/-- The lines of an import push the nodes of the lines that start with the scheme. -/
theorem foldl_importLine_fst (ls : List Str) (acc : List NodeItem × Nat) :
    (ls.foldl importLine acc).1 =
      (((ls.map trim).filter (startsWith scheme)).filterMap parseNode).foldl (push (·.uri)) acc.1 := by
  induction ls generalizing acc with
  | nil => rfl
  | cons line ls ih =>
    rw [List.foldl_cons, ih, List.map_cons]
    by_cases hs : startsWith scheme (trim line) = true
    · obtain ⟨n, hn⟩ := exists_parseNode hs
      rw [importLine_fst hn, List.filter_cons_of_pos hs, List.filterMap_cons_some hn, List.foldl_cons]
    · have hn : parseNode (trim line) = none := by
        rw [← Option.not_isSome_iff_eq_none, parseNode_isSome]
        exact hs
      rw [importLine_of_none hn, List.filter_cons_of_neg hs]

/-- The list after an import: the nodes of the text are pushed on it. -/
theorem importedNodes_eq_foldl (nodes : List NodeItem) (text : Str) :
    importedNodes nodes text = ((trimmedLines (startsWith scheme) text).filterMap parseNode).foldl (push (·.uri)) nodes := by
  have hloop : (importLines nodes (trim text)).1 =
      ((trimmedLines (startsWith scheme) text).filterMap parseNode).foldl (push (·.uri)) nodes := by
    rw [← trimmedLines_trim (show startsWith scheme [] = false from rfl) text]
    exact foldl_importLine_fst (lines (trim text)) (nodes, 0)
  unfold importedNodes
  split
  · -- a blank text has one line, which is no URI
    rename_i ht
    rw [← hloop, List.isEmpty_iff.1 ht]
    rfl
  · exact hloop

/-- The list after an import: the nodes of the text that are new stand behind it. -/
theorem importedNodes_eq (nodes : List NodeItem) (text : Str) :
    importedNodes nodes text = nodes ++ withoutUris (textItems text) (uris nodes) := by
  rw [importedNodes_eq_foldl, foldl_push, withoutUris_eq]
  rfl

/-- What was imported is there. -/
theorem importedNodes_self (nodes : List NodeItem) (text : Str) :
    importedNodes (importedNodes nodes text) text = importedNodes nodes text := by
  have hnil : withoutUris (textItems text) (uris (importedNodes nodes text)) = [] := by
    rw [List.eq_nil_iff_forall_not_mem]
    intro n hn
    obtain ⟨hi, hnot⟩ := mem_withoutUris.1 hn
    rw [importedNodes_eq, uris_append, List.mem_append, not_or] at hnot
    exact hnot.2 (mem_uris_of_mem (mem_withoutUris.2 ⟨hi, hnot.1⟩))
  rw [importedNodes_eq (importedNodes nodes text), hnil, List.append_nil]

/-- A text under another one is imported after it. -/
theorem importedNodes_append_lf (nodes : List NodeItem) (t1 t2 : Str) :
    importedNodes nodes (t1 ++ '\n' :: t2) = importedNodes (importedNodes nodes t1) t2 := by
  simp only [importedNodes_eq_foldl, trimmedLines_append_lf (show startsWith scheme [] = false from rfl), List.filterMap_append,
    List.foldl_append]

/-! ## The stored string -/

/-- The nodes of a text have a URI that is not empty. -/
theorem uri_ne_nil_of_mem_textItems {text : Str} {n : NodeItem} (h : n ∈ textItems text) : n.uri ≠ [] := by
  obtain ⟨uri, -, hp⟩ := List.mem_filterMap.1 (mem_of_mem_firsts h)
  obtain ⟨rest, hrest⟩ := startsWith_iff.1 (startsWith_of_parseNode hp)
  rw [parseNode_uri hp, hrest]
  exact List.append_ne_nil_of_left_ne_nil (by decide) rest

/-- A list that an import made longer is stored as another string. -/
theorem save_importedNodes_eq_iff (nodes : List NodeItem) (text : Str) :
    NodeStore.save (importedNodes nodes text) = NodeStore.save nodes ↔ importedNodes nodes text = nodes := by
  refine ⟨?_, fun h => by rw [h]⟩
  intro hsave
  by_contra hne
  rw [importedNodes_eq] at hne hsave
  have hnew : uris (withoutUris (textItems text) (uris nodes)) ≠ [] := by
    intro hnil
    rw [uris, List.map_eq_nil_iff] at hnil
    exact hne (by rw [hnil, List.append_nil])
  have huri : ∀ u ∈ uris (withoutUris (textItems text) (uris nodes)), u ≠ [] := by
    intro u hu
    obtain ⟨n, hn, rfl⟩ := List.mem_map.1 hu
    exact uri_ne_nil_of_mem_textItems (mem_withoutUris.1 hn).1
  have hlt := length_joinToString_lt '\n' (uris nodes) hnew huri
  rw [← uris_append] at hlt
  exact absurd (congrArg List.length hsave) (Nat.ne_of_gt hlt)

/-- When the stored string is that of the list, an import leaves it so, and changes nothing else in the preferences. -/
theorem importNodes_prefs {s : ViewModel} (hs : s.prefs.nodes = NodeStore.save s.nodes) (text : Str) :
    (s.importNodes text).prefs = { s.prefs with nodes := NodeStore.save (importedNodes s.nodes text) } := by
  rcases s.importNodes_cases text with ⟨-, -, h⟩ | ⟨he, -, h⟩
  · rw [h]
    rfl
  · rw [h, he, ← hs]

/-- An import that finds nothing new changes the notice only. -/
theorem importNodes_of_old {s : ViewModel} {text : Str} (h : importedNodes s.nodes text = s.nodes) :
    ∃ toast, s.importNodes text = { s with toast := toast } := by
  by_cases ht : (trim text).isEmpty = true
  · exact ⟨_, by rw [ViewModel.importNodes, if_pos ht]⟩
  · have hc : ¬0 < (importLines s.nodes (trim text)).2 := by
      have hlen := (importLines_adds s.nodes (trim text)).2
      rw [importedNodes, if_neg ht] at h
      rw [h] at hlen
      omega
    exact ⟨_, by rw [ViewModel.importNodes, if_neg ht, if_neg hc]⟩

end ImportAux

open ImportAux

/-- **Import is an order-preserving, idempotent merge.** When the stored string is that of the list: an import puts the nodes
of the text that are new behind the list, in the order of the lines; the stored string changes exactly when the list does;
importing a text again changes nothing but the notice; and two texts can be imported one after the other or one under the
other. -/
theorem importNodes_merges (s : ViewModel) (hs : s.prefs.nodes = NodeStore.save s.nodes) :
    (∀ text, (s.importNodes text).nodes = s.nodes ++ withoutUris (textItems text) (uris s.nodes)) ∧
      (∀ text, (s.importNodes text).prefs.nodes ≠ s.prefs.nodes ↔ (s.importNodes text).nodes ≠ s.nodes) ∧
      (∀ text, ∃ toast, (s.importNodes text).importNodes text = { s.importNodes text with toast := toast }) ∧
      ∀ t1 t2, ((s.importNodes t1).importNodes t2).nodes = (s.importNodes (t1 ++ '\n' :: t2)).nodes ∧
        ((s.importNodes t1).importNodes t2).prefs = (s.importNodes (t1 ++ '\n' :: t2)).prefs := by
  refine ⟨?_, ?_, ?_, ?_⟩
  · intro text
    rw [s.importNodes_nodes, importedNodes_eq]
  · intro text
    rw [importNodes_prefs hs, hs, s.importNodes_nodes]
    exact (save_importedNodes_eq_iff s.nodes text).not
  · intro text
    apply importNodes_of_old
    rw [s.importNodes_nodes, importedNodes_self]
  · intro t1 t2
    have h1 : (s.importNodes t1).prefs.nodes = NodeStore.save (s.importNodes t1).nodes := by
      rw [importNodes_prefs hs, s.importNodes_nodes]
    constructor
    · rw [ViewModel.importNodes_nodes, ViewModel.importNodes_nodes, ViewModel.importNodes_nodes, importedNodes_append_lf]
    · rw [importNodes_prefs h1, importNodes_prefs hs, importNodes_prefs hs, s.importNodes_nodes, importedNodes_append_lf]

/-- A list with one node. -/
def singleNode : ViewModel := (ViewModel.start Prefs.empty []).importNodes "x365://u@h:443#a".toList

/-- A text with all three line ends, blanks, a line that is no URI, the node of the list, and a new node twice. -/
def mixedText : Str := " \r\n x365://u@h:443#a \r junk \n\tx365://v@h:443#b\t\r\nx365://v@h:443#b\n".toList

/-- The text adds one node to the list. -/
theorem importNodes_merges_mixed :
    singleNode.prefs.nodes = NodeStore.save singleNode.nodes ∧
      (singleNode.importNodes mixedText).nodes = singleNode.nodes ++ withoutUris (textItems mixedText) (uris singleNode.nodes) ∧
      uris (singleNode.importNodes mixedText).nodes = ["x365://u@h:443#a".toList, "x365://v@h:443#b".toList] := by
  have hs : singleNode.prefs.nodes = NodeStore.save singleNode.nodes := by decide
  exact ⟨hs, (importNodes_merges singleNode hs).1 mixedText, by decide⟩

end Open365Vpn
