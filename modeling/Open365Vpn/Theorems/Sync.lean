import Mathlib.Logic.Relation
import Open365Vpn.Lemmas.Operations
import Open365Vpn.Lib.Merging

/-!
# What a sync computes

The loop of `fetchNodes` pushes the nodes of the response on the nodes it keeps (`merge_eq`), so the rules of `Merging` say
what the list is after one sync, after a second one with the same response, and that it stays as it is from then on.
-/

namespace Open365Vpn

open Kotlin Merging

/-- The nodes of a response, in order, with repeated URIs dropped after the first. -/
def responseItems (found : List (Str × Str)) : List NodeItem := firsts (·.uri) (found.filterMap pairItem)

/-- A sync that succeeds with these pairs leads from one state to the other. -/
def Synced (found : List (Str × Str)) (s t : ViewModel) : Prop := ∃ r, s.fetchNodes r = (.ok found, t)

namespace SyncAux

/-! ## The merge -/

/-- One node of the response is pushed on the list, and its URI on the set. -/
theorem mergePair_some {pair : Str × Str} {item : NodeItem} (h : pairItem pair = some item) (acc : List NodeItem × List Str) :
    mergePair acc pair = (push (·.uri) acc.1 item, push id acc.2 item.uri) := by
  have hset : addUri acc.2 item.uri = push id acc.2 item.uri := by simp only [addUri, push, List.map_id, id]
  simp only [mergePair, h, push_uri, hset]

theorem foldl_mergePair_eq (found : List (Str × Str)) (acc : List NodeItem × List Str) :
    found.foldl mergePair acc =
      ((found.filterMap pairItem).foldl (push (·.uri)) acc.1, (uris (found.filterMap pairItem)).foldl (push id) acc.2) := by
  induction found generalizing acc with
  | nil => rfl
  | cons pair found ih =>
    cases hp : pairItem pair with
    | none =>
      have hacc : mergePair acc pair = acc := by simp only [mergePair, hp]
      rw [List.foldl_cons, hacc, ih, List.filterMap_cons_none hp]
    | some item =>
      rw [List.foldl_cons, mergePair_some hp, ih, List.filterMap_cons_some hp]
      rfl

/-- The merge keeps the nodes that are not in the old set and appends the nodes of the response that are new to them. -/
theorem merge_eq (nodes : List NodeItem) (api : List Str) (found : List (Str × Str)) :
    merge nodes api found =
      (withoutUris nodes api ++ withoutUris (responseItems found) (uris (withoutUris nodes api)), uris (responseItems found)) := by
  have hset : (uris (found.filterMap pairItem)).foldl (push id) [] = uris (responseItems found) := by
    rw [foldl_push, List.map_nil, List.nil_append, without_eq_self fun _ _ => List.not_mem_nil]
    exact (keys_firsts _).symm
  rw [merge, foldl_mergePair_eq, hset, foldl_push, withoutUris_eq (responseItems found)]
  rfl

/-- A node of the response is what its own URI parses to. -/
theorem parseNode_of_mem_responseItems {found : List (Str × Str)} {n : NodeItem} (h : n ∈ responseItems found) :
    parseNode n.uri = some n := by
  obtain ⟨pair, -, hp⟩ := List.mem_filterMap.1 (mem_of_mem_firsts h)
  exact parseNode_self hp

end SyncAux

open SyncAux

/-! ## One, two and more syncs -/

/-- A sync that succeeds merges pairs that `extractNodes` found in some text. -/
theorem Synced.spec {found : List (Str × Str)} {s t : ViewModel} (h : Synced found s t) :
    t.nodes = (merge s.nodes s.prefs.apiNodes found).1 ∧ t.prefs.nodes = NodeStore.save t.nodes ∧
      t.prefs.apiNodes = uris (responseItems found) := by
  obtain ⟨r, hr⟩ := h
  obtain ⟨token, ⟨message, hf⟩ | ⟨yaml, hf⟩⟩ := s.fetchNodes_cases r
  · rw [hf] at hr
    cases hr
  · rw [hf] at hr
    obtain ⟨rfl, rfl⟩ : X365Api.extractNodes yaml = found ∧ (s.withToken token).syncNodes (X365Api.extractNodes yaml) = t := by
      simpa using hr
    refine ⟨rfl, rfl, ?_⟩
    rw [ViewModel.syncNodes_apiNodes, merge_eq]

/-- The list after a sync over a list that has the response's own set of URIs recorded. -/
theorem Synced.nodes_of_recorded {found : List (Str × Str)} {s t : ViewModel} (h : Synced found s t)
    (hs : s.prefs.apiNodes = uris (responseItems found)) :
    t.nodes = withoutUris s.nodes (uris (responseItems found)) ++ responseItems found := by
  rw [h.spec.1, merge_eq, hs]
  -- what is kept has no URI of the response
  have hnew : ∀ n ∈ responseItems found, n.uri ∉ uris (withoutUris s.nodes (uris (responseItems found))) := by
    intro n hn hm
    exact (mem_uris_withoutUris.1 hm).2 (mem_uris_of_mem hn)
  rw [withoutUris_eq (responseItems found), without_eq_self hnew]

/-- The nodes of the response drop out of a list that was merged with it. -/
theorem withoutUris_merged (kept : List NodeItem) (found : List (Str × Str)) (set : List Str) :
    withoutUris (kept ++ withoutUris (responseItems found) set) (uris (responseItems found)) =
      withoutUris kept (uris (responseItems found)) := by
  have hnil : withoutUris (withoutUris (responseItems found) set) (uris (responseItems found)) = [] := by
    rw [withoutUris_eq]
    exact without_eq_nil fun n hn => mem_uris_of_mem (mem_withoutUris.1 hn).1
  rw [withoutUris_eq, without_append, ← withoutUris_eq, ← withoutUris_eq, hnil, List.append_nil]

/-- A list that ends in the nodes of the response is left as it is by a further sync. -/
theorem Synced.fixed {found : List (Str × Str)} {s t : ViewModel} {kept : List NodeItem} (h : Synced found s t)
    (hs : s.nodes = withoutUris kept (uris (responseItems found)) ++ responseItems found)
    (ha : s.prefs.apiNodes = uris (responseItems found)) : t.nodes = s.nodes := by
  have hall : responseItems found = withoutUris (responseItems found) [] := by
    rw [withoutUris_eq, without_eq_self fun _ _ => List.not_mem_nil]
  rw [h.nodes_of_recorded ha, hs]
  congr 1
  have hdrop := withoutUris_merged (withoutUris kept (uris (responseItems found))) found []
  rw [← hall] at hdrop
  rw [hdrop, withoutUris_eq]
  exact without_eq_self fun n hn => (mem_withoutUris.1 hn).2

/-- What a sync computes, from any list of distinct URIs whose nodes parse from their own URIs: the nodes that the API had not
sent before, in order, followed by the nodes of the response that are not among them; the recorded set is that of the response
and the URIs stay distinct. A second sync with the same response changes at most the order, and the syncs after it change
nothing. -/
theorem sync_computes {s s1 : ViewModel} {found : List (Str × Str)} (hnd : (uris s.nodes).Nodup)
    (hparse : ∀ n ∈ s.nodes, parseNode n.uri = some n) (h1 : Synced found s s1) :
    s1.nodes = withoutUris s.nodes s.prefs.apiNodes ++
        withoutUris (responseItems found) (uris (withoutUris s.nodes s.prefs.apiNodes)) ∧
      s1.prefs.apiNodes = uris (responseItems found) ∧
      (uris s1.nodes).Nodup ∧
      ∀ s2, Synced found s1 s2 →
        s2.nodes.Perm s1.nodes ∧
        s2.nodes = withoutUris (withoutUris s.nodes s.prefs.apiNodes) (uris (responseItems found)) ++ responseItems found ∧
        s2.prefs.apiNodes = uris (responseItems found) ∧
        ∀ s3, Relation.ReflTransGen (Synced found) s2 s3 →
          s3.nodes = s2.nodes ∧ s3.prefs.nodes = s2.prefs.nodes ∧ s3.prefs.apiNodes = s2.prefs.apiNodes := by
  have hn1 : s1.nodes = withoutUris s.nodes s.prefs.apiNodes ++
      withoutUris (responseItems found) (uris (withoutUris s.nodes s.prefs.apiNodes)) := by
    rw [h1.spec.1, merge_eq]
  have hkept : (uris (withoutUris s.nodes s.prefs.apiNodes)).Nodup := hnd.sublist (uris_sublist (withoutUris_sublist _ _))
  refine ⟨hn1, h1.spec.2.2, ?_, fun s2 h2 => ?_⟩
  · rw [h1.spec.1]
    exact (merge_adds _ _ _).nodup hkept
  have hn2 : s2.nodes = withoutUris (withoutUris s.nodes s.prefs.apiNodes) (uris (responseItems found)) ++
      responseItems found := by
    rw [h2.nodes_of_recorded h1.spec.2.2, hn1, withoutUris_merged]
  refine ⟨?_, hn2, h2.spec.2.2, fun s3 h3 => ?_⟩
  · rw [hn2, hn1, withoutUris_eq _ (uris (responseItems found)), withoutUris_eq (responseItems found)]
    have hD : (uris (responseItems found)).Nodup := nodup_keys_firsts _
    refine append_without_perm hkept hD fun x hx y hy he => ?_
    -- two nodes with one URI are both what it parses to
    have hxp := hparse x (mem_withoutUris.1 hx).1
    rw [he, parseNode_of_mem_responseItems hy] at hxp
    exact (Option.some.inj hxp).symm
  · induction h3 with
    | refl => exact ⟨rfl, rfl, rfl⟩
    | tail _ hlast ih =>
      obtain ⟨i1, i2, i3⟩ := ih
      have hfix := hlast.fixed (i1.trans hn2) (i3.trans h2.spec.2.2)
      refine ⟨hfix.trans i1, ?_, hlast.spec.2.2.trans h2.spec.2.2.symm⟩
      rw [hlast.spec.2.1, hfix, i1, h2.spec.2.1]

/-- Every response with a node can be synced, whatever the state. -/
theorem exists_synced (s : ViewModel) {yaml : Str} (h : X365Api.extractNodes yaml ≠ []) :
    ∃ t, Synced (X365Api.extractNodes yaml) s t := by
  have hne : (X365Api.extractNodes yaml).isEmpty = false := by simpa using h
  let r : Replies := ⟨.ok yaml, .ok [], .ok yaml⟩
  refine ⟨(s.fetchNodes r).2, r, ?_⟩
  -- with or without a stored token the text is that of the response
  cases ht : SettingsStore.isNullOrEmpty s.prefs.token with
  | true => simp [r, ViewModel.fetchNodes, ViewModel.fetchYaml, ht, hne]
  | false => simp [r, ViewModel.fetchNodes, ViewModel.fetchYaml, ht, hne]

/-- A list with a node of the user's own, a node the API sends again and one it sends no more. -/
def threeNodes : ViewModel :=
  let nodes := ["x365://u@h:443#a", "x365://u@h:443#香港", "x365://v@h:443#日本"].filterMap fun u => parseNode u.toList
  { ViewModel.start Prefs.empty [] with
    nodes := nodes
    prefs := { Prefs.empty with token := some "t".toList, apiNodes := uris (nodes.drop 1) } }

/-- A response with two nodes, one of them twice. -/
def twoNodes : Replies :=
  ⟨.ok "proxies:\n    香港:\n      - x365://w@h:443\n      - x365://u@h:443\n      - x365://w@h:443".toList, .ok [], .ok []⟩

/-- The node sent again moves behind the new one, and the one sent no more is gone. -/
theorem sync_computes_three :
    uris (threeNodes.fetchNodes twoNodes).2.nodes = ["x365://u@h:443#a".toList, "x365://w@h:443#香港".toList,
        "x365://u@h:443#香港".toList] ∧
      (uris (threeNodes.fetchNodes twoNodes).2.nodes).Nodup ∧
      ∀ s2, Synced [("香港".toList, "x365://w@h:443".toList), ("香港".toList, "x365://u@h:443".toList),
          ("香港".toList, "x365://w@h:443".toList)] (threeNodes.fetchNodes twoNodes).2 s2 →
        s2.nodes.Perm (threeNodes.fetchNodes twoNodes).2.nodes := by
  have hsync : Synced [("香港".toList, "x365://w@h:443".toList), ("香港".toList, "x365://u@h:443".toList),
      ("香港".toList, "x365://w@h:443".toList)] threeNodes (threeNodes.fetchNodes twoNodes).2 := ⟨twoNodes, rfl⟩
  have h := sync_computes (by decide) (by decide) hsync
  exact ⟨by decide, h.2.2.1, fun s2 h2 => (h.2.2.2 s2 h2).1⟩

end Open365Vpn
