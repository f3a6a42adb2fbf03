import Open365Vpn.Lib.Merging
import Open365Vpn.ViewModel

/-!
# How the operations build the node list

`Adds P l l'` says that `l'` is `l` with nodes appended one at a time, each satisfying `P` and with a URI that was not in the
list. The loop of an import and the merge of a sync are such sequences; a rename is a map, the other operations are filters.
-/

namespace Open365Vpn

open Kotlin

/-! ## URIs of a list -/

theorem hasUri_iff {nodes : List NodeItem} {uri : Str} : hasUri nodes uri = true ↔ uri ∈ uris nodes := by
  simp [hasUri, uris]

theorem hasUri_eq_false {nodes : List NodeItem} {uri : Str} : hasUri nodes uri = false ↔ uri ∉ uris nodes := by
  rw [← hasUri_iff, Bool.not_eq_true]

theorem mem_uris_of_mem {nodes : List NodeItem} {n : NodeItem} (h : n ∈ nodes) : n.uri ∈ uris nodes := List.mem_map_of_mem h

@[simp] theorem uris_append (l l' : List NodeItem) : uris (l ++ l') = uris l ++ uris l' := List.map_append

theorem withoutUris_sublist (nodes : List NodeItem) (set : List Str) : (withoutUris nodes set).Sublist nodes :=
  List.filter_sublist

theorem mem_withoutUris {nodes : List NodeItem} {set : List Str} {n : NodeItem} :
    n ∈ withoutUris nodes set ↔ n ∈ nodes ∧ n.uri ∉ set := by
  simp [withoutUris]

theorem mem_uris_withoutUris {nodes : List NodeItem} {set : List Str} {u : Str} :
    u ∈ uris (withoutUris nodes set) ↔ u ∈ uris nodes ∧ u ∉ set := by
  constructor
  · intro h
    obtain ⟨n, hn, rfl⟩ := List.mem_map.1 h
    obtain ⟨h1, h2⟩ := mem_withoutUris.1 hn
    exact ⟨mem_uris_of_mem h1, h2⟩
  · rintro ⟨h1, h2⟩
    obtain ⟨n, hn, rfl⟩ := List.mem_map.1 h1
    exact mem_uris_of_mem (mem_withoutUris.2 ⟨hn, h2⟩)

/-- The URI is the key of a node: taking URIs out. -/
theorem withoutUris_eq (nodes : List NodeItem) (set : List Str) :
    withoutUris nodes set = Merging.without (·.uri) nodes set := by
  apply List.filter_congr
  intro n _
  simp

/-- The URI is the key of a node: appending a node unless its URI is there. -/
theorem push_uri (nodes : List NodeItem) (n : NodeItem) :
    Merging.push (·.uri) nodes n = if hasUri nodes n.uri then nodes else nodes ++ [n] := by
  have hmem : n.uri ∈ nodes.map (·.uri) ↔ hasUri nodes n.uri = true := hasUri_iff.symm
  simp only [Merging.push, hmem]

theorem uris_sublist {l l' : List NodeItem} (h : l'.Sublist l) : (uris l').Sublist (uris l) := h.map _

/-! ## Appending new nodes -/

/-- `l'` is `l` with nodes appended one at a time, each satisfying `P` and with a URI the list did not have. -/
inductive Adds (P : NodeItem → Prop) : List NodeItem → List NodeItem → Prop where
  | refl (l : List NodeItem) : Adds P l l
  | add {l l' : List NodeItem} (n : NodeItem) : Adds P l l' → P n → n.uri ∉ uris l' → Adds P l (l' ++ [n])

namespace Adds

variable {P Q : NodeItem → Prop} {l l' l'' : List NodeItem}

theorem trans (h : Adds P l l') (h' : Adds P l' l'') : Adds P l l'' := by
  induction h' with
  | refl => exact h
  | add n _ hp hn ih => exact add n ih hp hn

theorem mono (hPQ : ∀ n, P n → Q n) (h : Adds P l l') : Adds Q l l' := by
  induction h with
  | refl => exact refl l
  | add n _ hp hn ih => exact add n ih (hPQ n hp) hn

/-- The list before is the beginning of the list after, and what follows it satisfies `P`. -/
theorem exists_append (h : Adds P l l') : ∃ new, l' = l ++ new ∧ ∀ n ∈ new, P n := by
  induction h with
  | refl => exact ⟨[], by simp, by simp⟩
  | add n _ hp _ ih =>
    obtain ⟨new, rfl, hnew⟩ := ih
    refine ⟨new ++ [n], by simp, fun x hx => ?_⟩
    rcases List.mem_append.1 hx with hx | hx
    · exact hnew x hx
    · rw [List.mem_singleton.1 hx]
      exact hp

theorem subset (h : Adds P l l') : l ⊆ l' := by
  obtain ⟨new, rfl, -⟩ := h.exists_append
  exact List.subset_append_left l new

theorem mem_or (h : Adds P l l') {n : NodeItem} (hn : n ∈ l') : n ∈ l ∨ P n := by
  obtain ⟨new, rfl, hnew⟩ := h.exists_append
  exact (List.mem_append.1 hn).imp_right (hnew n)

/-- Appending new nodes keeps the URIs distinct. -/
theorem nodup (h : Adds P l l') (hl : (uris l).Nodup) : (uris l').Nodup := by
  induction h with
  | refl => exact hl
  | add n _ _ hn ih =>
    rw [uris_append, List.nodup_append]
    refine ⟨ih, by simp [uris], ?_⟩
    intro a ha b hb hab
    have hb' : b = n.uri := by simpa [uris] using hb
    exact hn (hb' ▸ hab ▸ ha)

/-- What is appended was not in the list before. -/
theorem mem_or_new (h : Adds P l l') {n : NodeItem} (hn : n ∈ l') : n ∈ l ∨ (P n ∧ n.uri ∉ uris l) := by
  induction h with
  | refl => exact Or.inl hn
  | add m hadds hp hm ih =>
    rcases List.mem_append.1 hn with hn | hn
    · exact ih hn
    · rw [List.mem_singleton.1 hn]
      exact Or.inr ⟨hp, fun hu => hm ((List.map_subset _ hadds.subset) hu)⟩

/-- When every node that may be appended has its URI in the list afterwards, and is what its URI parses to, the list afterwards
has the nodes of before and those that were new. -/
theorem mem_iff (h : Adds P l l') (hall : ∀ n, P n → n.uri ∈ uris l') (hparse : ∀ n, P n → parseNode n.uri = some n)
    {n : NodeItem} : n ∈ l' ↔ n ∈ l ∨ (P n ∧ n.uri ∉ uris l) := by
  constructor
  · intro hn
    exact h.mem_or_new hn
  · rintro (hn | ⟨hp, hnew⟩)
    · exact h.subset hn
    · obtain ⟨m, hm, he⟩ := List.mem_map.1 (hall n hp)
      rcases h.mem_or_new hm with hml | ⟨hpm, -⟩
      · exact absurd (he ▸ mem_uris_of_mem hml) hnew
      · -- two nodes parsed from one URI are the same
        have hmn : some m = some n := by rw [← hparse m hpm, ← hparse n hp, he]
        exact Option.some.inj hmn ▸ hm

end Adds

/-! ## The loop of an import -/

/-- What an import appends: a node parsed from its own, storable, URI. -/
def Parsed (n : NodeItem) : Prop := parseNode n.uri = some n ∧ Storable n.uri

/-- One line of an import appends at most one node, and counts it. -/
theorem importLine_adds (acc : List NodeItem × Nat) {line : Str} (h : '\n' ∉ line) :
    Adds Parsed acc.1 (importLine acc line).1 ∧
      (importLine acc line).1.length + acc.2 = acc.1.length + (importLine acc line).2 := by
  rw [importLine]
  split
  · exact ⟨Adds.refl _, rfl⟩
  · split
    · exact ⟨Adds.refl _, rfl⟩
    · rename_i n hp
      split
      · exact ⟨Adds.refl _, rfl⟩
      · rename_i hu
        have hs : Storable (trim line) :=
          ⟨startsWith_of_parseNode hp, trim_trim line, fun hm => h (mem_of_mem_trim hm)⟩
        refine ⟨Adds.add n (Adds.refl _) (Storables.of_parseNode hs hp) ?_, ?_⟩
        · exact hasUri_eq_false.1 (Bool.eq_false_iff.2 hu)
        · simp only [List.length_append, List.length_singleton]
          omega

theorem foldl_importLine_adds (ls : List Str) (h : ∀ l ∈ ls, '\n' ∉ l) (acc : List NodeItem × Nat) :
    Adds Parsed acc.1 (ls.foldl importLine acc).1 ∧
      (ls.foldl importLine acc).1.length + acc.2 = acc.1.length + (ls.foldl importLine acc).2 := by
  induction ls generalizing acc with
  | nil => exact ⟨Adds.refl _, rfl⟩
  | cons l ls ih =>
    obtain ⟨h1, h2⟩ := importLine_adds acc (h l List.mem_cons_self)
    obtain ⟨h3, h4⟩ := ih (fun l' hl' => h l' (List.mem_cons_of_mem l hl')) (importLine acc l)
    rw [List.foldl_cons]
    exact ⟨h1.trans h3, by omega⟩

/-- The node of a line of an import. -/
def IsLine (ls : List Str) (n : NodeItem) : Prop := ∃ line ∈ ls, parseNode (trim line) = some n

/-- A line without a node is passed over. -/
theorem importLine_of_none {line : Str} (h : parseNode (trim line) = none) (acc : List NodeItem × Nat) :
    importLine acc line = acc := by
  simp only [importLine, h, ite_self]

/-- The node of a line is appended and counted unless its URI is there. -/
theorem importLine_of_some {line : Str} {n : NodeItem} (h : parseNode (trim line) = some n) (acc : List NodeItem × Nat) :
    importLine acc line = if hasUri acc.1 n.uri then acc else (acc.1 ++ [n], acc.2 + 1) := by
  simp only [importLine, h, startsWith_of_parseNode h, Bool.not_true, Bool.false_eq_true, if_false]

/-- One line of an import: its node is in the list afterwards, and nothing else is new. -/
theorem importLine_spec (acc : List NodeItem × Nat) (line : Str) :
    Adds (fun n => parseNode (trim line) = some n) acc.1 (importLine acc line).1 ∧
      ∀ n, parseNode (trim line) = some n → n.uri ∈ uris (importLine acc line).1 := by
  cases hp : parseNode (trim line) with
  | none =>
    rw [importLine_of_none hp]
    exact ⟨Adds.refl _, by simp⟩
  | some m =>
    rw [importLine_of_some hp]
    by_cases hu : hasUri acc.1 m.uri = true
    · rw [if_pos hu]
      refine ⟨Adds.refl _, fun n hn => ?_⟩
      obtain rfl := Option.some.inj hn
      exact hasUri_iff.1 hu
    · rw [if_neg hu]
      refine ⟨Adds.add m (Adds.refl _) rfl (hasUri_eq_false.1 (Bool.eq_false_iff.2 hu)), fun n hn => ?_⟩
      obtain rfl := Option.some.inj hn
      simp [uris]

theorem foldl_importLine_spec (ls : List Str) (acc : List NodeItem × Nat) :
    Adds (IsLine ls) acc.1 (ls.foldl importLine acc).1 ∧ ∀ n, IsLine ls n → n.uri ∈ uris (ls.foldl importLine acc).1 := by
  induction ls generalizing acc with
  | nil => exact ⟨Adds.refl _, by simp [IsLine]⟩
  | cons line ls ih =>
    obtain ⟨h1, h2⟩ := importLine_spec acc line
    obtain ⟨i1, i2⟩ := ih (importLine acc line)
    have hcons : ∀ n, IsLine (line :: ls) n ↔ parseNode (trim line) = some n ∨ IsLine ls n := by
      intro n
      simp [IsLine]
    rw [List.foldl_cons]
    refine ⟨(h1.mono fun n hn => (hcons n).2 (Or.inl hn)).trans (i1.mono fun n hn => (hcons n).2 (Or.inr hn)), fun n hn => ?_⟩
    rcases (hcons n).1 hn with hn | hn
    · exact (List.map_subset _ i1.subset) (h2 n hn)
    · exact i2 n hn

/-- An import appends parsed nodes with new URIs, and counts them. -/
theorem importLines_adds (nodes : List NodeItem) (text : Str) :
    Adds Parsed nodes (importLines nodes text).1 ∧
      (importLines nodes text).1.length = nodes.length + (importLines nodes text).2 := by
  obtain ⟨h1, h2⟩ := foldl_importLine_adds (lines text) (fun l hl => (not_mem_of_mem_lines hl).1) (nodes, 0)
  exact ⟨h1, h2⟩

/-- The list after an import. -/
def importedNodes (nodes : List NodeItem) (text : Str) : List NodeItem :=
  if (trim text).isEmpty then nodes else (importLines nodes (trim text)).1

theorem importedNodes_adds (nodes : List NodeItem) (text : Str) : Adds Parsed nodes (importedNodes nodes text) := by
  unfold importedNodes
  split
  · exact Adds.refl nodes
  · exact (importLines_adds nodes (trim text)).1

/-- The nodes after an import: those of before, and those of its lines whose URI was not there. -/
theorem mem_importedNodes {nodes : List NodeItem} {text : Str} {n : NodeItem} :
    n ∈ importedNodes nodes text ↔ n ∈ nodes ∨ (IsLine (lines (trim text)) n ∧ n.uri ∉ uris nodes) := by
  have hparse : ∀ m, IsLine (lines (trim text)) m → parseNode m.uri = some m := by
    rintro m ⟨line, -, hp⟩
    exact parseNode_self hp
  unfold importedNodes
  split
  · rename_i ht
    -- an empty text has one empty line, which is no URI
    have hno : ¬IsLine (lines (trim text)) n := by
      rw [List.isEmpty_iff.1 ht]
      rintro ⟨line, hl, hp⟩
      obtain rfl := List.mem_singleton.1 hl
      cases hp
    simp [hno]
  · obtain ⟨h1, h2⟩ := foldl_importLine_spec (lines (trim text)) (nodes, 0)
    exact h1.mem_iff h2 hparse

/-- An import that counts no node leaves the list as it was. -/
theorem importLines_eq_self {nodes : List NodeItem} {text : Str} (h : ¬0 < (importLines nodes text).2) :
    (importLines nodes text).1 = nodes := by
  obtain ⟨h1, h2⟩ := importLines_adds nodes text
  obtain ⟨new, hnew, -⟩ := h1.exists_append
  have hlen : new.length = 0 := by
    rw [hnew, List.length_append] at h2
    omega
  rw [hnew, List.eq_nil_of_length_eq_zero hlen, List.append_nil]

/-! ## The merge of a sync -/

/-- The label of a section is trimmed and not empty when the name of the section is trimmed. -/
theorem regionLabel_spec {region : Str} (ht : trim region = region) (hf : '\n' ∉ region) :
    regionLabel region ≠ [] ∧ trim (regionLabel region) = regionLabel region ∧ '\n' ∉ regionLabel region := by
  cases region with
  | nil => exact ⟨by decide, by decide, by decide⟩
  | cons c cs =>
    rw [regionLabel]
    split
    · exact ⟨by decide, by decide, by decide⟩
    · exact ⟨by simp, ht, hf⟩

/-- The node of a pair that `extractNodes` returned may be stored. -/
theorem parsed_of_pairItem {pair : Str × Str} (h : X365Api.Extracted pair) {n : NodeItem} (hn : pairItem pair = some n) :
    Parsed n := by
  obtain ⟨h1, h2, h3⟩ := regionLabel_spec h.trimmed h.regionNoFeed
  exact Storables.of_parseNode (storable_relabel h.scheme h.linkNoFeed h1 h2 h3) hn

theorem mem_addUri {set : List Str} {u v : Str} : v ∈ addUri set u ↔ v ∈ set ∨ v = u := by
  unfold addUri
  split
  · rename_i h
    exact ⟨Or.inl, fun hv => hv.elim id fun e => e ▸ h⟩
  · simp

/-- One pair of the response: its node is in the list afterwards, its URI is in the set, and nothing else is new. -/
theorem mergePair_spec (acc : List NodeItem × List Str) (pair : Str × Str) :
    Adds (fun n => pairItem pair = some n) acc.1 (mergePair acc pair).1 ∧
      (∀ u, u ∈ (mergePair acc pair).2 ↔ u ∈ acc.2 ∨ ∃ n, pairItem pair = some n ∧ n.uri = u) ∧
      ∀ n, pairItem pair = some n → n.uri ∈ uris (mergePair acc pair).1 := by
  rw [mergePair]
  cases hp : pairItem pair with
  | none => exact ⟨Adds.refl _, by simp, by simp⟩
  | some n =>
    refine ⟨?_, fun u => ?_, fun m hm => ?_⟩
    · dsimp only
      split
      · exact Adds.refl _
      · rename_i hu
        exact Adds.add n (Adds.refl _) rfl (hasUri_eq_false.1 (Bool.eq_false_iff.2 hu))
    · rw [mem_addUri]
      simp [eq_comm]
    · obtain rfl := Option.some.inj hm
      dsimp only
      split
      · rename_i hu
        exact hasUri_iff.1 hu
      · rw [uris_append]
        exact List.mem_append_right _ (List.mem_singleton_self _)

/-- The nodes of a list of pairs. -/
def IsItem (found : List (Str × Str)) (n : NodeItem) : Prop := ∃ pair ∈ found, pairItem pair = some n

instance (found : List (Str × Str)) (n : NodeItem) : Decidable (IsItem found n) :=
  inferInstanceAs (Decidable (∃ pair ∈ found, pairItem pair = some n))

theorem foldl_mergePair_spec (found : List (Str × Str)) (acc : List NodeItem × List Str) :
    Adds (IsItem found) acc.1 (found.foldl mergePair acc).1 ∧
      (∀ u, u ∈ (found.foldl mergePair acc).2 ↔ u ∈ acc.2 ∨ ∃ n, IsItem found n ∧ n.uri = u) ∧
      ∀ n, IsItem found n → n.uri ∈ uris (found.foldl mergePair acc).1 := by
  induction found generalizing acc with
  | nil => exact ⟨Adds.refl _, by simp [IsItem], by simp [IsItem]⟩
  | cons pair found ih =>
    obtain ⟨h1, h2, h3⟩ := mergePair_spec acc pair
    obtain ⟨i1, i2, i3⟩ := ih (mergePair acc pair)
    have hcons : ∀ n, IsItem (pair :: found) n ↔ pairItem pair = some n ∨ IsItem found n := by
      intro n
      simp [IsItem]
    rw [List.foldl_cons]
    refine ⟨(h1.mono fun n hn => (hcons n).2 (Or.inl hn)).trans (i1.mono fun n hn => (hcons n).2 (Or.inr hn)),
      fun u => ?_, fun n hn => ?_⟩
    · rw [i2, h2, or_assoc, ← exists_or]
      simp only [hcons, or_and_right]
    · rcases (hcons n).1 hn with hn | hn
      · obtain ⟨m, hm, he⟩ := List.mem_map.1 (h3 n hn)
        exact he ▸ mem_uris_of_mem (i1.subset hm)
      · exact i3 n hn

/-- What a merge appends to the nodes it keeps: the nodes of the response whose URI is not there yet. -/
theorem merge_adds (nodes : List NodeItem) (api : List Str) (found : List (Str × Str)) :
    Adds (IsItem found) (withoutUris nodes api) (merge nodes api found).1 :=
  (foldl_mergePair_spec found (withoutUris nodes api, [])).1

/-- The nodes after a merge: those it keeps, and those of the response whose URI is not among them. -/
theorem mem_merge {nodes : List NodeItem} {api : List Str} {found : List (Str × Str)} {n : NodeItem} :
    n ∈ (merge nodes api found).1 ↔
      n ∈ withoutUris nodes api ∨ (IsItem found n ∧ n.uri ∉ uris (withoutUris nodes api)) := by
  refine (merge_adds nodes api found).mem_iff (foldl_mergePair_spec found (withoutUris nodes api, [])).2.2 ?_
  rintro m ⟨pair, -, hp⟩
  exact parseNode_self hp

/-- The set that a merge records: the URIs of the nodes of the response. -/
theorem mem_merge_snd {nodes : List NodeItem} {api : List Str} {found : List (Str × Str)} {u : Str} :
    u ∈ (merge nodes api found).2 ↔ ∃ n, IsItem found n ∧ n.uri = u := by
  have h := (foldl_mergePair_spec found (withoutUris nodes api, [])).2.1 u
  simpa [merge] using h

/-- A merge recorded a URI exactly when it left it in the list as one of the response. -/
theorem mem_uris_of_mem_merge_snd {nodes : List NodeItem} {api : List Str} {found : List (Str × Str)} {u : Str}
    (h : u ∈ (merge nodes api found).2) : u ∈ uris (merge nodes api found).1 := by
  obtain ⟨n, hn, rfl⟩ := mem_merge_snd.1 h
  exact (foldl_mergePair_spec found (withoutUris nodes api, [])).2.2 n hn

/-- The URIs after a merge: those kept and those of the response. -/
theorem mem_uris_merge {nodes : List NodeItem} {api : List Str} {found : List (Str × Str)} {u : Str} :
    u ∈ uris (merge nodes api found).1 ↔ u ∈ uris (withoutUris nodes api) ∨ u ∈ (merge nodes api found).2 := by
  constructor
  · intro h
    obtain ⟨n, hn, rfl⟩ := List.mem_map.1 h
    rcases (merge_adds nodes api found).mem_or hn with hk | hi
    · exact Or.inl (mem_uris_of_mem hk)
    · exact Or.inr (mem_merge_snd.2 ⟨n, hi, rfl⟩)
  · rintro (h | h)
    · obtain ⟨n, hn, rfl⟩ := List.mem_map.1 h
      exact mem_uris_of_mem ((merge_adds nodes api found).subset hn)
    · exact mem_uris_of_mem_merge_snd h

end Open365Vpn
