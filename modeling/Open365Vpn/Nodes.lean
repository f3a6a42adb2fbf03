import Open365Vpn.Lib.KotlinText

/-!
# The node model and its store

`ui/model/Nodes.kt` and `ui/data/NodeStore.kt`. A node is read from its `x365://` URI and nothing else; its name is the
fragment of the URI, so renaming a node rewrites its URI (`relabel`). The store keeps one URI a line in one string, without
escaping, and reads it back by splitting at line feeds, trimming and parsing each line (`NodeStore.load`).
-/

namespace Open365Vpn

open Kotlin

/-- `NodeItem`. -/
structure NodeItem where
  uri : Str
  label : Str
  server : Str
  path : Str
  countryCode : Option Str
  port : Str
  uuid : Str
  sni : Str
  pbk : Str
  sid : Str
  deriving DecidableEq, Repr, Inhabited

namespace CountryFlags

/-- `LABEL_TO_ISO`. -/
def labelToIso : List (Str × Str) :=
  [("独立IP", "US"), ("香港", "HK"), ("日本", "JP"), ("新加坡", "SG"), ("台湾", "TW"), ("美国", "US"), ("韩国", "KR"),
    ("英国", "GB"), ("德国", "DE"), ("加拿大", "CA"), ("澳大利亚", "AU"), ("泰国", "TH"), ("马来西亚", "MY"),
    ("印度尼西亚", "ID"), ("柬埔寨", "KH"), ("阿联酋", "AE"), ("俄罗斯", "RU"), ("土耳其", "TR"), ("西班牙", "ES"),
    ("意大利", "IT"), ("荷兰", "NL"), ("芬兰", "FI"), ("波兰", "PL"), ("瑞士", "CH"), ("奥地利", "AT"), ("巴西", "BR"),
    ("保加利亚", "BG"), ("立陶宛", "LT"), ("罗马尼亚", "RO"), ("葡萄牙", "PT")].map
    fun p : String × String => (p.1.toList, p.2.toList)

/-- The flag when no country is known. -/
def globe : Str := "🌐".toList

/-- `flagEmoji`: the regional indicators of the letters; the loop returns the globe at the first character that is none. -/
def flagEmoji (iso : Option Str) : Str :=
  match iso with
  | none => globe
  | some iso =>
    if iso.length ≠ 2 then globe
    else if (uppercase iso).all fun c => 'A' ≤ c && c ≤ 'Z' then
      (uppercase iso).map fun c => Char.ofNat (0x1F1E6 - 'A'.toNat + c.toNat)
    else globe

/-- `isoFrom`: a path of two letters is the code itself, else the label is looked up. -/
def isoFrom (path label : Str) : Option Str :=
  let code := uppercase (trimStartOf '/' path)
  if code.length == 2 && code.all (fun c => 'A' ≤ c && c ≤ 'Z') then some code
  else labelToIso.lookup (trim label)

end CountryFlags

/-- The scheme every node URI starts with. -/
def scheme : Str := "x365://".toList

/-- The local function `param` of `parseNode`: the text after the first `name=` of the whole URI, up to `&` or `#`. -/
def param (uri name : Str) : Str :=
  let key := name ++ ['=']
  if !contains key uri then []
  else substringBefore ['#'] (substringBefore ['&'] (substringAfter key uri))

/-- `parseNode`. -/
def parseNode (uri : Str) : Option NodeItem :=
  if !startsWith scheme uri then none
  else
    let label :=
      if contains ['#'] uri then trim (substringAfter ['#'] uri) else trimStartOf '/' (param uri "path".toList)
    let hostPort := substringBefore ['#'] (substringBefore ['?'] (substringAfter ['@'] uri))
    let server := substringBefore [':'] hostPort
    let port := if contains [':'] hostPort then substringAfter [':'] hostPort else []
    let path := if (param uri "path".toList).isEmpty then "/".toList else "/".toList ++ param uri "path".toList
    some
      { uri := uri
        label := label
        server := server
        path := path
        countryCode := CountryFlags.isoFrom path label
        port := port
        uuid := substringBefore ['@'] (substringAfter scheme uri)
        sni := if (param uri "sni".toList).isEmpty then param uri "host".toList else param uri "sni".toList
        pbk := param uri "pbk".toList
        sid := param uri "sid".toList }

/-- `relabel`: the URI with another fragment. -/
def relabel (uri newLabel : Str) : Str :=
  (if contains ['#'] uri then substringBefore ['#'] uri else uri) ++ '#' :: newLabel

namespace NodeStore

/-- `DEFAULT_NODES`: the open source build ships none. -/
def defaultNodes : List Str := []

/-- `NodeStore.save`: the string written under the key `nodes`. -/
def save (nodes : List NodeItem) : Str := joinToString '\n' (nodes.map (·.uri))

/-- The loop of `NodeStore.load` over the lines of the stored string. -/
def parseLines (saved : Str) : List NodeItem :=
  if saved.isEmpty then [] else (split '\n' saved).filterMap fun line => parseNode (trim line)

/-- `NodeStore.load`: the nodes read from the stored string, and the stored string afterwards (a store without a node is
rewritten with the defaults). -/
def load (saved : Str) : List NodeItem × Str :=
  let nodes := parseLines saved
  if nodes.isEmpty then
    let defaults := defaultNodes.filterMap parseNode
    (defaults, save defaults)
  else (nodes, saved)

end NodeStore

/-! ## Parsing -/

/-- A URI is parsed exactly when it starts with the scheme. -/
theorem parseNode_isSome (uri : Str) : (parseNode uri).isSome = startsWith scheme uri := by
  rw [parseNode]
  cases startsWith scheme uri <;> rfl

/-- A parsed node keeps the URI it was parsed from. -/
theorem parseNode_uri {uri : Str} {n : NodeItem} (h : parseNode uri = some n) : n.uri = uri := by
  rw [parseNode] at h
  split at h
  · cases h
  · exact Option.some.inj h ▸ rfl

/-- A parsed node is what its own URI parses to. -/
theorem parseNode_self {uri : Str} {n : NodeItem} (h : parseNode uri = some n) : parseNode n.uri = some n := by
  rw [parseNode_uri h]
  exact h

/-- A parsed URI starts with the scheme. -/
theorem startsWith_of_parseNode {uri : Str} {n : NodeItem} (h : parseNode uri = some n) : startsWith scheme uri = true := by
  rw [← parseNode_isSome, h]
  rfl

theorem exists_parseNode {uri : Str} (h : startsWith scheme uri = true) : ∃ n, parseNode uri = some n :=
  Option.isSome_iff_exists.1 ((parseNode_isSome uri).trans h)

/-! ## Relabelling -/

/-- `relabel` cuts the URI at its first `#`, whether it has one or not. -/
theorem relabel_eq (uri label : Str) : relabel uri label = substringBefore ['#'] uri ++ '#' :: label := by
  rw [relabel]
  split
  · rfl
  · rename_i h
    have hn : cut ['#'] uri = none := by
      rw [contains] at h
      exact Option.not_isSome_iff_eq_none.1 h
    rw [substringBefore, hn]
    rfl

/-- Relabelling keeps the scheme. -/
theorem startsWith_relabel {uri : Str} (h : startsWith scheme uri = true) (label : Str) :
    startsWith scheme (relabel uri label) = true := by
  obtain ⟨t, rfl⟩ := startsWith_iff.1 h
  rw [relabel_eq, substringBefore_append (by decide), List.append_assoc]
  exact startsWith_iff.2 ⟨_, rfl⟩

/-- The characters of a relabelled URI are those of the URI, the `#` and those of the label. -/
theorem mem_relabel {uri label : Str} {c : Char} (h : c ∈ relabel uri label) : c ∈ uri ∨ c = '#' ∨ c ∈ label := by
  rw [relabel_eq, List.mem_append, List.mem_cons] at h
  exact h.imp_left fun h => (prefix_substringBefore _ _).subset h

theorem mem_relabel_of_mem_label {uri label : Str} {c : Char} (h : c ∈ label) : c ∈ relabel uri label := by
  rw [relabel_eq]
  exact List.mem_append_right _ (List.mem_cons_of_mem _ h)

/-! ## URIs that survive the store -/

/-- A string that one line of the store can hold and give back: it starts with the scheme, ends in a visible character and
has no line feed. -/
structure Storable (uri : Str) : Prop where
  scheme : startsWith scheme uri = true
  trimmed : trim uri = uri
  noFeed : '\n' ∉ uri

/-- A relabelled URI is storable when neither the URI nor the label holds a line feed and the label is trimmed and not empty:
the label is what the URI ends in. -/
theorem storable_relabel {uri label : Str} (hs : startsWith scheme uri = true) (hu : '\n' ∉ uri) (hne : label ≠ [])
    (ht : trim label = label) (hf : '\n' ∉ label) : Storable (relabel uri label) where
  scheme := startsWith_relabel hs label
  trimmed := by
    obtain ⟨t, ht'⟩ := startsWith_iff.1 (startsWith_relabel hs label)
    apply trim_eq_self
    · rw [ht']
      intro c hc
      have hx : some 'x' = some c := hc
      exact Option.some.inj hx ▸ rfl
    · intro c hc
      rw [relabel_eq, List.getLast?_append_of_ne_nil _ (by simp), List.getLast?_cons_of_ne_nil hne] at hc
      obtain ⟨hne', rfl⟩ := List.mem_getLast?_eq_getLast hc
      have := getLast_trim label (by rw [ht]; exact hne)
      simpa [ht] using this
  noFeed hm := by
    rcases mem_relabel hm with hm | hm | hm
    · exact hu hm
    · exact absurd hm (by decide)
    · exact hf hm

/-- A list of nodes that the store gives back: each is what its own URI parses to, and its URI is storable. -/
def Storables (nodes : List NodeItem) : Prop := ∀ n ∈ nodes, parseNode n.uri = some n ∧ Storable n.uri

/-- What a storable URI parses to may be stored. -/
theorem Storables.of_parseNode {uri : Str} {n : NodeItem} (hu : Storable uri) (h : parseNode uri = some n) :
    parseNode n.uri = some n ∧ Storable n.uri := by
  rw [parseNode_uri h]
  exact ⟨h, hu⟩

theorem Storables.sublist {l l' : List NodeItem} (h : Storables l) (hs : l'.Sublist l) : Storables l' :=
  fun n hn => h n (hs.subset hn)

namespace NodeStore

/-- The lines of a saved list, as `load` reads them: each node's URI split, trimmed and parsed. -/
theorem parseLines_save (nodes : List NodeItem) :
    parseLines (save nodes) = nodes.flatMap fun n => (split '\n' n.uri).filterMap fun line => parseNode (trim line) := by
  cases nodes with
  | nil => rfl
  | cons n ns =>
    rw [parseLines]
    split
    · rename_i h
      -- an empty string is saved only for one node with an empty URI, which does not parse
      rw [List.isEmpty_iff] at h
      have hs : split '\n' (save (n :: ns)) = [[]] := by rw [h]; rfl
      rw [save, split_joinToString _ (by simp)] at hs
      have hf := congrArg (List.filterMap fun line => parseNode (trim line)) hs
      rw [List.flatMap_map, List.filterMap_flatMap] at hf
      rw [hf]
      rfl
    · rw [save, split_joinToString _ (by simp), List.flatMap_map, List.filterMap_flatMap]

/-- A storable list is read back as it was saved. -/
theorem parseLines_save_of_storables {nodes : List NodeItem} (h : Storables nodes) : parseLines (save nodes) = nodes := by
  rw [parseLines_save]
  have hs : ∀ n ∈ nodes, ((split '\n' n.uri).filterMap fun line => parseNode (trim line)) = [n] := by
    intro n hn
    obtain ⟨hp, hu⟩ := h n hn
    simp [split_eq_self hu.noFeed, hu.trimmed, hp]
  rw [List.flatMap_congr hs, List.flatMap_singleton']

/-- Whatever the store holds, the nodes read from it may be stored. -/
theorem storables_parseLines (saved : Str) : Storables (parseLines saved) := by
  intro n hn
  rw [parseLines] at hn
  split at hn
  · cases hn
  · obtain ⟨line, hl, hp⟩ := List.mem_filterMap.1 hn
    refine Storables.of_parseNode ⟨startsWith_of_parseNode hp, trim_trim line, ?_⟩ hp
    exact fun hm => not_mem_of_mem_split hl (mem_of_mem_trim hm)

/-- `load` gives the parsed lines: there are no default nodes to put in their place. -/
theorem load_fst (saved : Str) : (load saved).1 = parseLines saved := by
  simp only [load, defaultNodes, List.filterMap_nil]
  split
  · rename_i h
    exact (List.isEmpty_iff.1 h).symm
  · rfl

/-- Loading again gives the same nodes. -/
theorem parseLines_load_snd (saved : Str) : parseLines (load saved).2 = parseLines saved := by
  simp only [load, defaultNodes, List.filterMap_nil]
  split
  · rename_i h
    rw [List.isEmpty_iff.1 h]
    rfl
  · rfl

end NodeStore

end Open365Vpn
