import Open365Vpn.Lib.Lru
import Open365Vpn.Theorems.RbTree
import Open365Vpn.Tunnel.MappedDns

/-!
# What the cache of the mapped DNS keeps

`Inv` says how the tree, the list and the array of a cache hang together. `find` and `lookup` keep it and never fault, and on the
names they are the least recently used list of `Lru` (`Touches`): a node is there until its name is the first one of a full list
and a new name comes.
-/

namespace Open365Vpn

open RedBlack HevRbTree HevRbTree.RbTreeAux

namespace HevMappedDns

/-- The tree and the list hold the same nodes, with distinct names and indices, and the array has each of them under its index. -/
structure Inv (d : HevMappedDns) : Prop where
  pos : 0 < d.max
  bound : (d.max : Int) ≤ (~~~d.mask).toInt
  tree : WellFormed MappedDnsNode.name d.tree
  mem_tree : ∀ n, n ∈ d.tree.toList ↔ n ∈ d.list
  names : (d.list.map MappedDnsNode.name).Nodup
  indices : (d.list.map MappedDnsNode.idx).Nodup
  length : d.list.length = d.use
  use_le : d.use ≤ d.max
  idx_lt : ∀ n ∈ d.list, n.idx < d.use
  records : ∀ i n, d.records i = some n ↔ n ∈ d.list ∧ n.idx = i

/-- The names in the cache, the least recently used first. -/
def nameList (d : HevMappedDns) : List (List Octet) := d.list.map MappedDnsNode.name

/-- Every operation on a name moves or adds its node: on the names it is a touch, the node of the name is there behind it, and the
other nodes were there before; a node of the name that was there is the same. -/
structure Touches (d : HevMappedDns) (node : MappedDnsNode) (d' : HevMappedDns) : Prop where
  inv : d'.Inv
  max : d'.max = d.max
  net : d'.net = d.net
  mask : d'.mask = d.mask
  names : d'.nameList = Lru.touch d.max d.nameList node.name
  mem : node ∈ d'.list
  old : ∀ n ∈ d'.list, n = node ∨ n ∈ d.list
  same : ∀ n ∈ d.list, n.name = node.name → n = node

variable {d d' : HevMappedDns} {name : List Octet} {n : MappedDnsNode}

theorem inv_construct {net mask : BitVec 32} {max : Nat} (hpos : 0 < max) (h : construct net mask max = some d) : d.Inv := by
  unfold construct at h
  split at h
  · nomatch h
  · rename_i hle
    rw [Option.some.injEq] at h
    subst h
    exact ⟨hpos, by simpa using hle, wellFormed_leaf, fun _ => Iff.rfl, List.nodup_nil, List.nodup_nil, rfl, Nat.zero_le _,
      by simp, by simp⟩

/-- A node is found by its name. -/
theorem Inv.find_eq_some (h : d.Inv) : HevRbTree.find (compareName name) d.tree = some n ↔ n ∈ d.list ∧ n.name = name := by
  rw [← h.mem_tree]
  exact lookup_eq_some h.tree.sorted

theorem Inv.find_eq_none (h : d.Inv) : HevRbTree.find (compareName name) d.tree = none ↔ name ∉ d.nameList := by
  rw [show HevRbTree.find (compareName name) d.tree = none ↔ ∀ a ∈ d.tree.toList, a.name ≠ name from
    lookup_eq_none h.tree.sorted]
  unfold nameList
  simp only [h.mem_tree, List.mem_map, not_exists, not_and]

/-- A node is the only one of its name. -/
theorem Inv.eq_of_name (h : d.Inv) {m : MappedDnsNode} (hn : n ∈ d.list) (hm : m ∈ d.list) (he : n.name = m.name) : n = m :=
  List.inj_on_of_nodup_map h.names hn hm he

theorem Inv.eq_of_idx (h : d.Inv) {m : MappedDnsNode} (hn : n ∈ d.list) (hm : m ∈ d.list) (he : n.idx = m.idx) : n = m :=
  List.inj_on_of_nodup_map h.indices hn hm he

theorem mem_moveToTail (hn : n ∈ d.list) (m : MappedDnsNode) : m ∈ (d.moveToTail n).list ↔ m ∈ d.list := by
  change m ∈ d.list.filter (· ≠ n) ++ [n] ↔ _
  rw [List.mem_append, List.mem_singleton, List.mem_filter, decide_eq_true_eq]
  constructor
  · rintro (⟨hm, _⟩ | rfl)
    · exact hm
    · exact hn
  · intro hm
    by_cases he : m = n
    · exact Or.inr he
    · exact Or.inl ⟨hm, he⟩

/-- Moving a node to the end of the list. -/
theorem Inv.moveToTail (h : d.Inv) (hn : n ∈ d.list) : Touches d n (d.moveToTail n) := by
  have hnd : d.list.Nodup := List.Nodup.of_map _ h.names
  have hperm : (d.moveToTail n).list.Perm d.list := by
    have hfilter : d.list.filter (· ≠ n) = d.list.erase n := by
      rw [hnd.erase_eq_filter n]
      apply List.filter_congr
      intro x _
      by_cases hx : x = n <;> simp [hx]
    refine (List.perm_append_singleton n _).trans ?_
    rw [hfilter]
    exact (List.perm_cons_erase hn).symm
  have hmem := mem_moveToTail hn
  refine ⟨⟨h.pos, h.bound, h.tree, ?_, ?_, ?_, ?_, h.use_le, ?_, ?_⟩, rfl, rfl, rfl, ?_, ?_, ?_,
    fun m hm he => h.eq_of_name hm hn he⟩
  · intro m
    rw [hmem]
    exact h.mem_tree m
  · exact (hperm.map _).nodup_iff.2 h.names
  · exact (hperm.map _).nodup_iff.2 h.indices
  · rw [hperm.length_eq]
    exact h.length
  · intro m hm
    exact h.idx_lt m ((hmem m).1 hm)
  · intro i m
    rw [hmem]
    exact h.records i m
  · have hin : n.name ∈ d.nameList := List.mem_map_of_mem hn
    have hfilter : (d.list.filter (· ≠ n)).map MappedDnsNode.name =
        (d.list.map MappedDnsNode.name).filter (· ≠ n.name) := by
      rw [List.filter_map]
      congr 1
      apply List.filter_congr
      intro m hm
      simp only [Function.comp, ne_eq, decide_not, Bool.not_eq_eq_eq_not, Bool.not_not, decide_eq_decide]
      exact ⟨fun he => he ▸ rfl, fun he => h.eq_of_name hm hn he⟩
    unfold Lru.touch
    rw [if_pos hin]
    change (d.list.filter (· ≠ n) ++ [n]).map MappedDnsNode.name = _
    rw [List.map_append, hfilter]
    rfl
  · change n ∈ d.list.filter (· ≠ n) ++ [n]
    simp
  · intro m hm
    exact Or.inr ((hmem m).1 hm)

/-! ## Finding a name -/

/-- A new name while there is room: it gets the next index. -/
theorem find_room (h : d.Inv) (hn : name ∉ d.nameList) (hroom : d.use < d.max) :
    ∃ d', d.find name = some (d', d.use) ∧ Touches d ⟨name, d.use⟩ d' := by
  have hnew : ∀ m ∈ d.tree.toList, m.name ≠ name := by
    intro m hm he
    exact hn (he ▸ List.mem_map_of_mem ((h.mem_tree m).1 hm))
  obtain ⟨t', hi, hw, hmem⟩ := mem_insert h.tree (⟨name, d.use⟩ : MappedDnsNode) hnew
  change HevRbTree.insert (compareName name) _ _ = _ at hi
  have hnone := h.find_eq_none.2 hn
  have hidx : d.use ∉ d.list.map MappedDnsNode.idx := by
    intro hm
    obtain ⟨m, hm, he⟩ := List.mem_map.1 hm
    exact absurd (h.idx_lt m hm) (by omega)
  unfold find
  rw [hnone]
  simp only [if_pos hroom, hi, Option.bind_some, setRecord]
  refine ⟨_, rfl, ⟨h.pos, h.bound, hw, ?_, ?_, ?_, ?_, hroom, ?_, ?_⟩, rfl, rfl, rfl, ?_, ?_, ?_,
    fun m hm he => absurd (List.mem_map.2 ⟨m, hm, he⟩) hn⟩
  · intro m
    simp only
    rw [hmem, h.mem_tree, List.mem_append, List.mem_singleton]
    exact Or.comm
  · simp only [List.map_append, List.map_cons, List.map_nil]
    refine List.nodup_append'.2 ⟨h.names, List.nodup_singleton _, ?_⟩
    intro x hx hx'
    rw [List.mem_singleton.1 hx'] at hx
    exact hn hx
  · simp only [List.map_append, List.map_cons, List.map_nil]
    refine List.nodup_append'.2 ⟨h.indices, List.nodup_singleton _, ?_⟩
    intro x hx hx'
    rw [List.mem_singleton.1 hx'] at hx
    exact hidx hx
  · simp only [List.length_append, List.length_singleton, h.length]
  · intro m hm
    simp only [List.mem_append, List.mem_singleton] at hm
    simp only
    rcases hm with hm | rfl
    · have := h.idx_lt m hm
      omega
    · exact Nat.lt_succ_self _
  · intro i m
    simp only [List.mem_append, List.mem_singleton]
    by_cases hi : i = d.use
    · subst hi
      rw [Function.update_self, Option.some.injEq]
      constructor
      · rintro rfl
        exact ⟨Or.inr rfl, rfl⟩
      · rintro ⟨hm | hm, he⟩
        · exact absurd (List.mem_map.2 ⟨m, hm, he⟩) hidx
        · exact hm.symm
    · rw [Function.update_of_ne hi, h.records]
      constructor
      · rintro ⟨hm, he⟩
        exact ⟨Or.inl hm, he⟩
      · rintro ⟨hm | rfl, he⟩
        · exact ⟨hm, he⟩
        · exact absurd he.symm hi
  · unfold Lru.touch
    have hlen : d.nameList.length < d.max := by
      unfold nameList
      rw [List.length_map, h.length]
      exact hroom
    rw [if_neg hn, if_pos hlen]
    simp [nameList]
  · simp
  · intro m hm
    simp only [List.mem_append, List.mem_singleton] at hm
    exact hm.symm

/-- A new name for a full cache: it gets the index of the node at the head of the list, which is taken out. The index is below
`max`, since that of every node is below `use`. -/
theorem find_full (h : d.Inv) (hn : name ∉ d.nameList) (hfull : ¬d.use < d.max) :
    ∃ d' idx, d.find name = some (d', idx) ∧ Touches d ⟨name, idx⟩ d' := by
  have hnew : ∀ m ∈ d.tree.toList, m.name ≠ name := by
    intro m hm he
    exact hn (he ▸ List.mem_map_of_mem ((h.mem_tree m).1 hm))
  have hnone := h.find_eq_none.2 hn
  have hpos := h.pos
  have hlen := h.length
  cases hl : d.list with
  | nil =>
    rw [hl, List.length_nil] at hlen
    omega
  | cons nf rest =>
    have hnf : nf ∈ d.list := by simp [hl]
    obtain ⟨t', hi, hw, hmem⟩ := mem_insert h.tree (⟨name, nf.idx⟩ : MappedDnsNode) hnew
    obtain ⟨t'', hei, hw', hmem'⟩ := mem_eraseKey hw nf.name
    change HevRbTree.insert (compareName name) _ _ = _ at hi
    change HevRbTree.eraseKey (compareName nf.name) _ = _ at hei
    have hnames := h.names
    have hindices := h.indices
    rw [hl, List.map_cons, List.nodup_cons] at hnames hindices
    have hrest : ∀ m ∈ rest, m ∈ d.list := by
      intro m hm
      rw [hl]
      exact List.mem_cons_of_mem _ hm
    have hnfname : nf.name ≠ name := by
      rintro rfl
      exact hn (List.mem_map_of_mem hnf)
    have hother : ∀ m, m ∈ d.list ∧ m.name ≠ nf.name ↔ m ∈ rest := by
      intro m
      rw [hl, List.mem_cons]
      constructor
      · rintro ⟨rfl | hm, hne⟩
        · exact absurd rfl hne
        · exact hm
      · intro hm
        exact ⟨Or.inr hm, fun hne => hnames.1 (List.mem_map.2 ⟨m, hm, hne⟩)⟩
    have hmem'' : ∀ m, m ∈ t''.toList ↔ m = ⟨name, nf.idx⟩ ∨ m ∈ rest := by
      intro m
      rw [hmem', hmem, h.mem_tree, ← hother]
      constructor
      · rintro ⟨rfl | hm, hne⟩
        · exact Or.inl rfl
        · exact Or.inr ⟨hm, hne⟩
      · rintro (rfl | ⟨hm, hne⟩)
        · exact ⟨Or.inl rfl, fun he => hnfname he.symm⟩
        · exact ⟨Or.inr hm, hne⟩
    unfold find
    rw [hnone]
    have hidx : nf.idx < d.max := lt_of_lt_of_le (h.idx_lt nf hnf) h.use_le
    simp only [if_neg hfull, hl, List.head?_cons, Option.bind_some, hi, hei, List.cons_append, List.tail_cons, setRecord,
      if_pos hidx]
    refine ⟨_, nf.idx, rfl, ⟨h.pos, h.bound, hw', ?_, ?_, ?_, ?_, h.use_le, ?_, ?_⟩, rfl, rfl, rfl, ?_, ?_, ?_,
      fun m hm he => absurd (List.mem_map.2 ⟨m, hm, he⟩) hn⟩
    · intro m
      simp only
      rw [hmem'', List.mem_append, List.mem_singleton]
      exact Or.comm
    · simp only [List.map_append, List.map_cons, List.map_nil]
      refine List.nodup_append'.2 ⟨hnames.2, List.nodup_singleton _, ?_⟩
      intro x hx hx'
      rw [List.mem_singleton.1 hx'] at hx
      obtain ⟨m, hm, rfl⟩ := List.mem_map.1 hx
      exact hn (List.mem_map_of_mem (hrest m hm))
    · simp only [List.map_append, List.map_cons, List.map_nil]
      refine List.nodup_append'.2 ⟨hindices.2, List.nodup_singleton _, ?_⟩
      intro x hx hx'
      rw [List.mem_singleton.1 hx'] at hx
      exact hindices.1 hx
    · rw [hl, List.length_cons] at hlen
      simp only [List.length_append, List.length_singleton, hlen]
    · intro m hm
      simp only [List.mem_append, List.mem_singleton] at hm
      rcases hm with hm | rfl
      · exact h.idx_lt m (hrest m hm)
      · exact h.idx_lt nf hnf
    · intro i m
      simp only [List.mem_append, List.mem_singleton]
      by_cases hi : i = nf.idx
      · subst hi
        rw [Function.update_self, Option.some.injEq]
        constructor
        · rintro rfl
          exact ⟨Or.inr rfl, rfl⟩
        · rintro ⟨hm | hm, he⟩
          · exact absurd (List.mem_map.2 ⟨m, hm, he⟩) hindices.1
          · exact hm.symm
      · rw [Function.update_of_ne hi, h.records, hl, List.mem_cons]
        constructor
        · rintro ⟨rfl | hm, he⟩
          · exact absurd he.symm hi
          · exact ⟨Or.inl hm, he⟩
        · rintro ⟨hm | rfl, he⟩
          · exact ⟨Or.inr hm, he⟩
          · exact absurd he.symm hi
    · unfold Lru.touch
      have hlen' : ¬d.nameList.length < d.max := by
        unfold nameList
        rw [List.length_map, h.length]
        exact hfull
      rw [if_neg hn, if_neg hlen']
      simp [nameList, hl]
    · simp
    · intro m hm
      simp only [List.mem_append, List.mem_singleton] at hm
      rcases hm with hm | hm
      · exact Or.inr (hrest m hm)
      · exact Or.inl hm

/-- `find` never faults; it touches the name and returns the index of its node. -/
theorem find_spec (h : d.Inv) (name : List Octet) :
    ∃ d' idx, d.find name = some (d', idx) ∧ Touches d ⟨name, idx⟩ d' := by
  by_cases hn : name ∈ d.nameList
  · obtain ⟨n, hm, rfl⟩ := List.mem_map.1 hn
    have hsome := h.find_eq_some.2 ⟨hm, rfl⟩
    refine ⟨d.moveToTail n, n.idx, ?_, h.moveToTail hm⟩
    unfold find
    rw [hsome]
  · by_cases hroom : d.use < d.max
    · obtain ⟨d', hf, ht⟩ := find_room h hn hroom
      exact ⟨d', d.use, hf, ht⟩
    · exact find_full h hn hroom

/-! ## Looking an address up -/

/-- `lookup` never faults; it returns the name of the node with the host part of the address as its index and touches it, or it
changes nothing when there is none. -/
theorem lookup_spec (h : d.Inv) (ip : BitVec 32) :
    (∃ n ∈ d.list, (n.idx : Int) = (ip &&& ~~~d.mask).toInt ∧ d.lookup ip = some (d.moveToTail n, some n.name)) ∨
    ((∀ n ∈ d.list, (n.idx : Int) ≠ (ip &&& ~~~d.mask).toInt) ∧ d.lookup ip = some (d, none)) := by
  have hbound := h.bound
  have hhost : 0 ≤ (ip &&& ~~~d.mask).toInt := by
    have hmsb : (~~~d.mask).msb = false := by
      rw [BitVec.msb_eq_toInt, decide_eq_false_iff_not]
      omega
    have hand : (ip &&& ~~~d.mask).msb = false := by
      rw [BitVec.msb_and, hmsb, Bool.and_false]
    rw [BitVec.toInt_eq_toNat_of_msb hand]
    exact Int.natCast_nonneg _
  unfold lookup
  dsimp only
  split
  · rename_i hge
    refine Or.inr ⟨?_, rfl⟩
    intro n hn he
    have := h.idx_lt n hn
    have := h.use_le
    omega
  · rw [if_neg (by omega)]
    cases hr : d.records (ip &&& ~~~d.mask).toInt.toNat with
    | none =>
      refine Or.inr ⟨?_, rfl⟩
      intro n hn he
      have hrec := (h.records (ip &&& ~~~d.mask).toInt.toNat n).2 ⟨hn, by omega⟩
      rw [hr] at hrec
      cases hrec
    | some n =>
      obtain ⟨hn, he⟩ := (h.records _ n).1 hr
      exact Or.inl ⟨n, hn, by omega, rfl⟩

/-! ## Runs of touches -/

/-- A run of operations, with the names that it touches. -/
inductive TouchRun : HevMappedDns → List (List Octet) → HevMappedDns → Prop where
  | nil (d : HevMappedDns) : TouchRun d [] d
  | cons {d d₁ d₂ : HevMappedDns} {node : MappedDnsNode} {names : List (List Octet)} (h : Touches d node d₁)
      (hr : TouchRun d₁ names d₂) : TouchRun d (node.name :: names) d₂

namespace TouchRun

variable {d₁ d₂ d₃ : HevMappedDns} {names names' : List (List Octet)}

theorem append (h : TouchRun d₁ names d₂) (h' : TouchRun d₂ names' d₃) : TouchRun d₁ (names ++ names') d₃ := by
  induction h with
  | nil d => exact h'
  | cons ht _ ih => exact .cons ht (ih h')

theorem inv (h : TouchRun d₁ names d₂) (hi : d₁.Inv) :
    d₂.Inv ∧ d₂.max = d₁.max ∧ d₂.net = d₁.net ∧ d₂.mask = d₁.mask := by
  induction h with
  | nil d => exact ⟨hi, rfl, rfl, rfl⟩
  | cons ht _ ih =>
    obtain ⟨h1, h2, h3, h4⟩ := ih ht.inv
    exact ⟨h1, h2.trans ht.max, h3.trans ht.net, h4.trans ht.mask⟩

/-- A node stays where it is while fewer other names are touched than there is room for. -/
theorem keeps (h : TouchRun d₁ names d₂) (hi : d₁.Inv) {s : Finset (List Octet)} (hn : n ∈ d₁.list)
    (hk : Lru.Kept d₁.nameList n.name s) (hs : s.card < d₁.max) (hnames : ∀ x ∈ names, x ≠ n.name → x ∈ s) :
    n ∈ d₂.list := by
  induction h with
  | nil d => exact hn
  | @cons d d₁ d₂ node names ht _ ih =>
    have hk' : Lru.Kept d₁.nameList n.name s := by
      rw [ht.names]
      exact hk.touch hi.names hs (hnames node.name List.mem_cons_self)
    have hn' : n ∈ d₁.list := by
      obtain ⟨m, hm, he⟩ := List.mem_map.1 hk'.mem
      rcases ht.old m hm with rfl | hold
      · rwa [ht.same n hn he.symm]
      · rwa [← hi.eq_of_name hold hn he]
    exact ih ht.inv hn' hk' (ht.max ▸ hs) fun x hx => hnames x (List.mem_cons_of_mem _ hx)

/-- What has been touched stays where it is while fewer other names are touched than there is room for. -/
theorem keeps_touched {node : MappedDnsNode} (ht : Touches d node d₁) (h : TouchRun d₁ names d₂)
    (hs : (names.toFinset.erase node.name).card < d.max) : node ∈ d₂.list := by
  refine h.keeps ht.inv ht.mem (s := names.toFinset.erase node.name) ?_ (ht.max ▸ hs) ?_
  · rw [ht.names]
    exact Lru.kept_touch_self _ _ _ _
  · intro x hx hne
    exact Finset.mem_erase.2 ⟨hne, List.mem_toFinset.2 hx⟩

end TouchRun

end HevMappedDns

end Open365Vpn
