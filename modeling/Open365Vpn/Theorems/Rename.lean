import Open365Vpn.Lemmas.Uri

/-!
# Renaming changes only the name

The searches of `parseNode` do not stop at the fragment. A label, old or new, that holds `pbk=`, `sid=`, `path=`, `sni=` or
`host=` is read as that parameter when the URI before it has none; and a URI without `@` takes its user part, and perhaps its
server, from the label. `Renamable` says exactly when none of this shows.
-/

namespace Open365Vpn

open Kotlin

/-- The URI before its fragment. -/
def baseOf (uri : Str) : Str := substringBefore ['#'] uri

/-- The text after the first `#`, empty when there is none. -/
def fragmentOf (uri : Str) : Str := (after ['#'] uri).getD []

/-- Two nodes that differ at most in the URI, the label and the flag. -/
structure SameButName (n n' : NodeItem) : Prop where
  server : n'.server = n.server
  port : n'.port = n.port
  path : n'.path = n.path
  uuid : n'.uuid = n.uuid
  sni : n'.sni = n.sni
  pbk : n'.pbk = n.pbk
  sid : n'.sid = n.sid

/-- A parameter as two texts have it together: from the first where its key occurs there, and else from the second. -/
def paramOf (base text name : Str) : Str := if contains (name ++ ['=']) base then param base name else param text name

/-- The `sni` of two texts together, with the `host` in its place when it is empty. -/
def sniOf (base text : Str) : Str :=
  if (paramOf base text "sni".toList).isEmpty then paramOf base text "host".toList else paramOf base text "sni".toList

/-- The key of the parameter occurs before the fragment, or the old fragment and the new label have it with the same value. -/
def SameParam (uri label name : Str) : Prop :=
  contains (name ++ ['=']) (baseOf uri) = true ∨ param (fragmentOf uri) name = param label name

/-- The same of `sni`, and of `host` where that takes the place of an empty `sni`. Or by chance: `sni=` does not occur before the
fragment, one of the old fragment and the new label has an `sni`, and the other has none but the very same text as its `host`. -/
def SameSni (uri label : Str) : Prop :=
  (SameParam uri label "sni".toList ∧ (paramOf (baseOf uri) label "sni".toList = [] → SameParam uri label "host".toList)) ∨
    (contains "sni=".toList (baseOf uri) = false ∧
      ((param (fragmentOf uri) "sni".toList = [] ∧ param label "sni".toList ≠ [] ∧
          paramOf (baseOf uri) (fragmentOf uri) "host".toList = param label "sni".toList) ∨
        (param (fragmentOf uri) "sni".toList ≠ [] ∧ param label "sni".toList = [] ∧
          param (fragmentOf uri) "sni".toList = paramOf (baseOf uri) label "host".toList)))

/-- An `@` occurs before the fragment, or the old fragment and the new label are the same up to theirs, and the server and the
port that follow it (those of the URI itself where there is none) are the same too. -/
def SameAddress (uri label : Str) : Prop :=
  '@' ∈ baseOf uri ∨
    ('#' ∈ uri ∧ substringBefore ['@'] (fragmentOf uri) = substringBefore ['@'] label ∧
      address ((after ['@'] (fragmentOf uri)).getD (baseOf uri)) = address ((after ['@'] label).getD (baseOf uri)))

/-- When a URI may get a label without another field of its node changing. -/
structure Renamable (uri label : Str) : Prop where
  address : SameAddress uri label
  path : SameParam uri label "path".toList
  sni : SameSni uri label
  pbk : SameParam uri label "pbk".toList
  sid : SameParam uri label "sid".toList

namespace RenameAux

open UriAux

theorem not_mem_baseOf (uri : Str) : '#' ∉ baseOf uri := not_mem_substringBefore '#' uri

/-- A URI is its base, or its base and its fragment. -/
theorem uri_cases (uri : Str) :
    ('#' ∉ uri ∧ baseOf uri = uri ∧ fragmentOf uri = []) ∨ ('#' ∈ uri ∧ uri = baseOf uri ++ '#' :: fragmentOf uri) := by
  by_cases h : '#' ∈ uri
  · right
    obtain ⟨a, b, rfl, ha⟩ := List.eq_append_cons_of_mem h
    rw [baseOf, fragmentOf, substringBefore_append_cons ha, after_singleton ha]
    exact ⟨h, rfl⟩
  · left
    rw [baseOf, fragmentOf, substringBefore_eq_self h, after_singleton_eq_none.2 h]
    exact ⟨h, rfl, rfl⟩

/-- Relabelling a relabelled URI. -/
theorem relabel_relabel (uri l1 l2 : Str) : relabel (relabel uri l1) l2 = relabel uri l2 := by
  have hb : substringBefore ['#'] (relabel uri l1) = substringBefore ['#'] uri := by
    rw [relabel_eq, substringBefore_append_cons (not_mem_substringBefore '#' uri)]
  rw [relabel_eq, hb, relabel_eq]

/-! ## Parameters -/

/-- A parameter of a URI, taken apart at the fragment. -/
theorem param_eq_paramOf {name : Str} (hn : '#' ∉ name) (uri : Str) :
    param uri name = paramOf (baseOf uri) (fragmentOf uri) name := by
  rcases uri_cases uri with ⟨-, hb, hf⟩ | ⟨-, hu⟩
  · rw [paramOf, hb, hf]
    split
    · rfl
    · rename_i hc
      rw [param_of_not_contains (Bool.eq_false_iff.2 hc)]
      exact (param_of_not_contains (by simp [contains, cut])).symm
  · conv => lhs; rw [hu]
    exact param_fragment hn (not_mem_baseOf uri) _

theorem param_relabel {name : Str} (hn : '#' ∉ name) (uri label : Str) :
    param (relabel uri label) name = paramOf (baseOf uri) label name := by
  rw [relabel_eq]
  exact param_fragment hn (not_mem_baseOf uri) label

theorem paramOf_eq_iff (uri label name : Str) :
    paramOf (baseOf uri) label name = paramOf (baseOf uri) (fragmentOf uri) name ↔ SameParam uri label name := by
  unfold paramOf SameParam
  by_cases h : contains (name ++ ['=']) (baseOf uri) = true
  · simp [h]
  · simp only [h, if_false, false_or, Bool.false_eq_true]
    exact eq_comm

theorem sameSni_iff (uri label : Str) : sniOf (baseOf uri) (fragmentOf uri) = sniOf (baseOf uri) label ↔ SameSni uri label := by
  have hsni := paramOf_eq_iff uri label "sni".toList
  have hhost := paramOf_eq_iff uri label "host".toList
  rw [sniOf, sniOf, ifEmpty_eq_iff, SameSni, ← hsni, ← hhost, eq_comm (a := paramOf (baseOf uri) (fragmentOf uri) "sni".toList),
    eq_comm (a := paramOf (baseOf uri) (fragmentOf uri) "host".toList) (b := paramOf (baseOf uri) label "host".toList)]
  refine or_congr_right ?_
  by_cases h : contains "sni=".toList (baseOf uri) = true
  · have hbase : ∀ text, paramOf (baseOf uri) text "sni".toList = param (baseOf uri) "sni".toList := fun _ => if_pos h
    rw [hbase, hbase, h]
    simp +contextual
  · have htext : ∀ text, paramOf (baseOf uri) text "sni".toList = param text "sni".toList := fun _ => if_neg h
    rw [htext, htext, Bool.eq_false_iff.2 h]
    simp

/-! ## The server, the port and the user part -/

/-- The address in a URI whose `@` stands before the fragment. -/
theorem address_of_mem {base : Str} (hb : '#' ∉ base) (hm : '@' ∈ base) (t : Str) :
    address ((after ['@'] (base ++ '#' :: t)).getD (base ++ '#' :: t)) = address ((after ['@'] base).getD base) := by
  obtain ⟨a, b, rfl, ha⟩ := List.eq_append_cons_of_mem hm
  have hbf : '#' ∉ b := fun h => hb (List.mem_append_right _ (List.mem_cons_of_mem _ h))
  rw [List.append_assoc, List.cons_append, after_singleton ha, after_singleton ha, Option.getD_some, Option.getD_some]
  simp only [address, upTo_append_fragment (by decide : '?' ≠ '#') hbf]

/-- The address in a URI without an `@` before the fragment. -/
theorem address_of_not_mem {base : Str} (hb : '#' ∉ base) (hm : '@' ∉ base) (t : Str) :
    address ((after ['@'] (base ++ '#' :: t)).getD (base ++ '#' :: t)) = address ((after ['@'] t).getD base) := by
  rw [after_append_cons (after_singleton_eq_none.2 hm) (by decide) (by simp)]
  cases after ['@'] t with
  | some r => rfl
  | none =>
    rw [Option.getD_none, Option.getD_none]
    simp only [address, upTo_append_fragment (by decide : '?' ≠ '#') hb]

/-- The user part of a URI with its `@` before the fragment, and of one without. -/
theorem uuid_of_mem {r : Str} (hm : '@' ∈ r) (t : Str) : substringBefore ['@'] (r ++ t) = substringBefore ['@'] r :=
  substringBefore_append_of_mem hm t

theorem uuid_of_not_mem {r : Str} (hm : '@' ∉ r) (t : Str) :
    substringBefore ['@'] (r ++ '#' :: t) = r ++ '#' :: substringBefore ['@'] t := by
  have hf : substringBefore ['@'] ('#' :: t) = '#' :: substringBefore ['@'] t := by
    have := substringBefore_append (c := '@') (p := ['#']) (by decide) t
    simpa using this
  rw [substringBefore_append hm, hf]

/-- The server, the port and the user part survive exactly when `SameAddress` says so. -/
theorem sameAddress_iff {uri label : Str} {n n' : NodeItem} (hs : startsWith scheme uri = true)
    (ha : (n.server, n.port) = address ((after ['@'] uri).getD uri))
    (hu : ∀ t, uri = scheme ++ t → n.uuid = substringBefore ['@'] t)
    (ha' : (n'.server, n'.port) = address ((after ['@'] (relabel uri label)).getD (relabel uri label)))
    (hu' : ∀ t, relabel uri label = scheme ++ t → n'.uuid = substringBefore ['@'] t) :
    ((n'.server = n.server ∧ n'.port = n.port) ∧ n'.uuid = n.uuid) ↔ SameAddress uri label := by
  obtain ⟨r, rfl⟩ := startsWith_iff.1 hs
  have hbase : baseOf (scheme ++ r) = scheme ++ baseOf r := substringBefore_append (by decide) r
  have hrel : relabel (scheme ++ r) label = scheme ++ (baseOf r ++ '#' :: label) := by
    rw [relabel_eq, ← List.append_assoc, ← hbase]
    rfl
  have hb := not_mem_baseOf (scheme ++ r)
  have hmem : '@' ∈ baseOf (scheme ++ r) ↔ '@' ∈ baseOf r := by
    rw [hbase, List.mem_append]
    exact or_iff_right (by decide)
  have hpair : (n'.server = n.server ∧ n'.port = n.port) ↔ (n'.server, n'.port) = (n.server, n.port) := by
    rw [Prod.mk.injEq]
  rw [hpair, ha, ha', hu r rfl, hu' _ hrel, relabel_eq]
  unfold SameAddress
  by_cases hm : '@' ∈ baseOf (scheme ++ r)
  · -- both are read before the fragment
    refine iff_of_true ⟨?_, ?_⟩ (Or.inl hm)
    · rcases uri_cases (scheme ++ r) with ⟨-, he, -⟩ | ⟨-, he⟩
      · rw [← baseOf, address_of_mem hb hm, he]
      · rw [← baseOf, address_of_mem hb hm]
        conv => rhs; rw [he, address_of_mem hb hm]
    · rw [uuid_of_mem (hmem.1 hm)]
      rcases uri_cases r with ⟨-, he, -⟩ | ⟨-, he⟩
      · rw [he]
      · conv => rhs; rw [he, uuid_of_mem (hmem.1 hm)]
  · have hm' : '@' ∉ baseOf r := fun h => hm (hmem.2 h)
    rw [or_iff_right hm, uuid_of_not_mem hm', ← baseOf, address_of_not_mem hb hm]
    rcases uri_cases (scheme ++ r) with ⟨hno, he, -⟩ | ⟨hyes, he⟩
    · -- without a fragment the user part had no `#`
      have hr : '#' ∉ r := fun h => hno (List.mem_append_right _ h)
      refine iff_of_false (fun h => ?_) fun h => hno h.1
      have h2 : '#' ∈ substringBefore ['@'] r := h.2 ▸ List.mem_append_right _ List.mem_cons_self
      exact hr ((prefix_substringBefore _ _).subset h2)
    · have hr : r = baseOf r ++ '#' :: fragmentOf (scheme ++ r) := by
        rw [hbase, List.append_assoc] at he
        exact List.append_cancel_left he
      have haddr := address_of_not_mem hb hm (fragmentOf (scheme ++ r))
      rw [← he] at haddr
      have huuid := uuid_of_not_mem hm' (fragmentOf (scheme ++ r))
      rw [← hr] at huuid
      rw [haddr, huuid, List.append_cancel_left_eq, List.cons.injEq]
      constructor
      · rintro ⟨h1, -, h2⟩
        exact ⟨hyes, h2.symm, h1.symm⟩
      · rintro ⟨-, h2, h1⟩
        exact ⟨h1.symm, rfl, h2.symm⟩

end RenameAux

open RenameAux UriAux

/-- For every URI and every label: the relabelled URI parses, its node has the label, trimmed, and no other field of the node
has changed, exactly when the URI may get that label; and of two labels given one after the other the second one counts. -/
theorem relabel_only_label_iff (uri label : Str) (hs : startsWith scheme uri = true) :
    ((∃ n n', parseNode uri = some n ∧ parseNode (relabel uri label) = some n' ∧ n'.label = trim label ∧ SameButName n n') ∧
        ∀ l1 l2, relabel (relabel uri l1) l2 = relabel uri l2) ↔
      Renamable uri label := by
  obtain ⟨n, hn, -, ha, hu, hpath, hsni, hpbk, hsid⟩ := parseNode_eq hs
  obtain ⟨n', hn', -, ha', hu', hpath', hsni', hpbk', hsid'⟩ := parseNode_eq (startsWith_relabel hs label)
  have haddr := sameAddress_iff hs ha hu ha' hu'
  rw [param_eq_paramOf (by decide)] at hpath hpbk hsid
  rw [param_eq_paramOf (by decide), param_eq_paramOf (by decide), ← sniOf] at hsni
  rw [param_relabel (by decide)] at hpath' hpbk' hsid'
  rw [param_relabel (by decide), param_relabel (by decide), ← sniOf] at hsni'
  constructor
  · rintro ⟨⟨m, m', hm, hm', -, hsame⟩, -⟩
    obtain rfl : n = m := Option.some.inj (hn.symm.trans hm)
    obtain rfl : n' = m' := Option.some.inj (hn'.symm.trans hm')
    refine ⟨haddr.1 ⟨⟨hsame.server, hsame.port⟩, hsame.uuid⟩, ?_, ?_, ?_, ?_⟩
    · have := hsame.path
      rw [hpath, hpath', List.cons.injEq] at this
      exact (paramOf_eq_iff ..).1 this.2
    · have := hsame.sni
      rw [hsni, hsni'] at this
      exact (sameSni_iff uri label).1 this.symm
    · have := hsame.pbk
      rw [hpbk, hpbk'] at this
      exact (paramOf_eq_iff ..).1 this
    · have := hsame.sid
      rw [hsid, hsid'] at this
      exact (paramOf_eq_iff ..).1 this
  · intro h
    obtain ⟨⟨hserver, hport⟩, huuid⟩ := haddr.2 h.address
    refine ⟨⟨n, n', hn, hn', label_of_relabel hn', ?_⟩, relabel_relabel uri⟩
    refine ⟨hserver, hport, ?_, huuid, ?_, ?_, ?_⟩
    · rw [hpath, hpath', (paramOf_eq_iff ..).2 h.path]
    · rw [hsni, hsni', (sameSni_iff uri label).2 h.sni]
    · rw [hpbk, hpbk', (paramOf_eq_iff ..).2 h.pbk]
    · rw [hsid, hsid', (paramOf_eq_iff ..).2 h.sid]

/-- A URI with all its parameters may get any label, here one that looks like parameters. -/
theorem relabel_only_label_all_parameters :
    startsWith scheme "x365://u@h:443?path=p&sni=s&host=h&pbk=k&sid=i#a".toList = true ∧
      ∃ n n', parseNode "x365://u@h:443?path=p&sni=s&host=h&pbk=k&sid=i#a".toList = some n ∧
        parseNode (relabel "x365://u@h:443?path=p&sni=s&host=h&pbk=k&sid=i#a".toList "b pbk=x&y@z".toList) = some n' ∧
        n'.label = "b pbk=x&y@z".toList ∧ SameButName n n' :=
  ⟨by decide, ((relabel_only_label_iff "x365://u@h:443?path=p&sni=s&host=h&pbk=k&sid=i#a".toList "b pbk=x&y@z".toList
    (by decide)).2 ⟨Or.inl (by decide), Or.inl (by decide), Or.inl ⟨Or.inl (by decide), fun _ => Or.inl (by decide)⟩, Or.inl (by decide),
      Or.inl (by decide)⟩).1⟩

/-- A URI without `pbk` takes it from its new name. -/
theorem label_read_as_parameter :
    startsWith scheme "x365://u@h:443#a".toList = true ∧
      ¬∃ n n', parseNode "x365://u@h:443#a".toList = some n ∧
        parseNode (relabel "x365://u@h:443#a".toList "pbk=x".toList) = some n' ∧ n'.label = "pbk=x".toList ∧
        SameButName n n' := by
  refine ⟨by decide, ?_⟩
  rintro ⟨n, n', hn, hn', -, hsame⟩
  obtain rfl := Option.some.inj hn
  obtain rfl := Option.some.inj hn'
  exact absurd hsame.pbk (by decide)

end Open365Vpn
