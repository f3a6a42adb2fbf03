import Open365Vpn.Lemmas.Uri

/-!
# A URI read field by field

A node URI put together from its parts, and what `parseNode` makes of it. The user part, the server, the port and the label are
found where they are. A parameter is found at the first `name=` of the whole text, which need not be the key of a pair: it can
stand in the user part or the host, at the end of another key, inside a value, or in the label. `NodeUri.stray` is what is read
there.
-/

namespace Open365Vpn

open Kotlin

/-- The parts of a node URI. -/
structure NodeUri where
  uuid : Str
  host : Str
  port : Str
  params : List (Str × Str)
  label : Str
  uuid_ok : ∀ c ∈ ['@', '?', '#'], c ∉ uuid
  host_ok : ∀ c ∈ [':', '@', '?', '#'], c ∉ host
  port_ok : ∀ c ∈ [':', '@', '?', '#'], c ∉ port
  keys_ok : ∀ p ∈ params, ∀ c ∈ ['=', '&', '#', '@'], c ∉ p.1
  values_ok : ∀ p ∈ params, ∀ c ∈ ['&', '#'], c ∉ p.2

/-- `key=value`. -/
def pairText (p : Str × Str) : Str := p.1 ++ '=' :: p.2

namespace NodeUri

/-- The pairs joined by `&`. -/
def query (params : List (Str × Str)) : Str := joinToString '&' (params.map pairText)

/-- What stands between the scheme and the `?`. -/
def front (u : NodeUri) : Str := u.uuid ++ '@' :: (u.host ++ ':' :: u.port)

/-- What follows the `?`. -/
def back (u : NodeUri) : Str := query u.params ++ '#' :: u.label

/-- The URI. -/
def text (u : NodeUri) : Str := scheme ++ (u.front ++ '?' :: u.back)

/-- The value of the first pair with the key, empty when there is none. -/
def value (u : NodeUri) (name : Str) : Str := (u.params.lookup name).getD []

/-- What is read at a `name=` that stands before the first pair with the key, at the end of another key or inside a value; or in
the label, when there is no such pair. -/
def strayIn (name label : Str) : List (Str × Str) → Option Str
  | [] => (after (name ++ ['=']) label).map (upTo '&')
  | (k, v) :: ps =>
    if k = name then none
    else if name <:+ k then some v
    else (after (name ++ ['=']) v).or (strayIn name label ps)

/-- What is read at a `name=` that is not the key of a pair and stands before the first pair with the key: in the user part, the
host or the port, or among the pairs and in the label. -/
def stray (u : NodeUri) (name : Str) : Option Str :=
  match after (name ++ ['=']) u.front with
  | some b => some (upTo '&' (b ++ '?' :: u.back))
  | none => strayIn name u.label u.params

/-- The `sni`, or the `host` where that is empty, when parameters are read with `read`. -/
def sniOf (read : Str → Str) : Str := if (read "sni".toList).isEmpty then read "host".toList else read "sni".toList

/-- A node has the fields of the URI. -/
structure Reads (u : NodeUri) (n : NodeItem) : Prop where
  uuid : n.uuid = u.uuid
  server : n.server = u.host
  port : n.port = u.port
  label : n.label = trim u.label
  pbk : n.pbk = u.value "pbk".toList
  sid : n.sid = u.value "sid".toList
  sni : n.sni = sniOf u.value
  path : n.path = '/' :: u.value "path".toList

/-- No stray `name=` is read in the place of the parameter, or what follows it is the very value of the parameter. -/
def PlainParam (u : NodeUri) (name : Str) : Prop := ∀ t, u.stray name = some t → t = u.value name

/-- The same of `sni`, and of `host` where that takes the place of an empty `sni`. Or by chance: the `sni` is lost at a stray `sni=`
that nothing follows, and what follows a stray `host=`, or the `host` where there is none, is that very `sni`; or there is no
`sni`, and what follows a stray `sni=` is the very `host`. -/
def PlainSni (u : NodeUri) : Prop :=
  (u.PlainParam "sni".toList ∧ (u.value "sni".toList = [] → u.PlainParam "host".toList)) ∨
    (u.stray "sni".toList = some [] ∧ u.value "sni".toList ≠ [] ∧
      (u.stray "host".toList = some (u.value "sni".toList) ∨
        (u.stray "host".toList = none ∧ u.value "host".toList = u.value "sni".toList))) ∨
    (u.value "sni".toList = [] ∧ u.value "host".toList ≠ [] ∧ u.stray "sni".toList = some (u.value "host".toList))

/-- Every parameter is read where it stands. -/
structure Plain (u : NodeUri) : Prop where
  pbk : u.PlainParam "pbk".toList
  sid : u.PlainParam "sid".toList
  sni : u.PlainSni
  path : u.PlainParam "path".toList

end NodeUri

namespace ParseNodeAux

open NodeUri UriAux

/-- The names of the parameters hold none of the characters between the parts of a URI. -/
def Letters (name : Str) : Prop := ∀ c ∈ ['=', '&', '#', '?', '/'], c ∉ name

instance (name : Str) : Decidable (Letters name) :=
  inferInstanceAs (Decidable (∀ c ∈ ['=', '&', '#', '?', '/'], c ∉ name))

/-! ## Among the pairs -/

/-- The pairs, each behind an `&`, and the label behind a `#`. -/
def chain (label : Str) : List (Str × Str) → Str
  | [] => '#' :: label
  | p :: ps => '&' :: (pairText p ++ chain label ps)

theorem chain_cons (label : Str) (p : Str × Str) (ps : List (Str × Str)) :
    chain label (p :: ps) = '&' :: (query (p :: ps) ++ '#' :: label) := by
  induction ps generalizing p with
  | nil => simp [chain, query, joinToString]
  | cons q ps ih =>
    rw [chain, ih]
    simp [query, joinToString, List.intercalate_cons_cons]

/-- A search may start behind the character that the chain starts with. -/
theorem after_chain {d : Str} (hne : d ≠ []) (hd : ∀ c ∈ ['&', '#'], c ∉ d) (p label : Str) (ps : List (Str × Str))
    (h : after d p = none) : after d (p ++ chain label ps) = after d (chain label ps) := by
  have hnil : after d [] = none := by
    cases d with
    | nil => exact absurd rfl hne
    | cons c cs => rfl
  cases ps with
  | nil =>
    have hc : '#' ∉ d := hd '#' (by simp)
    rw [chain, after_append_cons h hc hne]
    exact (after_append_cons hnil hc hne label).symm
  | cons q ps =>
    have hc : '&' ∉ d := hd '&' (by simp)
    rw [chain, after_append_cons h hc hne]
    exact (after_append_cons hnil hc hne _).symm

/-- A text without `&` and `#` is read up to the chain. -/
theorem upTo_chain {t : Str} (h1 : '&' ∉ t) (h2 : '#' ∉ t) (label : Str) (ps : List (Str × Str)) :
    upTo '&' (t ++ chain label ps) = t := by
  cases ps with
  | nil => rw [chain, upTo_append_fragment (by decide) h2, upTo_eq_self h1 h2]
  | cons q ps => rw [chain, upTo_append_cons h1 h2]

/-- What follows an occurrence is part of the text. -/
theorem mem_of_after {d s b : Str} (h : after d s = some b) {c : Char} (hc : c ∈ b) : c ∈ s := by
  obtain ⟨⟨a, b'⟩, hcut, rfl⟩ := Option.map_eq_some_iff.1 h
  rw [eq_of_cut hcut]
  exact List.mem_append_right _ (List.mem_append_right _ hc)

/-- What is read in the chain: the stray text, or the value of the parameter. -/
theorem read_chain {name : Str} (hn : Letters name) (label : Str) (ps : List (Str × Str))
    (hk : ∀ p ∈ ps, '=' ∉ p.1) (hv : ∀ p ∈ ps, ∀ c ∈ ['&', '#'], c ∉ p.2) :
    (after (name ++ ['=']) (chain label ps)).elim [] (upTo '&') =
      (strayIn name label ps).getD ((ps.lookup name).getD []) := by
  have hne : name ++ ['='] ≠ [] := by simp
  have hd : ∀ c ∈ ['&', '#'], c ∉ name ++ ['='] := by
    intro c hc hm
    rcases List.mem_append.1 hm with hm | hm
    · exact hn c (by simp at hc ⊢; tauto) hm
    · simp at hc hm
      rcases hc with rfl | rfl <;> cases hm
  induction ps with
  | nil =>
    rw [chain, ← List.nil_append ('#' :: label), after_append_cons (after_eq_none (c := '=') (by simp) (by simp))
      (hd '#' (by simp)) hne, strayIn]
    cases after (name ++ ['=']) label <;> rfl
  | cons p ps ih =>
    obtain ⟨k, v⟩ := p
    have hkk : '=' ∉ k := hk (k, v) List.mem_cons_self
    have hvv := hv (k, v) List.mem_cons_self
    have ih := ih (fun p hp => hk p (List.mem_cons_of_mem _ hp)) fun p hp => hv p (List.mem_cons_of_mem _ hp)
    have hpair := after_pair (hn '=' (by simp)) hkk v
    have hchain : after (name ++ ['=']) (chain label ((k, v) :: ps)) =
        after (name ++ ['=']) (pairText (k, v) ++ chain label ps) := by
      rw [chain]
      exact after_append_cons (p := []) (after_eq_none (c := '=') (by simp) (by simp)) (hd '&' (by simp)) hne _
    rw [hchain, strayIn]
    by_cases hsuf : name <:+ k
    · rw [if_pos hsuf] at hpair
      have hread : upTo '&' (v ++ chain label ps) = v := upTo_chain (hvv '&' (by simp)) (hvv '#' (by simp)) label ps
      rw [pairText, after_append_of_some hpair, Option.elim_some, hread]
      by_cases hkn : k = name
      · simp [hkn]
      · simp [hkn, hsuf]
    · have hkn : ¬k = name := fun e => hsuf (e ▸ List.suffix_rfl)
      have hlook : ((k, v) :: ps).lookup name = ps.lookup name := by
        rw [List.lookup_cons]
        have : (name == k) = false := by simpa using fun e : name = k => hkn e.symm
        rw [this]
      rw [if_neg hsuf] at hpair
      rw [if_neg hkn, if_neg hsuf, hlook]
      cases hav : after (name ++ ['=']) v with
      | some t =>
        rw [hav] at hpair
        have hread : upTo '&' (t ++ chain label ps) = t :=
          upTo_chain (fun h => hvv '&' (by simp) (mem_of_after hav h)) (fun h => hvv '#' (by simp) (mem_of_after hav h)) label ps
        rw [pairText, after_append_of_some hpair, Option.elim_some, hread]
        rfl
      | none =>
        rw [hav] at hpair
        rw [pairText, after_chain hne hd _ label ps hpair, ih]
        rfl

/-! ## In the whole text -/

/-- The text behind the `?` is read like the chain. -/
theorem after_back (u : NodeUri) {d : Str} (hne : d ≠ []) (hd : ∀ c ∈ ['&', '#'], c ∉ d) :
    after d u.back = after d (chain u.label u.params) := by
  unfold back
  cases hp : u.params with
  | nil => rfl
  | cons p ps =>
    have hnil : after d [] = none := by
      cases d with
      | nil => exact absurd rfl hne
      | cons c cs => rfl
    rw [chain_cons]
    exact (after_append_cons hnil (hd '&' (by simp)) hne _).symm

/-- A parameter of the text: the stray text, or the value of the parameter. -/
theorem param_text (u : NodeUri) {name : Str} (hn : Letters name) :
    param u.text name = (u.stray name).getD (u.value name) := by
  have hne : name ++ ['='] ≠ [] := by simp
  have hd : ∀ c ∈ ['&', '#', '?', '/'], c ∉ name ++ ['='] := by
    intro c hc hm
    rcases List.mem_append.1 hm with hm | hm
    · exact hn c (List.mem_cons_of_mem _ hc) hm
    · obtain rfl := List.mem_singleton.1 hm
      exact absurd hc (by decide)
  -- nothing is found in the scheme
  have hscheme : after (name ++ ['=']) u.text = after (name ++ ['=']) (u.front ++ '?' :: u.back) := by
    have hs : after (name ++ ['=']) "x365:/".toList = none := after_eq_none (c := '=') (by simp) (by decide)
    exact after_append_cons hs (hd '/' (by simp)) hne _
  rw [param_eq, hscheme, stray]
  cases hf : after (name ++ ['=']) u.front with
  | some b =>
    rw [after_append_of_some hf]
    rfl
  | none =>
    have hd' : ∀ c ∈ ['&', '#'], c ∉ name ++ ['='] := by
      intro c hc
      rcases List.mem_cons.1 hc with rfl | hc
      · exact hd '&' (by simp)
      · exact List.mem_singleton.1 hc ▸ hd '#' (by simp)
    rw [after_append_cons hf (hd '?' (by simp)) hne, after_back u hne hd']
    exact read_chain hn u.label u.params (fun p hp => u.keys_ok p hp '=' (by simp)) u.values_ok

/-- No `#` stands before the label. -/
theorem hash_not_mem_query (u : NodeUri) : '#' ∉ query u.params := by
  have key : ∀ ps : List (Str × Str), (∀ p ∈ ps, '#' ∉ pairText p) → '#' ∉ query ps := by
    intro ps
    induction ps with
    | nil => exact fun _ => List.not_mem_nil
    | cons p ps ih =>
      intro h
      cases ps with
      | nil => simpa [query, joinToString] using h p List.mem_cons_self
      | cons q ps =>
        have hp := h p List.mem_cons_self
        have hq := ih fun x hx => h x (List.mem_cons_of_mem p hx)
        have he : query (p :: q :: ps) = pairText p ++ '&' :: query (q :: ps) := by
          simp [query, joinToString, List.intercalate_cons_cons]
        rw [he]
        simp [hp, hq]
  refine key u.params fun p hp hm => ?_
  rcases List.mem_append.1 hm with hm | hm
  · exact u.keys_ok p hp '#' (by simp) hm
  · rcases List.mem_cons.1 hm with hm | hm
    · cases hm
    · exact u.values_ok p hp '#' (by simp) hm

/-- The label is what follows the first `#`. -/
theorem after_hash (u : NodeUri) : after ['#'] u.text = some u.label := by
  have h1 := u.uuid_ok '#' (by simp)
  have h2 := u.host_ok '#' (by simp)
  have h3 := u.port_ok '#' (by simp)
  have h4 := hash_not_mem_query u
  have h5 : '#' ∉ scheme := by decide
  have hbefore : '#' ∉ scheme ++ (u.front ++ '?' :: query u.params) := by
    simp [front, h1, h2, h3, h4, h5]
  have he : u.text = scheme ++ (u.front ++ '?' :: query u.params) ++ '#' :: u.label := by
    simp [text, back]
  rw [he, after_singleton hbefore]

/-- The server and the port are what stands between the `@` and the `?`. -/
theorem address_text (u : NodeUri) : address ((after ['@'] u.text).getD u.text) = (u.host, u.port) := by
  have hat : '@' ∉ scheme ++ u.uuid := by
    have h1 := u.uuid_ok '@' (by simp)
    have h2 : '@' ∉ scheme := by decide
    simp [h1, h2]
  have he : u.text = scheme ++ u.uuid ++ '@' :: (u.host ++ ':' :: u.port ++ '?' :: u.back) := by
    simp [text, front]
  have hq : '?' ∉ u.host ++ ':' :: u.port := by
    have h1 := u.host_ok '?' (by simp)
    have h2 := u.port_ok '?' (by simp)
    simp [h1, h2]
  have hf : '#' ∉ u.host ++ ':' :: u.port := by
    have h1 := u.host_ok '#' (by simp)
    have h2 := u.port_ok '#' (by simp)
    simp [h1, h2]
  have hc : ':' ∉ u.host := u.host_ok ':' (by simp)
  rw [he, after_singleton hat, Option.getD_some]
  simp only [address, upTo_append_cons hq hf, contains_eq, substringAfter_eq, after_singleton hc,
    substringBefore_append_cons hc, Option.isSome_some, if_true, Option.getD_some]

/-- A parameter is read as its value when the stray text, if there is any, is that value. -/
theorem plainParam_iff (u : NodeUri) (name : Str) : (u.stray name).getD (u.value name) = u.value name ↔ u.PlainParam name := by
  unfold PlainParam
  cases u.stray name <;> simp

theorem plainSni_iff (u : NodeUri) : sniOf (fun name => (u.stray name).getD (u.value name)) = sniOf u.value ↔ u.PlainSni := by
  rw [sniOf, sniOf, ifEmpty_eq_iff, plainParam_iff, plainParam_iff, PlainSni]
  refine or_congr_right (or_congr ?_ ?_)
  · cases u.stray "sni".toList with
    | none => simp +contextual
    | some t => cases u.stray "host".toList <;> simp
  · cases u.stray "sni".toList with
    | none => simp +contextual
    | some t =>
      simp only [Option.getD_some, Option.some.injEq]
      constructor
      · rintro ⟨hne, hnil, rfl⟩
        exact ⟨hnil, hne, rfl⟩
      · rintro ⟨hnil, hne, rfl⟩
        exact ⟨hne, hnil, rfl⟩

end ParseNodeAux

open NodeUri ParseNodeAux UriAux

/-- Every field of a node URI put together from its parts is read, the user part, the server, the port and the label always,
exactly when no stray `name=` is read in the place of a parameter. -/
theorem parseNode_reads_iff (u : NodeUri) : (∃ n, parseNode u.text = some n ∧ Reads u n) ↔ Plain u := by
  have hs : startsWith scheme u.text = true := startsWith_iff.2 ⟨_, rfl⟩
  obtain ⟨n, hn, hlabel, haddr, huuid, hpath, hsni, hpbk, hsid⟩ := parseNode_eq hs
  rw [address_text, Prod.mk.injEq] at haddr
  have huuid : n.uuid = u.uuid := by
    rw [huuid _ rfl, front, List.append_assoc, List.cons_append, substringBefore_append_cons (u.uuid_ok '@' (by simp))]
  rw [param_text u (forall_mem_of_all (by decide))] at hpath hpbk hsid
  rw [param_text u (forall_mem_of_all (by decide)), param_text u (forall_mem_of_all (by decide))] at hsni
  constructor
  · rintro ⟨m, hm, hr⟩
    obtain rfl : n = m := Option.some.inj (hn.symm.trans hm)
    refine ⟨(plainParam_iff u _).1 (hpbk.symm.trans hr.pbk), (plainParam_iff u _).1 (hsid.symm.trans hr.sid),
      (plainSni_iff u).1 (hsni.symm.trans hr.sni), ?_⟩
    have := hpath.symm.trans hr.path
    rw [List.cons.injEq] at this
    exact (plainParam_iff u _).1 this.2
  · intro h
    refine ⟨n, hn, huuid, haddr.1, haddr.2, hlabel _ (after_hash u), ?_, ?_, hsni.trans ((plainSni_iff u).2 h.sni), ?_⟩
    · rw [hpbk, (plainParam_iff u _).2 h.pbk]
    · rw [hsid, (plainParam_iff u _).2 h.sid]
    · rw [hpath, (plainParam_iff u _).2 h.path]

/-- A URI with an unknown key that ends in `pbk` before the `pbk` itself. -/
def strayKey : NodeUri where
  uuid := "u".toList
  host := "h".toList
  port := "443".toList
  params := [("xpbk".toList, "1".toList), ("pbk".toList, "2".toList)]
  label := "a".toList
  uuid_ok := forall_mem_of_all (by decide)
  host_ok := forall_mem_of_all (by decide)
  port_ok := forall_mem_of_all (by decide)
  keys_ok := by
    simp only [List.forall_mem_cons, List.not_mem_nil, false_imp_iff, implies_true, and_true]
    decide
  values_ok := by
    simp only [List.forall_mem_cons, List.not_mem_nil, false_imp_iff, implies_true, and_true]
    decide

/-- The value of the unknown key is read in the place of the `pbk`. -/
theorem stray_key_read : ¬∃ n, parseNode strayKey.text = some n ∧ Reads strayKey n := by
  rintro ⟨n, hn, hr⟩
  obtain rfl := Option.some.inj hn
  exact absurd hr.pbk (by decide)

end Open365Vpn
