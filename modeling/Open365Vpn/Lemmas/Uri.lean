import Open365Vpn.Lib.Search
import Open365Vpn.Nodes

/-!
# Reading a URI part by part

`parseNode` looks for each of its fields in the whole URI, fragment included. `upTo` is what it then reads: the text up to a
character or the fragment. Here the searches are taken apart at the fragment, for any text before it.
-/

namespace Open365Vpn

open Kotlin

/-- The text up to a character or the fragment, whichever comes first. -/
def upTo (c : Char) (t : Str) : Str := substringBefore ['#'] (substringBefore [c] t)

/-- The server and the port that `parseNode` reads from a text that starts with them. -/
def address (t : Str) : Str × Str :=
  let hostPort := upTo '?' t
  (substringBefore [':'] hostPort, if contains [':'] hostPort then substringAfter [':'] hostPort else [])

namespace UriAux

/-! ## The text up to a character or the fragment -/

theorem upTo_eq_self {c : Char} {t : Str} (hc : c ∉ t) (hf : '#' ∉ t) : upTo c t = t := by
  rw [upTo, substringBefore_eq_self hc, substringBefore_eq_self hf]

theorem upTo_append_cons {c : Char} {t : Str} (hc : c ∉ t) (hf : '#' ∉ t) (s : Str) : upTo c (t ++ c :: s) = t := by
  rw [upTo, substringBefore_append_cons hc, substringBefore_eq_self hf]

/-- The fragment is not read. -/
theorem upTo_append_fragment {c : Char} (hc : c ≠ '#') {t : Str} (hf : '#' ∉ t) (s : Str) : upTo c (t ++ '#' :: s) = upTo c t := by
  by_cases hm : c ∈ t
  · rw [upTo, substringBefore_append_of_mem hm, upTo]
  · have hcs : substringBefore [c] ('#' :: s) = '#' :: substringBefore [c] s := by
      have := substringBefore_append (c := c) (p := ['#']) (by simpa using hc) s
      simpa using this
    rw [upTo_eq_self hm hf, upTo, substringBefore_append hm, hcs, substringBefore_append_cons hf]

/-! ## Parameters -/

theorem param_eq (uri name : Str) : param uri name = (after (name ++ ['=']) uri).elim [] (upTo '&') := by
  simp only [param, contains_eq, substringAfter_eq]
  cases after (name ++ ['=']) uri with
  | none => rfl
  | some t => rfl

/-- A parameter is read before the fragment where its key occurs there, and else in the fragment. -/
theorem param_fragment {name base : Str} (hn : '#' ∉ name) (hb : '#' ∉ base) (t : Str) :
    param (base ++ '#' :: t) name = if contains (name ++ ['=']) base then param base name else param t name := by
  have hkey : '#' ∉ name ++ ['='] := by simpa using hn
  rw [param_eq, contains_eq, param_eq base, param_eq t]
  cases h : after (name ++ ['=']) base with
  | none =>
    rw [after_append_cons h hkey (by simp)]
    rfl
  | some b =>
    obtain ⟨⟨a, b'⟩, hcut, rfl⟩ := Option.map_eq_some_iff.1 h
    have hbf : '#' ∉ b' := by
      intro hm
      apply hb
      rw [eq_of_cut hcut]
      exact List.mem_append_right _ (List.mem_append_right _ hm)
    rw [after_append_of_some h]
    exact upTo_append_fragment (by decide) hbf t

theorem param_of_not_contains {uri name : Str} (h : contains (name ++ ['=']) uri = false) : param uri name = [] := by
  simp [param, h]

/-! ## What `parseNode` returns -/

/-- The path is a slash and the parameter, also when that is empty. -/
theorem path_eq (p : Str) : (if p.isEmpty then "/".toList else "/".toList ++ p) = '/' :: p := by
  cases p <;> rfl

/-- The fields of a parsed node. -/
theorem parseNode_eq {uri : Str} (h : startsWith scheme uri = true) :
    ∃ n, parseNode uri = some n ∧
      (∀ t, after ['#'] uri = some t → n.label = trim t) ∧
      (n.server, n.port) = address ((after ['@'] uri).getD uri) ∧
      (∀ t, uri = scheme ++ t → n.uuid = substringBefore ['@'] t) ∧
      n.path = '/' :: param uri "path".toList ∧
      n.sni = (if (param uri "sni".toList).isEmpty then param uri "host".toList else param uri "sni".toList) ∧
      n.pbk = param uri "pbk".toList ∧
      n.sid = param uri "sid".toList := by
  obtain ⟨n, hn⟩ := exists_parseNode h
  refine ⟨n, hn, ?_⟩
  simp only [parseNode, h, Bool.not_true, Bool.false_eq_true, if_false] at hn
  obtain rfl := Option.some.inj hn
  refine ⟨fun t ht => ?_, rfl, fun t ht => ?_, path_eq _, rfl, rfl, rfl⟩
  · simp only [contains_eq, substringAfter_eq, ht, Option.isSome_some, if_true, Option.getD_some]
  · have ha : after scheme uri = some t := ht ▸ after_append_self scheme t
    simp only [substringAfter_eq, ha, Option.getD_some]

/-- The label of a relabelled URI is the new one. -/
theorem label_of_relabel {uri label : Str} {n : NodeItem} (h : parseNode (relabel uri label) = some n) :
    n.label = trim label := by
  obtain ⟨m, hm, hlabel, -⟩ := parseNode_eq (startsWith_of_parseNode h)
  obtain rfl := Option.some.inj (h.symm.trans hm)
  apply hlabel
  rw [relabel_eq, after_singleton (not_mem_substringBefore '#' uri)]

/-- Two texts, with others in their places where they are empty. -/
theorem ifEmpty_eq_iff (a b c d : Str) : ((if a.isEmpty then c else a) = if b.isEmpty then d else b) ↔
    (a = b ∧ (b = [] → c = d)) ∨ (a = [] ∧ b ≠ [] ∧ c = b) ∨ (a ≠ [] ∧ b = [] ∧ a = d) := by
  cases a <;> cases b <;> simp

end UriAux

end Open365Vpn
