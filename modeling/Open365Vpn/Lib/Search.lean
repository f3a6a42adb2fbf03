import Open365Vpn.Lib.KotlinText

/-!
# Searching a text made of parts

Where the first occurrence of a delimiter stands in a text that is put together from parts. An occurrence in the first part
stays the first one whatever follows (`after_append_of_some`); when the first part has none, and a character that the delimiter
does not hold stands between, the search goes on behind that character (`after_append_cons`); and in a pair `k=v` a delimiter
`name=` is found at the end of the key or inside the value (`after_pair`).
-/

namespace Kotlin

/-- What follows the first occurrence of a delimiter, when there is one. -/
def after (d s : Str) : Option Str := (cut d s).map Prod.snd

theorem contains_eq (d s : Str) : contains d s = (after d s).isSome := by
  rw [contains, after, Option.isSome_map]

theorem substringAfter_eq (d s : Str) : substringAfter d s = (after d s).getD s := rfl

/-- A text is what stands before the first occurrence, the delimiter, and what follows. -/
theorem eq_of_cut {d s a b : Str} (h : cut d s = some (a, b)) : s = a ++ (d ++ b) := by
  induction s generalizing a with
  | nil =>
    rw [cut] at h
    split at h
    · rename_i hd
      obtain ⟨rfl, rfl⟩ : a = [] ∧ b = [] := by simpa [eq_comm] using h
      rw [List.isEmpty_iff.1 hd]
      rfl
    · cases h
  | cons c cs ih =>
    rw [cut] at h
    split at h
    · rename_i hd
      obtain ⟨rfl, rfl⟩ : a = [] ∧ b = (c :: cs).drop d.length := by simpa [eq_comm] using h
      exact (List.prefix_iff_eq_append.1 (List.isPrefixOf_iff_prefix.1 hd)).symm
    · obtain ⟨⟨a', b'⟩, hcs, he⟩ := Option.map_eq_some_iff.1 h
      obtain ⟨rfl, rfl⟩ : a = c :: a' ∧ b = b' := by simpa [eq_comm] using he
      rw [List.cons_append, ← ih hcs]

/-- The first occurrence in the first part is the first occurrence in the whole. -/
theorem after_append_of_some {d p b : Str} (h : after d p = some b) (s : Str) : after d (p ++ s) = some (b ++ s) := by
  induction p with
  | nil =>
    have hd : d.isEmpty = true := by
      by_contra hd
      simp [after, cut, hd] at h
    obtain rfl : b = [] := by simpa [after, cut, hd] using h.symm
    obtain rfl := List.isEmpty_iff.1 hd
    cases s <;> rfl
  | cons c cs ih =>
    by_cases hd : d.isPrefixOf (c :: cs) = true
    · obtain ⟨r, hr⟩ := List.isPrefixOf_iff_prefix.1 hd
      have hb : b = r := by simpa [after, cut, hd, ← hr] using h.symm
      have hd' : d.isPrefixOf (c :: (cs ++ s)) = true :=
        List.isPrefixOf_iff_prefix.2 ⟨r ++ s, by rw [← List.append_assoc, hr, List.cons_append]⟩
      have hdrop : (c :: (cs ++ s)).drop d.length = r ++ s := by
        rw [← List.cons_append, ← hr, List.append_assoc, List.drop_left]
      rw [List.cons_append, after, cut, if_pos hd', Option.map_some, hdrop, hb]
    · have hcs : after d cs = some b := by simpa [after, cut, hd, Function.comp_def] using h
      -- an occurrence at the start of the whole would be one at the start of the first part
      have hd' : ¬d.isPrefixOf (c :: (cs ++ s)) = true := by
        intro hp
        obtain ⟨⟨a, b'⟩, hcut, -⟩ := Option.map_eq_some_iff.1 hcs
        have hlen : d.length ≤ (c :: cs).length := by
          rw [List.length_cons, eq_of_cut hcut]
          simp only [List.length_append]
          omega
        rw [← List.cons_append] at hp
        exact hd (List.isPrefixOf_iff_prefix.2
          (List.prefix_of_prefix_length_le (List.isPrefixOf_iff_prefix.1 hp) (List.prefix_append _ _) hlen))
      have := ih hcs
      simpa [after, cut, hd', Function.comp_def] using this

/-- Without an occurrence in the first part, and behind a character that the delimiter does not hold, the search goes on. -/
theorem after_append_cons {d p : Str} {c : Char} (h : after d p = none) (hc : c ∉ d) (hne : d ≠ []) (s : Str) :
    after d (p ++ c :: s) = after d s := by
  induction p with
  | nil =>
    have hd : ¬d.isPrefixOf (c :: s) = true := by
      intro hp
      obtain ⟨x, xs, rfl⟩ := List.exists_cons_of_ne_nil hne
      obtain ⟨rfl, -⟩ := List.cons_prefix_cons.1 (List.isPrefixOf_iff_prefix.1 hp)
      exact hc List.mem_cons_self
    simp [after, cut, hd, Function.comp_def]
  | cons a p ih =>
    have hd : ¬d.isPrefixOf (a :: p) = true := by
      intro hp
      simp [after, cut, hp] at h
    have hp : after d p = none := by simpa [after, cut, hd] using h
    -- an occurrence that reaches beyond the first part would hold the character
    have hd' : ¬d.isPrefixOf (a :: (p ++ c :: s)) = true := by
      intro hpre
      obtain ⟨r, hr⟩ := List.isPrefixOf_iff_prefix.1 hpre
      rw [← List.cons_append] at hr
      rcases List.append_eq_append_iff.1 hr with ⟨x, hx, -⟩ | ⟨x, hx, hcs⟩
      · exact hd (List.isPrefixOf_iff_prefix.2 ⟨x, hx.symm⟩)
      · cases x with
        | nil => exact hd (List.isPrefixOf_iff_prefix.2 ⟨[], by simpa using hx⟩)
        | cons y ys =>
          obtain ⟨rfl, -⟩ : c = y ∧ s = ys ++ r := by simpa using hcs
          exact hc (hx ▸ List.mem_append_right _ List.mem_cons_self)
    have := ih hp
    simpa [after, cut, hd', Function.comp_def] using this

/-- A delimiter with a character that the text does not hold is not found. -/
theorem after_eq_none {d s : Str} {c : Char} (hd : c ∈ d) (hs : c ∉ s) : after d s = none := by
  rw [after, Option.map_eq_none_iff]
  by_contra hne
  obtain ⟨⟨a, b⟩, hcut⟩ := Option.ne_none_iff_exists'.1 hne
  apply hs
  rw [eq_of_cut hcut]
  exact List.mem_append_right _ (List.mem_append_left _ hd)

/-- A delimiter of one character, behind a part that does not hold it. -/
theorem after_singleton {c : Char} {p : Str} (h : c ∉ p) (s : Str) : after [c] (p ++ c :: s) = some s := by
  have hcut : cut [c] (c :: s) = some ([], s) := by simp [cut, List.isPrefixOf]
  rw [after, cut_append h, hcut]
  rfl

theorem after_singleton_eq_none {c : Char} {s : Str} : after [c] s = none ↔ c ∉ s := by
  refine ⟨fun h hm => ?_, fun h => after_eq_none (List.mem_singleton_self c) h⟩
  obtain ⟨p, t, rfl, hp⟩ := List.eq_append_cons_of_mem hm
  rw [after_singleton hp] at h
  cases h

/-- The delimiter at the start of a text. -/
theorem after_append_self (d s : Str) : after d (d ++ s) = some s := by
  cases d with
  | nil => cases s <;> rfl
  | cons c cs =>
    have hp : (c :: cs).isPrefixOf (c :: (cs ++ s)) = true :=
      List.isPrefixOf_iff_prefix.2 (by rw [← List.cons_append]; exact List.prefix_append _ _)
    rw [List.cons_append, after, cut, if_pos hp, Option.map_some, ← List.cons_append, List.drop_left]

/-! ## What stands before a character -/

theorem substringBefore_eq_self {c : Char} {s : Str} (h : c ∉ s) : substringBefore [c] s = s := by
  have hn : cut [c] s = none := Option.map_eq_none_iff.1 (after_singleton_eq_none.2 h)
  rw [substringBefore, hn]
  rfl

theorem substringBefore_append_cons {c : Char} {p : Str} (h : c ∉ p) (s : Str) : substringBefore [c] (p ++ c :: s) = p := by
  have hc : substringBefore [c] (c :: s) = [] := by simp [substringBefore, cut, List.isPrefixOf]
  rw [substringBefore_append h, hc, List.append_nil]

/-- What follows an occurrence does not matter. -/
theorem substringBefore_append_of_mem {c : Char} {p : Str} (h : c ∈ p) (s : Str) :
    substringBefore [c] (p ++ s) = substringBefore [c] p := by
  obtain ⟨a, b, rfl, ha⟩ := List.eq_append_cons_of_mem h
  rw [List.append_assoc, List.cons_append, substringBefore_append_cons ha, substringBefore_append_cons ha]

theorem not_mem_substringBefore (c : Char) (s : Str) : c ∉ substringBefore [c] s := by
  by_cases h : c ∈ s
  · obtain ⟨a, b, rfl, ha⟩ := List.eq_append_cons_of_mem h
    rwa [substringBefore_append_cons ha]
  · rwa [substringBefore_eq_self h]

/-! ## Pairs -/

/-- Two texts up to an equals sign that neither holds. -/
theorem append_eq_inj {c : Char} {a b x y : Str} (ha : c ∉ a) (hb : c ∉ b) (h : a ++ c :: x = b ++ c :: y) : a = b ∧ x = y := by
  induction a generalizing b with
  | nil =>
    cases b with
    | nil => exact ⟨rfl, by simpa using h⟩
    | cons d ds =>
      obtain ⟨rfl, -⟩ : c = d ∧ x = ds ++ c :: y := by simpa using h
      exact absurd List.mem_cons_self hb
  | cons e es ih =>
    cases b with
    | nil =>
      obtain ⟨rfl, -⟩ : e = c ∧ es ++ c :: x = y := by simpa using h
      exact absurd List.mem_cons_self ha
    | cons d ds =>
      obtain ⟨rfl, hrest⟩ : e = d ∧ es ++ c :: x = ds ++ c :: y := by simpa using h
      obtain ⟨rfl, rfl⟩ := ih (fun hm => ha (List.mem_cons_of_mem e hm)) (fun hm => hb (List.mem_cons_of_mem e hm)) hrest
      exact ⟨rfl, rfl⟩

/-- In a pair `k=v` the delimiter `name=` is found at the end of the key, or else inside the value. -/
theorem after_pair {name k : Str} {c : Char} (hn : c ∉ name) (hk : c ∉ k) (v : Str) :
    after (name ++ [c]) (k ++ c :: v) = if name <:+ k then some v else after (name ++ [c]) v := by
  -- an occurrence that starts in the key is the rest of the key and the equals sign
  have hpre : ∀ k, c ∉ k → ((name ++ [c]).isPrefixOf (k ++ c :: v) = true ↔ name = k) := by
    intro k hk
    rw [List.isPrefixOf_iff_prefix]
    constructor
    · rintro ⟨r, hr⟩
      rw [List.append_assoc, List.singleton_append] at hr
      exact (append_eq_inj hn hk hr).1
    · rintro rfl
      exact ⟨v, by simp⟩
  induction k with
  | nil =>
    have hp := hpre [] hk
    by_cases hname : name = []
    · have hi : (name ++ [c]).isPrefixOf (c :: v) = true := hp.2 hname
      rw [if_pos (hname ▸ List.suffix_rfl), List.nil_append, after, cut, if_pos hi, hname]
      rfl
    · have hi : ¬(name ++ [c]).isPrefixOf (c :: v) = true := fun h => hname (hp.1 h)
      rw [if_neg (by rwa [List.suffix_nil]), List.nil_append]
      simp [after, cut, hi, Function.comp_def]
  | cons a k ih =>
    have hk' : c ∉ k := fun hm => hk (List.mem_cons_of_mem a hm)
    have hp := hpre (a :: k) hk
    by_cases hname : name = a :: k
    · have hi : (name ++ [c]).isPrefixOf (a :: (k ++ c :: v)) = true := hp.2 hname
      have hdrop : (a :: (k ++ c :: v)).drop (name ++ [c]).length = v := by
        have he : a :: (k ++ c :: v) = (name ++ [c]) ++ v := by simp [hname]
        rw [he, List.drop_left]
      rw [if_pos (hname ▸ List.suffix_rfl), List.cons_append, after, cut, if_pos hi, Option.map_some, hdrop]
    · have hi : ¬(name ++ [c]).isPrefixOf (a :: (k ++ c :: v)) = true := fun h => hname (hp.1 h)
      have hsuf : name <:+ a :: k ↔ name <:+ k := by rw [List.suffix_cons_iff, or_iff_right hname]
      have hrest : after (name ++ [c]) (a :: k ++ c :: v) = after (name ++ [c]) (k ++ c :: v) := by
        rw [List.cons_append]
        simp [after, cut, hi, Function.comp_def]
      rw [hrest, ih hk']
      simp only [hsuf]

end Kotlin
