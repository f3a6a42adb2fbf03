import Mathlib.Data.List.Basic
import Mathlib.Data.List.DropRight
import Mathlib.Tactic.Basic

/-!
# Kotlin's string functions, on lists of characters

A string is the list of its characters. The functions carry the names of the Kotlin standard library and follow its
documentation on the JVM: which characters are blank or digits, that a missing delimiter gives the whole string back, that
`lines` ends a line at a line feed, a carriage return or the pair of them while `split` only knows the delimiter it is given.
-/

namespace Kotlin

/-- A Kotlin string. -/
abbrev Str : Type := List Char

instance instLawfulBEqStr : LawfulBEq Str := inferInstance

/-! ## Characters -/

/-- `Char.isWhitespace`: the space, line and paragraph separators, and the control characters 9 to 13 and 28 to 31. -/
def isWhitespace (c : Char) : Bool :=
  let n := c.toNat
  (9 ≤ n && n ≤ 13) || (28 ≤ n && n ≤ 32) || n == 0xA0 || n == 0x1680 || (0x2000 ≤ n && n ≤ 0x200A) || n == 0x2028 ||
    n == 0x2029 || n == 0x202F || n == 0x205F || n == 0x3000

/-- The zeros of the decimal digit blocks that one UTF-16 code unit can name. -/
def digitZeros : List Nat :=
  [0x0030, 0x0660, 0x06F0, 0x07C0, 0x0966, 0x09E6, 0x0A66, 0x0AE6, 0x0B66, 0x0BE6, 0x0C66, 0x0CE6, 0x0D66, 0x0DE6, 0x0E50,
    0x0ED0, 0x0F20, 0x1040, 0x1090, 0x17E0, 0x1810, 0x1946, 0x19D0, 0x1A80, 0x1A90, 0x1B50, 0x1BB0, 0x1C40, 0x1C50, 0xA620,
    0xA8D0, 0xA900, 0xA9D0, 0xA9F0, 0xAA50, 0xABF0, 0xFF10]

/-- `Char.isDigit`: a decimal digit of any script. -/
def isDigit (c : Char) : Bool := digitZeros.any fun z => z ≤ c.toNat && c.toNat ≤ z + 9

/-- `String.uppercase` on one character, as far as it gives letters of `A`..`Z`: the small Latin letters, the dotless i and the
long s, and the sharp s and the ligatures, which become two or three letters. Any other character is left as it is: its
uppercase form is not made of these letters. -/
def uppercaseChar (c : Char) : Str :=
  if 'a' ≤ c && c ≤ 'z' then [Char.ofNat (c.toNat - 32)]
  else if c == 'ı' then ['I']
  else if c == 'ſ' then ['S']
  else if c == 'ß' then ['S', 'S']
  else if c == 'ﬀ' then ['F', 'F']
  else if c == 'ﬁ' then ['F', 'I']
  else if c == 'ﬂ' then ['F', 'L']
  else if c == 'ﬃ' then ['F', 'F', 'I']
  else if c == 'ﬄ' then ['F', 'F', 'L']
  else if c == 'ﬅ' || c == 'ﬆ' then ['S', 'T']
  else [c]

/-- `String.uppercase`. -/
def uppercase (s : Str) : Str := s.flatMap uppercaseChar

/-! ## Trimming -/

/-- `String.trimEnd`. -/
def trimEnd (s : Str) : Str := s.rdropWhile isWhitespace

/-- `String.trim`. -/
def trim (s : Str) : Str := trimEnd (s.dropWhile isWhitespace)

/-- `String.trimStart` of one given character. -/
def trimStartOf (c : Char) (s : Str) : Str := s.dropWhile (· == c)

/-- A trimmed string is part of the string. -/
theorem mem_of_mem_trim {s : Str} {c : Char} (h : c ∈ trim s) : c ∈ s :=
  (List.dropWhile_sublist _).subset ((List.rdropWhile_prefix _ _).subset h)

/-- A trimmed string does not end in a blank. -/
theorem getLast_trim (s : Str) (h : trim s ≠ []) : isWhitespace ((trim s).getLast h) = false := by
  exact Bool.eq_false_iff.2 (List.rdropWhile_last_not isWhitespace (s.dropWhile isWhitespace) h)

/-- A string that starts with a visible character and ends in one is its own trimming. -/
theorem trim_eq_self {s : Str} (hh : ∀ c ∈ s.head?, isWhitespace c = false)
    (hl : ∀ c ∈ s.getLast?, isWhitespace c = false) : trim s = s := by
  have hd : s.dropWhile isWhitespace = s := by
    cases s with
    | nil => rfl
    | cons c cs => rw [List.dropWhile_cons_of_neg]; simpa using hh
  rw [trim, trimEnd, hd, List.rdropWhile_eq_self_iff]
  intro hne
  rw [hl _ (List.getLast?_eq_some_getLast hne)]
  exact Bool.false_ne_true

/-- Blanks at the end of a string are trimmed. -/
theorem trimEnd_append_blank (s : Str) {ws : Str} (h : ∀ c ∈ ws, isWhitespace c = true) : trimEnd (s ++ ws) = trimEnd s := by
  rw [trimEnd, trimEnd, List.rdropWhile, List.rdropWhile, List.reverse_append, List.dropWhile_append_of_pos]
  simpa using h

/-- A string that ends in a visible character keeps its end. -/
theorem trimEnd_concat (s : Str) {c : Char} (h : isWhitespace c = false) : trimEnd (s ++ [c]) = s ++ [c] := by
  rw [trimEnd, List.rdropWhile_concat_neg]
  simp [h]

/-- A string is its trimming and the blanks behind it. -/
theorem exists_trimEnd_append (s : Str) : ∃ ws, s = trimEnd s ++ ws ∧ ∀ c ∈ ws, isWhitespace c = true := by
  refine ⟨(s.reverse.takeWhile isWhitespace).reverse, ?_, fun c hc => ?_⟩
  · rw [trimEnd, List.rdropWhile, ← List.reverse_append, List.takeWhile_append_dropWhile, List.reverse_reverse]
  · exact List.mem_takeWhile_imp (List.mem_reverse.1 hc)

/-- A trimmed string does not start with a blank. -/
theorem head_trim (s : Str) : ∀ c ∈ (trim s).head?, isWhitespace c = false := by
  intro c hc
  have hp : trim s <+: s.dropWhile isWhitespace := List.rdropWhile_prefix _ _
  obtain ⟨t, ht⟩ := hp
  cases hts : trim s with
  | nil => rw [hts] at hc; cases hc
  | cons d ds =>
    rw [hts] at hc ht
    obtain rfl : d = c := by simpa using hc
    have hne : s.dropWhile isWhitespace ≠ [] := by rw [← ht]; simp
    have := List.head_dropWhile_not isWhitespace hne
    simpa [← ht] using this

/-- Trimming twice is trimming once. -/
@[simp] theorem trim_trim (s : Str) : trim (trim s) = trim s := by
  apply trim_eq_self (head_trim s)
  intro c hc
  obtain ⟨hne, rfl⟩ := List.mem_getLast?_eq_getLast hc
  exact getLast_trim s hne

/-! ## Prefixes and delimiters -/

/-- `String.startsWith`. -/
def startsWith (p s : Str) : Bool := p.isPrefixOf s

theorem startsWith_iff {p s : Str} : startsWith p s = true ↔ ∃ t, s = p ++ t := by
  rw [startsWith, List.isPrefixOf_iff_prefix]
  exact ⟨fun ⟨t, ht⟩ => ⟨t, ht.symm⟩, fun ⟨t, ht⟩ => ⟨t, ht.symm⟩⟩

/-- The first occurrence of a delimiter: what stands before it, and what stands after. -/
def cut (d : Str) : Str → Option (Str × Str)
  | [] => if d.isEmpty then some ([], []) else none
  | c :: cs => if d.isPrefixOf (c :: cs) then some ([], (c :: cs).drop d.length) else (cut d cs).map fun p => (c :: p.1, p.2)

/-- `d in s`. -/
def contains (d s : Str) : Bool := (cut d s).isSome

/-- `String.substringBefore`: the whole string when the delimiter is missing. -/
def substringBefore (d s : Str) : Str := ((cut d s).map Prod.fst).getD s

/-- `String.substringAfter`: the whole string when the delimiter is missing. -/
def substringAfter (d s : Str) : Str := ((cut d s).map Prod.snd).getD s

/-- A delimiter of one character that a prefix does not hold is looked for after the prefix. -/
theorem cut_append {c : Char} {p : Str} (h : c ∉ p) (s : Str) :
    cut [c] (p ++ s) = (cut [c] s).map fun q => (p ++ q.1, q.2) := by
  induction p with
  | nil => simp
  | cons a p ih =>
    rw [List.mem_cons, not_or] at h
    have hp : [c].isPrefixOf (a :: (p ++ s)) = false := by simp [List.isPrefixOf, h.1]
    rw [List.cons_append, cut, hp, if_neg Bool.false_ne_true, ih h.2, Option.map_map]
    rfl

theorem substringBefore_append {c : Char} {p : Str} (h : c ∉ p) (s : Str) :
    substringBefore [c] (p ++ s) = p ++ substringBefore [c] s := by
  rw [substringBefore, cut_append h, substringBefore]
  cases cut [c] s <;> rfl

/-- What stands before a delimiter is part of the string. -/
theorem prefix_substringBefore (d s : Str) : substringBefore d s <+: s := by
  rw [substringBefore]
  induction s with
  | nil =>
    cases h : cut d [] with
    | none => exact List.prefix_rfl
    | some p =>
      rw [cut] at h
      split at h
      · rw [← Option.some.inj h]; exact List.prefix_rfl
      · cases h
  | cons c cs ih =>
    rw [cut]
    split
    · exact List.nil_prefix
    · cases hcs : cut d cs with
      | none => exact List.prefix_rfl
      | some p =>
        rw [hcs] at ih
        exact List.cons_prefix_cons.2 ⟨rfl, ih⟩

/-! ## Lines -/

/-- `String.lines`: the lines between line feeds, carriage returns and pairs of them. -/
def lines : Str → List Str
  | [] => [[]]
  | '\r' :: '\n' :: cs => [] :: lines cs
  | '\n' :: cs => [] :: lines cs
  | '\r' :: cs => [] :: lines cs
  | c :: cs => (lines cs).modifyHead (c :: ·)

/-- No line holds a line end. -/
theorem not_mem_of_mem_lines {s l : Str} (h : l ∈ lines s) : '\n' ∉ l ∧ '\r' ∉ l := by
  induction s using lines.induct generalizing l with
  | case1 => simp_all [lines]
  | case2 cs ih | case3 cs ih | case4 cs _ ih =>
    simp only [lines, List.mem_cons] at h
    rcases h with rfl | h
    · simp
    · exact ih h
  | case5 c cs h1 h2 h3 ih =>
    rw [lines] at h
    · cases hcs : lines cs with
      | nil => simp [hcs] at h
      | cons x xs =>
        rw [hcs, List.modifyHead_cons, List.mem_cons] at h
        rcases h with rfl | h
        · have hx := ih (hcs ▸ List.mem_cons_self)
          simp only [List.mem_cons, not_or]
          exact ⟨⟨fun e => h2 e.symm, hx.1⟩, fun e => h3 e.symm, hx.2⟩
        · exact ih (hcs ▸ List.mem_cons_of_mem _ h)
    · exact h1
    · exact h2
    · exact h3

/-- What a check of every character of a text says. -/
theorem forall_mem_of_all {p : Char → Prop} [DecidablePred p] {s : Str} (h : (s.all fun c => decide (p c)) = true) :
    ∀ c ∈ s, p c := by
  intro c hc
  exact of_decide_eq_true (List.all_eq_true.1 h c hc)

/-- A string without a line end. -/
def NoBreak (l : Str) : Prop := '\n' ∉ l ∧ '\r' ∉ l

instance (l : Str) : Decidable (NoBreak l) := inferInstanceAs (Decidable (_ ∧ _))

theorem NoBreak.tail {c : Char} {l : Str} (h : NoBreak (c :: l)) : c ≠ '\n' ∧ c ≠ '\r' ∧ NoBreak l := by
  simp only [NoBreak, List.mem_cons, not_or] at h
  exact ⟨fun e => h.1.1 e.symm, fun e => h.2.1 e.symm, h.1.2, h.2.2⟩

/-- A character that ends no line belongs to the first line. -/
theorem lines_cons {c : Char} (h1 : c ≠ '\n') (h2 : c ≠ '\r') (s : Str) : lines (c :: s) = (lines s).modifyHead (c :: ·) := by
  rw [lines]
  · exact fun _ e => absurd e h2
  · exact h1
  · exact h2

theorem lines_of_noBreak {l : Str} (h : NoBreak l) : lines l = [l] := by
  induction l with
  | nil => rfl
  | cons c l ih =>
    obtain ⟨h1, h2, h⟩ := h.tail
    rw [lines_cons h1 h2, ih h]
    rfl

/-- A line with what follows it, where that is read as starting with a line end. -/
theorem lines_append {l t : Str} {ls : List Str} (h : NoBreak l) (ht : lines t = [] :: ls) : lines (l ++ t) = l :: ls := by
  induction l with
  | nil => exact ht
  | cons c l ih =>
    obtain ⟨h1, h2, h⟩ := h.tail
    rw [List.cons_append, lines_cons h1 h2, ih h]
    rfl

theorem lines_lf (t : Str) : lines ('\n' :: t) = [] :: lines t := by rw [lines]

theorem lines_crlf (t : Str) : lines ('\r' :: '\n' :: t) = [] :: lines t := by rw [lines]

/-- A carriage return ends a line by itself when no line feed follows. -/
theorem lines_cr_of_not_lf {t : Str} (h : ∀ t', t = '\n' :: t' → False) : lines ('\r' :: t) = [] :: lines t := by
  rw [lines]
  exact h

/-- A carriage return ends a line, together with a line feed behind it. -/
theorem lines_cr (t : Str) :
    lines ('\r' :: t) = [] :: lines t ∨ ∃ t', t = '\n' :: t' ∧ lines ('\r' :: t) = [] :: lines t' := by
  by_cases h : ∃ t', t = '\n' :: t'
  · obtain ⟨t', rfl⟩ := h
    exact Or.inr ⟨t', rfl, lines_crlf t'⟩
  · left
    apply lines_cr_of_not_lf
    intro t' e
    exact h ⟨t', e⟩

/-- `String.split` at a delimiter of one character. -/
def split (c : Char) (s : Str) : List Str := s.splitOn c

/-- `Iterable.joinToString` with a separator of one character. -/
def joinToString (c : Char) (ss : List Str) : Str := [c].intercalate ss

/-- No part of a split holds the delimiter. -/
theorem not_mem_of_mem_split {c : Char} {s l : Str} (h : l ∈ split c s) : c ∉ l := by
  rw [split] at h
  induction s generalizing l with
  | nil =>
    rw [List.splitOn_nil, List.mem_singleton] at h
    simp [h]
  | cons a s ih =>
    rw [List.splitOn_cons_eq_if_modifyHead] at h
    split_ifs at h with ha
    · rcases List.mem_cons.1 h with rfl | h
      · exact List.not_mem_nil
      · exact ih h
    · obtain ⟨x, xs, hx⟩ := List.exists_cons_of_ne_nil (List.splitOn_ne_nil c s)
      rw [hx, List.modifyHead_cons, List.mem_cons] at h
      rcases h with rfl | h
      · have hc : c ∉ x := ih (hx ▸ List.mem_cons_self)
        have hac : ¬c = a := fun e => ha (by simp [e])
        simp [hac, hc]
      · exact ih (hx ▸ List.mem_cons_of_mem _ h)

/-- Splitting what was joined splits each part. -/
theorem split_joinToString (c : Char) {ss : List Str} (h : ss ≠ []) :
    split c (joinToString c ss) = ss.flatMap (split c) := by
  induction ss with
  | nil => exact absurd rfl h
  | cons s ss ih =>
    cases ss with
    | nil => simp [joinToString]
    | cons t ts =>
      have hj : joinToString c (s :: t :: ts) = s ++ c :: joinToString c (t :: ts) := by
        simp [joinToString, List.intercalate_cons_cons]
      rw [hj, split, List.splitOn_append_cons_self, List.flatMap_cons]
      exact congrArg _ (ih (by simp))

/-- Joining more parts that are not empty gives a longer string. -/
theorem length_joinToString_lt (c : Char) (ss : List Str) {new : List Str} (hne : new ≠ []) (hnew : ∀ s ∈ new, s ≠ []) :
    (joinToString c ss).length < (joinToString c (ss ++ new)).length := by
  induction ss with
  | nil =>
    obtain ⟨s, rest, rfl⟩ := List.exists_cons_of_ne_nil hne
    have hs : 0 < s.length := List.length_pos_of_ne_nil (hnew s List.mem_cons_self)
    cases rest with
    | nil => simpa [joinToString] using hs
    | cons t ts =>
      simp only [joinToString, List.intercalate_nil, List.length_nil, List.nil_append, List.intercalate_cons_cons,
        List.length_append]
      omega
  | cons s ss ih =>
    have hcons : ∀ {l : List Str}, l ≠ [] → joinToString c (s :: l) = s ++ [c] ++ joinToString c l :=
      List.intercalate_cons_of_ne_nil
    rw [List.cons_append, hcons (show ss ++ new ≠ [] by simp [hne])]
    cases ss with
    | nil =>
      simp only [joinToString, List.intercalate_singleton, List.length_append, List.length_singleton]
      omega
    | cons t ts =>
      rw [hcons (show t :: ts ≠ [] by simp)]
      simp only [List.length_append]
      omega

/-- A string without the delimiter is its own and only part. -/
theorem split_eq_self {c : Char} {s : Str} (h : c ∉ s) : split c s = [s] := List.splitOn_eq_singleton h

end Kotlin
