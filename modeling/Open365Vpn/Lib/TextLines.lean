import Open365Vpn.Lib.KotlinText

/-!
# The lines of a text that are not blank

A text is often read by its lines, each one trimmed and the blank ones left out (`trimmedLines`). Then it does not matter how
lines end, nor whether the text was trimmed before (`trimmedLines_trim`), and texts put one under the other are read one after
the other (`trimmedLines_append_lf`). A carriage return at the end of the first text is what makes this more than a fact about
`lines`: with the line feed behind it, it is one line end, and without, it is one of two.
-/

namespace Kotlin

/-! ## Lines at a seam -/

/-- Adding a character to the first line of a text commutes with what follows the first line. -/
theorem modifyHead_append {α : Type*} (f : α → α) {l : List α} (h : l ≠ []) (l' : List α) :
    (l ++ l').modifyHead f = l.modifyHead f ++ l' := by
  cases l with
  | nil => exact absurd rfl h
  | cons a l => rfl

/-- What a text starts with does not depend on what follows it. -/
theorem not_lf_append {c : Char} {t : Str} (h : ∀ t', c :: t = '\n' :: t' → False) (u : Str) :
    ∀ t', c :: t ++ u = '\n' :: t' → False := by
  intro t' e
  rw [List.cons_append, List.cons.injEq] at e
  exact h t (by rw [e.1])

/-- What follows a line end leaves the lines before it as they are, up to an empty line at their end: a carriage return at the
end of the first text may be the first half of the line end. -/
theorem lines_append_break (t : Str) {u : Str} {ls : List Str} (h : lines u = [] :: ls) :
    ∃ l e, l ≠ [] ∧ (e = [] ∨ e = [[]]) ∧ lines t = l ++ e ∧ lines (t ++ u) = l ++ ls := by
  induction t using lines.induct with
  | case1 => exact ⟨[[]], [], by simp, Or.inl rfl, rfl, h⟩
  | case2 cs ih | case3 cs ih =>
    obtain ⟨l, e, -, he, h1, h2⟩ := ih
    exact ⟨[] :: l, e, by simp, he, by simp [lines, h1], by simp [lines, h2]⟩
  | case4 cs hcs ih =>
    cases cs with
    | nil =>
      rcases lines_cr u with hcr | ⟨v, rfl, hcr⟩
      · exact ⟨[[], []], [], by simp, Or.inl rfl, rfl, by rw [List.singleton_append, hcr, h]; rfl⟩
      · -- the two characters of one line end meet at the seam
        rw [lines_lf, List.cons.injEq] at h
        exact ⟨[[]], [[]], by simp, Or.inr rfl, rfl, by rw [List.singleton_append, hcr, h.2]; rfl⟩
    | cons c cs =>
      obtain ⟨l, e, -, he, h1, h2⟩ := ih
      refine ⟨[] :: l, e, by simp, he, ?_, ?_⟩
      · rw [lines_cr_of_not_lf hcs, h1, List.cons_append]
      · rw [List.cons_append, lines_cr_of_not_lf (not_lf_append hcs u), h2, List.cons_append]
  | case5 c cs h1 h2 h3 ih =>
    obtain ⟨l, e, hl, he, i1, i2⟩ := ih
    refine ⟨l.modifyHead (c :: ·), e, by simpa using hl, he, ?_, ?_⟩
    · rw [lines_cons h2 h3, i1, modifyHead_append _ hl]
    · rw [List.cons_append, lines_cons h2 h3, i2, modifyHead_append _ hl]

/-- A string without a line end belongs to the last line of what it follows. -/
theorem lines_append_noBreak (t : Str) {w : Str} (hw : NoBreak w) :
    ∃ ls l, lines t = ls ++ [l] ∧ lines (t ++ w) = ls ++ [l ++ w] := by
  induction t using lines.induct with
  | case1 => exact ⟨[], [], rfl, by simp [lines_of_noBreak hw]⟩
  | case2 cs ih | case3 cs ih =>
    obtain ⟨ls, l, h1, h2⟩ := ih
    exact ⟨[] :: ls, l, by simp [lines, h1], by simp [lines, h2]⟩
  | case4 cs hcs ih =>
    obtain ⟨ls, l, h1, h2⟩ := ih
    have hnot : ∀ t', cs ++ w = '\n' :: t' → False := by
      cases cs with
      | nil =>
        intro t' e
        rw [List.nil_append] at e
        exact hw.1 (by rw [e]; exact List.mem_cons_self)
      | cons c cs => exact not_lf_append hcs w
    refine ⟨[] :: ls, l, ?_, ?_⟩
    · rw [lines_cr_of_not_lf hcs, h1, List.cons_append]
    · rw [List.cons_append, lines_cr_of_not_lf hnot, h2, List.cons_append]
  | case5 c cs h1 h2 h3 ih =>
    obtain ⟨ls, l, i1, i2⟩ := ih
    rw [lines_cons h2 h3, List.cons_append, lines_cons h2 h3, i1, i2]
    cases ls with
    | nil => exact ⟨[], c :: l, rfl, rfl⟩
    | cons x xs => exact ⟨(c :: x) :: xs, l, rfl, rfl⟩

/-! ## Trimmed lines -/

/-- The trimmed lines of a text that pass a test. -/
def trimmedLines (p : Str → Bool) (t : Str) : List Str := ((lines t).map trim).filter p

/-- A blank in front of a string is trimmed. -/
theorem trim_cons_blank {c : Char} (h : isWhitespace c = true) (s : Str) : trim (c :: s) = trim s := by
  rw [trim, List.dropWhile_cons_of_pos h, trim]

/-- A blank behind a string is trimmed. -/
theorem trim_append_blank (s : Str) {c : Char} (h : isWhitespace c = true) : trim (s ++ [c]) = trim s := by
  rw [trim, List.dropWhile_append, trim]
  split
  · rename_i he
    rw [List.isEmpty_iff.1 he]
    simp [h, trimEnd]
  · exact trimEnd_append_blank _ (by simpa using h)

section

variable {p : Str → Bool} (hp : p [] = false)

include hp

/-- Texts with a line end between them are read one after the other. -/
theorem trimmedLines_append_break (t : Str) {u : Str} {ls : List Str} (h : lines u = [] :: ls) :
    trimmedLines p (t ++ u) = trimmedLines p t ++ (ls.map trim).filter p := by
  obtain ⟨l, e, -, he, h1, h2⟩ := lines_append_break t h
  have hnil : (e.map trim).filter p = [] := by
    rcases he with rfl | rfl
    · rfl
    · simp [trim, trimEnd, hp]
  simp only [trimmedLines, h1, h2, List.map_append, List.filter_append, hnil, List.append_nil]

/-- A text under another one. -/
theorem trimmedLines_append_lf (t u : Str) :
    trimmedLines p (t ++ '\n' :: u) = trimmedLines p t ++ trimmedLines p u :=
  trimmedLines_append_break hp t (lines_lf u)

/-- A blank at the end of a text, be it a line end or not. -/
theorem trimmedLines_concat_blank (t : Str) {c : Char} (h : isWhitespace c = true) :
    trimmedLines p (t ++ [c]) = trimmedLines p t := by
  have hbreak : lines [c] = [] :: [[]] → trimmedLines p (t ++ [c]) = trimmedLines p t := by
    intro hl
    rw [trimmedLines_append_break hp t hl]
    simp [trim, trimEnd, hp]
  by_cases h1 : c = '\n'
  · exact hbreak (by rw [h1]; rfl)
  by_cases h2 : c = '\r'
  · exact hbreak (by rw [h2]; rfl)
  have hw : NoBreak [c] := ⟨by simpa using fun e => h1 e.symm, by simpa using fun e => h2 e.symm⟩
  obtain ⟨ls, l, i1, i2⟩ := lines_append_noBreak t hw
  simp only [trimmedLines, i1, i2, List.map_append, List.map_cons, List.map_nil, trim_append_blank l h]

/-- Blanks at the end of a text. -/
theorem trimmedLines_append_blank {ws : Str} (h : ∀ c ∈ ws, isWhitespace c = true) (t : Str) :
    trimmedLines p (t ++ ws) = trimmedLines p t := by
  induction ws generalizing t with
  | nil => rw [List.append_nil]
  | cons c ws ih =>
    rw [List.forall_mem_cons] at h
    rw [List.append_cons, ih h.2, trimmedLines_concat_blank hp t h.1]

/-- A blank in front of a text, be it a line end or not. -/
theorem trimmedLines_cons_blank {c : Char} (h : isWhitespace c = true) (t : Str) :
    trimmedLines p (c :: t) = trimmedLines p t := by
  have hbreak : ∀ u, lines (c :: t) = [] :: lines u → trimmedLines p (c :: t) = trimmedLines p u := by
    intro u hl
    simp [trimmedLines, hl, trim, trimEnd, hp]
  by_cases h1 : c = '\n'
  · exact hbreak t (by rw [h1, lines_lf])
  by_cases h2 : c = '\r'
  · subst h2
    rcases lines_cr t with hl | ⟨t', rfl, hl⟩
    · exact hbreak t hl
    · rw [hbreak t' hl]
      simp [trimmedLines, lines_lf, trim, trimEnd, hp]
  cases hl : lines t with
  | nil => simp [trimmedLines, lines_cons h1 h2, hl]
  | cons x xs =>
    simp only [trimmedLines, lines_cons h1 h2, hl, List.modifyHead_cons, List.map_cons, trim_cons_blank h]

/-- Trimming a text as a whole changes nothing. -/
theorem trimmedLines_trim (t : Str) : trimmedLines p (trim t) = trimmedLines p t := by
  have hfront : trimmedLines p (t.dropWhile isWhitespace) = trimmedLines p t := by
    induction t with
    | nil => rfl
    | cons c t ih =>
      by_cases hc : isWhitespace c = true
      · rw [List.dropWhile_cons_of_pos hc, ih, trimmedLines_cons_blank hp hc]
      · rw [List.dropWhile_cons_of_neg hc]
  obtain ⟨ws, hws, hblank⟩ := exists_trimEnd_append (t.dropWhile isWhitespace)
  rw [← hfront, trim]
  nth_rewrite 2 [hws]
  rw [trimmedLines_append_blank hp hblank]

end

end Kotlin
