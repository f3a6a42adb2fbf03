import Open365Vpn.Api

/-!
# The layout of the configuration

A configuration as the server lays it out: top-level blocks, one of them `proxies:`, in it sections with a name each, and in
these the items. `extractNodes` gives back the names with their links (`extractNodes_layout`), whatever else stands in the other
blocks, whatever lines are between, and however the lines end. The proof says what each kind of line does to the scan and folds
over the document.
-/

namespace Open365Vpn

open Kotlin

namespace X365Api

/-! ## Documents -/

/-- A line end. -/
inductive LineEnd where
  | lf
  | crlf
  | cr
  deriving DecidableEq

def LineEnd.text : LineEnd → Str
  | .lf => ['\n']
  | .crlf => ['\r', '\n']
  | .cr => ['\r']

/-- A text is made of these lines, with some line end between two of them. -/
inductive Joined : Str → List Str → Prop where
  | last {l : Str} (hl : NoBreak l) : Joined l [l]
  | line {l t : Str} {ls : List Str} (hl : NoBreak l) (e : LineEnd) (h : Joined t ls) : Joined (l ++ (e.text ++ t)) (l :: ls)

/-- A character that leaves a mark: neither blank nor a control character. -/
def isVisible (c : Char) : Bool := !isWhitespace c && !(c.toNat ≤ 0x1F || (0x7F ≤ c.toNat && c.toNat ≤ 0x9F))

/-- The last visible character of a line. -/
def lastVisible (l : Str) : Option Char := (l.filter isVisible).getLast?

/-- Nothing but blanks. -/
def Blank (l : Str) : Prop := ∀ c ∈ l, isWhitespace c = true

/-- The line starts with a space. -/
def Indented (l : Str) : Prop := ∃ t, l = ' ' :: t

/-- A line between the sections and items that is neither: blank, or indented without a link and without a colon at its end. -/
def Filler (l : Str) : Prop := Blank l ∨ (Indented l ∧ ¬scheme <:+: l ∧ lastVisible l ≠ some ':')

/-- A top-level block other than `proxies:`. -/
structure Block where
  header : Str
  body : List Str
  header_ok : ¬Blank header ∧ ¬Indented header ∧ trimEnd header ≠ "proxies:".toList
  body_ok : ∀ l ∈ body, Blank l ∨ Indented l

/-- An item: `- L`, indented by more than four spaces, `L` in quotes or not. -/
structure Item where
  indent : Nat
  quote : Str
  rest : Str
  trail : Str
  indent_ok : 4 < indent
  quote_ok : quote ∈ [[], ['"'], [Char.ofNat 39]]
  rest_ok : rest ≠ [] ∧ ∀ c ∈ rest, isWhitespace c = false ∧ c ∉ ['"', Char.ofNat 39, '<', '>', Char.ofNat 133]
  trail_ok : Blank trail

/-- A section: its name and the lines that follow, items and others. -/
structure Section where
  region : Str
  trail : Str
  body : List (Item ⊕ { l : Str // Filler l })
  region_ok : region ≠ [] ∧ ':' ∉ region
  region_trimmed : (∀ c ∈ region.head?, isWhitespace c = false) ∧ ∀ c ∈ region.getLast?, isWhitespace c = false
  trail_ok : Blank trail

/-- A document: blank lines, blocks, the block `proxies:` with its sections, and blocks. -/
structure Document where
  top : List Str
  before : List Block
  trail : Str
  lead : List Str
  sections : List Section
  after : List Block
  top_ok : ∀ l ∈ top, Blank l
  trail_ok : Blank trail
  lead_ok : ∀ l ∈ lead, Filler l

def Block.lines (b : Block) : List Str := b.header :: b.body

/-- The link of an item. -/
def Item.link (i : Item) : Str := scheme ++ i.rest

def Item.line (i : Item) : Str :=
  List.replicate i.indent ' ' ++ ("- ".toList ++ (i.quote ++ (i.link ++ (i.quote ++ i.trail))))

def Section.header (s : Section) : Str := "    ".toList ++ (s.region ++ ':' :: s.trail)

def Section.bodyLine : Item ⊕ { l : Str // Filler l } → Str
  | .inl i => i.line
  | .inr l => l.1

def Section.lines (s : Section) : List Str := s.header :: s.body.map Section.bodyLine

/-- The pair of an item. -/
def Section.pairOf (region : Str) : Item ⊕ { l : Str // Filler l } → Option (Str × Str)
  | .inl i => some (region, i.link)
  | .inr _ => none

/-- The pairs of a section. -/
def Section.pairs (s : Section) : List (Str × Str) := s.body.filterMap (Section.pairOf s.region)

/-- The lines of a document. -/
def Document.lines (d : Document) : List Str :=
  d.top ++ d.before.flatMap Block.lines ++ ("proxies:".toList ++ d.trail) :: d.lead ++ d.sections.flatMap Section.lines ++
    d.after.flatMap Block.lines

/-- The pairs of a document: the names of its sections with the links of their items, in order. -/
def Document.pairs (d : Document) : List (Str × Str) := d.sections.flatMap Section.pairs

namespace LayoutAux

/-! ## Line ends -/

/-- An empty line does nothing to the scan. -/
theorem scanLine_blank (s : Scan) {l : Str} (h : Blank l) : scanLine s l = s := by
  have ht : trimEnd l = [] := by
    have := trimEnd_append_blank [] h
    simpa [trimEnd] using this
  rw [scanLine, ht]
  have h1 : sectionName [] = none := by decide
  have h2 : findLink [] = none := rfl
  simp [h1, h2]

/-- The scan over the lines of a text is the scan over the lines it is made of: a line feed behind a carriage return is the
same as an empty line. -/
theorem foldl_scanLine_joined {t : Str} {ls : List Str} (h : Joined t ls) (s : Scan) :
    (lines t).foldl scanLine s = ls.foldl scanLine s := by
  induction h generalizing s with
  | last hl => rw [lines_of_noBreak hl]
  | @line l t ls hl e _ ih =>
    have hline : ∀ {u : Str} {us : List Str}, Kotlin.lines u = [] :: us →
        (Kotlin.lines (l ++ u)).foldl scanLine s = us.foldl scanLine (scanLine s l) := by
      intro u us hu
      rw [lines_append hl hu, List.foldl_cons]
    cases e with
    | lf => exact (hline (lines_lf t)).trans (ih _)
    | crlf => exact (hline (lines_crlf t)).trans (ih _)
    | cr =>
      rcases lines_cr t with hcr | ⟨t', rfl, hcr⟩
      · exact (hline hcr).trans (ih _)
      · have hrest := ih (scanLine s l)
        rw [lines_lf, List.foldl_cons, scanLine_blank _ (fun c hc => absurd hc List.not_mem_nil)] at hrest
        exact (hline hcr).trans hrest

/-! ## Lines outside of the block -/

/-- Trimming an indented line leaves an indented one, or nothing. -/
theorem trimEnd_indented {l : Str} (h : Indented l) : trimEnd l = [] ∨ Indented (trimEnd l) := by
  obtain ⟨ws, hws, -⟩ := exists_trimEnd_append l
  cases ht : trimEnd l with
  | nil => exact Or.inl rfl
  | cons c cs =>
    obtain ⟨t, rfl⟩ := h
    rw [ht] at hws
    obtain ⟨rfl, -⟩ : ' ' = c ∧ t = cs ++ ws := by simpa using hws
    exact Or.inr ⟨cs, rfl⟩

/-- An indented line is not the header of the block. -/
theorem trimEnd_indented_ne {l : Str} (h : Indented l) : trimEnd l ≠ "proxies:".toList := by
  intro he
  rcases trimEnd_indented h with ht | ⟨t, ht⟩
  · rw [ht] at he
    exact absurd he (by decide)
  · rw [ht] at he
    have hhead : ' ' = 'p' := (List.cons.inj he).1
    exact absurd hhead (by decide)

/-- Outside of the block only its header does something. -/
theorem scanLine_outside {s : Scan} (hs : s.inProxies = false) {l : Str} (h : trimEnd l ≠ "proxies:".toList) :
    scanLine s l = s := by
  unfold scanLine
  rw [if_neg fun hb => h (beq_iff_eq.1 hb)]
  simp only [hs, Bool.false_and, Bool.false_eq_true, if_false]

/-- Inside of the block an indented line is a section, or an item, or nothing. -/
theorem scanLine_inside {s : Scan} (hs : s.inProxies = true) {l : Str} (h : Indented (trimEnd l)) :
    scanLine s l =
      (sectionName (trimEnd l)).elim
        ((findLink (trimEnd l)).elim s fun link => { s with out := s.out ++ [(s.region, link)] })
        fun name => { s with region := trim name } := by
  obtain ⟨t, ht⟩ := h
  have hne : ¬(trimEnd l == "proxies:".toList) = true := by
    rw [ht, beq_iff_eq]
    exact fun e => absurd (List.cons.inj e).1 (by decide)
  have hsp : startsWith " ".toList (trimEnd l) = true := startsWith_iff.2 ⟨t, ht⟩
  unfold scanLine
  rw [if_neg hne, hsp, hs]
  simp only [Bool.not_true, Bool.and_false, Bool.false_eq_true, if_false, if_true]
  cases sectionName (trimEnd l) with
  | some name => rfl
  | none => cases findLink (trimEnd l) <;> rfl

theorem scanLine_header (s : Scan) {ws : Str} (h : Blank ws) :
    scanLine s ("proxies:".toList ++ ws) = { s with inProxies := true } := by
  have ht : trimEnd ("proxies:".toList ++ ws) = "proxies:".toList := by
    rw [trimEnd_append_blank _ h]
    decide
  rw [scanLine, ht]
  rfl

/-- The header of another block ends the block. -/
theorem scanLine_block (s : Scan) (b : Block) : scanLine s b.header = { s with inProxies := false } := by
  obtain ⟨h1, h2, h3⟩ := b.header_ok
  have hne : trimEnd b.header ≠ [] := by
    intro ht
    obtain ⟨ws, hws, hb⟩ := exists_trimEnd_append b.header
    rw [ht, List.nil_append] at hws
    exact h1 (hws ▸ hb)
  have hsp : startsWith " ".toList (trimEnd b.header) = false := by
    rw [Bool.eq_false_iff]
    intro hp
    obtain ⟨t, ht⟩ := startsWith_iff.1 hp
    obtain ⟨ws, hws, -⟩ := exists_trimEnd_append b.header
    exact h2 ⟨t ++ ws, by rw [hws, ht]; rfl⟩
  have he : (trimEnd b.header).isEmpty = false := by simpa using hne
  cases hs : s.inProxies with
  | true =>
    unfold scanLine
    rw [if_neg fun hb => h3 (beq_iff_eq.1 hb), hs, hsp, he]
    rfl
  | false => rw [scanLine_outside hs h3, ← hs]

/-- The lines of another block. -/
theorem foldl_block (s : Scan) (b : Block) : b.lines.foldl scanLine s = { s with inProxies := false } := by
  have hbody : ∀ (ls : List Str), (∀ l ∈ ls, Blank l ∨ Indented l) → ∀ s : Scan, s.inProxies = false →
      ls.foldl scanLine s = s := by
    intro ls
    induction ls with
    | nil => exact fun _ s _ => rfl
    | cons l ls ih =>
      intro h s hs
      have hl : scanLine s l = s := by
        rcases h l List.mem_cons_self with hl | hl
        · exact scanLine_blank s hl
        · exact scanLine_outside hs (trimEnd_indented_ne hl)
      rw [List.foldl_cons, hl, ih (fun x hx => h x (List.mem_cons_of_mem l hx)) s hs]
  rw [Block.lines, List.foldl_cons, scanLine_block]
  exact hbody b.body b.body_ok _ rfl

theorem foldl_blocks_out (bs : List Block) (s : Scan) : ((bs.flatMap Block.lines).foldl scanLine s).out = s.out := by
  induction bs generalizing s with
  | nil => rfl
  | cons b bs ih => rw [List.flatMap_cons, List.foldl_append, foldl_block, ih]

/-- Blocks before the block do nothing. -/
theorem foldl_blocks_outside (bs : List Block) {s : Scan} (hs : s.inProxies = false) :
    (bs.flatMap Block.lines).foldl scanLine s = s := by
  induction bs with
  | nil => rfl
  | cons b bs ih =>
    have hb : ({ s with inProxies := false } : Scan) = s := by rw [← hs]
    rw [List.flatMap_cons, List.foldl_append, foldl_block, hb, ih]

/-- Lines that leave the scan as it is. -/
theorem foldl_scanLine_of_still {ls : List Str} {s : Scan} (h : ∀ l ∈ ls, scanLine s l = s) : ls.foldl scanLine s = s := by
  induction ls with
  | nil => rfl
  | cons l ls ih => rw [List.foldl_cons, h l List.mem_cons_self, ih fun x hx => h x (List.mem_cons_of_mem l hx)]

/-! ## Lines inside of the block -/

/-- A link is found only where the scheme occurs. -/
theorem scheme_infix_of_findLink {line link : Str} (h : findLink line = some link) : scheme <:+: line := by
  induction line with
  | nil => cases h
  | cons c cs ih =>
    rw [findLink] at h
    split at h
    · rename_i hc
      rw [Bool.and_eq_true] at hc
      obtain ⟨t, ht⟩ := startsWith_iff.1 hc.1
      rw [ht]
      exact (List.prefix_append _ _).isInfix
    · exact (ih h).trans (List.infix_cons List.infix_rfl)

/-- What a pattern counts as space is blank. -/
theorem isWhitespace_of_isRegexSpace {c : Char} (h : isRegexSpace c = true) : isWhitespace c = true := by
  have hc : c.toNat = 32 ∨ c.toNat = 9 ∨ c.toNat = 10 ∨ c.toNat = 11 ∨ c.toNat = 12 ∨ c.toNat = 13 := by
    simp only [isRegexSpace, Bool.or_eq_true, beq_iff_eq] at h
    rcases h with ((((rfl | rfl) | rfl) | h) | h) | rfl
    · exact Or.inl rfl
    · exact Or.inr (Or.inl rfl)
    · exact Or.inr (Or.inr (Or.inl rfl))
    · exact Or.inr (Or.inr (Or.inr (Or.inl h)))
    · exact Or.inr (Or.inr (Or.inr (Or.inr (Or.inl h))))
    · exact Or.inr (Or.inr (Or.inr (Or.inr (Or.inr rfl))))
  unfold isWhitespace
  rcases hc with hc | hc | hc | hc | hc | hc <;> rw [hc] <;> rfl

theorem isVisible_of_isWhitespace {c : Char} (h : isWhitespace c = true) : isVisible c = false := by
  simp [isVisible, h]

/-- A line without visible characters behind a colon has the colon as its last visible character. -/
theorem lastVisible_colon (p : Str) {t : Str} (h : ∀ c ∈ t, isVisible c = false) : lastVisible (p ++ ':' :: t) = some ':' := by
  have ht : t.filter isVisible = [] := by
    rw [List.filter_eq_nil_iff]
    intro c hc
    simp [h c hc]
  have hcolon : isVisible ':' = true := by decide
  rw [lastVisible, List.filter_append, List.filter_cons_of_pos hcolon, ht]
  simp

/-- A line without its terminator, and the terminator. -/
theorem exists_dropTerminator_append (line : Str) :
    ∃ t, line = dropTerminator line ++ t ∧ ∀ c ∈ t, isVisible c = false := by
  unfold dropTerminator
  split
  · rename_i h
    rw [beq_iff_eq] at h
    obtain ⟨hne, hl⟩ := List.mem_getLast?_eq_getLast h
    refine ⟨[Char.ofNat 0x85], ?_, fun c hc => ?_⟩
    · rw [hl]
      exact (List.dropLast_concat_getLast hne).symm
    · rw [List.mem_singleton.1 hc]
      decide
  · exact ⟨[], by simp, by simp⟩

/-- A section's line ends in a colon, as far as one can see. -/
theorem lastVisible_of_sectionName {line name : Str} (h : sectionName line = some name) : lastVisible line = some ':' := by
  obtain ⟨t, hline, ht⟩ := exists_dropTerminator_append line
  rw [sectionName] at h
  split at h
  · cases h
  · rename_i hsp
    obtain ⟨l, hl⟩ := startsWith_iff.1 (by simpa using hsp)
    rw [hl, List.drop_left' (by decide)] at h
    split at h
    · cases h
    · rename_i c rest hdrop
      dsimp only at h
      split at h
      · rename_i hcond
        rw [Bool.and_eq_true] at hcond
        have hc : c = ':' := by
          have := List.head_dropWhile_not (· != ':') (l := l) (by rw [hdrop]; simp)
          simpa [hdrop] using this
        have hlsplit : l = l.takeWhile (· != ':') ++ ':' :: rest := by
          have hsplit := List.takeWhile_append_dropWhile (p := (· != ':')) (l := l)
          rw [hdrop, hc] at hsplit
          exact hsplit.symm
        have hall : ∀ x ∈ rest ++ t, isVisible x = false := by
          intro x hx
          rcases List.mem_append.1 hx with hx | hx
          · exact isVisible_of_isWhitespace (isWhitespace_of_isRegexSpace (List.all_eq_true.1 hcond.2 x hx))
          · exact ht x hx
        have hwhole : line = ("    ".toList ++ l.takeWhile (· != ':')) ++ ':' :: (rest ++ t) := by
          rw [hline, hl, List.append_assoc, List.append_assoc, ← List.cons_append, ← List.append_assoc (l.takeWhile _),
            ← hlsplit]
          rfl
        rw [hwhole]
        exact lastVisible_colon _ hall
      · cases h

/-- A filler does nothing. -/
theorem scanLine_filler (s : Scan) {l : Str} (h : Filler l) : scanLine s l = s := by
  rcases h with h | ⟨hi, hlink, hlast⟩
  · exact scanLine_blank s h
  cases hs : s.inProxies with
  | false => exact scanLine_outside hs (trimEnd_indented_ne hi)
  | true =>
    obtain ⟨ws, hws, hblank⟩ := exists_trimEnd_append l
    rcases trimEnd_indented hi with ht | ht
    · rw [ht, List.nil_append] at hws
      exact scanLine_blank s (hws ▸ hblank)
    have h1 : sectionName (trimEnd l) = none := by
      by_contra hne
      obtain ⟨name, hname⟩ := Option.ne_none_iff_exists'.1 hne
      apply hlast
      have hv := lastVisible_of_sectionName hname
      have hwsv : ws.filter isVisible = [] := by
        rw [List.filter_eq_nil_iff]
        intro c hc
        simp [isVisible_of_isWhitespace (hblank c hc)]
      rw [lastVisible] at hv ⊢
      rw [hws, List.filter_append, hwsv, List.append_nil]
      exact hv
    have h2 : findLink (trimEnd l) = none := by
      by_contra hne
      obtain ⟨link, hl⟩ := Option.ne_none_iff_exists'.1 hne
      refine hlink ((scheme_infix_of_findLink hl).trans ?_)
      exact (List.rdropWhile_prefix _ _).isInfix
    rw [scanLine_inside hs ht, h1, h2]
    rfl

/-- A section's line names it. -/
theorem scanLine_section {s : Scan} (hs : s.inProxies = true) (x : Section) :
    scanLine s x.header = { s with region := x.region } := by
  have ht : trimEnd x.header = "    ".toList ++ (x.region ++ [':']) := by
    have he : x.header = ("    ".toList ++ x.region ++ [':']) ++ x.trail := by simp [Section.header]
    rw [he, trimEnd_append_blank _ x.trail_ok, trimEnd_concat _ (by decide), List.append_assoc]
  have hterm : dropTerminator ("    ".toList ++ (x.region ++ [':'])) = "    ".toList ++ (x.region ++ [':']) := by
    unfold dropTerminator
    rw [← List.append_assoc, List.getLast?_concat, if_neg (by decide)]
  have hcolon : ∀ c ∈ x.region, (c != ':') = true := by
    intro c hc
    simpa using fun e : c = ':' => x.region_ok.2 (e ▸ hc)
  have hname : sectionName ("    ".toList ++ (x.region ++ [':'])) = some x.region := by
    have hsp : startsWith "    ".toList ("    ".toList ++ (x.region ++ [':'])) = true := startsWith_iff.2 ⟨_, rfl⟩
    have htake : (x.region ++ [':']).takeWhile (· != ':') = x.region := by
      rw [List.takeWhile_append_of_pos hcolon]
      simp
    have hdrop : (x.region ++ [':']).dropWhile (· != ':') = [':'] := by
      rw [List.dropWhile_append_of_pos hcolon]
      rfl
    have hne : x.region.isEmpty = false := by simpa using x.region_ok.1
    rw [sectionName, hterm, hsp, List.drop_left' (by decide), htake, hdrop]
    simp [hne]
  have hind : Indented (trimEnd x.header) := by
    rw [ht]
    exact ⟨_, rfl⟩
  rw [scanLine_inside hs hind, ht, hname, Option.elim_some, trim_eq_self x.region_trimmed.1 x.region_trimmed.2]

/-- A search for a link passes over a character that is not the first of the scheme. -/
theorem findLink_cons {c : Char} (h : c ≠ 'x') (cs : Str) : findLink (c :: cs) = findLink cs := by
  have hp : startsWith scheme (c :: cs) = false := by
    rw [Bool.eq_false_iff]
    intro hp
    obtain ⟨t, ht⟩ := startsWith_iff.1 hp
    exact h (List.cons.inj ht).1
  rw [findLink, hp, Bool.false_and, if_neg Bool.false_ne_true]

theorem findLink_append {p : Str} (h : 'x' ∉ p) (l : Str) : findLink (p ++ l) = findLink l := by
  induction p with
  | nil => rfl
  | cons c p ih =>
    rw [List.mem_cons, not_or] at h
    rw [List.cons_append, findLink_cons (fun e => h.1 e.symm), ih h.2]

/-- A link is found whole, up to a quote or the end of the line. -/
theorem findLink_scheme {rest q : Str} (hne : rest ≠ []) (hr : ∀ c ∈ rest, isLinkChar c = true)
    (hq : q.takeWhile isLinkChar = []) : findLink (scheme ++ (rest ++ q)) = some (scheme ++ rest) := by
  have hs : startsWith scheme (scheme ++ (rest ++ q)) = true := startsWith_iff.2 ⟨_, rfl⟩
  have hrun : ((scheme ++ (rest ++ q)).drop scheme.length).takeWhile isLinkChar = rest := by
    rw [List.drop_left, List.takeWhile_append_of_pos hr, hq, List.append_nil]
  have he : rest.isEmpty = false := by simpa using hne
  have hcons : scheme ++ (rest ++ q) = 'x' :: ("365://".toList ++ (rest ++ q)) := rfl
  rw [hcons] at hs hrun ⊢
  rw [findLink, hs, hrun, he]
  rfl

/-- A line with a slash behind its first colon is no section. -/
theorem sectionName_eq_none {p : Str} (hp : ':' ∉ p) (t : Str) :
    sectionName ("    ".toList ++ (p ++ ':' :: '/' :: t)) = none := by
  obtain ⟨t', ht'⟩ : ∃ t', dropTerminator ("    ".toList ++ (p ++ ':' :: '/' :: t)) = "    ".toList ++ (p ++ ':' :: '/' :: t') := by
    unfold dropTerminator
    split
    · rename_i h
      cases ht : t using List.reverseRecOn with
      | nil =>
        have he : "    ".toList ++ (p ++ ':' :: '/' :: []) = ("    ".toList ++ (p ++ [':'])) ++ ['/'] := by simp
        rw [ht, he, List.getLast?_concat] at h
        exact absurd h (by decide)
      | append_singleton t c =>
        have he : "    ".toList ++ (p ++ ':' :: '/' :: (t ++ [c])) = ("    ".toList ++ (p ++ ':' :: '/' :: t)) ++ [c] := by simp
        exact ⟨t, by rw [he, List.dropLast_concat]⟩
    · exact ⟨t, rfl⟩
  have hcolon : ∀ c ∈ p, (c != ':') = true := by
    intro c hc
    simpa using fun e : c = ':' => hp (e ▸ hc)
  have hdrop : (p ++ ':' :: '/' :: t').dropWhile (· != ':') = ':' :: '/' :: t' := by
    rw [List.dropWhile_append_of_pos hcolon]
    rfl
  have hsp : startsWith "    ".toList ("    ".toList ++ (p ++ ':' :: '/' :: t')) = true := startsWith_iff.2 ⟨_, rfl⟩
  have hslash : isRegexSpace '/' = false := by decide
  rw [sectionName, ht', hsp, List.drop_left' (by decide), hdrop]
  simp [hslash]

theorem isLinkChar_of_rest (i : Item) {c : Char} (hc : c ∈ i.rest) : isLinkChar c = true := by
  obtain ⟨hw, hq⟩ := i.rest_ok.2 c hc
  have hsp : isRegexSpace c = false := by
    rw [Bool.eq_false_iff]
    intro h
    rw [isWhitespace_of_isRegexSpace h] at hw
    cases hw
  have h39 : c.toNat ≠ 39 := by
    intro h
    refine hq ?_
    rw [← h, Char.ofNat_toNat]
    simp
  simp only [List.mem_cons, List.not_mem_nil, or_false, not_or] at hq
  simp [isLinkChar, hsp, h39, hq.1, hq.2.2.1, hq.2.2.2.1]

/-- What stands before the link of an item holds neither a colon nor the first character of the scheme. -/
theorem not_mem_itemFront (i : Item) (n : Nat) {c : Char} (hc : c ∈ [':', 'x']) :
    c ∉ List.replicate n ' ' ++ ("- ".toList ++ i.quote) := by
  have hq : c ∉ i.quote := by
    have h := i.quote_ok
    simp only [List.mem_cons, List.not_mem_nil, or_false] at h hc
    rcases h with h | h | h <;> rcases hc with rfl | rfl <;> rw [h] <;> decide
  simp only [List.mem_cons, List.not_mem_nil, or_false] at hc
  rcases hc with rfl | rfl <;> simp [hq]

/-- A quote ends a link. -/
theorem takeWhile_quote (i : Item) : i.quote.takeWhile isLinkChar = [] := by
  have h := i.quote_ok
  simp only [List.mem_cons, List.not_mem_nil, or_false] at h
  rcases h with h | h | h <;> rw [h] <;> rfl

/-- An item without the blanks at its end. -/
def itemText (i : Item) : Str := List.replicate i.indent ' ' ++ ("- ".toList ++ (i.quote ++ (i.link ++ i.quote)))

theorem trimEnd_item (i : Item) : trimEnd i.line = itemText i := by
  have he : i.line = itemText i ++ i.trail := by simp [Item.line, itemText]
  rw [he, trimEnd_append_blank _ i.trail_ok]
  -- the last character is the quote or the last one of the link
  obtain ⟨p, c, hp, hc⟩ : ∃ p c, itemText i = p ++ [c] ∧ isWhitespace c = false := by
    have h := i.quote_ok
    simp only [List.mem_cons, List.not_mem_nil, or_false] at h
    rcases h with h | h | h
    · refine ⟨List.replicate i.indent ' ' ++ ("- ".toList ++ (scheme ++ i.rest.dropLast)), i.rest.getLast i.rest_ok.1, ?_, ?_⟩
      · have hr := List.dropLast_concat_getLast i.rest_ok.1
        conv => lhs; rw [itemText, Item.link, h, ← hr]
        simp
      · exact (i.rest_ok.2 _ (List.getLast_mem i.rest_ok.1)).1
    · exact ⟨List.replicate i.indent ' ' ++ ("- ".toList ++ (i.quote ++ i.link)), '"', by simp [itemText, h], by decide⟩
    · exact ⟨List.replicate i.indent ' ' ++ ("- ".toList ++ (i.quote ++ i.link)), Char.ofNat 39, by simp [itemText, h],
        by decide⟩
  rw [hp, trimEnd_concat _ hc]

/-- An item adds its link under the name of the section. -/
theorem scanLine_item {s : Scan} (hs : s.inProxies = true) (i : Item) :
    scanLine s i.line = { s with out := s.out ++ [(s.region, i.link)] } := by
  obtain ⟨n, hn⟩ : ∃ n, i.indent = 4 + (n + 1) := ⟨i.indent - 5, by have := i.indent_ok; omega⟩
  have hfront : itemText i =
      "    ".toList ++ ((List.replicate (n + 1) ' ' ++ ("- ".toList ++ i.quote) ++ "x365".toList) ++
        ':' :: '/' :: ('/' :: (i.rest ++ i.quote))) := by
    have h4 : List.replicate (4 + (n + 1)) ' ' = "    ".toList ++ List.replicate (n + 1) ' ' := by
      rw [List.replicate_add]
      rfl
    have hsch : scheme = "x365".toList ++ [':', '/', '/'] := rfl
    simp [itemText, Item.link, hn, h4, hsch]
  have hsec : sectionName (itemText i) = none := by
    rw [hfront]
    apply sectionName_eq_none
    have h := not_mem_itemFront i (n + 1) (c := ':') (by simp)
    have h' : ':' ∉ "x365".toList := by decide
    exact fun hm => (List.mem_append.1 hm).elim h h'
  have hlink : findLink (itemText i) = some i.link := by
    have he : itemText i = (List.replicate i.indent ' ' ++ ("- ".toList ++ i.quote)) ++ (scheme ++ (i.rest ++ i.quote)) := by
      simp [itemText, Item.link]
    rw [he, findLink_append (not_mem_itemFront i _ (by simp))]
    exact findLink_scheme i.rest_ok.1 (fun c hc => isLinkChar_of_rest i hc) (takeWhile_quote i)
  have hind : Indented (trimEnd i.line) := by
    rw [trimEnd_item, hfront]
    exact ⟨_, rfl⟩
  rw [scanLine_inside hs hind, trimEnd_item, hsec, hlink]
  rfl

/-! ## Sections -/

/-- The lines behind a section's name add its links. -/
theorem foldl_body {r : Str} (body : List (Item ⊕ { l : Str // Filler l })) {s : Scan} (hs : s.inProxies = true)
    (hr : s.region = r) :
    (body.map Section.bodyLine).foldl scanLine s =
      { s with out := s.out ++ body.filterMap (Section.pairOf r) } := by
  induction body generalizing s with
  | nil => simp
  | cons x body ih =>
    rw [List.map_cons, List.foldl_cons]
    cases x with
    | inl i =>
      have hi : scanLine s (Section.bodyLine (.inl i)) = { s with out := s.out ++ [(r, i.link)] } := by
        rw [← hr]
        exact scanLine_item hs i
      rw [hi, ih (s := { s with out := s.out ++ [(r, i.link)] }) hs hr,
        List.filterMap_cons_some (f := Section.pairOf r) (b := (r, i.link)) rfl]
      simp
    | inr l =>
      have hl : scanLine s (Section.bodyLine (.inr l)) = s := scanLine_filler s l.2
      rw [hl, ih hs hr, List.filterMap_cons_none (f := Section.pairOf r) rfl]

theorem foldl_section (x : Section) {s : Scan} (hs : s.inProxies = true) :
    x.lines.foldl scanLine s = { s with out := s.out ++ x.pairs, region := x.region } := by
  rw [Section.lines, List.foldl_cons, scanLine_section hs]
  exact foldl_body x.body hs rfl

theorem foldl_sections (xs : List Section) {s : Scan} (hs : s.inProxies = true) :
    ((xs.flatMap Section.lines).foldl scanLine s).out = s.out ++ xs.flatMap Section.pairs := by
  induction xs generalizing s with
  | nil => simp
  | cons x xs ih =>
    have hrest := ih (s := { s with out := s.out ++ x.pairs, region := x.region }) hs
    rw [List.flatMap_cons, List.foldl_append, foldl_section x hs, hrest, List.flatMap_cons, List.append_assoc]

end LayoutAux

open LayoutAux

/-- From a text laid out as a document, with any line ends, `extractNodes` returns the pairs of the block `proxies:`, in order,
and nothing else. -/
theorem extractNodes_layout (d : Document) (yaml : Str) (h : Joined yaml d.lines) : extractNodes yaml = d.pairs := by
  rw [extractNodes, foldl_scanLine_joined h, Document.lines, List.foldl_append, List.foldl_append, List.foldl_append,
    List.foldl_append, foldl_scanLine_of_still fun l hl => scanLine_blank _ (d.top_ok l hl), foldl_blocks_outside d.before rfl, List.foldl_cons,
    scanLine_header _ d.trail_ok, foldl_scanLine_of_still fun l hl => scanLine_filler _ (d.lead_ok l hl), foldl_blocks_out, foldl_sections d.sections rfl]
  rfl

/-- An item with or without quotes. -/
def smallItem (quote : Str) (h : quote ∈ [[], ['"'], [Char.ofNat 39]]) : Item where
  indent := 6
  quote := quote
  rest := "u@h:1".toList
  trail := []
  indent_ok := by decide
  quote_ok := h
  rest_ok := ⟨by decide, forall_mem_of_all (by decide)⟩
  trail_ok := fun _ hc => absurd hc List.not_mem_nil

/-- A section with two items and a line between them, behind a block with a link and an indented `proxies:` of its own. -/
def smallDocument : Document where
  top := []
  before :=
    [{ header := "dns:".toList
       body := ["  - x365://z".toList, "  proxies:".toList]
       header_ok := by
         refine ⟨fun h => absurd (h 'd' (by decide)) (by decide), ?_, by decide⟩
         rintro ⟨t, ht⟩
         exact absurd (List.cons.inj ht).1 (by decide)
       body_ok := by
         intro l hl
         rcases List.mem_cons.1 hl with rfl | hl
         · exact Or.inr ⟨_, rfl⟩
         · exact Or.inr ⟨_, List.mem_singleton.1 hl⟩ }]
  trail := " ".toList
  lead := []
  sections :=
    [{ region := "香港".toList
       trail := []
       body := [.inl (smallItem [] (by decide)), .inr ⟨[], Or.inl fun _ hc => absurd hc List.not_mem_nil⟩,
         .inl (smallItem ['"'] (by decide))]
       region_ok := by decide
       region_trimmed := by
         refine ⟨fun c hc => ?_, fun c hc => ?_⟩
         · obtain rfl : '香' = c := Option.some.inj hc
           decide
         · obtain rfl : '港' = c := Option.some.inj hc
           decide
       trail_ok := fun _ hc => absurd hc List.not_mem_nil }]
  after := []
  top_ok := fun _ hl => absurd hl List.not_mem_nil
  trail_ok := forall_mem_of_all (by decide)
  lead_ok := fun _ hl => absurd hl List.not_mem_nil

/-- The document as a text, with all three line ends; the empty line between the items is the line feed behind the carriage
return. -/
def smallText : Str :=
  ("dns:\n  - x365://z\r  proxies:\r\nproxies: \n    香港:\r" ++ "      - x365://u@h:1\r\n      - \"x365://u@h:1\"").toList

/-- The two links of the section, and not the one of the other block. -/
theorem extractNodes_layout_small :
    Joined smallText smallDocument.lines ∧
      extractNodes smallText = [("香港".toList, "x365://u@h:1".toList), ("香港".toList, "x365://u@h:1".toList)] := by
  have h : Joined smallText smallDocument.lines :=
    .line (l := "dns:".toList) (by decide) .lf
      (.line (l := "  - x365://z".toList) (by decide) .cr
        (.line (l := "  proxies:".toList) (by decide) .crlf
          (.line (l := "proxies: ".toList) (by decide) .lf
            (.line (l := "    香港:".toList) (by decide) .cr
              (.line (l := "      - x365://u@h:1".toList) (by decide) .cr
                (.line (l := []) (by decide) .lf (.last (by decide))))))))
  exact ⟨h, extractNodes_layout smallDocument smallText h⟩

end X365Api

end Open365Vpn
