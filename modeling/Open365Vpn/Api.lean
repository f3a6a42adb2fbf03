import Open365Vpn.Nodes

/-!
# Reading the configuration of the API

`extractNodes` of `protocol/X365Api.kt`: a machine over the lines of the decrypted text with two variables, whether the line is
inside the block `proxies:` and the name of the section read last. The two regular expressions are written out as functions.
-/

namespace Open365Vpn

open Kotlin

namespace X365Api

/-- `\s` of a Java pattern. -/
def isRegexSpace (c : Char) : Bool := c == ' ' || c == '\t' || c == '\n' || c.toNat == 11 || c.toNat == 12 || c == '\r'

/-- The characters of a link after its scheme: `[^\s"'<>]`. -/
def isLinkChar (c : Char) : Bool := !(isRegexSpace c || c == '"' || c.toNat == 39 || c == '<' || c == '>')

/-- `LINK_RE.find`: the first place where the scheme is followed by a link character, and the longest link from there. -/
def findLink : Str → Option Str
  | [] => none
  | c :: cs =>
    let run := ((c :: cs).drop scheme.length).takeWhile isLinkChar
    if startsWith scheme (c :: cs) && !run.isEmpty then some (scheme ++ run) else findLink cs

/-- A line without the next-line character that may stand before the end of the input where `$` matches. (A line that was
trimmed ends in no other line terminator.) -/
def dropTerminator (line : Str) : Str := if line.getLast? == some (Char.ofNat 0x85) then line.dropLast else line

/-- The group of `^    ([^:]+):\s*$`. -/
def sectionName (line : Str) : Option Str :=
  let l := dropTerminator line
  if !startsWith "    ".toList l then none
  else
    let name := (l.drop 4).takeWhile (· != ':')
    match (l.drop 4).dropWhile (· != ':') with
    | [] => none
    | _ :: rest => if !name.isEmpty && rest.all isRegexSpace then some name else none

/-- The variables of `extractNodes`. -/
structure Scan where
  out : List (Str × Str)
  inProxies : Bool
  region : Str
  deriving DecidableEq, Repr

/-- The loop body of `extractNodes`. -/
def scanLine (s : Scan) (raw : Str) : Scan :=
  let line := trimEnd raw
  if line == "proxies:".toList then { s with inProxies := true }
  else if s.inProxies && !line.isEmpty && !startsWith " ".toList line then { s with inProxies := false }
  else if s.inProxies then
    match sectionName line with
    | some name => { s with region := trim name }
    | none =>
      match findLink line with
      | some link => { s with out := s.out ++ [(s.region, link)] }
      | none => s
  else s

/-- `extractNodes`: the pairs of section name and link. -/
def extractNodes (yaml : Str) : List (Str × Str) :=
  ((lines yaml).foldl scanLine { out := [], inProxies := false, region := [] }).out

/-! ## What every pair looks like -/

/-- A link starts with the scheme and is made of characters of its line. -/
theorem findLink_spec {line link : Str} (h : findLink line = some link) :
    startsWith scheme link = true ∧ ∀ c ∈ link, c ∈ line := by
  induction line with
  | nil => cases h
  | cons c cs ih =>
    rw [findLink] at h
    split at h
    · rename_i hc
      rw [Bool.and_eq_true] at hc
      obtain ⟨t, ht⟩ := startsWith_iff.1 hc.1
      obtain rfl := Option.some.inj h
      refine ⟨startsWith_iff.2 ⟨_, rfl⟩, fun d hd => ?_⟩
      rcases List.mem_append.1 hd with hd | hd
      · rw [ht]
        exact List.mem_append_left _ hd
      · exact List.mem_of_mem_drop ((List.takeWhile_sublist _).subset hd)
    · obtain ⟨h1, h2⟩ := ih h
      exact ⟨h1, fun d hd => List.mem_cons_of_mem c (h2 d hd)⟩

/-- The name of a section is made of characters of its line. -/
theorem mem_of_mem_sectionName {line name : Str} (h : sectionName line = some name) : ∀ c ∈ name, c ∈ line := by
  have hd : ∀ c ∈ dropTerminator line, c ∈ line := by
    intro c hc
    rw [dropTerminator] at hc
    split at hc
    · exact (List.dropLast_sublist line).subset hc
    · exact hc
  rw [sectionName] at h
  split at h
  · cases h
  · split at h
    · cases h
    · dsimp only at h
      split at h
      · obtain rfl := Option.some.inj h
        exact fun c hc => hd c (List.mem_of_mem_drop ((List.takeWhile_sublist _).subset hc))
      · cases h

/-- A pair as `extractNodes` gives it: the name is trimmed, the link starts with the scheme, neither holds a line feed. -/
structure Extracted (pair : Str × Str) : Prop where
  trimmed : trim pair.1 = pair.1
  regionNoFeed : '\n' ∉ pair.1
  scheme : startsWith scheme pair.2 = true
  linkNoFeed : '\n' ∉ pair.2

/-- What holds of the variables of `extractNodes` between two lines. -/
structure Scan.Inv (s : Scan) : Prop where
  extracted : ∀ pair ∈ s.out, Extracted pair
  trimmed : trim s.region = s.region
  noFeed : '\n' ∉ s.region

/-- One line keeps the invariant of the scan. -/
theorem Scan.Inv.scanLine {s : Scan} (h : s.Inv) {raw : Str} (hr : '\n' ∉ raw) : (scanLine s raw).Inv := by
  have hl : '\n' ∉ trimEnd raw := fun hm => hr ((List.rdropWhile_prefix _ _).subset hm)
  rw [X365Api.scanLine]
  split
  · exact ⟨h.extracted, h.trimmed, h.noFeed⟩
  · split
    · exact ⟨h.extracted, h.trimmed, h.noFeed⟩
    · split
      · split
        · rename_i name hn
          refine ⟨h.extracted, trim_trim name, fun hm => hl ?_⟩
          exact mem_of_mem_sectionName hn _ (mem_of_mem_trim hm)
        · split
          · rename_i link hk
            obtain ⟨h1, h2⟩ := findLink_spec hk
            refine ⟨fun pair hp => ?_, h.trimmed, h.noFeed⟩
            rcases List.mem_append.1 hp with hp | hp
            · exact h.extracted pair hp
            · rw [List.mem_singleton.1 hp]
              exact ⟨h.trimmed, h.noFeed, h1, fun hm => hl (h2 _ hm)⟩
          · exact h
      · exact h

/-- Every pair that `extractNodes` returns, for any text, has a trimmed name and a link, and no line feed. -/
theorem extracted_of_mem {yaml : Str} {pair : Str × Str} (h : pair ∈ extractNodes yaml) : Extracted pair := by
  have key : ∀ (ls : List Str) (s : Scan), s.Inv → (∀ l ∈ ls, '\n' ∉ l) → (ls.foldl scanLine s).Inv := by
    intro ls
    induction ls with
    | nil => exact fun s hs _ => hs
    | cons l ls ih =>
      intro s hs hls
      exact ih _ (hs.scanLine (hls l List.mem_cons_self)) fun l' hl' => hls l' (List.mem_cons_of_mem l hl')
  have h0 : Scan.Inv { out := [], inProxies := false, region := [] } := ⟨by simp, rfl, by simp⟩
  exact (key (lines yaml) _ h0 fun l hl => (not_mem_of_mem_lines hl).1).extracted pair h

end X365Api

end Open365Vpn
