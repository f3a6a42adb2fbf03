import Open365Vpn.Lemmas.DnsMessages
import Mathlib.Tactic.IntervalCases
import Mathlib.Algebra.Order.Ring.Nat

/-!
# Names and addresses

What the apps see of the mapped DNS in a run of queries and connections, whatever bytes the queries have: the code never leaves a
buffer and never follows a null pointer, and the names in the cache and their addresses belong together one to one
(`mapped_dns_run`). A query that is well formed is answered by the same questions with an address for each one that asks for the
address of a name, and a connection to the address then goes to the name, while fewer other names have been used since than the
cache has room for (`mapped_dns_round_trip`).
-/

namespace Open365Vpn

open Runs

/-- What reaches the mapped DNS: a query with the buffer for the response, or the address of a new connection or datagram. -/
inductive DnsEvent where
  | handle (req res : List Octet)
  | lookup (ip : BitVec 32)

namespace HevMappedDns

/-- The cache behind an event, and `none` after a fault. -/
def serve (d : HevMappedDns) : DnsEvent → Option HevMappedDns
  | .handle req res =>
    match d.handle req res with
    | (_, .fault) => none
    | (d', _) => some d'
  | .lookup ip => (d.lookup ip).map Prod.fst

/-- The names that a query asks for, up to the place where it is rejected. -/
def askedBy (req res : List Octet) : List (List Octet) :=
  if res.length < req.length ∨ req.length < 12 then []
  else
    match readU16 req 4 with
    | some qd => if qd > 32 then [] else asked qd req 12
    | none => []

/-- The names that an event uses. -/
def usedBy (d : HevMappedDns) : DnsEvent → List (List Octet)
  | .handle req res => askedBy req res
  | .lookup ip => ((d.lookup ip).bind Prod.snd).toList

/-- The names that a run uses. -/
def usedIn (d : HevMappedDns) : List DnsEvent → List (List Octet)
  | [] => []
  | e :: es => d.usedBy e ++ (d.serve e).elim [] fun d' => d'.usedIn es

namespace DnsAux

variable {d d' : HevMappedDns}

/-- The copy of a request of at least twelve bytes, with the counts cleared. -/
theorem copy_eq {req res : List Octet} (hlen : req.length ≤ res.length) (h12 : 12 ≤ req.length) :
    (store res 0 req).bind (store · 6 [0, 0, 0, 0, 0, 0]) =
      some (req.take 6 ++ [0, 0, 0, 0, 0, 0] ++ req.drop 12 ++ res.drop req.length) := by
  rw [store_isSome (by omega), Option.bind_some, store_isSome (by simp; omega)]
  simp only [List.take_zero, List.nil_append, Nat.zero_add, List.length_cons, List.length_nil, Option.some.injEq]
  rw [List.take_append_of_le_length (by omega), List.drop_append_of_le_length (by omega)]
  simp only [List.append_assoc]

/-- `handle` never faults, and it is a run of touches of the names asked for. -/
theorem handle_spec (hi : d.Inv) (req res : List Octet) :
    TouchRun d (askedBy req res) (d.handle req res).1 ∧ (d.handle req res).2 ≠ .fault := by
  unfold handle askedBy
  by_cases h1 : res.length < req.length
  · rw [if_pos h1, if_pos (Or.inl h1)]
    exact ⟨.nil d, by simp⟩
  by_cases h2 : req.length < 12
  · rw [if_neg h1, if_pos h2, if_pos (Or.inr h2)]
    exact ⟨.nil d, by simp⟩
  rw [if_neg h1, if_neg h2, if_neg (not_or.2 ⟨h1, h2⟩)]
  obtain ⟨fl, hfl⟩ : ∃ v, readU16 req 2 = some v := readU16_isSome (by omega)
  obtain ⟨qd, hqd⟩ : ∃ v, readU16 req 4 = some v := readU16_isSome (by omega)
  rw [hfl, hqd, copy_eq (by omega) (by omega)]
  dsimp only
  split
  · exact ⟨.nil d, by simp⟩
  obtain ⟨hrun, hok⟩ := readQuestions_spec hi qd req 12 [] (by rw [List.length_nil, ipPlaces]; omega)
  generalize d.readQuestions qd req 12 [] = r at hrun hok
  obtain ⟨d₁, e⟩ := r
  cases e with
  | fault => exact absurd rfl hok
  | rejected => exact ⟨hrun, by simp⟩
  | done a =>
    obtain ⟨off, answers⟩ := a
    dsimp only
    generalize hsb : req.take 6 ++ [0, 0, 0, 0, 0, 0] ++ req.drop 12 ++ res.drop req.length = sb
    have hlen : 12 ≤ sb.length := by
      rw [← hsb]
      simp
      omega
    rcases writeAnswers_spec d₁.net answers sb off with h | ⟨h, hroom⟩
    · rw [h]
      exact ⟨hrun, by simp⟩
    · rw [h]
      dsimp only
      generalize hout : sb.take off ++ answers.flatMap (answerBytes d₁.net) ++ sb.drop (off + 16 * answers.length) = out
      have hflat := length_answers d₁.net answers
      have hlen' : 12 ≤ out.length := by
        rw [← hout, List.length_append, List.length_append, hflat, List.length_take, List.length_drop]
        cases answers with
        | nil => simp; omega
        | cons a as =>
          have := hroom (by simp)
          omega
      rw [store_isSome (show 2 + (u16Bytes (responseFlags fl)).length ≤ out.length by simp [u16Bytes]; omega), Option.bind_some,
        store_isSome (by simp [u16Bytes]; omega)]
      exact ⟨hrun, by simp⟩

/-- An event never faults, and it is a run of touches of the names it uses. -/
theorem serve_spec (hi : d.Inv) (e : DnsEvent) : ∃ d', d.serve e = some d' ∧ TouchRun d (d.usedBy e) d' := by
  cases e with
  | handle req res =>
    obtain ⟨hrun, hok⟩ := handle_spec hi req res
    refine ⟨(d.handle req res).1, ?_, hrun⟩
    unfold serve
    dsimp only
    split
    · rename_i heq
      rw [heq] at hok
      exact absurd rfl hok
    · rename_i heq
      rw [heq]
  | lookup ip =>
    simp only [serve, usedBy]
    rcases lookup_spec hi ip with ⟨n, hn, _, hl⟩ | ⟨_, hl⟩
    · rw [hl]
      exact ⟨d.moveToTail n, rfl, .cons (hi.moveToTail hn) (.nil _)⟩
    · rw [hl]
      exact ⟨d, rfl, .nil d⟩

/-- A run never faults, and it is a run of touches of the names it uses. -/
theorem exec_serve (hi : d.Inv) (es : List DnsEvent) : ∃ d', exec serve d es = some d' ∧ TouchRun d (d.usedIn es) d' := by
  induction es generalizing d with
  | nil => exact ⟨d, rfl, .nil d⟩
  | cons e es ih =>
    obtain ⟨d₁, hs, hr⟩ := serve_spec hi e
    obtain ⟨d₂, hx, hr'⟩ := ih (hr.inv hi).1
    refine ⟨d₂, exec_cons_eq_some.2 ⟨d₁, hs, hx⟩, ?_⟩
    rw [usedIn, hs]
    exact hr.append hr'

/-- The cache a run from a new one ends in. -/
theorem exec_construct {net mask : BitVec 32} {max : Nat} (hpos : 0 < max) (hc : construct net mask max = some d)
    (es : List DnsEvent) : ∃ d', exec serve d es = some d' ∧ d'.Inv ∧ d'.max = max ∧ d'.net = net ∧ d'.mask = mask := by
  have hi := inv_construct hpos hc
  obtain ⟨d', hx, hr⟩ := exec_serve hi es
  obtain ⟨hinv, hmax, hn, hm⟩ := hr.inv hi
  unfold construct at hc
  split at hc
  · nomatch hc
  · rw [Option.some.injEq] at hc
    rw [← hc] at hmax hn hm
    exact ⟨d', hx, hinv, hmax, hn, hm⟩

/-- The host part of a mask of `32 - k` ones has `k` ones. -/
theorem toNat_hostMask {k : Nat} (hk : k < 32) : (~~~(BitVec.allOnes 32 <<< k)).toNat = 2 ^ k - 1 := by
  interval_cases k <;> decide

/-- With a mask of the usual form an index below the size of the cache is the host part of its address. -/
theorem host_of_idx {net mask : BitVec 32} {k idx : Nat} (hmask : mask = BitVec.allOnes 32 <<< k) (hnet : net &&& ~~~mask = 0)
    (hidx : (idx : Int) < (~~~mask).toInt) : ((net ||| BitVec.ofNat 32 idx) &&& ~~~mask).toInt = idx := by
  have hk : k < 32 := by
    by_contra hk
    have hz : BitVec.allOnes 32 <<< k = 0 := BitVec.shiftLeft_eq_zero (by omega)
    rw [hmask, hz] at hidx
    have : (~~~(0 : BitVec 32)).toInt = -1 := by decide
    omega
  have hmsb : (~~~mask).msb = false := by
    rw [BitVec.msb_eq_toInt, decide_eq_false_iff_not]
    omega
  have hnat : (~~~mask).toNat = 2 ^ k - 1 := by
    rw [hmask, toNat_hostMask hk]
  have hlt : idx < 2 ^ k := by
    rw [BitVec.toInt_eq_toNat_of_msb hmsb, hnat] at hidx
    omega
  have h32 : 2 ^ k < 2 ^ 32 := Nat.pow_lt_pow_right (by omega) hk
  have hand : ((net ||| BitVec.ofNat 32 idx) &&& ~~~mask).toNat = idx := by
    rw [BitVec.and_or_distrib_right, hnet, BitVec.toNat_or, BitVec.toNat_and, BitVec.toNat_ofNat, hnat,
      Nat.mod_eq_of_lt (by omega), Nat.and_two_pow_sub_one_eq_mod, Nat.mod_eq_of_lt hlt]
    simp
  have hmsb' : ((net ||| BitVec.ofNat 32 idx) &&& ~~~mask).msb = false := by
    rw [BitVec.msb_and, hmsb, Bool.and_false]
  rw [BitVec.toInt_eq_toNat_of_msb hmsb', hand]

/-- The address of a node leads to its name. -/
theorem lookup_address (hi : d.Inv) {k : Nat} (hmask : d.mask = BitVec.allOnes 32 <<< k) (hnet : d.net &&& ~~~d.mask = 0)
    {n : MappedDnsNode} (hn : n ∈ d.list) :
    d.lookup (d.net ||| BitVec.ofNat 32 n.idx) = some (d.moveToTail n, some n.name) := by
  have hidx : (n.idx : Int) < (~~~d.mask).toInt := by
    have := hi.idx_lt n hn
    have := hi.use_le
    have := hi.bound
    omega
  have hhost := host_of_idx hmask hnet hidx
  rcases lookup_spec hi (d.net ||| BitVec.ofNat 32 n.idx) with ⟨m, hm, he, hl⟩ | ⟨hno, _⟩
  · rw [hhost] at he
    obtain rfl := hi.eq_of_idx hm hn (by omega)
    exact hl
  · exact absurd hhost.symm (hno n hn)

/-- A query: the identification, the flags, the questions, the six bytes of the other counts, and what comes behind the
questions. -/
def query (id fl : Nat) (counts : List Octet) (qs : List Question) (rest : List Octet) : List Octet :=
  u16Bytes id ++ u16Bytes fl ++ u16Bytes qs.length ++ counts ++ qs.flatMap Question.encode ++ rest

/-- The response to a query: the same identification and questions, and the answers. -/
def response (id fl : Nat) (qs : List Question) (net : BitVec 32) (as : List Answer) : List Octet :=
  u16Bytes id ++ u16Bytes (responseFlags fl) ++ u16Bytes qs.length ++ u16Bytes as.length ++ [0, 0, 0, 0] ++
    qs.flatMap Question.encode ++ as.flatMap (answerBytes net)

theorem length_answersFor {d d' : HevMappedDns} {off : Nat} {qs : List Question} {as : List Answer}
    (h : d.answersFor off qs = some (d', as)) : as.length = qs.countP Question.isA := by
  induction qs generalizing d off as with
  | nil =>
    cases h
    rfl
  | cons q qs ih =>
    rw [answersFor] at h
    split at h
    · rename_i hA
      obtain ⟨⟨d₁, idx⟩, _, h⟩ := Option.bind_eq_some_iff.1 h
      obtain ⟨⟨d₂, as'⟩, h', heq⟩ := Option.map_eq_some_iff.1 h
      cases heq
      rw [List.length_cons, ih h', List.countP_cons_of_pos hA]
    · rename_i hA
      rw [ih h, List.countP_cons_of_neg hA]

/-- The names of the questions that ask for an address. -/
def addressNames (qs : List Question) : List (List Octet) := (qs.filter Question.isA).map Question.name

/-- Answering questions is a run of touches of their names. -/
theorem answersFor_touches {d d' : HevMappedDns} (hi : d.Inv) {off : Nat} {qs : List Question} {as : List Answer}
    (h : d.answersFor off qs = some (d', as)) : TouchRun d (addressNames qs) d' := by
  induction qs generalizing d off as with
  | nil =>
    cases h
    exact .nil _
  | cons q qs ih =>
    rw [answersFor] at h
    unfold addressNames
    split at h
    · rename_i hA
      obtain ⟨⟨d₁, idx⟩, hf, h⟩ := Option.bind_eq_some_iff.1 h
      obtain ⟨⟨d₂, as'⟩, h', heq⟩ := Option.map_eq_some_iff.1 h
      cases heq
      obtain ⟨d₁', idx', hf', ht⟩ := find_spec hi q.name
      rw [hf] at hf'
      cases hf'
      rw [List.filter_cons_of_pos hA]
      exact .cons ht (ih ht.inv h')
    · rename_i hA
      rw [List.filter_cons_of_neg hA]
      exact ih hi h

/-- The answer to one of the questions, and what is touched behind it. -/
theorem answersFor_split {d d' : HevMappedDns} (hi : d.Inv) {off : Nat} (qs₁ : List Question) {q : Question}
    {qs₂ : List Question} (hA : q.isA = true) {as : List Answer} (h : d.answersFor off (qs₁ ++ q :: qs₂) = some (d', as)) :
    ∃ (d₁ d₂ : HevMappedDns) (as₁ as₂ : List Answer) (idx : Nat),
      as = as₁ ++ ⟨off + (qs₁.flatMap Question.encode).length, idx⟩ :: as₂ ∧ as₁.length = qs₁.countP Question.isA ∧
      d₁.max = d.max ∧ Touches d₁ ⟨q.name, idx⟩ d₂ ∧ TouchRun d₂ (addressNames qs₂) d' := by
  induction qs₁ generalizing d off as with
  | nil =>
    rw [List.nil_append, answersFor, if_pos hA] at h
    obtain ⟨⟨d₁, idx⟩, hf, h⟩ := Option.bind_eq_some_iff.1 h
    obtain ⟨⟨d₂, as'⟩, h', heq⟩ := Option.map_eq_some_iff.1 h
    cases heq
    obtain ⟨d₁', idx', hf', ht⟩ := find_spec hi q.name
    rw [hf] at hf'
    cases hf'
    exact ⟨d, d₁, [], as', idx, rfl, rfl, rfl, ht, answersFor_touches ht.inv h'⟩
  | cons p qs₁ ih =>
    rw [List.cons_append, answersFor] at h
    have hoff : off + p.encode.length + (qs₁.flatMap Question.encode).length =
        off + ((p :: qs₁).flatMap Question.encode).length := by
      rw [List.flatMap_cons, List.length_append]
      omega
    split at h
    · rename_i hp
      obtain ⟨⟨d₀, idx₀⟩, hf, h⟩ := Option.bind_eq_some_iff.1 h
      obtain ⟨⟨d₃, as'⟩, h', heq⟩ := Option.map_eq_some_iff.1 h
      cases heq
      obtain ⟨d₀', idx', hf', ht⟩ := find_spec hi p.name
      rw [hf] at hf'
      cases hf'
      obtain ⟨d₁, d₂, as₁, as₂, idx, has, hlen, hmax, htq, hr⟩ := ih ht.inv h'
      refine ⟨d₁, d₂, ⟨off, idx₀⟩ :: as₁, as₂, idx, ?_, ?_, hmax.trans ht.max, htq, hr⟩
      · rw [has, hoff]
        rfl
      · rw [List.length_cons, hlen, List.countP_cons_of_pos hp]
    · rename_i hp
      obtain ⟨d₁, d₂, as₁, as₂, idx, has, hlen, hmax, htq, hr⟩ := ih hi h
      refine ⟨d₁, d₂, as₁, as₂, idx, ?_, ?_, hmax, htq, hr⟩
      · rw [has, hoff]
      · rw [hlen, List.countP_cons_of_neg hp]

/-- `handle` on a query that is well formed and fits. -/
theorem handle_query (hi : d.Inv) {id fl : Nat} {counts : List Octet} {qs : List Question} {rest res : List Octet}
    (hfl : fl < 65536) (hcounts : counts.length = 6) (hqs : qs.length ≤ 32) (hv : ∀ q ∈ qs, q.Valid)
    (hreq : (query id fl counts qs rest).length ≤ res.length)
    (hroom : 12 + (qs.flatMap Question.encode).length + 16 * qs.countP Question.isA ≤ res.length) :
    ∃ d' as, d.answersFor 12 qs = some (d', as) ∧
      d.handle (query id fl counts qs rest) res = (d', .done (response id fl qs d.net as)) := by
  have hpre : (u16Bytes id ++ u16Bytes fl ++ u16Bytes qs.length ++ counts).length = 12 := by
    simp [u16Bytes, hcounts]
  have h12 : 12 ≤ (query id fl counts qs rest).length := by
    unfold query
    rw [List.length_append, List.length_append, hpre]
    omega
  obtain ⟨d', as, has, hrq⟩ := readQuestions_encode hi qs hv (u16Bytes id ++ u16Bytes fl ++ u16Bytes qs.length ++ counts) rest []
    (by rw [List.length_nil, ipPlaces]; omega)
  rw [hpre] at has hrq
  refine ⟨d', as, has, ?_⟩
  have hlen := length_answersFor has
  have hf : readU16 (query id fl counts qs rest) 2 = some fl := by
    have := readU16_bytes hfl (u16Bytes id) (u16Bytes qs.length ++ counts ++ qs.flatMap Question.encode ++ rest)
    simpa [query, u16Bytes] using this
  have hq : readU16 (query id fl counts qs rest) 4 = some qs.length := by
    have := readU16_bytes (show qs.length < 65536 by omega) (u16Bytes id ++ u16Bytes fl) (counts ++ qs.flatMap Question.encode ++ rest)
    simpa [query, u16Bytes] using this
  -- the copy of the query with the counts cleared, and the bytes of the buffer behind it
  have hcopy : (query id fl counts qs rest).take 6 ++ [0, 0, 0, 0, 0, 0] ++ (query id fl counts qs rest).drop 12 ++
      res.drop (query id fl counts qs rest).length =
      (u16Bytes id ++ u16Bytes fl ++ u16Bytes qs.length ++ [0, 0, 0, 0, 0, 0] ++ qs.flatMap Question.encode) ++
        (rest ++ res.drop (query id fl counts qs rest).length) := by
    have htake : (query id fl counts qs rest).take 6 = u16Bytes id ++ u16Bytes fl ++ u16Bytes qs.length := by
      have : query id fl counts qs rest =
          (u16Bytes id ++ u16Bytes fl ++ u16Bytes qs.length) ++ (counts ++ qs.flatMap Question.encode ++ rest) := by
        simp [query]
      rw [this, List.take_left' (by simp [u16Bytes])]
    have hdrop : (query id fl counts qs rest).drop 12 = qs.flatMap Question.encode ++ rest := by
      have : query id fl counts qs rest =
          (u16Bytes id ++ u16Bytes fl ++ u16Bytes qs.length ++ counts) ++ (qs.flatMap Question.encode ++ rest) := by
        simp [query]
      rw [this, List.drop_left' hpre]
    rw [htake, hdrop]
    simp
  generalize htail : rest ++ res.drop (query id fl counts qs rest).length = tail at hcopy
  have hhead : (u16Bytes id ++ u16Bytes fl ++ u16Bytes qs.length ++ [0, 0, 0, 0, 0, 0] ++
      qs.flatMap Question.encode).length = 12 + (qs.flatMap Question.encode).length := by
    rw [List.length_append]
    rfl
  have hfit : 12 + (qs.flatMap Question.encode).length + 16 * as.length ≤
      ((u16Bytes id ++ u16Bytes fl ++ u16Bytes qs.length ++ [0, 0, 0, 0, 0, 0] ++ qs.flatMap Question.encode) ++ tail).length := by
    have : ((u16Bytes id ++ u16Bytes fl ++ u16Bytes qs.length ++ [0, 0, 0, 0, 0, 0] ++ qs.flatMap Question.encode) ++
        tail).length = res.length := by
      rw [← hcopy]
      simp
      omega
    rw [this, hlen]
    exact hroom
  unfold handle
  rw [if_neg (by omega), if_neg (by omega), hf, hq, copy_eq hreq h12, hcopy]
  dsimp only
  rw [if_neg (by omega), show query id fl counts qs rest =
    u16Bytes id ++ u16Bytes fl ++ u16Bytes qs.length ++ counts ++ qs.flatMap Question.encode ++ rest from rfl, hrq]
  dsimp only
  rw [List.nil_append]
  rcases writeAnswers_spec d'.net as _ (12 + (qs.flatMap Question.encode).length) with h | ⟨h, _⟩
  · exact absurd h (writeAnswers_ne_rejected _ _ _ _ hfit)
  · rw [h, List.take_left' hhead]
    generalize hdrop : List.drop _ _ = trailer
    have hsplit : u16Bytes id ++ u16Bytes fl ++ u16Bytes qs.length ++ [0, 0, 0, 0, 0, 0] ++ qs.flatMap Question.encode ++
        as.flatMap (answerBytes d'.net) ++ trailer =
        u16Bytes id ++ u16Bytes fl ++ (u16Bytes qs.length ++ [0, 0] ++ ([0, 0, 0, 0] ++ qs.flatMap Question.encode ++
          as.flatMap (answerBytes d'.net) ++ trailer)) := by
      simp
    dsimp only
    rw [hsplit]
    have hstore : store (u16Bytes id ++ u16Bytes fl ++ (u16Bytes qs.length ++ [0, 0] ++ ([0, 0, 0, 0] ++
        qs.flatMap Question.encode ++ as.flatMap (answerBytes d'.net) ++ trailer))) 2 (u16Bytes (responseFlags fl)) =
        some (u16Bytes id ++ u16Bytes (responseFlags fl) ++ (u16Bytes qs.length ++ [0, 0] ++ ([0, 0, 0, 0] ++
          qs.flatMap Question.encode ++ as.flatMap (answerBytes d'.net) ++ trailer))) := store_middle rfl
    have hstore' : store (u16Bytes id ++ u16Bytes (responseFlags fl) ++ (u16Bytes qs.length ++ [0, 0] ++ ([0, 0, 0, 0] ++
        qs.flatMap Question.encode ++ as.flatMap (answerBytes d'.net) ++ trailer))) 6 (u16Bytes as.length) =
        some ((u16Bytes id ++ u16Bytes (responseFlags fl) ++ u16Bytes qs.length) ++ u16Bytes as.length ++ ([0, 0, 0, 0] ++
          qs.flatMap Question.encode ++ as.flatMap (answerBytes d'.net) ++ trailer)) := by
      have hassoc : u16Bytes id ++ u16Bytes (responseFlags fl) ++ (u16Bytes qs.length ++ [0, 0] ++ ([0, 0, 0, 0] ++
          qs.flatMap Question.encode ++ as.flatMap (answerBytes d'.net) ++ trailer)) =
          (u16Bytes id ++ u16Bytes (responseFlags fl) ++ u16Bytes qs.length) ++ [0, 0] ++ ([0, 0, 0, 0] ++
            qs.flatMap Question.encode ++ as.flatMap (answerBytes d'.net) ++ trailer) := by
        simp
      rw [hassoc]
      exact store_middle rfl
    rw [hstore, Option.bind_some, hstore']
    dsimp only
    rw [((answersFor_touches hi has).inv hi).2.2.1]
    congr 2
    have hresp : (u16Bytes id ++ u16Bytes (responseFlags fl) ++ u16Bytes qs.length) ++ u16Bytes as.length ++ ([0, 0, 0, 0] ++
        qs.flatMap Question.encode ++ as.flatMap (answerBytes d.net) ++ trailer) =
        response id fl qs d.net as ++ trailer := by
      simp [response]
    rw [hresp]
    apply List.take_left'
    simp only [response, List.length_append, length_answers]
    rfl

end DnsAux

end HevMappedDns

open HevMappedDns HevMappedDns.DnsAux

/-- A cache for two names in 198.18.0.0/15. -/
def HevMappedDns.DnsAux.pair : HevMappedDns :=
  { use := 0, max := 2, net := 0xC6120000, mask := 0xFFFE0000, list := [], tree := .leaf, records := fun _ => none }

/-- A question for the address of a name of one letter. -/
def HevMappedDns.DnsAux.letter (c : Octet) : Question := ⟨[[c]], 1, 1⟩

/-- After any run, a query that is well formed and whose response fits the buffer is answered by its own questions with one answer
for each that asks for the address of a name, in order. With a netmask of the usual form and a network without host bits, and
whatever comes behind the query, the address given for the name of a question `q` that asks for it leads to that name, as long
as fewer other names than `max` have been used since, those of the questions behind `q` included. -/
theorem mapped_dns_round_trip (net mask : BitVec 32) (max : Nat) (hpos : 0 < max) (d₀ : HevMappedDns)
    (hc : construct net mask max = some d₀) (es : List DnsEvent) (d : HevMappedDns)
    (hes : exec HevMappedDns.serve d₀ es = some d) (id fl : Nat) (hfl : fl < 65536) (counts : List Octet)
    (hcounts : counts.length = 6) (qs : List Question) (hqs : qs.length ≤ 32) (hv : ∀ p ∈ qs, p.Valid) (rest res : List Octet)
    (hreq : (query id fl counts qs rest).length ≤ res.length)
    (hroom : 12 + (qs.flatMap Question.encode).length + 16 * qs.countP Question.isA ≤ res.length) :
    ∃ (d₁ : HevMappedDns) (as : List Answer),
      d.handle (query id fl counts qs rest) res = (d₁, .done (response id fl qs net as)) ∧
      as.length = qs.countP Question.isA ∧
      ∀ qs₁ q qs₂, qs = qs₁ ++ q :: qs₂ → q.isA = true →
        ∃ (as₁ as₂ : List Answer) (idx : Nat), as = as₁ ++ ⟨12 + (qs₁.flatMap Question.encode).length, idx⟩ :: as₂ ∧
          as₁.length = qs₁.countP Question.isA ∧ as₂.length = qs₂.countP Question.isA ∧
          ∀ k : Nat, mask = BitVec.allOnes 32 <<< k → net &&& ~~~mask = 0 →
            ∀ fs : List DnsEvent, ((addressNames qs₂ ++ d₁.usedIn fs).toFinset.erase q.name).card < max →
              ∃ d₂, exec HevMappedDns.serve d₁ fs = some d₂ ∧
                (d₂.lookup (net ||| BitVec.ofNat 32 idx)).map Prod.snd = some (some q.name) := by
  obtain ⟨d', hx, hinv, hmax, hn, hm⟩ := exec_construct hpos hc es
  rw [hes, Option.some.injEq] at hx
  subst hx
  obtain ⟨d₁, as, has, hh⟩ := handle_query hinv hfl hcounts hqs hv hreq hroom
  have htotal := length_answersFor has
  rw [hn] at hh
  refine ⟨d₁, as, hh, htotal, ?_⟩
  rintro qs₁ q qs₂ rfl hA
  obtain ⟨e₁, e₂, as₁, as₂, idx, rfl, hlen, hmax', ht, hr⟩ := answersFor_split hinv qs₁ hA has
  rw [List.length_append, List.length_cons, List.countP_append, List.countP_cons_of_pos hA] at htotal
  refine ⟨as₁, as₂, idx, rfl, hlen, by omega, ?_⟩
  intro k hmask hnet fs hfs
  obtain ⟨hinv₁, _, hn₁, hm₁⟩ := (answersFor_touches hinv has).inv hinv
  obtain ⟨d₂, hx, hr'⟩ := exec_serve hinv₁ fs
  obtain ⟨hinv₂, _, hn₂, hm₂⟩ := hr'.inv hinv₁
  have hmem : ⟨q.name, idx⟩ ∈ d₂.list := TouchRun.keeps_touched ht (hr.append hr') (by rw [hmax', hmax]; exact hfs)
  refine ⟨d₂, hx, ?_⟩
  have hnet₂ : d₂.net = net := by rw [hn₂, hn₁, hn]
  have hmask₂ : d₂.mask = mask := by rw [hm₂, hm₁, hm]
  have hl := lookup_address hinv₂ (hmask₂.trans hmask) (by rw [hnet₂, hmask₂]; exact hnet) hmem
  rw [hnet₂] at hl
  rw [hl]
  rfl

/-- Another name and the address itself are used in between. -/
theorem mapped_dns_round_trip_pair :
    ∃ (d₁ : HevMappedDns) (idx : Nat),
      pair.handle (query 7 0x100 [0, 0, 0, 0, 0, 0] [letter 97] []) (List.replicate 512 0) =
        (d₁, .done (response 7 0x100 [letter 97] 0xC6120000 [⟨12, idx⟩])) ∧
      ∃ d₂, exec HevMappedDns.serve d₁ [.handle (query 8 0x100 [0, 0, 0, 0, 0, 0] [letter 98] []) (List.replicate 512 0),
          .lookup 0xC6120000] = some d₂ ∧
        (d₂.lookup (0xC6120000 ||| BitVec.ofNat 32 idx)).map Prod.snd = some (some [97]) := by
  obtain ⟨d₁, as, hh, _, hall⟩ := mapped_dns_round_trip 0xC6120000 0xFFFE0000 2 (by decide) pair (if_neg (by decide)) [] pair rfl
    7 0x100 (by decide) [0, 0, 0, 0, 0, 0] rfl [letter 97] (by decide) (by simp [letter, Question.Valid]) []
    (List.replicate 512 0) (by decide +kernel) (by decide +kernel)
  obtain ⟨as₁, as₂, idx, rfl, h₁, h₂, hname⟩ := hall [] (letter 97) [] rfl rfl
  obtain rfl : as₁ = [] := List.length_eq_zero_iff.1 h₁
  obtain rfl : as₂ = [] := List.length_eq_zero_iff.1 h₂
  refine ⟨d₁, idx, hh, hname 17 (by decide) (by decide) _ ?_⟩
  have hd : d₁ = (pair.handle (query 7 0x100 [0, 0, 0, 0, 0, 0] [letter 97] []) (List.replicate 512 0)).1 := by
    rw [hh]
  rw [hd]
  decide +kernel

end Open365Vpn
