import Open365Vpn.Decrypt
import Open365Vpn.Lemmas.Operations

/-!
# A configuration that was cut off

The loop over the inflater stops at the end of the stream, and also when the inflater asks for more input or for a dictionary,
and then it returns what it has. A payload that was cut off is therefore taken for the whole configuration. `inflateLoop_eq`
says what the loop returns from every state; it ends, since every call gives something of what is left or is the last but one.
-/

namespace Open365Vpn

open Kotlin Inflating

namespace X365Api

/-- With enough fuel `decryptProxyField` returns this reply. -/
def Returns (P : Platform) (proxyB64 : Str) (reply : Reply) : Prop :=
  ∃ n, ∀ fuel, n ≤ fuel → decryptProxyField P fuel proxyB64 = some reply

/-- With enough fuel `fetchConfigYaml` returns this reply. -/
def Fetches (P : Platform) (response : Response) (reply : Reply) : Prop :=
  ∃ n, ∀ fuel, n ≤ fuel → fetchConfigYaml P fuel response = some reply

/-- A field whose decrypted bytes do not hold a complete stream is an error, and a sync that is answered with it leaves the nodes
and the set of URIs as they were; one whose bytes hold a complete stream gives the full text. -/
structure RejectsPartial (P : Platform) (proxyB64 : Str) : Prop where
  cut_error : ∀ plain, decrypt P proxyB64 = .ok plain → ¬P.inflater.Finishes plain → ∃ message, Returns P proxyB64 (.error message)
  cut_sync : ∀ plain, decrypt P proxyB64 = .ok plain → ¬P.inflater.Finishes plain → ∀ response reply,
    field P "proxy".toList "响应中无 proxy 字段".toList response = .ok proxyB64 → Fetches P response reply →
      ∀ (s : ViewModel) (loginResponse : Response),
        (s.fetchNodes ⟨reply, login P loginResponse, reply⟩).2.nodes = s.nodes ∧
          (s.fetchNodes ⟨reply, login P loginResponse, reply⟩).2.prefs.apiNodes = s.prefs.apiNodes
  complete : ∀ plain, decrypt P proxyB64 = .ok plain → P.inflater.Finishes plain →
    Returns P proxyB64 (.ok (P.decodeUtf8 (P.inflater.stream plain).1))

/-- The decrypted bytes do not end before their stream does, and demand no dictionary. -/
def NotCut (P : Platform) (proxyB64 : Str) : Prop :=
  ∀ plain, decrypt P proxyB64 = .ok plain →
    (P.inflater.stream plain).2 ≠ .needsInput ∧ (P.inflater.stream plain).2 ≠ .needsDictionary

namespace TruncatedAux

variable {P : Platform}

/-- What the loop makes of the way in which the input ends. -/
def loopResult (ending : Ending (Option Str)) (out : List UInt8) : Except (Option Str) (List UInt8) :=
  match ending with
  | .corrupt message => .error message
  | .complete | .needsInput | .needsDictionary => .ok out

/-- The loop ends with all that was left, unless the input turns out to be no stream. -/
theorem inflateLoop_eq (fuel : Nat) (inf : P.inflater.State) (out : List UInt8)
    (hf : (P.inflater.left inf).1.length + 2 ≤ fuel) :
    inflateLoop P fuel inf out = some (loopResult (P.inflater.left inf).2 (out ++ (P.inflater.left inf).1)) := by
  induction fuel generalizing inf out with
  | zero => omega
  | succ fuel ih =>
    rw [inflateLoop]
    by_cases hfin : P.inflater.finished inf = true
    · rw [if_pos hfin, P.inflater.finished_only hfin, List.append_nil]
      rfl
    · rw [if_neg hfin]
      cases hi : P.inflater.inflate inf with
      | error message =>
        rw [P.inflater.inflate_error hi]
        rfl
      | ok r =>
        obtain ⟨buf, inf'⟩ := r
        obtain ⟨hleft, -⟩ := P.inflater.inflate_ok hi
        cases buf with
        | nil =>
          -- the flags tell how the input ended; without one of them the next test ends the loop
          obtain ⟨hnil, hflags⟩ := P.inflater.inflate_nothing hi
          rw [hleft, hnil] at hf ⊢
          simp only [List.append_nil, List.isEmpty_nil, if_true]
          rcases hflags with ⟨he, hfl⟩ | ⟨he, hfl⟩ | ⟨he, hfl⟩
          · rw [he]
            split
            · rfl
            · obtain ⟨n, rfl⟩ : ∃ n, fuel = n + 1 := ⟨fuel - 1, by simp at hf; omega⟩
              rw [inflateLoop, if_pos hfl]
              rfl
          · rw [he, hfl]
            rfl
          · rw [he, hfl, Bool.or_true]
            rfl
        | cons b bs =>
          have hlen : (P.inflater.left inf').1.length + 2 ≤ fuel := by
            rw [hleft] at hf
            simp only [List.length_append, List.length_cons] at hf
            omega
          simp only [List.isEmpty_cons, Bool.false_eq_true, if_false]
          rw [ih inf' (out ++ b :: bs) hlen, hleft, List.append_assoc]

/-- What `decryptProxyField` returns for a field that decrypts. -/
theorem returns_of_decrypt {proxyB64 : Str} {plain : List UInt8} (h : decrypt P proxyB64 = .ok plain) :
    Returns P proxyB64 ((loopResult (P.inflater.stream plain).2 (P.inflater.stream plain).1).map P.decodeUtf8) := by
  refine ⟨(P.inflater.stream plain).1.length + 2, fun fuel hfuel => ?_⟩
  have hloop := inflateLoop_eq fuel (P.inflater.setInput plain) [] hfuel
  simp only [decryptProxyField, h, hloop, Option.map_some, List.nil_append]
  rfl

theorem Returns.unique {proxyB64 : Str} {r r' : Reply} (h : Returns P proxyB64 r) (h' : Returns P proxyB64 r') : r = r' := by
  obtain ⟨n, hn⟩ := h
  obtain ⟨n', hn'⟩ := h'
  have h1 := hn (max n n') (Nat.le_max_left n n')
  have h2 := hn' (max n n') (Nat.le_max_right n n')
  exact Option.some.inj (h1.symm.trans h2)

/-- A response with the field comes to what the field comes to. -/
theorem returns_of_fetches {response : Response} {proxyB64 : Str} {reply : Reply}
    (hr : field P "proxy".toList "响应中无 proxy 字段".toList response = .ok proxyB64) (h : Fetches P response reply) :
    Returns P proxyB64 reply := by
  obtain ⟨n, hn⟩ := h
  refine ⟨n, fun fuel hfuel => ?_⟩
  have := hn fuel hfuel
  rwa [fetchConfigYaml, hr] at this

/-- A sync that gets an error with and without a new login changes neither the nodes nor the set of URIs. -/
theorem fetchNodes_error (s : ViewModel) (message : Option Str) (l : Reply) :
    (s.fetchNodes ⟨.error message, l, .error message⟩).2.nodes = s.nodes ∧
      (s.fetchNodes ⟨.error message, l, .error message⟩).2.prefs.apiNodes = s.prefs.apiNodes := by
  have hfirst : ∀ c : Bool, (if c then .error (some "no token".toList) else .error message : Reply) =
      .error (if c then some "no token".toList else message) := by
    intro c
    cases c <;> rfl
  simp only [ViewModel.fetchNodes, ViewModel.fetchYaml, hfirst]
  cases l <;> exact ⟨rfl, rfl⟩

end TruncatedAux

open TruncatedAux

/-- For every platform and every field: what is not a complete stream is rejected, and what is gives the full text, exactly when
the decrypted bytes are not cut off and demand no dictionary. -/
theorem rejectsPartial_iff (P : Platform) (proxyB64 : Str) : RejectsPartial P proxyB64 ↔ NotCut P proxyB64 := by
  constructor
  · intro h plain hplain
    have hret := returns_of_decrypt hplain
    -- both ways of being cut off return a text where an error is due
    have key : (P.inflater.stream plain).2 ≠ .complete →
        loopResult (P.inflater.stream plain).2 (P.inflater.stream plain).1 ≠ .ok (P.inflater.stream plain).1 := by
      intro hne hok
      have hnf : ¬P.inflater.Finishes plain := fun hf => hne ((P.inflater.finishes_iff plain).1 hf)
      obtain ⟨message, herr⟩ := h.cut_error plain hplain hnf
      rw [hok] at hret
      have := Returns.unique hret herr
      cases this
    constructor
    · intro he
      rw [he] at key
      exact key (fun e => by cases e) rfl
    · intro he
      rw [he] at key
      exact key (fun e => by cases e) rfl
  · intro h
    -- without a complete stream the bytes are no stream at all
    have hcorrupt : ∀ plain, decrypt P proxyB64 = .ok plain → ¬P.inflater.Finishes plain →
        ∃ message, Returns P proxyB64 (.error message) := by
      intro plain hplain hnf
      have hret := returns_of_decrypt hplain
      obtain ⟨h1, h2⟩ := h plain hplain
      rw [P.inflater.finishes_iff] at hnf
      cases he : (P.inflater.stream plain).2 with
      | complete => exact absurd he hnf
      | needsInput => exact absurd he h1
      | needsDictionary => exact absurd he h2
      | corrupt message =>
        rw [he] at hret
        exact ⟨message, hret⟩
    refine ⟨hcorrupt, fun plain hplain hnf response reply hr hfetch s loginResponse => ?_, fun plain hplain hfin => ?_⟩
    · obtain ⟨message, herr⟩ := hcorrupt plain hplain hnf
      obtain rfl : reply = .error message := Returns.unique (returns_of_fetches hr hfetch) herr
      exact fetchNodes_error s message _
    · have hret := returns_of_decrypt hplain
      rw [(P.inflater.finishes_iff plain).1 hfin] at hret
      exact hret

/-! ## A payload that was cut off -/

/-- The Adler checksum at the end of a zlib stream. -/
def adler32 (data : List UInt8) : Nat :=
  let sums := data.foldl (fun s c => ((s.1 + c.toNat) % 65521, (s.2 + (s.1 + c.toNat)) % 65521)) (1, 0)
  sums.2 * 65536 + sums.1

/-- A number of big-endian bytes. -/
def ofBigEndian (bytes : List UInt8) : Nat := bytes.foldl (fun n b => 256 * n + b.toNat) 0

/-- The blocks of a stream that are stored and not compressed, and the checksum behind the last of them. -/
def inflateStored : Nat → List UInt8 → List UInt8 → List UInt8 × Ending (Option Str)
  | fuel + 1, out, b :: l0 :: l1 :: n0 :: n1 :: rest =>
    let len := l0.toNat + 256 * l1.toNat
    if b.toNat / 2 % 4 ≠ 0 then (out, .corrupt none)
    else if l0.toNat + n0.toNat ≠ 255 ∨ l1.toNat + n1.toNat ≠ 255 then
      (out, .corrupt (some "invalid stored block lengths".toList))
    else if rest.length < len then (out ++ rest, .needsInput)
    else if b.toNat % 2 = 0 then inflateStored fuel (out ++ rest.take len) (rest.drop len)
    else if (rest.drop len).length < 4 then (out ++ rest.take len, .needsInput)
    else if ofBigEndian ((rest.drop len).take 4) = adler32 (out ++ rest.take len) then (out ++ rest.take len, .complete)
    else (out ++ rest.take len, .corrupt (some "incorrect data check".toList))
  | _, out, _ => (out, .needsInput)

/-- A zlib stream of stored blocks: the two bytes of its header, and the blocks. -/
def inflateZlib : List UInt8 → List UInt8 × Ending (Option Str)
  | cmf :: flg :: rest =>
    if (256 * cmf.toNat + flg.toNat) % 31 ≠ 0 then ([], .corrupt (some "incorrect header check".toList))
    else if flg.toNat / 32 % 2 = 1 then ([], if rest.length < 4 then .needsInput else .needsDictionary)
    else inflateStored rest.length [] rest
  | _ => ([], .needsInput)

/-- The bytes of an ASCII text, and back. -/
def ascii (s : String) : List UInt8 := s.toList.map fun c => UInt8.ofNat c.toNat

def ofAscii (bytes : List UInt8) : Str := bytes.map fun b => Char.ofNat b.toNat

/-- The beginning of a stream with one stored block of 58 bytes, a configuration with two nodes, cut off before the second. -/
def cutPlain : List UInt8 := [0x78, 1, 1, 58, 0, 197, 255] ++ ascii "proxies:\n    A:\n      - x365://u@h:1\n"

/-- A number as big-endian bytes. -/
def bigEndian : Nat → Nat → List UInt8
  | 0, _ => []
  | k + 1, n => bigEndian k (n / 256) ++ [UInt8.ofNat n]

/-- The block that the built-in key decrypts to these bytes. -/
def cutBlock : List UInt8 :=
  [0xc4b45fd6927d44861085eac85f28d74be91465d9b6b6d276c6974d7c9d715759,
    0x68a80dd6f1079c8e8b803b7e609fa25dc34cab57aa9a3d7f83b73ff6c343ab51,
    0x08cbcbe98a22d483bbe59e25b130c34bdc5fa3516d7711008d4c5d57b9876d92,
    0xde5464dbe948e4405ee7f1ce448096d0583d9e9bfb24f5b9a69e30f5a7e0772f,
    0x8e3858351dab2e6be3f6a4166100afc435b92653740c3df5d89ca20d88afb734,
    0x5c5874b1c3116ef4020f17b1d5fc33a24baf0b7be06f5dfa1813b412d79f7b6d,
    0x60085545800993aee556c3c9ef8122c1175c8a34e28c11ce806069d9dbd7317a,
    0x71655e9b7b09b707a994b72ebb6fdfdd9a2e132856d24d4151cb1d6e729aee2b].flatMap (bigEndian 32)

/-- The block in Base64. -/
def cutField : Str :=
  ("xLRf1pJ9RIYQherIXyjXS+kUZdm2ttJ2xpdNfJ1xV1loqA3W8QecjouAO35gn6Jdw0yrV6qaPX+Dtz/2w0OrUQ" ++
    "jLy+mKItSDu+WeJbEww0vcX6NRbXcRAI1MXVe5h22S3lRk2+lI5EBe5/HORICW0Fg9npv7JPW5pp4w9afgdy+O" ++
    "OFg1Hasua+P2pBZhAK/ENbkmU3QMPfXYnKINiK+3NFxYdLHDEW70Ag8XsdX8M6JLrwt74G9d+hgTtBLXn3ttYA" ++
    "hVRYAJk67lVsPJ74EiwRdcijTijBHOgGBp2dvXMXpxZV6bewm3B6mUty67b9/dmi4TKFbSTUFRyx1ucpruKw==").toList

/-- A platform on one field: it is the Base64 of one block, and the key decrypts the block to some bytes. -/
def oneBlock (field : Str) (block plain : List UInt8) : Platform where
  optString _ name := .ok (if name = "proxy".toList then field else [])
  base64Decode s := if s = field then .ok block else .error (some "bad base-64".toList)
  rsaPrivateDecrypt b := if b = block then .ok plain else .error none
  inflater := Inflater.ofDecode inflateZlib bufferSize (by decide)
  decodeUtf8 := ofAscii

theorem decrypt_oneBlock (field : Str) {block : List UInt8} (plain : List UInt8) (hlen : block.length = 256) :
    decrypt (oneBlock field block plain) field = .ok plain := by
  have hblock : (block.drop 0).take blockSize = block := by
    rw [List.drop_zero, blockSize, ← hlen, List.take_length]
  have hdec : (oneBlock field block plain).rsaPrivateDecrypt block = .ok plain := if_pos rfl
  have hbase : (oneBlock field block plain).base64Decode field = .ok block := if_pos rfl
  have hloop : decryptBlocks (oneBlock field block plain) block 0 [] = .ok plain := by
    rw [decryptBlocks, dif_pos (by omega), if_neg (by rw [hlen]; decide), hblock, hdec]
    simp only
    rw [decryptBlocks, dif_neg (by rw [hlen]; decide), List.nil_append]
  simp only [decrypt, hbase, hloop]

theorem length_bigEndian (k n : Nat) : (bigEndian k n).length = k := by
  induction k generalizing n with
  | zero => rfl
  | succ k ih => simp [bigEndian, ih]

theorem length_cutBlock : cutBlock.length = 256 := by
  simp only [cutBlock, List.flatMap_cons, List.flatMap_nil, List.length_append, List.length_nil, length_bigEndian]

/-- The platform on this field. -/
def cutPlatform : Platform := oneBlock cutField cutBlock cutPlain

theorem decrypt_cutField : decrypt cutPlatform cutField = .ok cutPlain := decrypt_oneBlock cutField cutPlain length_cutBlock

/-- The first of two nodes is returned as if it were all there is. -/
theorem cut_field_accepted :
    decrypt cutPlatform cutField = .ok cutPlain ∧ ¬cutPlatform.inflater.Finishes cutPlain ∧
      Returns cutPlatform cutField (.ok "proxies:\n    A:\n      - x365://u@h:1\n".toList) ∧
      ¬RejectsPartial cutPlatform cutField := by
  have hend : (cutPlatform.inflater.stream cutPlain).2 = .needsInput := by rfl
  have hnf : ¬cutPlatform.inflater.Finishes cutPlain := by
    rw [Inflater.finishes_iff, hend]
    exact fun e => by cases e
  have hret : Returns cutPlatform cutField (.ok "proxies:\n    A:\n      - x365://u@h:1\n".toList) := by
    have h := returns_of_decrypt decrypt_cutField
    rw [hend] at h
    exact h
  refine ⟨decrypt_cutField, hnf, hret, fun h => ?_⟩
  obtain ⟨message, herr⟩ := h.cut_error cutPlain decrypt_cutField hnf
  have := Returns.unique hret herr
  cases this

end X365Api

end Open365Vpn
