import Mathlib.Data.List.Forall2
import Open365Vpn.Encrypt
import Open365Vpn.Lib.Base64
import Open365Vpn.Theorems.Truncated

/-!
# Decryption undoes encryption

The loop of `makeXSig` cuts its bytes into chunks and encrypts each one; the loop of `decryptProxyField` cuts its bytes into
blocks and decrypts each one. The sizes differ, the first loop cuts its last chunk short, and the second one throws at a last
block that is short. For a pair of keys the second loop gives back what the first one was given.
-/

namespace Open365Vpn

open Kotlin

/-- The two keys are a pair, and Base64 is decoded as it was encoded. A chunk of at most 245 bytes is encrypted to a block of
256 bytes, whichever bytes the padding has, and the block is decrypted to the chunk. What the cipher does with a longer chunk
does not matter: the loop passes none. -/
structure KeyPair (P : ClientPlatform) : Prop where
  encrypts : ∀ k chunk, chunk.length ≤ 245 →
    ∃ block, P.rsaPublicEncrypt k chunk = .ok block ∧ block.length = 256 ∧ P.rsaPrivateDecrypt block = .ok chunk
  base64 : ∀ bytes, P.base64Decode (P.base64Encode bytes) = .ok bytes

/-- The chunk, in some call, was encrypted to the block. -/
def Encrypts (P : ClientPlatform) (chunk block : List UInt8) : Prop := ∃ k, P.rsaPublicEncrypt k chunk = .ok block

namespace BlocksAux

open X365Api

variable {P : ClientPlatform}

/-- What a pair of keys makes of an encrypted chunk. -/
theorem decrypts_of_encrypts (hP : KeyPair P) {chunk block : List UInt8} (hlen : chunk.length ≤ 245)
    (h : Encrypts P chunk block) : block.length = 256 ∧ P.rsaPrivateDecrypt block = .ok chunk := by
  obtain ⟨k, hk⟩ := h
  obtain ⟨block', hb, h1, h2⟩ := hP.encrypts k chunk hlen
  obtain rfl : block = block' := Except.ok.inj (hk.symm.trans hb)
  exact ⟨h1, h2⟩

/-! ## The loop over the chunks -/

/-- One round of the loop over the chunks. -/
theorem encryptBlocks_step {blob : List UInt8} {i : Nat} (hi : i < blob.length) {passed : List (List UInt8)}
    {block : List UInt8} (out : List UInt8)
    (h : P.rsaPublicEncrypt passed.length ((blob.drop i).take 245) = .ok block) :
    encryptBlocks P blob i passed out =
      encryptBlocks P blob (min (i + 245) blob.length) (passed ++ [(blob.drop i).take 245]) (out ++ block) := by
  have hchunk : (blob.drop i).take (min (i + 245) blob.length - i) = (blob.drop i).take 245 := by
    rw [List.take_eq_take_iff, List.length_drop]
    omega
  rw [encryptBlocks, dif_pos hi]
  simp only [chunkSize, hchunk, h]

/-- The loop passes chunks that are neither empty nor too long, that make up the bytes from the index on, and writes their
blocks. -/
theorem encryptBlocks_spec (hP : KeyPair P) (blob : List UInt8) (i : Nat) (passed : List (List UInt8)) (out : List UInt8) :
    ∃ chunks blocks, encryptBlocks P blob i passed out = (passed ++ chunks, .ok (out ++ blocks.flatten)) ∧
      chunks.flatten = blob.drop i ∧ (∀ chunk ∈ chunks, 0 < chunk.length ∧ chunk.length ≤ 245) ∧
        List.Forall₂ (Encrypts P) chunks blocks := by
  -- the induction is on the bytes that are left
  induction hn : blob.length - i using Nat.strongRecOn generalizing i passed out with
  | ind n ih =>
    by_cases hi : i < blob.length
    · have hpos : 0 < ((blob.drop i).take 245).length := by
        simp only [List.length_take, List.length_drop]
        omega
      have hle : ((blob.drop i).take 245).length ≤ 245 := List.length_take_le 245 _
      obtain ⟨block, henc, -, -⟩ := hP.encrypts passed.length _ hle
      obtain ⟨chunks, blocks, hrun, hflat, hsize, hall⟩ :=
        ih (blob.length - min (i + 245) blob.length) (by omega) (min (i + 245) blob.length)
          (passed ++ [(blob.drop i).take 245]) (out ++ block) rfl
      refine ⟨(blob.drop i).take 245 :: chunks, block :: blocks, ?_, ?_, ?_, .cons ⟨_, henc⟩ hall⟩
      · rw [encryptBlocks_step hi out henc, hrun]
        simp
      · have hrest : blob.drop (min (i + 245) blob.length) = (blob.drop i).drop 245 := by
          rw [List.drop_drop]
          rcases Nat.le_total (i + 245) blob.length with h | h
          · rw [Nat.min_eq_left h]
          · rw [Nat.min_eq_right h, List.drop_length, List.drop_eq_nil_of_le h]
        rw [List.flatten_cons, hflat, hrest, List.take_append_drop]
      · rw [List.forall_mem_cons]
        exact ⟨⟨hpos, hle⟩, hsize⟩
    · refine ⟨[], [], ?_, ?_, by simp, .nil⟩
      · rw [encryptBlocks, dif_neg hi]
        simp
      · rw [List.flatten_nil, List.drop_eq_nil_of_le (by omega)]

/-! ## The loop over the blocks -/

/-- Blocks that were encrypted one by one are decrypted one by one. -/
theorem decryptBlocks_flatten (hP : KeyPair P) {chunks blocks : List (List UInt8)}
    (hsize : ∀ chunk ∈ chunks, chunk.length ≤ 245) (h : List.Forall₂ (Encrypts P) chunks blocks) (front plain : List UInt8) :
    decryptBlocks P.toPlatform (front ++ blocks.flatten) front.length plain = .ok (plain ++ chunks.flatten) := by
  induction h generalizing front plain with
  | nil =>
    rw [decryptBlocks]
    simp
  | @cons chunk block chunks blocks hc _ ih =>
    rw [List.forall_mem_cons] at hsize
    obtain ⟨hlen, hdec⟩ := decrypts_of_encrypts hP hsize.1 hc
    have hblock : ((front ++ (block :: blocks).flatten).drop front.length).take blockSize = block := by
      rw [List.drop_left, List.flatten_cons, blockSize, ← hlen, List.take_left]
    have hnext := ih hsize.2 (front ++ block) (plain ++ chunk)
    rw [List.length_append, hlen, List.append_assoc, List.append_assoc] at hnext
    rw [decryptBlocks, dif_pos (by simp; omega), if_neg (by simp [blockSize]; omega), hblock, hdec]
    exact hnext

/-- A last block that is short is an error, if no block before it is one. -/
theorem decryptBlocks_error (Q : Platform) (data : List UInt8) (i : Nat) (plain : List UInt8)
    (h : ¬256 ∣ data.length - i) : ∃ message, decryptBlocks Q data i plain = .error message := by
  -- the induction is on the bytes that are left, which stay no multiple
  induction hn : data.length - i using Nat.strongRecOn generalizing i plain with
  | ind n ih =>
    have hi : i < data.length := by
      by_contra hi
      exact h (by rw [Nat.sub_eq_zero_of_le (by omega)]; exact Nat.dvd_zero 256)
    rw [decryptBlocks, dif_pos hi]
    split
    · exact ⟨_, rfl⟩
    · rename_i hge
      simp only [blockSize] at hge ⊢
      split
      · exact ⟨_, rfl⟩
      · exact ih (data.length - (i + 256)) (by omega) (i + 256) _ (by omega) rfl

/-- The loop over the blocks undoes the loop over the chunks. -/
theorem decrypt_of_encryptBlocks (hP : KeyPair P) (blob : List UInt8) :
    (∀ chunk ∈ (encryptBlocks P blob 0 [] []).1, 0 < chunk.length ∧ chunk.length ≤ 245) ∧
      ∃ out, (encryptBlocks P blob 0 [] []).2 = .ok out ∧ decrypt P.toPlatform (P.base64Encode out) = .ok blob := by
  obtain ⟨chunks, blocks, hrun, hflat, hsize, hall⟩ := encryptBlocks_spec hP blob 0 [] []
  rw [hrun]
  refine ⟨hsize, blocks.flatten, rfl, ?_⟩
  have hdec := decryptBlocks_flatten hP (fun chunk hc => (hsize chunk hc).2) hall [] []
  rw [hflat] at hdec
  rw [decrypt, hP.base64]
  exact hdec

end BlocksAux

open BlocksAux X365Api

/-- The server, with the other key of the pair, reads the description of the device from the signature. -/
theorem decrypt_makeXSig {P : ClientPlatform} (hP : KeyPair P) (json : List (Str × JsonValue) → List UInt8)
    (osVersion did api deviceName : Str) (screenW screenH : Int) (osArch : Str) :
    ∃ sig, makeXSig P json osVersion did api deviceName screenW screenH osArch = .ok sig ∧
      decrypt P.toPlatform sig = .ok (json (deviceInfo osVersion did api deviceName screenW screenH osArch)) := by
  obtain ⟨-, out, hout, hdec⟩ :=
    decrypt_of_encryptBlocks hP (json (deviceInfo osVersion did api deviceName screenW screenH osArch))
  exact ⟨P.base64Encode out, by simp only [makeXSig, hout], hdec⟩

/-- **Block decryption undoes block encryption.** For a pair of keys: the loop of `makeXSig` passes no chunk that is empty or
longer than 245 bytes, ends, and from the Base64 of what it writes the loop of `decryptProxyField` gives its bytes back. That loop
gives back the concatenation of any chunks that were encrypted one by one. Bytes that are no multiple of 256 are an error. -/
theorem decryptBlocks_inverts (P : ClientPlatform) (hP : KeyPair P) :
    (∀ blob, (∀ chunk ∈ (encryptBlocks P blob 0 [] []).1, 0 < chunk.length ∧ chunk.length ≤ 245) ∧
        ∃ out, (encryptBlocks P blob 0 [] []).2 = .ok out ∧ decrypt P.toPlatform (P.base64Encode out) = .ok blob) ∧
      (∀ chunks blocks, (∀ chunk ∈ chunks, chunk.length ≤ 245) → List.Forall₂ (Encrypts P) chunks blocks →
        decryptBlocks P.toPlatform blocks.flatten 0 [] = .ok chunks.flatten) ∧
      (∀ data, ¬256 ∣ data.length → ∃ message, decryptBlocks P.toPlatform data 0 [] = .error message) ∧
      ∀ proxyB64 data, P.base64Decode proxyB64 = .ok data → ¬256 ∣ data.length →
        ∃ message, ∀ fuel, decryptProxyField P.toPlatform fuel proxyB64 = some (.error message) := by
  refine ⟨decrypt_of_encryptBlocks hP, ?_, ?_, ?_⟩
  · intro chunks blocks hsize hall
    exact decryptBlocks_flatten hP hsize hall [] []
  · intro data hdata
    exact decryptBlocks_error P.toPlatform data 0 [] hdata
  · intro proxyB64 data hbase hdata
    obtain ⟨message, herr⟩ := decryptBlocks_error P.toPlatform data 0 [] hdata
    refine ⟨message, fun fuel => ?_⟩
    simp only [decryptProxyField, decrypt, hbase, herr]

/-! ## A pair of keys -/

/-- The padding of a chunk, before the power is taken. -/
def pad (chunk : List UInt8) : List UInt8 := [0, 2] ++ List.replicate (253 - chunk.length) 0xff ++ 0 :: chunk

/-- The chunk in its padding. -/
def unpad (block : List UInt8) : Except (Option Str) (List UInt8) :=
  if block.take 2 = [0, 2] then .ok ((block.drop 2).dropWhile (· != 0)).tail else .error none

/-- A platform whose cipher is the real one on one chunk, which it encrypts to the given block, and only pads the others. -/
def paired (chunk block : List UInt8) : ClientPlatform where
  toPlatform :=
    { oneBlock [] block chunk with
      base64Decode := fun s => (Base64.decode s).elim (.error (some "bad base-64".toList)) .ok
      rsaPrivateDecrypt := fun b => if b = block then .ok chunk else unpad b }
  base64Encode := Base64.encode
  rsaPublicEncrypt _ b := if b = chunk then .ok block else if b.length ≤ 245 then .ok (pad b) else .error none

theorem length_pad {chunk : List UInt8} (h : chunk.length ≤ 245) : (pad chunk).length = 256 := by
  simp only [pad, List.length_append, List.length_cons, List.length_nil, List.length_replicate]
  omega

theorem unpad_pad (chunk : List UInt8) : unpad (pad chunk) = .ok chunk := by
  have hdrop : ((pad chunk).drop 2).dropWhile (· != 0) = 0 :: chunk := by
    have hpad : (pad chunk).drop 2 = List.replicate (253 - chunk.length) 0xff ++ 0 :: chunk := rfl
    rw [hpad, List.dropWhile_append_of_pos, List.dropWhile_cons_of_neg (by decide)]
    intro b hb
    rw [List.eq_of_mem_replicate hb]
    decide
  have htake : (pad chunk).take 2 = [0, 2] := rfl
  rw [unpad, if_pos htake, hdrop, List.tail_cons]

/-- The platform has a pair of keys, since a padded chunk begins with a zero and the block does not. -/
theorem keyPair_paired (chunk : List UInt8) {block : List UInt8} (hlen : block.length = 256) (hhead : block.head? ≠ some 0) :
    KeyPair (paired chunk block) where
  encrypts k b hb := by
    by_cases he : b = chunk
    · exact ⟨block, if_pos he, hlen, by rw [he]; exact if_pos rfl⟩
    · have hne : pad b ≠ block := by
        intro h
        exact hhead (by rw [← h]; rfl)
      refine ⟨pad b, ?_, length_pad hb, ?_⟩
      · simp only [paired, if_neg he, if_pos hb]
      · simp only [paired, if_neg hne, unpad_pad]
  base64 bytes := by
    simp only [paired, Base64.decode_encode, Option.elim_some]

/-- The block to which the built-in private key's public half encrypts 245 times the letter `a`, with the padding 1 to 8. -/
def letterBlock : List UInt8 :=
  [0x6484bd257a5f010e8864dc80d30cf4ea2a922955d7a0a7cd7d1d06960952ae05,
    0xf857af42d092656f0c125824f62906fec79bc1634e7163251b5d8da4c5060e43,
    0x907d4d0eb7da4857b3b03966af71947d4be3d0107a9570b7996da06fd888fd1d,
    0x2d8be9de01c4591859e65b8fd804220860fae967b4ff8fb8082f82ef06ce9742,
    0xa0710b97d89cad1900668fa752b43ead1fa77fb8f304d0acdd61cdd9803f53eb,
    0xaa0bd24a78ab9da29bcef3f953af58dc1255f558ed6e85e0ff35cd88cd572093,
    0xb16451f21299a16177e5a12dd9a2c2585e2d52236c62e55362f0b679f6b488a9,
    0xaed7c052e82cc37c5cf8d218721571b48e02269d8c51c4e76dac3bcf8848dc5e].flatMap (bigEndian 32)

theorem length_letterBlock : letterBlock.length = 256 := by
  simp only [letterBlock, List.flatMap_cons, List.flatMap_nil, List.length_append, List.length_nil, length_bigEndian]

/-- Two full chunks of letters are encrypted and decrypted. -/
theorem decryptBlocks_inverts_letters :
    KeyPair (paired (List.replicate 245 0x61) letterBlock) ∧
      ∃ out, (encryptBlocks (paired (List.replicate 245 0x61) letterBlock) (List.replicate 490 0x61) 0 [] []).2 = .ok out ∧
        decrypt (paired (List.replicate 245 0x61) letterBlock).toPlatform (Base64.encode out) =
          .ok (List.replicate 490 0x61) := by
  have hP : KeyPair (paired (List.replicate 245 0x61) letterBlock) :=
    keyPair_paired _ length_letterBlock (by decide)
  exact ⟨hP, ((decryptBlocks_inverts _ hP).1 (List.replicate 490 0x61)).2⟩

end Open365Vpn
