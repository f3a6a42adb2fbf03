import Open365Vpn.Keys

/-!
# The envelope of the private key

What `derWrap` writes is an element in DER with the given contents, whichever of the three forms the length takes, as long as
two octets hold it. So the envelope of a key is read back as the three fields of PKCS#8, and nothing is left.
-/

namespace Open365Vpn

open Der

namespace KeysAux

open X365Api

/-- `toByte` loses nothing of a number below 256. -/
theorem toNat_ofNat {n : Nat} (h : n < 256) : (UInt8.ofNat n).toNat = n := UInt8.toNat_ofNat_of_lt' h

/-- `derWrap` begins with the tag. -/
theorem derWrap_eq_cons (tag : UInt8) (content : List UInt8) :
    derWrap tag content = tag :: (derWrap tag content).tail := by
  simp only [derWrap]
  split_ifs <;> rfl

/-- The length that `derWrap` writes is read back as the size of the contents when two octets hold it. -/
theorem readLength_derWrap (tag : UInt8) {content : List UInt8} (rest : List UInt8) (h : content.length < 65536) :
    readLength ((derWrap tag content).tail ++ rest) = some (content.length, content ++ rest) := by
  simp only [derWrap]
  split_ifs with h1 h2
  · -- the short form
    have hn := toNat_ofNat (n := content.length) (by omega)
    simp [readLength, hn, h1]
  · -- one octet, which is not zero
    have hn := toNat_ofNat h2
    have h0 : UInt8.ofNat content.length ≠ 0 := by
      intro h0
      simp only [h0, UInt8.toNat_zero] at hn
      omega
    have hlong : 128 ≤ content.length := by omega
    simp [readLength, number, hn, h0, hlong]
  · -- two octets, of which the first one is not zero
    have hhigh := toNat_ofNat (n := content.length / 256) (by omega)
    have hlow := toNat_ofNat (n := content.length % 256) (by omega)
    have h0 : UInt8.ofNat (content.length / 256) ≠ 0 := by
      intro h0
      simp only [h0, UInt8.toNat_zero] at hhigh
      omega
    have hlong : 128 ≤ content.length := by omega
    have hshr : content.length >>> 8 = content.length / 256 := Nat.shiftRight_eq_div_pow _ 8
    have hand : content.length &&& 0xff = content.length % 256 := Nat.and_two_pow_sub_one_eq_mod _ 8
    simp [readLength, number, hhigh, hlow, h0, hshr, hand, Nat.div_add_mod, hlong]

/-- What `derWrap` writes is an element with the tag and the contents. -/
theorem readElement_derWrap (tag : UInt8) {content : List UInt8} (rest : List UInt8) (h : content.length < 65536) :
    readElement (derWrap tag content ++ rest) = some (tag, content, rest) := by
  rw [derWrap_eq_cons, List.cons_append]
  exact readElement_cons (readLength_derWrap tag rest h)

/-- The header that `derWrap` writes has at most four bytes. -/
theorem length_derWrap_le (tag : UInt8) (content : List UInt8) : (derWrap tag content).length ≤ content.length + 4 := by
  simp only [derWrap]
  split_ifs <;> simp

/-- `concat` joins its arguments. -/
theorem concat_eq_flatten (parts : List (List UInt8)) : concat parts = parts.flatten := by
  have h : parts.foldl (fun out part => out ++ id part) [] = [] ++ (parts.map id).flatten := List.foldl_append_eq_append
  simpa [concat] using h

/-- The version is the number 0. -/
theorem read_version (rest : List UInt8) : read (version ++ rest) = some (.integer 0, rest) := by
  have hlen : readLength (0x01 :: [0x00] ++ rest) = some ([(0x00 : UInt8)].length, [0x00] ++ rest) := by
    simp [readLength]
  exact read_of_readElement (readElement_cons hlen) rfl

/-- The identifier of the algorithm is rsaEncryption, with NULL for its parameters. -/
theorem read_algId (rest : List UInt8) :
    read (algId ++ rest) = some (.sequence [.objectIdentifier [1, 2, 840, 113549, 1, 1, 1], .null], rest) := by
  have hlen : readLength (algId.tail ++ rest) = some ((algId.drop 2).length, algId.drop 2 ++ rest) := by
    simp [readLength, algId]
  have hoid : read (algId.drop 2) = some (.objectIdentifier [1, 2, 840, 113549, 1, 1, 1], [0x05, 0x00]) := rfl
  have hnull : read [0x05, 0x00] = some (.null, []) := rfl
  refine read_of_readElement (readElement_cons hlen) ?_
  simp [readContents, readAll_of_read hoid, readAll_of_read hnull]

/-- The contents of the envelope are its three fields. -/
theorem readAll_fields {key : List UInt8} (h : key.length < 65536) :
    readAll (concat [version, algId, derWrap 0x04 key]) =
      some [.integer 0, .sequence [.objectIdentifier [1, 2, 840, 113549, 1, 1, 1], .null], .octetString key] := by
  have hkey : read (derWrap 0x04 key) = some (.octetString key, []) := by
    have hel := readElement_derWrap 0x04 [] h
    rw [List.append_nil] at hel
    exact read_of_readElement hel rfl
  rw [concat_eq_flatten]
  simp only [List.flatten_cons, List.flatten_nil, List.append_nil]
  rw [readAll_of_read (read_version _), readAll_of_read (read_algId _), readAll_of_read hkey]
  simp

/-- Two octets hold the size of the contents of the envelope. -/
theorem length_fields {key : List UInt8} (h : key.length ≤ 65513) :
    (concat [version, algId, derWrap 0x04 key]).length < 65536 := by
  have := length_derWrap_le 0x04 key
  simp only [concat_eq_flatten, version, algId, List.length_flatten, List.map_cons, List.map_nil, List.sum_cons, List.sum_nil,
    List.length_cons, List.length_nil]
  omega

end KeysAux

open KeysAux

/-- **The envelope is valid DER.** For every key that fits it, the envelope is read as the structure PKCS#8 with the key, with
nothing left, and both lengths are read back as the sizes of what they announce. -/
theorem read_wrapPkcs1AsPkcs8 (key : List UInt8) (h : key.length ≤ 65513) :
    read (X365Api.wrapPkcs1AsPkcs8 key) =
        some (.sequence [.integer 0, .sequence [.objectIdentifier [1, 2, 840, 113549, 1, 1, 1], .null], .octetString key], []) ∧
      readLength (X365Api.derWrap 0x04 key).tail = some (key.length, key) ∧
      readLength (X365Api.wrapPkcs1AsPkcs8 key).tail =
        some ((X365Api.concat [X365Api.version, X365Api.algId, X365Api.derWrap 0x04 key]).length,
          X365Api.concat [X365Api.version, X365Api.algId, X365Api.derWrap 0x04 key]) := by
  have hfields := length_fields h
  have hkey := readLength_derWrap 0x04 [] (show key.length < 65536 by omega)
  have hall := readLength_derWrap 0x30 [] hfields
  simp only [List.append_nil] at hkey hall
  refine ⟨?_, hkey, hall⟩
  have hel := readElement_derWrap 0x30 [] hfields
  rw [List.append_nil] at hel
  refine read_of_readElement hel ?_
  simp [readContents, readAll_fields (show key.length < 65536 by omega)]

/-- A key with an inner length of one octet and an outer length of two. -/
theorem read_wrapPkcs1AsPkcs8_short :
    (List.replicate 120 (7 : UInt8)).length ≤ 65513 ∧
      read (X365Api.wrapPkcs1AsPkcs8 (List.replicate 120 7)) =
        some (.sequence [.integer 0, .sequence [.objectIdentifier [1, 2, 840, 113549, 1, 1, 1], .null],
          .octetString (List.replicate 120 7)], []) := by
  have h : (List.replicate 120 (7 : UInt8)).length ≤ 65513 := by simp
  exact ⟨h, (read_wrapPkcs1AsPkcs8 _ h).1⟩

end Open365Vpn
