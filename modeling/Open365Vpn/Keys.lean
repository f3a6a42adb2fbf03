import Open365Vpn.Lib.Der

/-!
# The wrapper of the private key

`wrapPkcs1AsPkcs8`, `derWrap` and `concat` of `protocol/X365Api.kt`. The built-in key is in the format PKCS#1 and the platform
takes PKCS#8 only, so the bytes are put into the envelope by hand. A byte of the source is signed; here it is its bit pattern,
and `toByte` keeps the lowest eight bits of an `Int`, as `UInt8.ofNat` does.
-/

namespace Open365Vpn

namespace X365Api

/-- `derWrap`: the tag and the length in front of the contents. -/
def derWrap (tag : UInt8) (content : List UInt8) : List UInt8 :=
  let len := content.length
  let header :=
    if len < 128 then [tag, UInt8.ofNat len]
    else if len < 256 then [tag, 0x81, UInt8.ofNat len]
    else [tag, 0x82, UInt8.ofNat (len >>> 8), UInt8.ofNat (len &&& 0xff)]
  header ++ content

/-- `concat`. -/
def concat (parts : List (List UInt8)) : List UInt8 := parts.foldl (fun out part => out ++ part) []

/-- The version of the envelope. -/
def version : List UInt8 := [0x02, 0x01, 0x00]

/-- The identifier of the algorithm. -/
def algId : List UInt8 := [0x30, 0x0D, 0x06, 0x09, 0x2A, 0x86, 0x48, 0x86, 0xF7, 0x0D, 0x01, 0x01, 0x01, 0x05, 0x00]

/-- `wrapPkcs1AsPkcs8`. -/
def wrapPkcs1AsPkcs8 (pkcs1 : List UInt8) : List UInt8 :=
  let octet := derWrap 0x04 pkcs1
  derWrap 0x30 (concat [version, algId, octet])

end X365Api

end Open365Vpn
