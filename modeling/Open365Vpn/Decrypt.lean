import Open365Vpn.Lib.Inflater
import Open365Vpn.ViewModel

/-!
# The calls of the API

`login`, `fetchConfigYaml` and `decryptProxyField` of `protocol/X365Api.kt`, from the answer of the HTTP transport on. What the
platform does for them is a parameter: the JSON reader, Base64, the RSA cipher with the built-in key, the inflater and the UTF-8
decoder. An answer of the transport is a status and a body, or an exception; the request with its headers is left out.
-/

namespace Open365Vpn

open Kotlin Inflating

/-- The size of the buffer that the inflater fills. -/
def bufferSize : Nat := 4096

/-- The size of the blocks that the private key decrypts. -/
def blockSize : Nat := 256

/-- The functions of the platform. A function that can throw returns the message of its exception. -/
structure Platform where
  /-- `JSONObject(text).optString(name)`: empty when the field is missing. -/
  optString : Str → Str → Except (Option Str) Str
  /-- `Base64.decode`. -/
  base64Decode : Str → Except (Option Str) (List UInt8)
  /-- `rsaPrivateDecrypt` with the key of `serverPrivateKey`. -/
  rsaPrivateDecrypt : List UInt8 → Except (Option Str) (List UInt8)
  /-- `Inflater`. -/
  inflater : Inflater (Option Str) bufferSize
  /-- `String(bytes, Charsets.UTF_8)`. -/
  decodeUtf8 : List UInt8 → Str

/-- The answer of `HttpTransport.request`. -/
abbrev Response : Type := Except (Option Str) (Int × List UInt8)

namespace X365Api

variable (P : Platform)

/-! ## Decryption -/

/-- The loop over the blocks, from index `i` on. `copyOfRange` throws when the last block is short. -/
def decryptBlocks (data : List UInt8) (i : Nat) (plain : List UInt8) : Except (Option Str) (List UInt8) :=
  if _h : i < data.length then
    if data.length < i + blockSize then
      .error (some ("toIndex (".toList ++ (toString (i + blockSize)).toList ++ ") is greater than size (".toList ++
        (toString data.length).toList ++ ").".toList))
    else
      match P.rsaPrivateDecrypt ((data.drop i).take blockSize) with
      | .error message => .error message
      | .ok block => decryptBlocks data (i + blockSize) (plain ++ block)
  else .ok plain
termination_by data.length - i
decreasing_by
  simp only [blockSize]
  omega

/-- The first half of `decryptProxyField`: the bytes to inflate. -/
def decrypt (proxyB64 : Str) : Except (Option Str) (List UInt8) :=
  match P.base64Decode proxyB64 with
  | .error message => .error message
  | .ok data => decryptBlocks P data 0 []

/-- The loop over the inflater; `none` when the fuel runs out. -/
def inflateLoop : Nat → P.inflater.State → List UInt8 → Option (Except (Option Str) (List UInt8))
  | 0, _, _ => none
  | fuel + 1, inf, out =>
    if P.inflater.finished inf then some (.ok out)
    else
      match P.inflater.inflate inf with
      | .error message => some (.error message)
      | .ok (buf, inf') =>
        if buf.isEmpty then
          if P.inflater.needsInput inf' || P.inflater.needsDictionary inf' then some (.ok out) else inflateLoop fuel inf' out
        else inflateLoop fuel inf' (out ++ buf)

/-- `decryptProxyField`. -/
def decryptProxyField (fuel : Nat) (proxyB64 : Str) : Option Reply :=
  match decrypt P proxyB64 with
  | .error message => some (.error message)
  | .ok plain => (inflateLoop P fuel (P.inflater.setInput plain) []).map fun r => r.map P.decodeUtf8

/-! ## The two calls -/

/-- The exception for a status other than 200. -/
def httpError (code : Int) (data : List UInt8) : Option Str :=
  some ("HTTP ".toList ++ (toString code).toList ++ ": ".toList ++ (P.decodeUtf8 data).take 200)

/-- The field of an answer with status 200 that a call needs: an exception when it is missing or empty. -/
def field (name message : Str) : Response → Reply
  | .error message => .error message
  | .ok (code, data) =>
    if code ≠ 200 then .error (httpError P code data)
    else
      match P.optString (P.decodeUtf8 data) name with
      | .error message => .error message
      | .ok value => if value.isEmpty then .error (some message) else .ok value

/-- `login`. -/
def login (response : Response) : Reply := field P "access_token".toList "响应中无 access_token".toList response

/-- `fetchConfigYaml`. -/
def fetchConfigYaml (fuel : Nat) (response : Response) : Option Reply :=
  match field P "proxy".toList "响应中无 proxy 字段".toList response with
  | .error message => some (.error message)
  | .ok proxy => decryptProxyField P fuel proxy

end X365Api

end Open365Vpn
