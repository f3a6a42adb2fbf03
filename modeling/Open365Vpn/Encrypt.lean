import Open365Vpn.Decrypt

/-!
# The signature of a request

`makeXSig` of `protocol/X365Api.kt`: the description of the device as JSON, encrypted in chunks of 245 bytes. Base64 and the RSA
cipher are those of the platform. The cipher pads with random bytes; the number of the call stands for them. The index of the
loop is an `Int`; it cannot overflow before the bytes written, which are more, outgrow an array.
-/

namespace Open365Vpn

open Kotlin

/-- The size of the chunks that the public key encrypts: 256 bytes less the smallest padding. -/
def chunkSize : Nat := 245

/-- A value of a field of the description. -/
inductive JsonValue : Type where
  | text (value : Str)
  | number (value : Int)
  | boolean (value : Bool)
  deriving DecidableEq, Repr

/-- The functions of the platform that a request uses besides those that read its answer. -/
structure ClientPlatform extends Platform where
  /-- `Base64.encodeToString` without line ends. -/
  base64Encode : List UInt8 → Str
  /-- `rsaPublicEncrypt` with the key of `serverPublicKey`; the number tells the calls of a loop apart. -/
  rsaPublicEncrypt : Nat → List UInt8 → Except (Option Str) (List UInt8)

namespace X365Api

/-- `APP_VERSION`. -/
def appVersion : Str := "26.7.17".toList

/-- `CONFIG_VERSION`. -/
def configVersion : Str := "25.11.20".toList

/-- `CORE_VERSION`. -/
def coreVersion : Str := "26.1.30".toList

/-- The description of the device, with `android.os.Build.VERSION.RELEASE` for its version. -/
def deviceInfo (osVersion did api deviceName : Str) (screenW screenH : Int) (osArch : Str) : List (Str × JsonValue) :=
  [("app_name".toList, .text "365VPN".toList),
    ("device_name".toList, .text deviceName),
    ("fit".toList, .number 0),
    ("os".toList, .text "android".toList),
    ("os_version".toList, .text osVersion),
    ("app_version".toList, .text appVersion),
    ("os_arch".toList, .text osArch),
    ("client_ip".toList, .text "0.0.0.0".toList),
    ("api".toList, .text api),
    ("proxy".toList, .boolean false),
    ("did".toList, .text did),
    ("dns".toList, .text "tls://223.5.5.5".toList),
    ("config_version".toList, .text configVersion),
    ("core_version".toList, .text coreVersion),
    ("screen_width".toList, .text ((toString screenW).toList ++ ".000000".toList)),
    ("screen_height".toList, .text ((toString screenH).toList ++ ".000000".toList)),
    ("language".toList, .text "en".toList),
    ("fp".toList, .text []),
    ("fcm_token".toList, .text []),
    ("build_id".toList, .text []),
    ("is_emulator".toList, .boolean false),
    ("build_number".toList, .text []),
    ("package_name".toList, .text [])]

variable (P : ClientPlatform)

/-- The loop over the chunks, from index `i` on: the chunks that were passed to the cipher, and the bytes written. `copyOfRange`
does not throw here, since the end of a chunk is at most the size. -/
def encryptBlocks (blob : List UInt8) (i : Nat) (passed : List (List UInt8)) (out : List UInt8) :
    List (List UInt8) × Except (Option Str) (List UInt8) :=
  if _h : i < blob.length then
    let chunk := (blob.drop i).take (min (i + chunkSize) blob.length - i)
    match P.rsaPublicEncrypt passed.length chunk with
    | .error message => (passed ++ [chunk], .error message)
    | .ok block => encryptBlocks blob (min (i + chunkSize) blob.length) (passed ++ [chunk]) (out ++ block)
  else (passed, .ok out)
termination_by blob.length - i
decreasing_by
  simp only [chunkSize]
  omega

/-- `makeXSig`, where `json` gives the text of a JSON object in UTF-8. -/
def makeXSig (json : List (Str × JsonValue) → List UInt8) (osVersion did api deviceName : Str) (screenW screenH : Int)
    (osArch : Str) : Except (Option Str) Str :=
  let blob := json (deviceInfo osVersion did api deviceName screenW screenH osArch)
  match (encryptBlocks P blob 0 [] []).2 with
  | .error message => .error message
  | .ok out => .ok (P.base64Encode out)

end X365Api

end Open365Vpn
