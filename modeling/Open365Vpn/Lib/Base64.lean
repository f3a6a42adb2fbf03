import Mathlib.Data.List.Basic
import Mathlib.Tactic.Basic

/-!
# Base64

The encoding without line ends and with padding, and a decoder as `android.util.Base64` has it: it skips every character that is
neither a digit nor the padding, and the padding may be missing. What was encoded is decoded to itself (`decode_encode`).
-/

namespace Base64

/-- The digits. -/
def alphabet : List Char := "ABCDEFGHIJKLMNOPQRSTUVWXYZabcdefghijklmnopqrstuvwxyz0123456789+/".toList

/-- The digit of a number below 64. -/
def digit (n : Nat) : Char := alphabet.getD n '='

/-- Encodes three bytes in four digits; the digits that are missing at the end are padded. -/
def encode : List UInt8 → List Char
  | [] => []
  | [x] => [digit (x.toNat / 4), digit (x.toNat % 4 * 16), '=', '=']
  | [x, y] => [digit (x.toNat / 4), digit (x.toNat % 4 * 16 + y.toNat / 16), digit (y.toNat % 16 * 4), '=']
  | x :: y :: z :: rest =>
    digit (x.toNat / 4) :: digit (x.toNat % 4 * 16 + y.toNat / 16) :: digit (y.toNat % 16 * 4 + z.toNat / 64) ::
      digit (z.toNat % 64) :: encode rest

/-- What a character stands for: the padding (`none`) or a number below 64; other characters are skipped. -/
def symbol (c : Char) : Option (Option Nat) := if c = '=' then some none else (alphabet.idxOf? c).map some

/-- The bytes of two, three and four digits. -/
def bytes : List Nat → List UInt8
  | [a, b] => [UInt8.ofNat (a * 4 + b / 16)]
  | [a, b, c] => [UInt8.ofNat (a * 4 + b / 16), UInt8.ofNat (b % 16 * 16 + c / 4)]
  | [a, b, c, d] => [UInt8.ofNat (a * 4 + b / 16), UInt8.ofNat (b % 16 * 16 + c / 4), UInt8.ofNat (c % 4 * 64 + d)]
  | _ => []

/-- Decodes four digits to three bytes, up to the padding or the end. -/
def decodeSymbols : List (Option Nat) → Option (List UInt8)
  | [] => some []
  | some a :: some b :: some c :: some d :: rest => (decodeSymbols rest).map (bytes [a, b, c, d] ++ ·)
  | [some a, some b] | [some a, some b, none, none] => some (bytes [a, b])
  | [some a, some b, some c] | [some a, some b, some c, none] => some (bytes [a, b, c])
  | _ => none

/-- `Base64.decode`; `none` when it throws. -/
def decode (s : List Char) : Option (List UInt8) := decodeSymbols (s.filterMap symbol)

/-- A digit stands for its number. -/
theorem symbol_digit {n : Nat} (h : n < 64) : symbol (digit n) = some (some n) := by
  have hall : ∀ k : Fin 64, symbol (digit k) = some (some k.val) := by decide +kernel
  exact hall ⟨n, h⟩

/-- A byte is put together again. -/
theorem ofNat_eq {x : UInt8} {n : Nat} (h : n = x.toNat) : UInt8.ofNat n = x := by
  rw [h, UInt8.ofNat_toNat]

/-- The padding stands for itself. -/
theorem symbol_pad : symbol '=' = some none := rfl

/-- What was encoded is decoded to itself. -/
theorem decode_encode (l : List UInt8) : decode (encode l) = some l := by
  induction l using encode.induct with
  | case1 => rfl
  | case2 x =>
    have hx := x.toNat_lt
    have h1 := symbol_digit (show x.toNat / 4 < 64 by omega)
    have h2 := symbol_digit (show x.toNat % 4 * 16 < 64 by omega)
    simp only [decode, encode, List.filterMap_cons, List.filterMap_nil, h1, h2, symbol_pad, decodeSymbols, bytes]
    rw [ofNat_eq (x := x) (by omega)]
  | case3 x y =>
    have hx := x.toNat_lt
    have hy := y.toNat_lt
    have h1 := symbol_digit (show x.toNat / 4 < 64 by omega)
    have h2 := symbol_digit (show x.toNat % 4 * 16 + y.toNat / 16 < 64 by omega)
    have h3 := symbol_digit (show y.toNat % 16 * 4 < 64 by omega)
    simp only [decode, encode, List.filterMap_cons, List.filterMap_nil, h1, h2, h3, symbol_pad, decodeSymbols, bytes]
    rw [ofNat_eq (x := x) (by omega), ofNat_eq (x := y) (by omega)]
  | case4 x y z rest ih =>
    have hx := x.toNat_lt
    have hy := y.toNat_lt
    have hz := z.toNat_lt
    have h1 := symbol_digit (show x.toNat / 4 < 64 by omega)
    have h2 := symbol_digit (show x.toNat % 4 * 16 + y.toNat / 16 < 64 by omega)
    have h3 := symbol_digit (show y.toNat % 16 * 4 + z.toNat / 64 < 64 by omega)
    have h4 := symbol_digit (show z.toNat % 64 < 64 by omega)
    rw [decode] at ih
    simp only [decode, encode, List.filterMap_cons, h1, h2, h3, h4, decodeSymbols, ih, bytes, Option.map_some]
    rw [ofNat_eq (x := x) (by omega), ofNat_eq (x := y) (by omega), ofNat_eq (x := z) (by omega)]
    rfl

end Base64
