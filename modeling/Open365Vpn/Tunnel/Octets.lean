import Mathlib.Tactic.Basic
import Mathlib.Data.List.Basic
import Mathlib.Data.Fin.Basic
import Mathlib.Order.Fin.Basic
import Mathlib.Algebra.Order.Ring.Nat

/-!
# Bytes and numbers of the network

What the C code of the tunnel puts into packets: bytes, and numbers of two and four of them with the highest first.
-/

namespace Open365Vpn

/-- A byte. -/
abbrev Octet : Type := Fin 256

instance octet_neZero : NeZero 256 := ⟨by decide⟩

/-- A byte of a number, as a store to an `uint8_t` leaves it. -/
def octet (v : Nat) : Octet := Fin.ofNat 256 v

/-- The number of two bytes at an offset. -/
def readU16 (p : List Octet) (off : Nat) : Option Nat :=
  p[off]?.bind fun a => p[off + 1]?.map fun b => a.val * 256 + b.val

def u16Bytes (v : Nat) : List Octet := [octet (v / 256), octet v]

def u32Bytes (v : Nat) : List Octet := [octet (v / 16777216), octet (v / 65536), octet (v / 256), octet v]

theorem octet_val {n : Nat} (h : n < 256) : (octet n).val = n := Nat.mod_eq_of_lt h

theorem getElem?_middle {pre post : List Octet} {a : Octet} : (pre ++ a :: post)[pre.length]? = some a := by
  rw [List.getElem?_append_right (Nat.le_refl _), Nat.sub_self]
  rfl

theorem readU16_isSome {p : List Octet} {off : Nat} (h : off + 1 < p.length) : ∃ v, readU16 p off = some v := by
  unfold readU16
  rw [List.getElem?_eq_getElem (by omega), List.getElem?_eq_getElem h]
  exact ⟨_, rfl⟩

/-- A number is read as it is written. -/
theorem readU16_bytes {v : Nat} (hv : v < 65536) (pre post : List Octet) :
    readU16 (pre ++ u16Bytes v ++ post) pre.length = some v := by
  have h0 : (pre ++ u16Bytes v ++ post)[pre.length]? = some (octet (v / 256)) := by
    rw [List.append_assoc]
    exact getElem?_middle
  have h1 : (pre ++ u16Bytes v ++ post)[pre.length + 1]? = some (octet v) := by
    rw [List.append_assoc, List.getElem?_append_right (by omega), Nat.add_sub_cancel_left]
    rfl
  unfold readU16
  rw [h0, h1, Option.bind_some, Option.map_some, octet_val (by omega), Option.some.injEq]
  change v / 256 * 256 + v % 256 = v
  omega

end Open365Vpn
