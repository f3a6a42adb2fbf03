import Mathlib.Data.List.Basic

/-!
# A reader of DER

The distinguished encoding rules for the types that a key file uses: INTEGER, OCTET STRING, NULL, OBJECT IDENTIFIER and
SEQUENCE. Every encoding is unique: a length is definite and has as few octets as it needs, and so has an integer and an arc
of an object identifier.
-/

namespace Der

/-- A value of one of the types. -/
inductive Value : Type where
  | integer (n : Int)
  | octetString (octets : List UInt8)
  | null
  | objectIdentifier (arcs : List Nat)
  | sequence (items : List Value)

/-- The number that the octets spell, the most significant one first. -/
def number (octets : List UInt8) : Nat := octets.foldl (fun n b => 256 * n + b.toNat) 0

/-! ## The header of an element -/

/-- Reads the length octets: the length and what follows. -/
def readLength : List UInt8 → Option (Nat × List UInt8)
  | [] => none
  | b :: rest =>
    if b.toNat < 128 then some (b.toNat, rest)
    -- 128 announces the indefinite form and 255 is reserved
    else if b.toNat = 128 ∨ b.toNat = 255 ∨ rest.length < b.toNat - 128 then none
    -- a leading zero octet, or a length that the short form holds, is not minimal
    else if rest.head? = some 0 ∨ number (rest.take (b.toNat - 128)) < 128 then none
    else some (number (rest.take (b.toNat - 128)), rest.drop (b.toNat - 128))

/-- Reads an element: its tag, its contents and what follows. -/
def readElement : List UInt8 → Option (UInt8 × List UInt8 × List UInt8)
  | [] => none
  | tag :: bytes =>
    (readLength bytes).bind fun r =>
      if r.2.length < r.1 then none else some (tag, r.2.take r.1, r.2.drop r.1)

/-- The length octets are read off the front. -/
theorem length_readLength {bytes rest : List UInt8} {n : Nat} (h : readLength bytes = some (n, rest)) :
    rest.length ≤ bytes.length := by
  cases bytes with
  | nil => simp [readLength] at h
  | cons b bytes =>
    simp only [readLength] at h
    split_ifs at h
    · simp only [Option.some.injEq, Prod.mk.injEq] at h
      simp [← h.2]
    · simp only [Option.some.injEq, Prod.mk.injEq] at h
      simp only [← h.2, List.length_drop, List.length_cons]
      omega

/-- The contents of an element and what follows it are shorter than what it was read from. -/
theorem length_readElement {bytes contents rest : List UInt8} {tag : UInt8}
    (h : readElement bytes = some (tag, contents, rest)) : contents.length + rest.length < bytes.length := by
  cases bytes with
  | nil => simp [readElement] at h
  | cons b bytes =>
    simp only [readElement, Option.bind_eq_some_iff] at h
    obtain ⟨⟨n, bytes'⟩, hl, h⟩ := h
    have hle := length_readLength hl
    split_ifs at h
    simp only [Option.some.injEq, Prod.mk.injEq] at h
    obtain ⟨-, rfl, rfl⟩ := h
    simp only [List.length_take, List.length_drop, List.length_cons]
    omega

/-- An element is read back when its length octets are read back. -/
theorem readElement_cons {tag : UInt8} {bytes contents rest : List UInt8}
    (h : readLength bytes = some (contents.length, contents ++ rest)) :
    readElement (tag :: bytes) = some (tag, contents, rest) := by
  simp [readElement, h]

/-! ## Contents -/

/-- The number that the octets spell in two's complement. -/
def signedNumber (b : UInt8) (rest : List UInt8) : Int :=
  rest.foldl (fun n c => 256 * n + c.toNat) (if b.toNat < 128 then b.toNat else (b.toNat : Int) - 256)

/-- INTEGER: two's complement, and the first nine bits are not all the same. -/
def readInteger : List UInt8 → Option Value
  | [] => none
  | [b] => some (.integer (signedNumber b []))
  | b :: c :: rest =>
    if b = 0 ∧ c.toNat < 128 ∨ b = 255 ∧ 128 ≤ c.toNat then none else some (.integer (signedNumber b (c :: rest)))

/-- The numbers of an OBJECT IDENTIFIER, seven bits an octet; `pending` is the part of a number that its last octet has not
ended. A number does not begin with the octet 128. -/
def readArcs : Option Nat → List UInt8 → Option (List Nat)
  | none, [] => some []
  | some _, [] => none
  | pending, b :: rest =>
    if pending = none ∧ b = 128 then none
    else if b.toNat < 128 then (readArcs none rest).map fun arcs => (128 * pending.getD 0 + b.toNat) :: arcs
    else readArcs (some (128 * pending.getD 0 + (b.toNat - 128))) rest

/-- OBJECT IDENTIFIER: the first number holds two arcs, of which the first is at most 2. -/
def readObjectIdentifier (contents : List UInt8) : Option Value :=
  match readArcs none contents with
  | none | some [] => none
  | some (n :: arcs) => some (.objectIdentifier (min (n / 40) 2 :: (n - 40 * min (n / 40) 2) :: arcs))

/-- The contents of an element that is no SEQUENCE. -/
def readPrimitive (tag : UInt8) (contents : List UInt8) : Option Value :=
  if tag = 0x02 then readInteger contents
  else if tag = 0x04 then some (.octetString contents)
  else if tag = 0x05 then (if contents.isEmpty then some .null else none)
  else if tag = 0x06 then readObjectIdentifier contents
  else none

/-! ## Values -/

/-- Reads values to the end of the bytes. -/
def readAll (bytes : List UInt8) : Option (List Value) :=
  match _h : readElement bytes with
  | none => if bytes.isEmpty then some [] else none
  | some (tag, contents, rest) =>
    (if tag = 0x30 then (readAll contents).map .sequence else readPrimitive tag contents).bind fun value =>
      (readAll rest).map (value :: ·)
termination_by bytes.length
decreasing_by
  · have := length_readElement _h
    omega
  · have := length_readElement _h
    omega

/-- The value of an element. -/
def readContents (tag : UInt8) (contents : List UInt8) : Option Value :=
  if tag = 0x30 then (readAll contents).map .sequence else readPrimitive tag contents

/-- Reads one value: the value and what follows. -/
def read (bytes : List UInt8) : Option (Value × List UInt8) :=
  (readElement bytes).bind fun r => (readContents r.1 r.2.1).map fun value => (value, r.2.2)

/-- There is nothing to read at the end. -/
@[simp] theorem readAll_nil : readAll [] = some [] := by
  rw [readAll]
  simp [readElement]

/-- A value in front is read first. -/
theorem readAll_of_read {bytes rest : List UInt8} {value : Value} (h : read bytes = some (value, rest)) :
    readAll bytes = (readAll rest).map (value :: ·) := by
  simp only [read, Option.bind_eq_some_iff, Option.map_eq_some_iff, Prod.mk.injEq] at h
  obtain ⟨⟨tag, contents, rest'⟩, hel, v, hv, rfl, rfl⟩ := h
  rw [readAll]
  split
  · rename_i heq
    simp [heq] at hel
  · rename_i tag' contents' rest'' heq
    simp only [heq, Option.some.injEq, Prod.mk.injEq] at hel
    obtain ⟨rfl, rfl, rfl⟩ := hel
    simp only [readContents] at hv
    simp [hv]

/-- An element is a value when its contents are. -/
theorem read_of_readElement {bytes contents rest : List UInt8} {tag : UInt8} {value : Value}
    (hel : readElement bytes = some (tag, contents, rest)) (hv : readContents tag contents = some value) :
    read bytes = some (value, rest) := by
  simp [read, hel, hv]

end Der
