import Mathlib.Tactic.Basic
import Mathlib.Data.List.Basic

/-!
# Objects behind one reference

A `Slot` is a field that refers to at most one of the objects made so far. An object is live from the moment it is acquired
until it is released, and a release reaches only the object the field refers to. So the field must not be overwritten while it
refers to a live object: a slot is `Owned` when every live object is the one the field refers to, and once it is not, no
operation makes it so again (`not_owned_put`, `not_owned_drop`, `not_owned_modifyHeld`).
-/

namespace Slots

/-- The objects made so far, and the one that the field refers to. -/
structure Slot (α : Type*) where
  objects : List α
  held : Option Nat
  deriving DecidableEq

namespace Slot

variable {α : Type*}

/-- No object, and nothing in the field. -/
def empty : Slot α := ⟨[], none⟩

/-- The object the field refers to. -/
def heldObject (s : Slot α) : Option α := s.held.bind fun i => s.objects[i]?

/-- A new object, which the field refers to from now on. -/
def put (s : Slot α) (x : α) : Slot α := ⟨s.objects ++ [x], some s.objects.length⟩

/-- The field refers to nothing. -/
def drop (s : Slot α) : Slot α := { s with held := none }

/-- A call on the object the field refers to, if there is one. -/
def modifyHeld (s : Slot α) (f : α → α) : Slot α :=
  match s.held with
  | some i => { s with objects := s.objects.modify i f }
  | none => s

variable (live : α → Bool)

/-- The field refers to a live object. -/
def heldLive (s : Slot α) : Bool := s.heldObject.any live

/-- Every live object is the one the field refers to. -/
def Owned (s : Slot α) : Prop := ∀ i x, s.objects[i]? = some x → live x = true → s.held = some i

/-- No object is live. -/
def Idle (s : Slot α) : Prop := ∀ x ∈ s.objects, live x = false

instance (s : Slot α) : Decidable (s.Idle live) := inferInstanceAs (Decidable (∀ x ∈ s.objects, live x = false))

variable {live} {s : Slot α} {x : α} {f : α → α}

theorem idle_empty : (empty : Slot α).Idle live := fun _ hx => nomatch hx

theorem Idle.owned (h : s.Idle live) : s.Owned live := by
  intro i x hi hx
  rw [h x (List.mem_of_getElem? hi)] at hx
  cases hx

theorem heldLive_iff : s.heldLive live = true ↔ ∃ i x, s.held = some i ∧ s.objects[i]? = some x ∧ live x = true := by
  rw [heldLive, Option.any_eq_true]
  constructor
  · rintro ⟨x, hx, hl⟩
    obtain ⟨i, hi, hx⟩ := Option.bind_eq_some_iff.1 hx
    exact ⟨i, x, hi, hx, hl⟩
  · rintro ⟨i, x, hi, hx, hl⟩
    exact ⟨x, Option.bind_eq_some_iff.2 ⟨i, hi, hx⟩, hl⟩

/-- An owned slot whose field refers to no live object has none at all. -/
theorem Owned.idle (h : s.Owned live) (hh : s.heldLive live = false) : s.Idle live := by
  intro x hx
  obtain ⟨i, hi⟩ := List.mem_iff_getElem?.1 hx
  by_contra hn
  rw [Bool.not_eq_false] at hn
  have hl : s.heldLive live = true := heldLive_iff.2 ⟨i, x, h i x hi hn, hi, hn⟩
  rw [hh] at hl
  cases hl

theorem Idle.heldLive (h : s.Idle live) : s.heldLive live = false := by
  by_contra hn
  rw [Bool.not_eq_false] at hn
  obtain ⟨i, x, -, hi, hx⟩ := heldLive_iff.1 hn
  rw [h x (List.mem_of_getElem? hi)] at hx
  cases hx

/-! ## What keeps a slot owned, and what keeps it idle -/

theorem Idle.owned_put (h : s.Idle live) : (s.put x).Owned live := by
  intro i y hi hy
  rcases Nat.lt_or_ge i s.objects.length with hlt | hge
  · rw [put, List.getElem?_append_left hlt] at hi
    rw [h y (List.mem_of_getElem? hi)] at hy
    cases hy
  · rw [put, List.getElem?_append_right hge] at hi
    have : i - s.objects.length = 0 := by
      by_contra hn
      rw [List.getElem?_eq_none (by simp; omega)] at hi
      cases hi
    rw [put, show i = s.objects.length by omega]

theorem Idle.put (h : s.Idle live) (hx : live x = false) : (s.put x).Idle live := by
  intro y hy
  rcases List.mem_append.1 hy with hy | hy
  · exact h y hy
  · rw [List.mem_singleton.1 hy]
    exact hx

theorem Idle.drop (h : s.Idle live) : s.drop.Idle live := h

/-- The objects after a call on the one the field refers to. -/
theorem getElem?_modifyHeld (s : Slot α) (f : α → α) (i : Nat) :
    (s.modifyHeld f).objects[i]? = if s.held = some i then s.objects[i]?.map f else s.objects[i]? := by
  unfold modifyHeld
  cases hh : s.held with
  | none => simp
  | some j =>
    dsimp only
    rw [List.getElem?_modify]
    by_cases hij : j = i
    · simp [hij]
    · simp [hij]

@[simp] theorem held_modifyHeld (s : Slot α) (f : α → α) : (s.modifyHeld f).held = s.held := by
  unfold modifyHeld
  split
  · rfl
  · rfl

/-- To release the object the field refers to is to release them all, when the slot is owned. -/
theorem Owned.idle_modifyHeld (h : s.Owned live) (hf : ∀ x, live (f x) = false) : (s.modifyHeld f).Idle live := by
  intro x hx
  obtain ⟨i, hi⟩ := List.mem_iff_getElem?.1 hx
  rw [getElem?_modifyHeld] at hi
  split at hi
  · obtain ⟨y, -, rfl⟩ := Option.map_eq_some_iff.1 hi
    exact hf y
  · rename_i hne
    by_contra hn
    exact hne (h i x hi (Bool.not_eq_false _ ▸ hn))

/-! ## A lost object stays lost -/

/-- An object is lost when it is live and the field does not refer to it. -/
theorem not_owned_iff : ¬s.Owned live ↔ ∃ i x, s.objects[i]? = some x ∧ live x = true ∧ s.held ≠ some i := by
  unfold Owned
  push Not
  rfl

theorem not_owned_put (h : ¬s.Owned live ∨ s.heldLive live = true) (x : α) : ¬(s.put x).Owned live := by
  have key : ∃ (i : Nat) (y : α), s.objects[i]? = some y ∧ live y = true := by
    rcases h with h | h
    · obtain ⟨i, y, hi, hy, -⟩ := not_owned_iff.1 h
      exact ⟨i, y, hi, hy⟩
    · obtain ⟨i, y, -, hi, hy⟩ := heldLive_iff.1 h
      exact ⟨i, y, hi, hy⟩
  obtain ⟨i, y, hi, hy⟩ := key
  obtain ⟨hlt, -⟩ := List.getElem?_eq_some_iff.1 hi
  refine not_owned_iff.2 ⟨i, y, ?_, hy, ?_⟩
  · rw [put, List.getElem?_append_left hlt]
    exact hi
  · intro he
    have : s.objects.length = i := Option.some.inj he
    omega

theorem not_owned_drop (h : ¬s.Owned live ∨ s.heldLive live = true) : ¬s.drop.Owned live := by
  rcases h with h | h
  · obtain ⟨i, y, hi, hy, -⟩ := not_owned_iff.1 h
    exact not_owned_iff.2 ⟨i, y, hi, hy, nofun⟩
  · obtain ⟨i, y, -, hi, hy⟩ := heldLive_iff.1 h
    exact not_owned_iff.2 ⟨i, y, hi, hy, nofun⟩

theorem not_owned_modifyHeld (h : ¬s.Owned live) (f : α → α) : ¬(s.modifyHeld f).Owned live := by
  obtain ⟨i, y, hi, hy, hne⟩ := not_owned_iff.1 h
  refine not_owned_iff.2 ⟨i, y, ?_, hy, by rwa [held_modifyHeld]⟩
  rw [getElem?_modifyHeld, if_neg hne]
  exact hi

end Slot

end Slots
