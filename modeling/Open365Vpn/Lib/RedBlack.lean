import Mathlib.Tactic.Basic
import Mathlib.Data.List.Basic
import Mathlib.Data.Nat.Log
import Mathlib.Algebra.Order.Ring.Nat
import Mathlib.Tactic.Ring

/-!
# Red-black trees with a hole

A tree with colours, and a path from a place in a tree up to its root: each frame of the path is a node with one child left out,
on the given side. `plug` puts a tree into the hole. A tree is `Balanced` when no red node has a red child and every way down has
the same number of black nodes; a path `Fits` trees of a black height when a balanced tree put into its hole gives a balanced
tree with a black root. The height of such a tree is at most twice the logarithm of its size. `descend` walks down from the root
to a key.
-/

namespace RedBlack

inductive Color where
  | red
  | black
  deriving DecidableEq, Repr

inductive Side where
  | left
  | right
  deriving DecidableEq, Repr

inductive ColoredTree (α : Type*) where
  | leaf
  | node (c : Color) (l : ColoredTree α) (a : α) (r : ColoredTree α)
  deriving DecidableEq, Repr

/-- A node with a hole in the place of the child on `side`. -/
structure Frame (α : Type*) where
  side : Side
  color : Color
  elem : α
  sibling : ColoredTree α

section Trees

variable {α : Type*}

/-- The node with the child `x` on the side `d` and the child `y` on the other side. -/
def join (d : Side) (c : Color) (x : ColoredTree α) (a : α) (y : ColoredTree α) : ColoredTree α :=
  match d with
  | .left => .node c x a y
  | .right => .node c y a x

/-- Of the children `l` and `r` the one on the side `d`. -/
def near (d : Side) (l r : ColoredTree α) : ColoredTree α :=
  match d with
  | .left => l
  | .right => r

/-- Of the children `l` and `r` the one on the other side than `d`. -/
def far (d : Side) (l r : ColoredTree α) : ColoredTree α :=
  match d with
  | .left => r
  | .right => l

namespace ColoredTree

def isRed : ColoredTree α → Bool
  | .node .red _ _ _ => true
  | .node .black _ _ _ | .leaf => false

/-- The tree with a black root. -/
def blacken : ColoredTree α → ColoredTree α
  | .leaf => .leaf
  | .node _ l a r => .node .black l a r

/-- The elements from left to right. -/
def toList : ColoredTree α → List α
  | .leaf => []
  | .node _ l a r => l.toList ++ a :: r.toList

/-- The number of nodes on the longest way down. -/
def height : ColoredTree α → Nat
  | .leaf => 0
  | .node _ l _ r => max l.height r.height + 1

end ColoredTree

/-- Put a tree into the hole of a path. The innermost frame comes first. -/
def plug : ColoredTree α → List (Frame α) → ColoredTree α
  | t, [] => t
  | t, f :: p => plug (join f.side f.color t f.elem f.sibling) p

/-- The elements to the left of the hole. -/
def before : List (Frame α) → List α
  | [] => []
  | f :: p =>
    match f.side with
    | .left => before p
    | .right => before p ++ (f.sibling.toList ++ [f.elem])

/-- The elements to the right of the hole. -/
def after : List (Frame α) → List α
  | [] => []
  | f :: p =>
    match f.side with
    | .left => f.elem :: f.sibling.toList ++ after p
    | .right => after p

/-- Walk down from a tree in the hole of a path: to the left when the comparison with an element says `lt`, to the right when it
says `gt`, and not further when it says `eq`. -/
def descend (cmp : α → Ordering) : ColoredTree α → List (Frame α) → ColoredTree α × List (Frame α)
  | .leaf, p => (.leaf, p)
  | .node c l a r, p =>
    match cmp a with
    | .lt => descend cmp l (⟨.left, c, a, r⟩ :: p)
    | .gt => descend cmp r (⟨.right, c, a, l⟩ :: p)
    | .eq => (.node c l a r, p)

/-- No red node has a red child, and every way down has `n` black nodes; the root has the given colour. -/
inductive Balanced : ColoredTree α → Color → Nat → Prop where
  | leaf : Balanced .leaf .black 0
  | red {l r : ColoredTree α} {n : Nat} (a : α) (hl : Balanced l .black n) (hr : Balanced r .black n) :
      Balanced (.node .red l a r) .red n
  | black {l r : ColoredTree α} {n : Nat} {c c' : Color} (a : α) (hl : Balanced l c n) (hr : Balanced r c' n) :
      Balanced (.node .black l a r) .black (n + 1)

/-- A balanced tree of black height `n` in the hole makes a balanced tree with a black root; its own root may be red when
`redOk`. -/
inductive Fits : List (Frame α) → Bool → Nat → Prop where
  | root (n : Nat) : Fits [] false n
  | red {p : List (Frame α)} {n : Nat} (d : Side) (a : α) {y : ColoredTree α} (hy : Balanced y .black n) (hp : Fits p true n) :
      Fits (⟨d, .red, a, y⟩ :: p) false n
  | black {p : List (Frame α)} {n : Nat} {c : Color} {b : Bool} (d : Side) (a : α) {y : ColoredTree α} (hy : Balanced y c n)
      (hp : Fits p b (n + 1)) : Fits (⟨d, .black, a, y⟩ :: p) true n

variable {t l r x y : ColoredTree α} {p : List (Frame α)} {c : Color} {b : Bool} {n : Nat}

theorem toList_join (d : Side) (c : Color) (x : ColoredTree α) (a : α) (y : ColoredTree α) :
    (join d c x a y).toList =
      match d with
      | .left => x.toList ++ a :: y.toList
      | .right => y.toList ++ a :: x.toList := by
  cases d <;> rfl

@[simp] theorem toList_blacken (t : ColoredTree α) : t.blacken.toList = t.toList := by
  cases t <;> rfl

theorem join_near_far (d : Side) (c : Color) (l : ColoredTree α) (a : α) (r : ColoredTree α) :
    join d c (near d l r) a (far d l r) = .node c l a r := by
  cases d <;> rfl

theorem join_eq_node (d : Side) (c : Color) (x : ColoredTree α) (a : α) (y : ColoredTree α) :
    join d c x a y = .node c (near d x y) a (far d x y) := by
  cases d <;> rfl

/-- The elements of a tree with the hole filled. -/
theorem toList_plug (t : ColoredTree α) (p : List (Frame α)) : (plug t p).toList = before p ++ t.toList ++ after p := by
  induction p generalizing t with
  | nil => simp [plug, before, after]
  | cons f p ih =>
    rw [plug, ih, toList_join, before, after]
    cases f.side
    · simp
    · simp

theorem before_append (p q : List (Frame α)) : before (p ++ q) = before q ++ before p := by
  induction p with
  | nil => simp [before]
  | cons f p ih =>
    rw [List.cons_append, before, before, ih]
    cases f.side
    · rfl
    · simp only [List.append_assoc]

theorem after_append (p q : List (Frame α)) : after (p ++ q) = after p ++ after q := by
  induction p with
  | nil => simp [after]
  | cons f p ih =>
    rw [List.cons_append, after, after, ih]
    cases f.side
    · simp only [List.cons_append, List.append_assoc]
    · rfl

theorem plug_descend (cmp : α → Ordering) (t : ColoredTree α) (p : List (Frame α)) :
    plug (descend cmp t p).1 (descend cmp t p).2 = plug t p := by
  induction t generalizing p with
  | leaf => rfl
  | node c l a r ihl ihr =>
    rw [descend]
    split
    · rw [ihl]
      rfl
    · rw [ihr]
      rfl
    · rfl

/-! ## Balance -/

namespace Balanced

/-- A balanced tree whose root is not red has a black root. -/
theorem of_not_isRed (h : Balanced t c n) (ht : t.isRed = false) : c = .black := by
  cases h with
  | leaf => rfl
  | red a hl hr => cases ht
  | black a hl hr => rfl

theorem blacken_eq_self (h : Balanced t .black n) : t.blacken = t := by
  cases h with
  | leaf => rfl
  | black a hl hr => rfl

theorem red_join {d : Side} {a : α} (hx : Balanced x .black n) (hy : Balanced y .black n) :
    Balanced (join d .red x a y) .red n := by
  cases d
  · exact .red a hx hy
  · exact .red a hy hx

theorem black_join {d : Side} {a : α} {c c' : Color} (hx : Balanced x c n) (hy : Balanced y c' n) :
    Balanced (join d .black x a y) .black (n + 1) := by
  cases d
  · exact .black a hx hy
  · exact .black a hy hx

/-- Both children of a red node are balanced, whichever side one looks from. -/
theorem near_far {d : Side} {c c' : Color} (hl : Balanced l c n) (hr : Balanced r c' n) :
    ∃ e e', Balanced (near d l r) e n ∧ Balanced (far d l r) e' n ∧ (c = .black → c' = .black → e = .black ∧ e' = .black) := by
  cases d
  · exact ⟨c, c', hl, hr, fun h h' => ⟨h, h'⟩⟩
  · exact ⟨c', c, hr, hl, fun h h' => ⟨h', h⟩⟩

/-- A red root is made black and every way down gets one black node more. -/
theorem blacken_of_isRed (h : Balanced t c n) (ht : t.isRed = true) : Balanced t.blacken .black (n + 1) := by
  cases h with
  | leaf => cases ht
  | red a hl hr => exact .black a hl hr
  | black a hl hr => cases ht

/-- The black nodes alone make the tree large. -/
theorem two_pow_le (h : Balanced t c n) : 2 ^ n ≤ t.toList.length + 1 := by
  induction h with
  | leaf => exact Nat.le_refl _
  | red a hl hr ihl ihr =>
    simp only [ColoredTree.toList, List.length_append, List.length_cons]
    omega
  | black a hl hr ihl ihr =>
    rw [Nat.pow_succ]
    simp only [ColoredTree.toList, List.length_append, List.length_cons]
    omega

/-- At most every second node on a way down is red. -/
theorem height_le (h : Balanced t c n) : t.height ≤ 2 * n + (if c = .red then 1 else 0) := by
  induction h with
  | leaf => exact Nat.le_refl _
  | red a hl hr ihl ihr =>
    simp only [ColoredTree.height, if_true]
    simp only [if_neg (show Color.black ≠ Color.red by decide)] at ihl ihr
    omega
  | @black l r n c c' a hl hr ihl ihr =>
    have one : ∀ c : Color, (if c = .red then 1 else 0) ≤ 1 := by
      intro c
      split <;> omega
    have := one c
    have := one c'
    simp only [ColoredTree.height]
    omega

/-- The height of a balanced tree with a black root is at most twice the logarithm of its size. -/
theorem height_le_log (h : Balanced t .black n) : t.height ≤ 2 * Nat.log 2 (t.toList.length + 1) := by
  have hh := h.height_le
  have hp : n ≤ Nat.log 2 (t.toList.length + 1) := Nat.le_log_of_pow_le (by decide) h.two_pow_le
  simp only [if_neg (show Color.black ≠ Color.red by decide)] at hh
  omega

end Balanced

namespace Fits

/-- A fitting tree in the hole makes a balanced tree with a black root. -/
theorem plug (hp : Fits p b n) (ht : Balanced t c n) (hc : c = .red → b = true) :
    ∃ m, Balanced (plug t p) .black m := by
  induction hp generalizing t c with
  | root n =>
    cases c with
    | red => exact absurd (hc rfl) (by decide)
    | black => exact ⟨n, ht⟩
  | red d a hy hp ih =>
    cases c with
    | red => exact absurd (hc rfl) (by decide)
    | black => exact ih (ht.red_join hy) fun _ => rfl
  | black d a hy hp ih => exact ih (ht.black_join hy) (by intro h; cases h)

/-- What is in the hole of a balanced tree with a black root fits. -/
theorem of_plug {m : Nat} (h : Balanced (RedBlack.plug t p) .black m) :
    ∃ c n b, Balanced t c n ∧ Fits p b n ∧ (c = .red → b = true) := by
  induction p generalizing t with
  | nil => exact ⟨.black, m, false, h, .root m, by intro hc; cases hc⟩
  | cons f p ih =>
    obtain ⟨d, fc, a, y⟩ := f
    obtain ⟨c, n, b, ht, hp, hc⟩ := ih h
    cases d with
    | left =>
      cases ht with
      | red a hl hr =>
        obtain rfl := hc rfl
        exact ⟨.black, n, false, hl, .red .left a hr hp, by intro hc; cases hc⟩
      | black a hl hr => exact ⟨_, _, true, hl, .black .left a hr hp, fun _ => rfl⟩
    | right =>
      cases ht with
      | red a hl hr =>
        obtain rfl := hc rfl
        exact ⟨.black, n, false, hr, .red .right a hl hp, by intro hc; cases hc⟩
      | black a hl hr => exact ⟨_, _, true, hr, .black .right a hl hp, fun _ => rfl⟩

end Fits

/-! ## Order -/

/-- The comparison cuts the elements: those for which it says `gt` come first, then at most one for which it says `eq`, then those
for which it says `lt`. -/
def Cut (cmp : α → Ordering) (xs : List α) : Prop :=
  xs.Pairwise fun x y => (cmp x ≠ .gt → cmp y = .lt) ∧ (cmp y ≠ .lt → cmp x = .gt)

/-- Walking down to a key passes to the right of the elements before it and to the left of those behind it. -/
theorem descend_spec {cmp : α → Ordering} (h : Cut cmp (before p ++ t.toList ++ after p))
    (hb : ∀ x ∈ before p, cmp x = .gt) (ha : ∀ x ∈ after p, cmp x = .lt) :
    (∀ x ∈ before (descend cmp t p).2, cmp x = .gt) ∧ (∀ x ∈ after (descend cmp t p).2, cmp x = .lt) ∧
    ((descend cmp t p).1 = .leaf ∨ ∃ c l a r, (descend cmp t p).1 = .node c l a r ∧ cmp a = .eq) := by
  induction t generalizing p with
  | leaf => exact ⟨hb, ha, Or.inl rfl⟩
  | node c l a r ihl ihr =>
    have hcut : Cut cmp (l.toList ++ a :: r.toList) := (List.pairwise_append.1 (List.pairwise_append.1 h).1).2.1
    have hla := List.pairwise_append.1 hcut
    rw [descend]
    split
    · rename_i hc
      refine ihl ?_ hb ?_
      · simpa [before, after, ColoredTree.toList] using h
      · intro x hx
        rcases List.mem_append.1 hx with hx | hx
        · rcases List.mem_cons.1 hx with rfl | hx
          · exact hc
          · exact ((List.pairwise_cons.1 hla.2.1).1 x hx).1 (by rw [hc]; decide)
        · exact ha x hx
    · rename_i hc
      refine ihr ?_ ?_ ha
      · simpa [before, after, ColoredTree.toList] using h
      · intro x hx
        rcases List.mem_append.1 hx with hx | hx
        · exact hb x hx
        · rcases List.mem_append.1 hx with hx | hx
          · exact (hla.2.2 x hx a List.mem_cons_self).2 (by rw [hc]; decide)
          · rw [List.mem_singleton.1 hx]
            exact hc
    · rename_i hc
      exact ⟨hb, ha, Or.inr ⟨c, l, a, r, rfl, hc⟩⟩

end Trees

end RedBlack
