import Open365Vpn.Lib.RedBlack
import Mathlib.Order.Compare

/-!
# The red-black tree of the tunnel

`hev-rbtree.c`, of which the task system has a copy. A node with its parent pointers up to the root is a tree in the hole of a
path; `none` is an access through a null pointer. The code writes every case for the left and again, mirrored, for the right:
here the side is a parameter. A node that is coloured black when it is moved is coloured so here, also where it is black before.
-/

namespace Open365Vpn

open RedBlack

namespace HevRbTree

variable {α : Type*}

/-- `hev_rbtree_insert_color` from the red node `t` on. -/
def insertColor : ColoredTree α → List (Frame α) → Option (ColoredTree α)
  | t, [] => some t.blacken
  | t, f :: p =>
    if f.color = .black then some (plug t (f :: p))
    else
      match p with
      | [] => none
      | g :: p =>
        if g.sibling.isRed then
          -- case 1: the uncle is red, and the grandparent is the next red node
          insertColor (join g.side .red (join f.side .black t f.elem f.sibling) g.elem g.sibling.blacken) p
        else if f.side = g.side then
          -- case 3
          some (plug (join g.side g.color t f.elem (join g.side .red f.sibling.blacken g.elem g.sibling)) p)
        else
          match t with
          | .leaf => none
          | .node _ l a r =>
            -- case 2, and case 3 behind it
            some (plug (join g.side g.color (join g.side .red f.sibling f.elem (near g.side l r).blacken) a
              (join g.side .red (far g.side l r).blacken g.elem g.sibling)) p)

/-- Cases 2 to 4 of `_hev_rbtree_erase_color`, with the node `t` on the side `d` of its parent and the sibling with the children
`l` and `r`: the tree in the place of the parent, and whether the loop goes on with it. -/
def siblingCases (d : Side) (parentColor : Color) (parent : α) (t l : ColoredTree α) (sibling : α) (r : ColoredTree α) : ColoredTree α × Bool :=
  if (far d l r).isRed = false then
    match near d l r with
    | .node .red l' a r' =>
      -- case 3, and case 4 behind it
      (join d parentColor (join d .black t parent (near d l' r')) a (join d .black (far d l' r').blacken sibling (far d l r)),
        false)
    | _ =>
      -- case 2: a red parent is made black, and behind a black one the loop goes on
      (join d .black t parent (.node .red l sibling r), parentColor = .black)
  else
    -- case 4
    (join d parentColor (join d .black t parent (near d l r)) sibling (far d l r).blacken, false)

/-- `_hev_rbtree_erase_color` from the node `t` on, which is black or null. -/
def eraseColor : ColoredTree α → List (Frame α) → Option (ColoredTree α)
  | t, [] => some t
  | t, f :: p =>
    match f.sibling with
    | .leaf => none
    | .node .red l s r =>
      -- case 1: the child of the sibling on the side of the node is the next sibling, and the parent is red
      match near f.side l r with
      | .leaf => none
      | .node _ l' s' r' =>
        some (plug (siblingCases f.side .red f.elem t l' s' r').1 (⟨f.side, f.color, s, far f.side l r⟩ :: p))
    | .node .black l s r =>
      let (u, up) := siblingCases f.side f.color f.elem t l s r
      if up then eraseColor u p else some (plug u p)

/-- The leftmost node under a node: its colour, its element, its right child and the path up. -/
def leftmost (c : Color) : ColoredTree α → α → ColoredTree α → List (Frame α) → Color × α × ColoredTree α × List (Frame α)
  | .leaf, a, r, q => (c, a, r, q)
  | .node c' l' a' r', a, r, q => leftmost c' l' a' r' (⟨.left, c, a, r⟩ :: q)

/-- `hev_rbtree_erase` of the node with the given colour and children. -/
def erase (c : Color) : ColoredTree α → ColoredTree α → List (Frame α) → Option (ColoredTree α)
  | .leaf, .leaf, p => if c = .black then eraseColor .leaf p else some (plug .leaf p)
  | .leaf, .node _ l a r, p => some (plug (.node c l a r) p)
  | .node _ l a r, .leaf, p => some (plug (.node c l a r) p)
  | .node lc ll la lr, .node rc rl ra rr, p =>
    let (sc, successor, child2, q) := leftmost rc rl ra rr []
    let p := q ++ ⟨.right, c, successor, .node lc ll la lr⟩ :: p
    match child2 with
    | .leaf => if sc = .black then eraseColor .leaf p else some (plug .leaf p)
    | .node _ l a r => some (plug (.node .black l a r) p)

/-- The search for a key from the root, `hev_rbtree_node_link` of a new red node at the place where it ends and
`hev_rbtree_insert_color`; nothing is done when the key is there. -/
def insert (cmp : α → Ordering) (a : α) (t : ColoredTree α) : Option (ColoredTree α) :=
  match descend cmp t [] with
  | (.leaf, p) => insertColor (.node .red .leaf a .leaf) p
  | (.node _ _ _ _, _) => some t

/-- The search for a key from the root, and `hev_rbtree_erase` of the node where it ends. -/
def eraseKey (cmp : α → Ordering) (t : ColoredTree α) : Option (ColoredTree α) :=
  match descend cmp t [] with
  | (.leaf, _) => some t
  | (.node c l _ r, p) => erase c l r p

/-- The search for a key from the root. -/
def find (cmp : α → Ordering) (t : ColoredTree α) : Option α :=
  match (descend cmp t []).1 with
  | .leaf => none
  | .node _ _ a _ => some a

section Keyed

variable {κ : Type*} [LinearOrder κ]

/-- The comparison of an element with a key, as `strcmp` compares the name of a node with the name that is searched. -/
def against (key : α → κ) (k : κ) (a : α) : Ordering :=
  compare (key a) k

/-- What a user of a tree does: put an element in under its key, unless there is one, or take the element of a key out. -/
inductive Use (κ α : Type*) where
  | insert (a : α)
  | erase (k : κ)

def use (key : α → κ) (t : ColoredTree α) : Use κ α → Option (ColoredTree α)
  | .insert a => insert (against key (key a)) a t
  | .erase k => eraseKey (against key k) t

end Keyed

end HevRbTree

end Open365Vpn
