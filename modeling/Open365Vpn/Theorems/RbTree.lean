import Open365Vpn.Lib.Runs
import Open365Vpn.Tunnel.RbTree
import Mathlib.Data.List.Nodup
import Mathlib.Logic.Function.Basic

/-!
# The red-black tree stays balanced and ordered

`insertColor` from a red node and `eraseColor` from a place that misses a black node repair a balanced tree and keep the order of
its elements; no null pointer is followed. From these, `insert` and `eraseKey` after any sequence of insertions and removals: the
tree holds a set, in order, and its height is logarithmic.
-/

namespace Open365Vpn

open RedBlack Runs

namespace HevRbTree

namespace RbTreeAux

variable {α : Type*} {t l r : ColoredTree α} {p : List (Frame α)} {b : Bool} {n : Nat}

/-- A tree that repairs: it is balanced and has the given elements. -/
def Repaired (u : Option (ColoredTree α)) (xs : List α) : Prop :=
  ∃ t, u = some t ∧ (∃ m, Balanced t .black m) ∧ t.toList = xs

/-- A fitting tree with the given elements in the hole. -/
theorem repaired_plug {c : Color} {xs : List α} (hp : Fits p b n) (ht : Balanced t c n) (hc : c = .red → b = true)
    (hx : before p ++ t.toList ++ after p = xs) : Repaired (some (plug t p)) xs :=
  ⟨plug t p, rfl, hp.plug ht hc, by rw [toList_plug, hx]⟩

/-- From a red node with black children on, the tree is repaired. -/
theorem insertColor_repaired : ∀ (p : List (Frame α)) {b : Bool} {n : Nat} {l r : ColoredTree α} (a : α), Balanced l .black n →
    Balanced r .black n → Fits p b n →
    Repaired (insertColor (.node .red l a r) p) (before p ++ (l.toList ++ a :: r.toList) ++ after p)
  | [], b, n, l, r, a, hl, hr, _ => by
    refine ⟨_, rfl, ⟨n + 1, .black a hl hr⟩, ?_⟩
    simp [ColoredTree.blacken, ColoredTree.toList, before, after]
  | f :: p, b, n, l, r, a, hl, hr, hp => by
    have ht : Balanced (.node .red l a r) .red n := .red a hl hr
    rw [insertColor.eq_def]
    dsimp only
    cases hp with
    | black d x hy hp => exact repaired_plug (.black d x hy hp) ht (fun _ => rfl) rfl
    | @red p n d x y hy hp =>
      rw [if_neg (show Color.red ≠ Color.black by decide)]
      cases hp with
      | @black p n c b' d' x' u hu hp =>
        dsimp only
        split
        · -- the uncle is red as well: both are made black, and the grandparent is the red node
          rename_i hred
          have hub : Balanced u.blacken .black (n + 1) := hu.blacken_of_isRed hred
          have hj : Balanced (join d .black (.node .red l a r) x y) .black (n + 1) := ht.black_join hy
          obtain ⟨e, e', h1, h2, he⟩ := hj.near_far (d := d') hub
          obtain ⟨rfl, rfl⟩ := he rfl rfl
          rw [join_eq_node]
          have := insertColor_repaired p x' h1 h2 hp
          obtain ⟨t', ht', hbal, hlist⟩ := this
          refine ⟨t', ht', hbal, ?_⟩
          rw [hlist]
          cases d <;> cases d' <;> simp [near, far, before, after, join, ColoredTree.toList]
        · rename_i hblack
          have hub : Balanced u .black n := by
            have := hu.of_not_isRed (by simpa using hblack)
            exact this ▸ hu
          split
          · rename_i hd
            obtain rfl : d = d' := hd
            rw [hy.blacken_eq_self]
            refine repaired_plug hp (ht.black_join (hy.red_join hub)) (by intro h; cases h) ?_
            cases d <;> simp [before, after, join, ColoredTree.toList]
          · rename_i hd
            obtain ⟨e, e', h1, h2, he⟩ := hl.near_far (d := d') hr
            obtain ⟨rfl, rfl⟩ := he rfl rfl
            rw [h1.blacken_eq_self, h2.blacken_eq_self]
            refine repaired_plug hp ((hy.red_join h1).black_join (h2.red_join hub)) (by intro h; cases h) ?_
            cases d <;> cases d' <;> first | exact absurd rfl hd | simp [near, far, before, after, join, ColoredTree.toList]

/-- Cases 2 to 4 keep the elements. -/
theorem toList_siblingCases (d : Side) (pc c c' : Color) (x s : α) (t l r : ColoredTree α) :
    (siblingCases d pc x t l s r).1.toList = (join d c t x (.node c' l s r)).toList := by
  unfold siblingCases
  split
  · split
    · rename_i hnear
      cases d
      · have hl : l = _ := hnear
        simp [near, far, join, hl, ColoredTree.toList]
      · have hr : r = _ := hnear
        simp [near, far, join, hr, ColoredTree.toList]
    · cases d <;> simp [join, ColoredTree.toList]
  · cases d <;> simp [near, far, join, ColoredTree.toList]

/-- Cases 2 to 4 behind a node of black height `n` and a black sibling of black height `n + 1`: when the loop goes on, the tree in
the place of the parent is black and one short; else it has the parent's black height and is red only when the parent is. -/
theorem siblingCases_balanced (d : Side) (pc : Color) (x s : α) {c c' : Color} (ht : Balanced t .black n) (hl : Balanced l c n)
    (hr : Balanced r c' n) :
    ((siblingCases d pc x t l s r).2 = true → pc = .black ∧ Balanced (siblingCases d pc x t l s r).1 .black (n + 1)) ∧
    ((siblingCases d pc x t l s r).2 = false →
      ∃ e, Balanced (siblingCases d pc x t l s r).1 e (if pc = .red then n + 1 else n + 2) ∧ (e = .red → pc = .red)) := by
  obtain ⟨e, e', hn, hf, -⟩ := hl.near_far (d := d) hr
  -- in cases 3 and 4 two black trees of black height `n + 1` come under a node of the parent's colour
  have top : ∀ {u v : ColoredTree α} (a : α), Balanced u .black (n + 1) → Balanced v .black (n + 1) →
      ∃ e, Balanced (join d pc u a v) e (if pc = .red then n + 1 else n + 2) ∧ (e = .red → pc = .red) := by
    intro u v a hu hv
    cases pc with
    | red => exact ⟨.red, hu.red_join hv, fun _ => rfl⟩
    | black => exact ⟨.black, hu.black_join hv, fun h => by cases h⟩
  unfold siblingCases
  split
  · rename_i hfar
    obtain rfl := hf.of_not_isRed hfar
    split
    · rename_i l' a r' hnear
      rw [hnear] at hn
      cases hn with
      | red a hl' hr' =>
        obtain ⟨_, _, h1, h2, he⟩ := hl'.near_far (d := d) hr'
        obtain ⟨rfl, rfl⟩ := he rfl rfl
        refine ⟨fun h => (by cases h), fun _ => ?_⟩
        rw [h2.blacken_eq_self]
        exact top a (ht.black_join h1) (h2.black_join hf)
    · rename_i hnear
      have hnb : (near d l r).isRed = false := by
        unfold ColoredTree.isRed
        split
        · rename_i heq
          exact absurd heq (hnear _ _ _)
        · rfl
        · rfl
      obtain rfl := hn.of_not_isRed hnb
      have hs : Balanced (.node .red l s r) .red n := by
        rw [← join_near_far d .red l s r]
        exact hn.red_join hf
      refine ⟨fun h => ⟨of_decide_eq_true h, ht.black_join hs⟩, fun h => ⟨.black, ?_, fun h => by cases h⟩⟩
      have hpc : pc = .red := by
        cases pc with
        | red => rfl
        | black => simp at h
      rw [if_pos hpc]
      exact ht.black_join hs
  · rename_i hfar
    have hfb : Balanced (far d l r).blacken .black (n + 1) := hf.blacken_of_isRed (by simpa using hfar)
    exact ⟨fun h => (by cases h), fun _ => top s (ht.black_join hn) hfb⟩

/-- From a place that misses a black node on, the tree is repaired. -/
theorem eraseColor_repaired (ht : Balanced t .black n) (hp : Fits p b (n + 1)) :
    Repaired (eraseColor t p) (before p ++ t.toList ++ after p) := by
  induction p generalizing t b n with
  | nil =>
    refine ⟨t, rfl, ⟨n, ht⟩, ?_⟩
    simp [before, after]
  | cons f p ih =>
    obtain ⟨d, pc, x, y⟩ := f
    have elements : ∀ (c c' : Color) (s : α) (l r : ColoredTree α), y.toList = l.toList ++ s :: r.toList →
        before p ++ (join d c t x (.node c' l s r)).toList ++ after p =
          before (⟨d, pc, x, y⟩ :: p) ++ t.toList ++ after (⟨d, pc, x, y⟩ :: p) := by
      intro c c' s l r hy
      cases d <;> simp [before, after, join, ColoredTree.toList, hy]
    cases hp with
    | red d x hy hp =>
      cases hy with
      | @black l r n c c' s hl hr =>
        obtain ⟨hup, hdone⟩ := siblingCases_balanced d .red x s ht hl hr
        simp only [eraseColor]
        split
        · rename_i h
          exact absurd (hup h).1 (by decide)
        · rename_i h
          obtain ⟨e, he, _⟩ := hdone (by simpa using h)
          refine repaired_plug hp he (fun _ => rfl) ?_
          rw [toList_siblingCases d .red .red .black]
          exact elements _ _ s l r rfl
    | @black _ _ _ _ d x _ hy hp =>
      cases hy with
      | @red l r _ s hl hr =>
        -- the rotation of case 1 gives the node a black sibling, and a red parent
        obtain ⟨e, e', hn, hf, he⟩ := hl.near_far (d := d) hr
        obtain ⟨rfl, rfl⟩ := he rfl rfl
        simp only [eraseColor]
        cases hnear : near d l r with
        | leaf =>
          rw [hnear] at hn
          cases hn
        | node nc l' s' r' =>
          rw [hnear] at hn
          cases hn with
          | @black _ _ _ c c' _ hl' hr' =>
            obtain ⟨hup, hdone⟩ := siblingCases_balanced d .red x s' ht hl' hr'
            obtain ⟨e, he, _⟩ := hdone (by
              by_contra h
              exact absurd (hup (by simpa using h)).1 (by decide))
            refine repaired_plug (.black d s hf hp) he (fun _ => rfl) ?_
            rw [toList_siblingCases d .red .red .black]
            cases d
            · have hl0 : l = _ := hnear
              simp [before, after, join, far, ColoredTree.toList, hl0]
            · have hr0 : r = _ := hnear
              simp [before, after, join, far, ColoredTree.toList, hr0]
      | @black l r _ c c' s hl hr =>
        obtain ⟨hup, hdone⟩ := siblingCases_balanced d .black x s ht hl hr
        simp only [eraseColor]
        split
        · rename_i h
          obtain ⟨t', ht', hbal, hlist⟩ := ih (hup h).2 hp
          refine ⟨t', ht', hbal, ?_⟩
          rw [hlist, toList_siblingCases d .black .black .black]
          exact elements _ _ s l r rfl
        · rename_i h
          obtain ⟨e, he, hcol⟩ := hdone (by simpa using h)
          refine repaired_plug hp he (fun h => absurd (hcol h) (by decide)) ?_
          rw [toList_siblingCases d .black .black .black]
          exact elements _ _ s l r rfl

/-- A balanced node without a left child: it has no right child either, or it is black and its right child is red and has no
children. -/
theorem only_right {c e : Color} {a : α} (h : Balanced (.node c .leaf a r) e n) :
    (r = .leaf ∧ ((c = .black ∧ n = 1) ∨ (c = .red ∧ n = 0))) ∨
    (∃ x, r = .node .red .leaf x .leaf ∧ c = .black ∧ n = 1) := by
  cases h with
  | red a hl hr =>
    cases hl
    cases hr with
    | leaf => exact Or.inl ⟨rfl, Or.inr ⟨rfl, rfl⟩⟩
  | black a hl hr =>
    cases hl
    cases hr with
    | leaf => exact Or.inl ⟨rfl, Or.inl ⟨rfl, rfl⟩⟩
    | red x hl hr =>
      cases hl
      cases hr
      exact Or.inr ⟨x, rfl, rfl, rfl⟩

theorem only_left {c e : Color} {a : α} (h : Balanced (.node c l a .leaf) e n) :
    (l = .leaf ∧ ((c = .black ∧ n = 1) ∨ (c = .red ∧ n = 0))) ∨
    (∃ x, l = .node .red .leaf x .leaf ∧ c = .black ∧ n = 1) := by
  cases h with
  | red a hl hr =>
    cases hr
    cases hl with
    | leaf => exact Or.inl ⟨rfl, Or.inr ⟨rfl, rfl⟩⟩
  | black a hl hr =>
    cases hr
    cases hl with
    | leaf => exact Or.inl ⟨rfl, Or.inl ⟨rfl, rfl⟩⟩
    | red x hl hr =>
      cases hl
      cases hr
      exact Or.inr ⟨x, rfl, rfl, rfl⟩

/-- The place of a node that is taken away with both children null: it misses a black node when the node is black. -/
theorem repaired_leaf {c : Color} (hp : Fits p b n) (hn : (c = .black ∧ n = 1) ∨ (c = .red ∧ n = 0)) :
    Repaired (if c = .black then eraseColor .leaf p else some (plug .leaf p)) (before p ++ after p) := by
  rcases hn with ⟨rfl, rfl⟩ | ⟨rfl, rfl⟩
  · rw [if_pos rfl]
    simpa [ColoredTree.toList] using eraseColor_repaired .leaf hp
  · rw [if_neg (by decide)]
    exact repaired_plug hp .leaf (by intro h; cases h) (by simp [ColoredTree.toList])

/-- A single node, black, in the place of a node that had it as its only child. -/
theorem repaired_single (a : α) (hp : Fits p b 1) :
    Repaired (some (plug (.node .black .leaf a .leaf) p)) (before p ++ a :: after p) :=
  repaired_plug hp (.black a .leaf .leaf) (by intro h; cases h) (by simp [ColoredTree.toList])

/-- The way down to the leftmost node: it has no left child, and it and what is below it fit into the path to it. -/
theorem leftmost_spec {c e : Color} {a : α} {q P : List (Frame α)} (h : Balanced (.node c l a r) e n) (hp : Fits (q ++ P) b n)
    (he : e = .red → b = true) :
    ∃ sc s child2 q', leftmost c l a r q = (sc, s, child2, q') ∧
      (∃ e n b, Balanced (.node sc .leaf s child2) e n ∧ Fits (q' ++ P) b n) ∧ before q' = before q ∧
      s :: child2.toList ++ after q' = l.toList ++ a :: r.toList ++ after q := by
  induction l generalizing c e a r q b n with
  | leaf => exact ⟨c, a, r, q, rfl, ⟨e, n, b, h, hp⟩, rfl, rfl⟩
  | node c' l' a' r' ih _ =>
    rw [leftmost]
    have hstep : ∃ e n b, Balanced (.node c' l' a' r') e n ∧ Fits ((⟨.left, c, a, r⟩ :: q) ++ P) b n ∧ (e = .red → b = true) := by
      cases h with
      | red a hl hr =>
        obtain rfl := he rfl
        exact ⟨_, _, _, hl, .red .left a hr hp, by intro h; cases h⟩
      | black a hl hr => exact ⟨_, _, _, hl, .black .left a hr hp, fun _ => rfl⟩
    obtain ⟨e, n, b, hb, hp', he'⟩ := hstep
    obtain ⟨sc, s, child2, q', heq, hfit, hbef, hlist⟩ := ih hb hp' he'
    refine ⟨sc, s, child2, q', heq, hfit, ?_, ?_⟩
    · rw [hbef]
      rfl
    · rw [hlist]
      simp [after, ColoredTree.toList]

/-- Taking a node away repairs the tree and keeps the other elements in order. -/
theorem erase_repaired {c e : Color} {a : α} (h : Balanced (.node c l a r) e n) (hp : Fits p b n) (he : e = .red → b = true) :
    Repaired (erase c l r p) (before p ++ (l.toList ++ r.toList) ++ after p) := by
  match l, r with
  | .leaf, .leaf =>
    rcases only_right h with ⟨_, hn⟩ | ⟨_, hx, _⟩
    · simpa [erase, ColoredTree.toList] using repaired_leaf hp hn
    · cases hx
  | .leaf, .node rc rl ra rr =>
    rcases only_right h with ⟨hx, _⟩ | ⟨x, hx, rfl, rfl⟩
    · cases hx
    · cases hx
      simpa [erase, ColoredTree.toList] using repaired_single ra hp
  | .node lc ll la lr, .leaf =>
    rcases only_left h with ⟨hx, _⟩ | ⟨x, hx, rfl, rfl⟩
    · cases hx
    · cases hx
      simpa [erase, ColoredTree.toList] using repaired_single la hp
  | .node lc ll la lr, .node rc rl ra rr =>
    -- the successor takes the node's place, so its old place is found under a frame with its element
    generalize hL : ColoredTree.node lc ll la lr = L at h
    have hright : ∀ s : α, ∃ e n b, Balanced (.node rc rl ra rr) e n ∧ Fits ([] ++ ⟨.right, c, s, L⟩ :: p) b n ∧
        (e = .red → b = true) := by
      intro s
      cases h with
      | red a hl hr =>
        obtain rfl := he rfl
        exact ⟨_, _, _, hr, .red .right s hl hp, by intro h; cases h⟩
      | black a hl hr => exact ⟨_, _, _, hr, .black .right s hl hp, fun _ => rfl⟩
    obtain ⟨e', n', b', hb, hp', he'⟩ := hright (leftmost rc rl ra rr []).2.1
    obtain ⟨sc, s, child2, q', heq, ⟨e'', n'', b'', hs, hfit⟩, hbef, hlist⟩ := leftmost_spec hb hp' he'
    rw [heq] at hfit
    have hbq : before q' = [] := hbef
    have hrr : (ColoredTree.node rc rl ra rr).toList = s :: child2.toList ++ after q' := by
      rw [hlist]
      simp [ColoredTree.toList, after]
    have hgoal : before (q' ++ ⟨.right, c, s, L⟩ :: p) ++ child2.toList ++ after (q' ++ ⟨.right, c, s, L⟩ :: p) =
        before p ++ (L.toList ++ (ColoredTree.node rc rl ra rr).toList) ++ after p := by
      rw [before_append, after_append, hbq, hrr]
      simp [before, after]
    rw [← hgoal]
    subst hL
    simp only [erase, heq]
    rcases only_right hs with ⟨rfl, hn⟩ | ⟨x, rfl, rfl, rfl⟩
    · simpa [ColoredTree.toList] using repaired_leaf hfit hn
    · simpa [ColoredTree.toList] using repaired_single x hfit

section Keyed

variable {κ : Type*} [LinearOrder κ] {key : α → κ} {k : κ}

/-- The elements from left to right have smaller and smaller keys. -/
def Sorted (key : α → κ) (t : ColoredTree α) : Prop :=
  t.toList.Pairwise fun x y => key y < key x

/-- A sorted tree is cut by every key. -/
theorem Sorted.cut (h : Sorted key t) : Cut (against key k) t.toList := by
  refine h.imp ?_
  intro x y hxy
  unfold against
  constructor
  · intro hx
    have : key x ≤ k := compare_le_iff_le.1 hx
    exact compare_lt_iff_lt.2 (lt_of_lt_of_le hxy this)
  · intro hy
    have : k ≤ key y := compare_ge_iff_ge.1 hy
    exact compare_gt_iff_gt.2 (lt_of_le_of_lt this hxy)

/-- Where the search for a key ends in a sorted tree: at a place behind the larger keys and before the smaller ones. -/
theorem Sorted.search (h : Sorted key t) (k : κ) :
    plug (descend (against key k) t []).1 (descend (against key k) t []).2 = t ∧
    (∀ x ∈ before (descend (against key k) t []).2, k < key x) ∧ (∀ x ∈ after (descend (against key k) t []).2, key x < k) ∧
    ((descend (against key k) t []).1 = .leaf ∨
      ∃ c l a r, (descend (against key k) t []).1 = .node c l a r ∧ key a = k) := by
  have hcut : Cut (against key k) (before [] ++ t.toList ++ after []) := by
    simpa [before, after] using h.cut
  obtain ⟨hb, ha, hn⟩ := descend_spec hcut (by intro x hx; cases hx) (by intro x hx; cases hx)
  refine ⟨plug_descend _ t [], fun x hx => compare_gt_iff_gt.1 (hb x hx), fun x hx => compare_lt_iff_lt.1 (ha x hx), ?_⟩
  rcases hn with hn | ⟨c, l, a, r, hn, hc⟩
  · exact Or.inl hn
  · exact Or.inr ⟨c, l, a, r, hn, compare_eq_iff_eq.1 hc⟩

/-- A list with a key that divides it stays sorted when an element with that key is put in between, or when what is between is
taken out. -/
theorem pairwise_replace {xs ys zs zs' : List α} (h : (xs ++ zs ++ ys).Pairwise fun x y => key y < key x)
    (hx : ∀ x ∈ xs, k < key x) (hy : ∀ y ∈ ys, key y < k) (hz : zs'.Pairwise fun x y => key y < key x)
    (hxz : ∀ x ∈ xs, ∀ z ∈ zs', key z < key x) (hzy : ∀ z ∈ zs', ∀ y ∈ ys, key y < key z) :
    (xs ++ zs' ++ ys).Pairwise fun x y => key y < key x := by
  rw [List.pairwise_append, List.pairwise_append] at h ⊢
  refine ⟨⟨h.1.1, hz, hxz⟩, h.2.1, ?_⟩
  intro x hx' y hy'
  rcases List.mem_append.1 hx' with hx' | hx'
  · exact (hy y hy').trans (hx x hx')
  · exact hzy x hx' y hy'

/-- The finite map that a tree stands for. -/
def lookup (key : α → κ) (t : ColoredTree α) (k : κ) : Option α :=
  find (against key k) t

/-- The search finds exactly the element with the key. -/
theorem lookup_eq_some (h : Sorted key t) {a : α} : lookup key t k = some a ↔ a ∈ t.toList ∧ key a = k := by
  obtain ⟨hplug, hb, ha, hn⟩ := h.search k
  have hlist := toList_plug (descend (against key k) t []).1 (descend (against key k) t []).2
  rw [hplug] at hlist
  unfold lookup find
  rcases hn with hn | ⟨c, l, x, r, hn, hx⟩
  · rw [hn] at hlist ⊢
    constructor
    · intro h
      cases h
    · rintro ⟨hm, hk⟩
      rw [hlist, ColoredTree.toList, List.append_nil] at hm
      rcases List.mem_append.1 hm with hm | hm
      · exact absurd (hb a hm) (by rw [hk]; exact lt_irrefl k)
      · exact absurd (ha a hm) (by rw [hk]; exact lt_irrefl k)
  · rw [hn] at hlist ⊢
    simp only [Option.some.injEq]
    have hxm : x ∈ t.toList := by
      rw [hlist]
      simp [ColoredTree.toList]
    constructor
    · rintro rfl
      exact ⟨hxm, hx⟩
    · rintro ⟨hm, hk⟩
      have hnd : (t.toList.map key).Nodup := List.pairwise_map.2 (h.imp fun hlt => hlt.ne')
      exact List.inj_on_of_nodup_map hnd hxm hm (hx.trans hk.symm)

theorem lookup_eq_none (h : Sorted key t) : lookup key t k = none ↔ ∀ a ∈ t.toList, key a ≠ k := by
  rw [Option.eq_none_iff_forall_ne_some]
  constructor
  · intro hn a ha hk
    exact hn a ((lookup_eq_some h).2 ⟨ha, hk⟩)
  · intro hall a ha
    obtain ⟨hm, hk⟩ := (lookup_eq_some h).1 ha
    exact hall a hm hk

/-- What the uses of a tree do to the finite map. -/
def mapUse (key : α → κ) (m : κ → Option α) : Use κ α → κ → Option α
  | .insert a => if (m (key a)).isSome then m else Function.update m (key a) (some a)
  | .erase k => Function.update m k none

/-- A tree that is as it should be: balanced with a black root, and sorted. -/
structure WellFormed (key : α → κ) (t : ColoredTree α) : Prop where
  balanced : ∃ m, Balanced t .black m
  sorted : Sorted key t

/-- A use of a well-formed tree makes a well-formed tree with the elements `xs`. -/
theorem Repaired.use {u : Option (ColoredTree α)} {xs : List α} {m : κ → Option α} (h : Repaired u xs)
    (hs : xs.Pairwise fun x y => key y < key x) (hm : ∀ k a, m k = some a ↔ a ∈ xs ∧ key a = k) :
    ∃ t, u = some t ∧ WellFormed key t ∧ lookup key t = m := by
  obtain ⟨t, ht, hb, rfl⟩ := h
  refine ⟨t, ht, ⟨hb, hs⟩, ?_⟩
  funext k
  apply Option.ext
  intro a
  rw [lookup_eq_some hs, hm]

theorem insert_spec (h : WellFormed key t) (a : α) :
    ∃ t', insert (against key (key a)) a t = some t' ∧ WellFormed key t' ∧
      lookup key t' = mapUse key (lookup key t) (.insert a) := by
  obtain ⟨hplug, hb, ha, hn⟩ := h.sorted.search (key a)
  obtain ⟨m, hbal⟩ := h.balanced
  have hlist := toList_plug (descend (against key (key a)) t []).1 (descend (against key (key a)) t []).2
  rw [hplug] at hlist
  rw [← hplug] at hbal
  obtain ⟨c, n, b, ht, hp, _⟩ := Fits.of_plug hbal
  unfold insert
  generalize hd : descend (against key (key a)) t [] = d at hb ha hn hlist ht hp
  obtain ⟨u, p⟩ := d
  dsimp only at hb ha hn hlist ht hp
  rcases hn with rfl | ⟨c, l, x, r, rfl, hx⟩
  · cases ht
    rw [ColoredTree.toList, List.append_nil] at hlist
    have hs : (before p ++ [] ++ after p).Pairwise fun x y => key y < key x := by
      rw [List.append_nil, ← hlist]
      exact h.sorted
    refine (insertColor_repaired p a .leaf .leaf hp).use (pairwise_replace hs hb ha ?_ ?_ ?_) ?_
    · simp [ColoredTree.toList]
    · intro x hx z hz
      rw [List.mem_singleton.1 hz]
      exact hb x hx
    · intro z hz y hy
      rw [List.mem_singleton.1 hz]
      exact ha y hy
    · have hnone : lookup key t (key a) = none := by
        rw [lookup_eq_none h.sorted, hlist]
        intro x hx
        rcases List.mem_append.1 hx with hx | hx
        · exact (hb x hx).ne'
        · exact (ha x hx).ne
      intro k y
      rw [mapUse, hnone, if_neg (by simp)]
      by_cases hk : k = key a
      · subst hk
        rw [Function.update_self, Option.some.injEq]
        constructor
        · rintro rfl
          simp [ColoredTree.toList]
        · rintro ⟨hm, hk⟩
          have hy := (lookup_eq_none h.sorted).1 hnone y
          rw [hlist] at hy
          simp only [ColoredTree.toList, List.nil_append, List.mem_append, List.mem_singleton] at hm
          rcases hm with (hm | hm) | hm
          · exact absurd hk (hy (List.mem_append_left _ hm))
          · exact hm.symm
          · exact absurd hk (hy (List.mem_append_right _ hm))
      · rw [Function.update_of_ne hk, lookup_eq_some h.sorted, hlist]
        simp only [ColoredTree.toList, List.nil_append, List.mem_append, List.mem_singleton]
        constructor
        · rintro ⟨hm | hm, rfl⟩
          · exact ⟨Or.inl (Or.inl hm), rfl⟩
          · exact ⟨Or.inr hm, rfl⟩
        · rintro ⟨(hm | rfl) | hm, rfl⟩
          · exact ⟨Or.inl hm, rfl⟩
          · exact absurd rfl hk
          · exact ⟨Or.inr hm, rfl⟩
  · refine ⟨t, rfl, h, ?_⟩
    have hsome : lookup key t (key a) = some x := by
      rw [lookup_eq_some h.sorted, hlist]
      exact ⟨by simp [ColoredTree.toList], hx⟩
    rw [mapUse, hsome, if_pos Option.isSome_some]

theorem eraseKey_spec (h : WellFormed key t) (k : κ) :
    ∃ t', eraseKey (against key k) t = some t' ∧ WellFormed key t' ∧ lookup key t' = mapUse key (lookup key t) (.erase k) := by
  obtain ⟨hplug, hb, ha, hn⟩ := h.sorted.search k
  obtain ⟨m, hbal⟩ := h.balanced
  have hlist := toList_plug (descend (against key k) t []).1 (descend (against key k) t []).2
  rw [hplug] at hlist
  rw [← hplug] at hbal
  obtain ⟨c, n, b, ht, hp, hc⟩ := Fits.of_plug hbal
  unfold eraseKey
  generalize hd : descend (against key k) t [] = d at hb ha hn hlist ht hp
  obtain ⟨u, p⟩ := d
  dsimp only at hb ha hn hlist ht hp
  rcases hn with rfl | ⟨c, l, x, r, rfl, hx⟩
  · refine ⟨t, rfl, h, ?_⟩
    have hnone : lookup key t k = none := by
      rw [lookup_eq_none h.sorted, hlist]
      intro x hx
      rw [ColoredTree.toList, List.append_nil] at hx
      rcases List.mem_append.1 hx with hx | hx
      · exact (hb x hx).ne'
      · exact (ha x hx).ne
    rw [mapUse, ← hnone, Function.update_eq_self]
  · have hs := h.sorted
    unfold Sorted at hs
    rw [hlist] at hs
    have hmid := (List.pairwise_append.1 (List.pairwise_append.1 hs).1)
    have hx' : ∀ y ∈ l.toList ++ r.toList, y ∈ (ColoredTree.node c l x r).toList := by
      intro y hy
      rw [ColoredTree.toList, List.mem_append, List.mem_cons]
      rcases List.mem_append.1 hy with hy | hy
      · exact Or.inl hy
      · exact Or.inr (Or.inr hy)
    have hsub : (l.toList ++ r.toList).Sublist (ColoredTree.node c l x r).toList :=
      (List.Sublist.refl _).append (List.sublist_cons_self _ _)
    have hxk : ∀ y ∈ l.toList ++ r.toList, key y ≠ k := by
      intro y hy
      have hpw := List.pairwise_append.1 hmid.2.1
      rcases List.mem_append.1 hy with hy | hy
      · have := hpw.2.2 y hy x List.mem_cons_self
        rw [hx] at this
        exact this.ne'
      · have := (List.pairwise_cons.1 hpw.2.1).1 y hy
        rw [hx] at this
        exact this.ne
    refine (erase_repaired ht hp hc).use (pairwise_replace hs hb ha (hmid.2.1.sublist hsub) ?_ ?_) ?_
    · intro y hy z hz
      exact hmid.2.2 y hy z (hx' z hz)
    · intro z hz y hy
      exact (List.pairwise_append.1 hs).2.2 z (List.mem_append_right _ (hx' z hz)) y hy
    · intro k' y
      rw [mapUse]
      by_cases hk : k' = k
      · subst hk
        rw [Function.update_self]
        constructor
        · intro h
          cases h
        · rintro ⟨hm, hk⟩
          rcases List.mem_append.1 hm with hm | hm
          · rcases List.mem_append.1 hm with hm | hm
            · exact absurd hk (hb y hm).ne'
            · exact absurd hk (hxk y hm)
          · exact absurd hk (ha y hm).ne
      · rw [Function.update_of_ne hk, lookup_eq_some h.sorted, hlist]
        have hyx : key y = k' → y ≠ x := by
          rintro rfl rfl
          exact hk hx
        simp only [ColoredTree.toList, List.mem_append, List.mem_cons]
        constructor
        · rintro ⟨(hm | hm | hm | hm) | hm, hky⟩
          · exact ⟨Or.inl (Or.inl hm), hky⟩
          · exact ⟨Or.inl (Or.inr (Or.inl hm)), hky⟩
          · exact absurd hm (hyx hky)
          · exact ⟨Or.inl (Or.inr (Or.inr hm)), hky⟩
          · exact ⟨Or.inr hm, hky⟩
        · rintro ⟨(hm | hm | hm) | hm, hky⟩
          · exact ⟨Or.inl (Or.inl hm), hky⟩
          · exact ⟨Or.inl (Or.inr (Or.inl hm)), hky⟩
          · exact ⟨Or.inl (Or.inr (Or.inr (Or.inr hm))), hky⟩
          · exact ⟨Or.inr hm, hky⟩

/-- The elements of a tree behind the insertion of an element with a new key. -/
theorem mem_insert (h : WellFormed key t) (a : α) (ha : ∀ x ∈ t.toList, key x ≠ key a) :
    ∃ t', insert (against key (key a)) a t = some t' ∧ WellFormed key t' ∧ ∀ x, x ∈ t'.toList ↔ x = a ∨ x ∈ t.toList := by
  obtain ⟨t', hi, hw, hl⟩ := insert_spec h a
  refine ⟨t', hi, hw, ?_⟩
  have hnone : lookup key t (key a) = none := (lookup_eq_none h.sorted).2 ha
  intro x
  have hx := congrFun hl (key x)
  rw [mapUse, hnone, if_neg (by simp)] at hx
  have hmem : x ∈ t'.toList ↔ lookup key t' (key x) = some x := by
    rw [lookup_eq_some hw.sorted]
    simp
  rw [hmem, hx]
  by_cases he : key x = key a
  · rw [he, Function.update_self, Option.some.injEq]
    constructor
    · intro h
      exact Or.inl h.symm
    · rintro (rfl | h)
      · rfl
      · exact absurd he (ha x h)
  · rw [Function.update_of_ne he, lookup_eq_some h.sorted]
    constructor
    · intro h
      exact Or.inr h.1
    · rintro (rfl | h)
      · exact absurd rfl he
      · exact ⟨h, rfl⟩

/-- The elements of a tree behind the removal of a key. -/
theorem mem_eraseKey (h : WellFormed key t) (k : κ) :
    ∃ t', eraseKey (against key k) t = some t' ∧ WellFormed key t' ∧ ∀ x, x ∈ t'.toList ↔ x ∈ t.toList ∧ key x ≠ k := by
  obtain ⟨t', hi, hw, hl⟩ := eraseKey_spec h k
  refine ⟨t', hi, hw, ?_⟩
  intro x
  have hx := congrFun hl (key x)
  rw [mapUse] at hx
  have hmem : x ∈ t'.toList ↔ lookup key t' (key x) = some x := by
    rw [lookup_eq_some hw.sorted]
    simp
  rw [hmem, hx]
  by_cases he : key x = k
  · rw [he, Function.update_self]
    simp
  · rw [Function.update_of_ne he, lookup_eq_some h.sorted]
    simp [he]

theorem use_spec (h : WellFormed key t) (o : Use κ α) :
    ∃ t', HevRbTree.use key t o = some t' ∧ WellFormed key t' ∧ lookup key t' = mapUse key (lookup key t) o := by
  cases o with
  | insert a => exact insert_spec h a
  | erase k => exact eraseKey_spec h k

theorem wellFormed_leaf : WellFormed key (.leaf : ColoredTree α) :=
  ⟨⟨0, .leaf⟩, List.Pairwise.nil⟩

/-- A run of uses from a well-formed tree. -/
theorem exec_use (h : WellFormed key t) (os : List (Use κ α)) :
    ∃ t', exec (HevRbTree.use key) t os = some t' ∧ WellFormed key t' ∧
      lookup key t' = os.foldl (mapUse key) (lookup key t) := by
  induction os generalizing t with
  | nil => exact ⟨t, rfl, h, rfl⟩
  | cons o os ih =>
    obtain ⟨u, hu, hw, hl⟩ := use_spec h o
    obtain ⟨t', ht', hw', hl'⟩ := ih hw
    refine ⟨t', exec_cons_eq_some.2 ⟨u, hu, ht'⟩, hw', ?_⟩
    rw [hl', hl, List.foldl_cons]

end Keyed

end RbTreeAux

end HevRbTree

open HevRbTree HevRbTree.RbTreeAux

/-- Every sequence of insertions and removals, by any key, runs to its end, so no null pointer is followed. The tree is then
red-black, its elements have decreasing keys from left to right, it is at most twice as high as the logarithm of its size, and
the search finds under every key what a finite map that is put through the same sequence holds under it. -/
theorem rbtree_refines_map {α κ : Type*} [LinearOrder κ] (key : α → κ) (os : List (Use κ α)) :
    ∃ t, exec (HevRbTree.use key) .leaf os = some t ∧ (∃ m, Balanced t .black m) ∧
      t.toList.Pairwise (fun x y => key y < key x) ∧ t.height ≤ 2 * Nat.log 2 (t.toList.length + 1) ∧
      ∀ k, HevRbTree.find (against key k) t = os.foldl (mapUse key) (fun _ => none) k := by
  obtain ⟨t, hx, hw, hl⟩ := exec_use wellFormed_leaf os
  obtain ⟨m, hm⟩ := hw.balanced
  refine ⟨t, hx, ⟨m, hm⟩, hw.sorted, hm.height_le_log, ?_⟩
  intro k
  exact congrFun hl k

end Open365Vpn
