import Mathlib.Tactic.Basic
import Mathlib.Data.List.Basic
import Mathlib.Data.List.Nodup
import Mathlib.Data.Nat.ModEq

/-!
# Segments of a memory and cyclic windows

A memory is a function from addresses to cells. A segment is a base and a length, and a list of segments is read and written in
order (`gather`, `scatter`), as the vectors of `readv` and `writev` are. In a ring of `n` cells the cells from `start` on,
wrapping at `n`, are a `window`; it is covered by at most two segments (`span`). What is written into a window is read back from
it, and a write leaves every window alone that ends where the written one starts.
-/

namespace Ring

/-- A run of cells: the address of the first and how many there are. -/
structure Segment where
  base : Nat
  len : Nat
  deriving Repr, DecidableEq

section Memory

variable {α : Type*}

/-- The cells of a segment. -/
def load (mem : Nat → α) (s : Segment) : List α :=
  (List.range s.len).map fun i => mem (s.base + i)

/-- The cells of a list of segments, in order. -/
def gather (mem : Nat → α) (segs : List Segment) : List α :=
  segs.flatMap (load mem)

/-- Write the cells `xs` from the address `base` on. -/
def store (mem : Nat → α) (base : Nat) (xs : List α) : Nat → α :=
  fun a => if base ≤ a then (xs[a - base]?).getD (mem a) else mem a

/-- Write the cells `xs` into a list of segments, each filled before the next one. -/
def scatter (mem : Nat → α) : List Segment → List α → Nat → α
  | [], _ => mem
  | s :: segs, xs => scatter (store mem s.base (xs.take s.len)) segs (xs.drop s.len)

/-- Leave out the first `n` cells of a list of segments. -/
def advance : List Segment → Nat → List Segment
  | [], _ => []
  | s :: segs, n => if s.len ≤ n then advance segs (n - s.len) else ⟨s.base + n, s.len - n⟩ :: segs

/-- The number of cells of a list of segments. -/
def size (segs : List Segment) : Nat :=
  (segs.map Segment.len).sum

/-- The cells of a ring of `n` cells from `start` on, wrapping at `n`. -/
def window (mem : Nat → α) (n start len : Nat) : List α :=
  (List.range len).map fun i => mem ((start + i) % n)

/-- The segments that cover a window. -/
def span (n start len : Nat) : List Segment :=
  if len = 0 then []
  else if len ≤ n - start then [⟨start, len⟩]
  else [⟨start, n - start⟩, ⟨0, len - (n - start)⟩]

variable {mem : Nat → α} {segs : List Segment} {n start len : Nat} {xs : List α}

@[simp] theorem length_load (s : Segment) : (load mem s).length = s.len := by
  simp [load]

@[simp] theorem gather_nil : gather mem [] = [] := rfl

theorem gather_cons (s : Segment) : gather mem (s :: segs) = load mem s ++ gather mem segs := rfl

theorem gather_append (segs' : List Segment) : gather mem (segs ++ segs') = gather mem segs ++ gather mem segs' := by
  simp [gather]

/-- A part of the segments holds a part of the cells. -/
theorem gather_sublist {segs' : List Segment} (h : segs'.Sublist segs) : (gather mem segs').Sublist (gather mem segs) := by
  induction h with
  | slnil => exact List.Sublist.refl _
  | cons s _ ih =>
    rw [gather_cons]
    exact ih.trans (List.sublist_append_right _ _)
  | cons_cons s _ ih =>
    rw [gather_cons, gather_cons]
    exact (List.Sublist.refl _).append ih

/-- The first ones of the segments hold the first ones of the cells. -/
theorem prefix_gather {segs' : List Segment} (h : segs' <+: segs) : gather mem segs' <+: gather mem segs := by
  obtain ⟨rest, rfl⟩ := h
  rw [gather_append]
  exact List.prefix_append _ _

@[simp] theorem size_nil : size [] = 0 := rfl

@[simp] theorem size_cons (s : Segment) : size (s :: segs) = s.len + size segs := by
  simp [size]

@[simp] theorem size_append (segs' : List Segment) : size (segs ++ segs') = size segs + size segs' := by
  simp [size]

@[simp] theorem length_gather : (gather mem segs).length = size segs := by
  induction segs with
  | nil => rfl
  | cons s segs ih => rw [gather_cons, List.length_append, length_load, ih, size_cons]

@[simp] theorem length_window : (window mem n start len).length = len := by
  simp [window]

@[simp] theorem window_zero : window mem n start 0 = [] := rfl

/-- A list of segments is read by looking its addresses up. -/
theorem gather_eq_map : gather mem segs = (gather id segs).map mem := by
  induction segs with
  | nil => rfl
  | cons s segs ih =>
    rw [gather_cons, gather_cons, List.map_append, ← ih]
    congr 1
    simp [load]

/-- A window is read by looking its addresses up. -/
theorem window_eq_map : window mem n start len = (window id n start len).map mem := by
  simp [window]

/-- The cells of a segment with its first `k` left out. -/
theorem load_drop (s : Segment) (k : Nat) : load mem ⟨s.base + k, s.len - k⟩ = (load mem s).drop k := by
  apply List.ext_getElem?
  intro i
  rw [List.getElem?_drop]
  simp only [load, List.getElem?_map]
  by_cases h : k + i < s.len
  · rw [List.getElem?_range h, List.getElem?_range (by omega), Option.map_some, Option.map_some, Nat.add_assoc]
  · rw [List.getElem?_eq_none (by simp; omega), List.getElem?_eq_none (by simp; omega)]
    rfl

/-- Leaving out the first cells of the segments leaves out the first cells that are read from them. -/
theorem gather_advance (k : Nat) : gather mem (advance segs k) = (gather mem segs).drop k := by
  induction segs generalizing k with
  | nil => simp [advance]
  | cons s segs ih =>
    rw [advance]
    split
    · rename_i h
      have hnil : (load mem s).drop k = [] := List.drop_eq_nil_of_le (by rw [length_load]; exact h)
      rw [ih, gather_cons, List.drop_append, length_load, hnil, List.nil_append]
    · rename_i h
      rw [gather_cons, gather_cons, load_drop, List.drop_append, length_load]
      rw [Nat.sub_eq_zero_of_le (by omega), List.drop_zero]

theorem size_advance (k : Nat) : size (advance segs k) = size segs - k := by
  have h : gather (fun _ => ()) (advance segs k) = (gather (fun _ => ()) segs).drop k := gather_advance k
  simpa using congrArg List.length h

/-- A window is its first part followed by the rest, which starts where the first part ends. -/
theorem window_add (a b : Nat) :
    window mem n start (a + b) = window mem n start a ++ window mem n ((start + a) % n) b := by
  unfold window
  rw [List.range_add, List.map_append, List.map_map]
  congr 1
  apply List.map_congr_left
  intro i _
  simp only [Function.comp, Nat.mod_add_mod, Nat.add_assoc]

/-- The segments of a window hold its cells. -/
theorem gather_span (hs : start < n) (hl : len ≤ n) : gather mem (span n start len) = window mem n start len := by
  unfold span
  split
  · rename_i h
    rw [h]
    rfl
  split
  · rename_i h0 h
    simp only [gather, List.flatMap_cons, List.flatMap_nil, List.append_nil, load, window]
    apply List.map_congr_left
    intro i hi
    rw [List.mem_range] at hi
    rw [Nat.mod_eq_of_lt (by omega)]
  · rename_i h0 h
    have hsum : n - start + (len - (n - start)) = len := by omega
    rw [← hsum, window_add]
    simp only [gather, List.flatMap_cons, List.flatMap_nil, List.append_nil, hsum]
    congr 1
    · simp only [load, window]
      apply List.map_congr_left
      intro i hi
      rw [List.mem_range] at hi
      rw [Nat.mod_eq_of_lt (by omega)]
    · have hz : (start + (n - start)) % n = 0 := by
        rw [show start + (n - start) = n by omega, Nat.mod_self]
      simp only [load, window, hz, Nat.zero_add]
      apply List.map_congr_left
      intro i hi
      rw [List.mem_range] at hi
      rw [Nat.mod_eq_of_lt (by omega)]

theorem size_span (hs : start < n) (hl : len ≤ n) : size (span n start len) = len := by
  have h : gather (fun _ => ()) (span n start len) = window (fun _ => ()) n start len := gather_span hs hl
  simpa using congrArg List.length h

/-- Every segment of a window stays inside the ring. -/
theorem span_inside (hs : start < n) (hl : len ≤ n) : ∀ s ∈ span n start len, s.base + s.len ≤ n := by
  intro s hm
  unfold span at hm
  split at hm
  · cases hm
  split at hm
  · rw [List.mem_singleton] at hm
    subst hm
    simp only
    omega
  · rw [List.mem_pair] at hm
    rcases hm with rfl | rfl
    · simp only
      omega
    · simp only
      omega

/-- No segment of a window is empty. -/
theorem span_pos (hs : start < n) : ∀ s ∈ span n start len, 0 < s.len := by
  intro s hm
  unfold span at hm
  split at hm
  · cases hm
  split at hm
  · rw [List.mem_singleton] at hm
    subst hm
    simp only
    omega
  · rw [List.mem_pair] at hm
    rcases hm with rfl | rfl
    · simp only
      omega
    · simp only
      omega

theorem length_span_le : (span n start len).length ≤ 2 := by
  unfold span
  split
  · exact Nat.zero_le _
  split
  · exact Nat.le_succ _
  · exact Nat.le_refl _

/-- In a window that is no longer than the ring no address comes twice. -/
theorem nodup_window (hl : len ≤ n) : (window id n start len).Nodup := by
  apply List.Nodup.map_on _ List.nodup_range
  intro i hi j hj hij
  rw [List.mem_range] at hi hj
  have hm : i ≡ j [MOD n] := Nat.ModEq.add_left_cancel' start hij
  exact Nat.ModEq.eq_of_lt_of_lt hm (by omega) (by omega)

/-! ### Writing -/

theorem store_outside {base a : Nat} (h : a < base ∨ base + xs.length ≤ a) : store mem base xs a = mem a := by
  unfold store
  split
  · rw [List.getElem?_eq_none (by omega), Option.getD_none]
  · rfl

theorem store_inside {base i : Nat} (h : i < xs.length) : store mem base xs (base + i) = xs[i] := by
  unfold store
  rw [if_pos (by omega), Nat.add_sub_cancel_left, List.getElem?_eq_getElem h, Option.getD_some]

/-- The segment of address `a` within a ring, counted from `start`. -/
theorem scatter_span_apply (hs : start < n) (hl : len ≤ n) (hx : xs.length ≤ len) {i : Nat} (hi : i < n) :
    scatter mem (span n start len) xs ((start + i) % n) = (xs[i]?).getD (mem ((start + i) % n)) := by
  unfold span
  split
  · rename_i h
    have hnil : xs = [] := List.eq_nil_of_length_eq_zero (by omega)
    simp [scatter, hnil]
  split
  · rename_i h0 h
    simp only [scatter]
    rw [List.take_of_length_le hx]
    by_cases hix : i < xs.length
    · rw [Nat.mod_eq_of_lt (by omega), store_inside hix, List.getElem?_eq_getElem hix, Option.getD_some]
    · rw [List.getElem?_eq_none (by omega), Option.getD_none]
      apply store_outside
      by_cases hw : start + i < n
      · rw [Nat.mod_eq_of_lt hw]
        omega
      · rw [Nat.mod_eq_sub_mod (by omega), Nat.mod_eq_of_lt (by omega)]
        omega
  · rename_i h0 h
    simp only [scatter]
    have htake : ((xs.drop (n - start)).take (len - (n - start))).length = xs.length - (n - start) := by
      simp
      omega
    have hlow : (xs.take (n - start)).length = min (n - start) xs.length := List.length_take
    by_cases hw : start + i < n
    · rw [Nat.mod_eq_of_lt hw, store_outside (by rw [htake]; omega)]
      by_cases hix : i < xs.length
      · rw [store_inside (by rw [hlow]; omega), List.getElem_take, List.getElem?_eq_getElem hix, Option.getD_some]
      · rw [store_outside (by rw [hlow]; omega), List.getElem?_eq_none (by omega), Option.getD_none]
    · rw [Nat.mod_eq_sub_mod (by omega), Nat.mod_eq_of_lt (by omega)]
      by_cases hix : i < xs.length
      · rw [show start + i - n = 0 + (i - (n - start)) by omega, store_inside (by rw [htake]; omega)]
        rw [List.getElem_take, List.getElem_drop, List.getElem?_eq_getElem hix, Option.getD_some]
        congr 1
        omega
      · rw [store_outside (by rw [htake]; omega), store_outside (by rw [hlow]; omega)]
        rw [List.getElem?_eq_none (by omega), Option.getD_none]

/-- What is written into a window is read back from it. -/
theorem window_scatter_self (hs : start < n) (hl : len ≤ n) (hx : xs.length ≤ len) :
    window (scatter mem (span n start len) xs) n start xs.length = xs := by
  apply List.ext_getElem?
  intro i
  unfold window
  rw [List.getElem?_map]
  by_cases hi : i < xs.length
  · rw [List.getElem?_range hi, Option.map_some, scatter_span_apply hs hl hx (by omega), List.getElem?_eq_getElem hi,
      Option.getD_some]
  · rw [List.getElem?_eq_none (by simpa using hi), List.getElem?_eq_none (by omega)]
    rfl

/-- A window that ends where another one starts is left alone by a write into the other one, when both fit into the ring. -/
theorem window_scatter_before {first k : Nat} (hf : first < n) (hk : k + len ≤ n) (hx : xs.length ≤ len) :
    window (scatter mem (span n ((first + k) % n) len) xs) n first k = window mem n first k := by
  apply List.map_congr_left
  intro i hi
  rw [List.mem_range] at hi
  have hn : 0 < n := by omega
  -- seen from the start of the written window the cell lies `n - k + i` further on
  have hpos : (first + i) % n = ((first + k) % n + (n - k + i)) % n := by
    rw [Nat.mod_add_mod, show first + k + (n - k + i) = first + i + n by omega, Nat.add_mod_right]
  rw [hpos, scatter_span_apply (Nat.mod_lt _ hn) (by omega) hx (by omega), List.getElem?_eq_none (by omega), Option.getD_none]

end Memory

end Ring
