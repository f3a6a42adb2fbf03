import Mathlib.Data.List.Basic
import Mathlib.Data.List.Nodup
import Mathlib.Data.List.Perm.Basic
import Mathlib.Tactic.Basic

/-!
# Lists with a key

A list whose entries are told apart by a key, and that grows by entries with a new key (`push`). Pushing a whole list appends
its first occurrences whose key was not there (`foldl_push`); when entries with one key are equal, taking the pushed keys out
and putting the list back in changes the order only (`append_without_perm`).
-/

namespace Merging

variable {α β : Type*} [DecidableEq β]

/-- Append an entry unless its key is there. -/
def push (key : α → β) (l : List α) (x : α) : List α := if key x ∈ l.map key then l else l ++ [x]

/-- The entries whose key is not among the given ones. -/
def without (key : α → β) (l : List α) (keys : List β) : List α := l.filter fun x => !decide (key x ∈ keys)

/-- The first entry of each key, in order. -/
def firsts (key : α → β) (l : List α) : List α := l.eraseDupsBy fun x y => key x == key y

variable {key : α → β}

/-! ## First occurrences -/

@[simp] theorem firsts_nil : firsts key [] = [] := rfl

theorem firsts_cons (x : α) (l : List α) : firsts key (x :: l) = x :: firsts key (without key l [key x]) := by
  rw [firsts, List.eraseDupsBy_cons, firsts, without]
  simp

theorem mem_without {l : List α} {keys : List β} {x : α} : x ∈ without key l keys ↔ x ∈ l ∧ key x ∉ keys := by
  simp [without]

theorem without_append (l l' : List α) (keys : List β) :
    without key (l ++ l') keys = without key l keys ++ without key l' keys := List.filter_append ..

theorem without_without (l : List α) (ks ks' : List β) : without key (without key l ks) ks' = without key l (ks ++ ks') := by
  simp only [without, List.filter_filter, List.mem_append, Bool.decide_or, Bool.not_or, Bool.and_comm]

theorem without_congr {l : List α} {ks ks' : List β} (h : ∀ x ∈ l, key x ∈ ks ↔ key x ∈ ks') :
    without key l ks = without key l ks' := by
  apply List.filter_congr
  intro x hx
  simp [h x hx]

theorem without_eq_self {l : List α} {ks : List β} (h : ∀ x ∈ l, key x ∉ ks) : without key l ks = l := by
  rw [without, List.filter_eq_self]
  intro x hx
  simpa using h x hx

theorem without_eq_nil {l : List α} {ks : List β} (h : ∀ x ∈ l, key x ∈ ks) : without key l ks = [] := by
  rw [without, List.filter_eq_nil_iff]
  intro x hx
  simpa using h x hx

theorem length_without_le (l : List α) (ks : List β) : (without key l ks).length ≤ l.length := List.length_filter_le ..

/-- Taking keys out commutes with keeping first occurrences. -/
theorem firsts_without (l : List α) (ks : List β) : firsts key (without key l ks) = without key (firsts key l) ks := by
  induction hn : l.length using Nat.strongRecOn generalizing l ks with
  | ind n ih =>
    cases l with
    | nil => rfl
    | cons x l =>
      have hlt : (without key l [key x]).length < n := by
        have : (without key l [key x]).length ≤ l.length := length_without_le l [key x]
        rw [List.length_cons] at hn
        omega
      have hrest := ih _ hlt (without key l [key x]) ks rfl
      by_cases hx : key x ∈ ks
      · have h1 : without key (x :: l) ks = without key l ks := by simp [without, hx]
        have h2 : without key (x :: firsts key (without key l [key x])) ks = without key (firsts key (without key l [key x])) ks := by
          simp [without, hx]
        rw [h1, firsts_cons, h2, ← hrest, without_without]
        congr 1
        exact without_congr fun y _ => by simp +contextual [hx]
      · have h1 : without key (x :: l) ks = x :: without key l ks := by simp [without, hx]
        have h2 : without key (x :: firsts key (without key l [key x])) ks =
            x :: without key (firsts key (without key l [key x])) ks := by
          simp [without, hx]
        rw [h1, firsts_cons, firsts_cons, h2, ← hrest, without_without, without_without]
        congr 2
        exact without_congr fun y _ => by simp [or_comm]

/-- A first occurrence is an entry of the list. -/
theorem mem_of_mem_firsts {l : List α} {x : α} (h : x ∈ firsts key l) : x ∈ l := by
  induction l with
  | nil => cases h
  | cons y l ih =>
    rw [firsts_cons, firsts_without, List.mem_cons, mem_without] at h
    rcases h with rfl | ⟨h, -⟩
    · exact List.mem_cons_self
    · exact List.mem_cons_of_mem y (ih h)

theorem keys_without_sublist (l : List α) (ks : List β) : ((without key l ks).map key).Sublist (l.map key) :=
  List.filter_sublist.map key

/-- No key occurs twice among the first occurrences. -/
theorem nodup_keys_firsts (l : List α) : ((firsts key l).map key).Nodup := by
  induction l with
  | nil => exact List.nodup_nil
  | cons x l ih =>
    rw [firsts_cons, firsts_without, List.map_cons, List.nodup_cons]
    refine ⟨fun hm => ?_, ih.sublist (keys_without_sublist _ _)⟩
    obtain ⟨y, hy, he⟩ := List.mem_map.1 hm
    exact (mem_without.1 hy).2 (by simp [he])

/-- The keys of the first occurrences are the first occurrences of the keys. -/
theorem keys_firsts (l : List α) : (firsts key l).map key = firsts id (l.map key) := by
  induction l with
  | nil => rfl
  | cons x l ih =>
    rw [List.map_cons, firsts_cons, firsts_cons, firsts_without, firsts_without, List.map_cons, ← ih]
    simp [without, List.filter_map, Function.comp_def]

/-! ## Pushing a list -/

/-- Pushing the entries of a list one by one appends its first occurrences, without those whose key was there. -/
theorem foldl_push (xs l : List α) : xs.foldl (push key) l = l ++ without key (firsts key xs) (l.map key) := by
  induction xs generalizing l with
  | nil => simp [without]
  | cons x xs ih =>
    rw [List.foldl_cons, ih, firsts_cons, firsts_without]
    by_cases hx : key x ∈ l.map key
    · have h2 : ∀ r, without key (x :: r) (l.map key) = without key r (l.map key) := by
        intro r
        rw [without, List.filter_cons_of_neg (by simpa using hx), without]
      rw [push, if_pos hx, h2, without_without]
      congr 1
      refine without_congr fun y _ => ?_
      rw [List.singleton_append, List.mem_cons]
      exact ⟨Or.inr, fun h => h.elim (fun e => e ▸ hx) id⟩
    · have h2 : ∀ r, without key (x :: r) (l.map key) = x :: without key r (l.map key) := by
        intro r
        rw [without, List.filter_cons_of_pos (by simpa using hx), without]
      rw [push, if_neg hx, h2, without_without, List.append_assoc, List.singleton_append]
      congr 2
      refine without_congr fun y _ => ?_
      simp [or_comm]

/-- Where entries with one key are equal, a list with new entries pushed is, up to the order, the list without the keys pushed
and then all of them. -/
theorem append_without_perm {l d : List α} (hl : (l.map key).Nodup) (hd : (d.map key).Nodup)
    (heq : ∀ x ∈ l, ∀ y ∈ d, key x = key y → x = y) :
    (without key l (d.map key) ++ d).Perm (l ++ without key d (l.map key)) := by
  have hnd : (without key l (d.map key) ++ d).Nodup := by
    rw [List.nodup_append]
    refine ⟨(List.Nodup.of_map key hl).filter _, List.Nodup.of_map key hd, fun x hx y hy e => ?_⟩
    exact (mem_without.1 hx).2 (List.mem_map.2 ⟨y, hy, by rw [e]⟩)
  have hnd' : (l ++ without key d (l.map key)).Nodup := by
    rw [List.nodup_append]
    refine ⟨List.Nodup.of_map key hl, (List.Nodup.of_map key hd).filter _, fun x hx y hy e => ?_⟩
    exact (mem_without.1 hy).2 (List.mem_map.2 ⟨x, hx, by rw [e]⟩)
  rw [List.perm_ext_iff_of_nodup hnd hnd']
  intro x
  rw [List.mem_append, List.mem_append, mem_without, mem_without]
  constructor
  · rintro (h | h)
    · exact Or.inl h.1
    · by_cases hk : key x ∈ l.map key
      · obtain ⟨y, hy, he⟩ := List.mem_map.1 hk
        rw [← heq y hy x h he]
        exact Or.inl hy
      · exact Or.inr ⟨h, hk⟩
  · rintro (h | h)
    · by_cases hk : key x ∈ d.map key
      · obtain ⟨y, hy, he⟩ := List.mem_map.1 hk
        rw [heq x h y hy he.symm]
        exact Or.inr hy
      · exact Or.inl ⟨h, hk⟩
    · exact Or.inr h.1

end Merging
