import Mathlib.Tactic.Basic
import Mathlib.Data.List.Basic
import Mathlib.Data.List.Nodup
import Mathlib.Data.Finset.Card
import Mathlib.Data.Finset.Dedup

/-!
# Least recently used

A list of at most `cap` distinct keys, the one touched least recently first. Touching a key that is there moves it to the end;
touching another one adds it at the end, and takes the first one out when the list is full. What has been touched stays until
`cap` other keys have been touched behind it (`kept_touch_self`, `Kept.touch`).
-/

namespace Lru

variable {κ : Type*} [DecidableEq κ] {cap : Nat} {xs : List κ} {k k' : κ}

def touch (cap : Nat) (xs : List κ) (k : κ) : List κ :=
  if k ∈ xs then xs.filter (· ≠ k) ++ [k] else if xs.length < cap then xs ++ [k] else xs.tail ++ [k]

/-- The key is there, and only keys of `s` have been touched behind it. -/
def Kept (xs : List κ) (k : κ) (s : Finset κ) : Prop :=
  ∃ pre post, xs = pre ++ k :: post ∧ ∀ x ∈ post, x ∈ s

omit [DecidableEq κ] in
theorem Kept.mem {s : Finset κ} (h : Kept xs k s) : k ∈ xs := by
  obtain ⟨pre, post, rfl, _⟩ := h
  simp

theorem kept_touch_self (cap : Nat) (xs : List κ) (k : κ) (s : Finset κ) : Kept (touch cap xs k) k s := by
  unfold touch
  split
  · exact ⟨xs.filter (· ≠ k), [], rfl, by simp⟩
  split
  · exact ⟨xs, [], rfl, by simp⟩
  · exact ⟨xs.tail, [], rfl, by simp⟩

/-- A key is kept while fewer than `cap` others are touched. -/
theorem Kept.touch {s : Finset κ} (h : Kept xs k s) (hn : xs.Nodup) (hs : s.card < cap) (hk' : k' ≠ k → k' ∈ s) :
    Kept (touch cap xs k') k s := by
  by_cases he : k' = k
  · rw [he]
    exact kept_touch_self cap xs k s
  obtain ⟨pre, post, rfl, hpost⟩ := h
  have hback : ∀ ys : List κ, (∀ x ∈ ys, x ∈ s) → ∀ x ∈ ys ++ [k'], x ∈ s := by
    intro ys hys x hx
    rcases List.mem_append.1 hx with hx | hx
    · exact hys x hx
    · rw [List.mem_singleton.1 hx]
      exact hk' he
  unfold Lru.touch
  split
  · refine ⟨pre.filter (· ≠ k'), post.filter (· ≠ k') ++ [k'], ?_, hback _ fun x hx => hpost x (List.mem_of_mem_filter hx)⟩
    rw [List.filter_append, List.filter_cons_of_pos (by simpa using Ne.symm he)]
    simp
  · rename_i hnew
    split
    · exact ⟨pre, post ++ [k'], by simp, hback post hpost⟩
    · rename_i hfull
      cases pre with
      | cons a pre => exact ⟨pre, post ++ [k'], by simp, hback post hpost⟩
      | nil =>
        -- the keys behind the first one and the new one would be `cap` distinct keys of `s`
        exfalso
        have hnd : (k' :: post).Nodup := by
          rw [List.nodup_cons]
          exact ⟨fun hm => hnew (List.mem_cons_of_mem _ hm), (List.nodup_cons.1 hn).2⟩
        have hsub : (k' :: post).toFinset ⊆ s := by
          intro x hx
          rw [List.mem_toFinset] at hx
          rcases List.mem_cons.1 hx with rfl | hx
          · exact hk' he
          · exact hpost x hx
        have hcard := Finset.card_le_card hsub
        rw [List.toFinset_card_of_nodup hnd] at hcard
        simp only [List.nil_append, List.length_cons] at hcard hfull
        omega

end Lru
