import Mathlib.Data.List.Nodup
import Open365Vpn.Tunnel.TaskMutex

/-!
# One task with the mutex, and none forgotten

In every order of the turns, one task at most has the mutex, and while it is free the first of the waiters is running, also when
another task has taken it before that one had its turn (`task_mutex_safe`). So the tasks inside come through whatever the order of
their turns is (`task_mutex_drains`), though the last to wait is the first.
-/

namespace Open365Vpn

open Runs

namespace TaskMutex

/-- What holds of the mutex and the tasks. -/
structure Sound (s : TaskMutex) : Prop where
  held : s.locker = true ↔ ∃ t, s.place t = .holding
  alone : ∀ t u, s.place t = .holding → s.place u = .holding → t = u
  waits : ∀ t, t ∈ s.waiters ↔ s.place t = .waiting
  once : s.waiters.Nodup
  awake : s.locker = false → ∀ t, s.waiters.head? = some t → s.running t = true

/-- Nobody has a mutex that is not locked. -/
theorem Sound.free {s : TaskMutex} (h : s.Sound) (hl : s.locker = false) (t : Nat) : s.place t ≠ .holding := by
  intro ht
  rw [h.held.2 ⟨t, ht⟩] at hl
  cases hl

namespace MutexAux

variable {s : TaskMutex} {task : Nat}

theorem sound_init (running : Nat → Bool) : (init running).Sound := by
  refine ⟨?_, ?_, ?_, List.nodup_nil, ?_⟩
  · simp [init]
  · simp [init]
  · simp [init]
  · simp [init]

theorem sound_wakeup (h : s.Sound) (task : Nat) : (s.wakeup task).Sound := by
  refine ⟨h.held, h.alone, h.waits, h.once, ?_⟩
  intro hl t ht
  simp only [wakeup, Function.update_apply]
  split
  · rfl
  · exact h.awake hl t ht

/-- A task may sleep when it is not the first to wait for a mutex that is free. -/
theorem sound_waitio (h : s.Sound) (hn : s.locker = false → s.waiters.head? ≠ some task) : (s.waitio task).Sound := by
  refine ⟨h.held, h.alone, h.waits, h.once, ?_⟩
  intro hl t ht
  have hne : t ≠ task := by
    rintro rfl
    exact hn hl ht
  simp only [waitio, Function.update_of_ne hne]
  exact h.awake hl t ht

theorem sound_acquire (h : s.Sound) (hl : s.locker = false) (ht : s.place task = .outside) : (s.acquire task).Sound := by
  have hfree := h.free hl
  refine ⟨?_, ?_, ?_, h.once, ?_⟩
  · exact ⟨fun _ => ⟨task, by simp [acquire]⟩, fun _ => rfl⟩
  · intro t u hh hu
    simp only [acquire, Function.update_apply] at hh hu
    grind
  · intro t
    simp only [acquire, Function.update_apply]
    have := h.waits t
    grind
  · intro hf
    cases hf

theorem sound_lock (h : s.Sound) (ht : s.place task = .outside) : (s.lock task).Sound := by
  unfold lock
  split
  · rename_i hl
    refine sound_waitio ?_ (fun hf => by rw [show s.locker = false from hf] at hl; cases hl)
    have hnot : task ∉ s.waiters := by
      rw [h.waits, ht]
      decide
    refine ⟨?_, ?_, ?_, List.nodup_cons.2 ⟨hnot, h.once⟩, ?_⟩
    · rw [show s.locker = true from hl]
      obtain ⟨u, hu⟩ := h.held.1 hl
      refine ⟨fun _ => ⟨u, ?_⟩, fun _ => rfl⟩
      have hne : u ≠ task := by
        rintro rfl
        rw [ht] at hu
        cases hu
      simp only [Function.update_of_ne hne]
      exact hu
    · intro t u hh hu
      have := h.alone t u
      simp only [Function.update_apply] at hh hu
      grind
    · intro t
      have := h.waits t
      simp only [Function.update_apply, List.mem_cons]
      grind
    · intro hf
      rw [show s.locker = false from hf] at hl
      cases hl
  · rename_i hl
    exact sound_acquire h (by simpa using hl) ht

theorem sound_resume (h : s.Sound) (task : Nat) : (s.resume task).Sound := by
  unfold resume
  split
  · rename_i hc
    refine sound_waitio h ?_
    intro hl
    rcases hc with hc | hc
    · rw [hl] at hc
      cases hc
    · exact hc
  · rename_i hc
    rw [not_or, Bool.not_eq_true, not_not] at hc
    obtain ⟨hl, hhead⟩ := hc
    obtain ⟨ts, hts⟩ : ∃ ts, s.waiters = task :: ts := by
      cases hw : s.waiters with
      | nil =>
        rw [hw] at hhead
        cases hhead
      | cons t ts =>
        rw [hw, List.head?_cons, Option.some.injEq] at hhead
        rw [hhead]
        exact ⟨ts, rfl⟩
    have honce := h.once
    rw [hts, List.nodup_cons] at honce
    have hfree := h.free hl
    refine ⟨?_, ?_, ?_, ?_, ?_⟩
    · exact ⟨fun _ => ⟨task, by simp [acquire]⟩, fun _ => rfl⟩
    · intro t u hh hu
      simp only [acquire, Function.update_apply] at hh hu
      grind
    · intro t
      have := h.waits t
      simp only [acquire, Function.update_apply, hts, List.tail_cons] at this ⊢
      grind
    · simp only [acquire, hts, List.tail_cons]
      exact honce.2
    · intro hf
      cases hf

theorem sound_unlock (h : s.Sound) (ht : s.place task = .holding) : (s.unlock task).Sound := by
  have hnone : ∀ t, Function.update s.place task .outside t ≠ .holding := by
    intro t hh
    have := h.alone t task
    simp only [Function.update_apply] at hh
    grind
  have hwaits : ∀ t, t ∈ s.waiters ↔ Function.update s.place task .outside t = .waiting := by
    intro t
    have := h.waits t
    simp only [Function.update_apply]
    grind
  unfold unlock
  dsimp only
  split
  · rename_i hw
    refine ⟨?_, ?_, ?_, ?_, ?_⟩
    · simp only [Bool.false_eq_true, false_iff, not_exists]
      exact hnone
    · intro t u hh
      exact absurd hh (hnone t)
    · exact hwaits
    · exact h.once
    · intro _ t hhead
      simp only [hw] at hhead
      cases hhead
  · rename_i waiter ws hw
    refine ⟨?_, ?_, ?_, ?_, ?_⟩
    · simp only [wakeup, Bool.false_eq_true, false_iff, not_exists]
      exact hnone
    · intro t u hh
      exact absurd hh (hnone t)
    · exact hwaits
    · exact h.once
    · intro _ t hhead
      simp only [wakeup, hw, List.head?_cons, Option.some.injEq] at hhead ⊢
      rw [← hhead, Function.update_self]

theorem sound_step {t : TaskMutex} {e : TaskMutexEvent} (h : s.Sound) (hs : s.step e = some t) : t.Sound := by
  cases e with
  | lock task =>
    simp only [step, Option.ite_none_right_eq_some, Option.some.injEq] at hs
    obtain ⟨⟨hp, _⟩, rfl⟩ := hs
    exact sound_lock h hp
  | trylock task =>
    simp only [step, Option.ite_none_right_eq_some, Option.some.injEq] at hs
    obtain ⟨⟨hp, _⟩, rfl⟩ := hs
    unfold trylock
    split
    · exact h
    · rename_i hl
      exact sound_acquire h (by simpa using hl) hp
  | unlock task =>
    simp only [step, Option.ite_none_right_eq_some, Option.some.injEq] at hs
    obtain ⟨⟨hp, _⟩, rfl⟩ := hs
    exact sound_unlock h hp
  | resume task =>
    simp only [step, Option.ite_none_right_eq_some, Option.some.injEq] at hs
    obtain ⟨_, rfl⟩ := hs
    exact sound_resume h task
  | wakeup task =>
    cases hs
    exact sound_wakeup h task
  | yield task =>
    simp only [step, Option.ite_none_right_eq_some, Option.some.injEq] at hs
    obtain ⟨⟨hp, _⟩, rfl⟩ := hs
    refine sound_waitio h ?_
    intro _ hhead
    exact hp ((h.waits task).1 (List.mem_of_head? hhead))

theorem exec_sound {running : Nat → Bool} {es : List TaskMutexEvent} (hx : exec step (init running) es = some s) : s.Sound :=
  exec_invariant Sound (fun _ _ _ h _ hs => sound_step h hs) (sound_init running) (meets_true _ _) hx

end MutexAux

/-! ## The tasks inside -/

/-- The tasks that are inside take turns, and no others come. -/
def drain (s : TaskMutex) : TaskMutexEvent → Option TaskMutex
  | .resume task => s.step (.resume task)
  | .unlock task => s.step (.unlock task)
  | _ => none

/-- Nobody has the mutex and nobody waits for it. -/
def Idle (s : TaskMutex) : Prop := s.locker = false ∧ s.waiters = []

namespace MutexAux

variable {s t : TaskMutex} {task : Nat}

/-- What is left to do: a waiter takes the mutex, gives it back, and may look in vain each time it is woken. -/
def rank (s : TaskMutex) : Nat := 3 * s.waiters.length + (if s.locker then 2 else 0) + s.waiters.countP s.running

theorem countP_sleep_lt {l : List Nat} {running : Nat → Bool} (ht : task ∈ l) (hr : running task = true) :
    l.countP (Function.update running task false) < l.countP running := by
  have hle : ∀ l : List Nat, l.countP (Function.update running task false) ≤ l.countP running := by
    intro l
    refine List.countP_mono_left ?_
    intro x _ hx
    rw [Function.update_apply] at hx
    split at hx
    · cases hx
    · exact hx
  induction l with
  | nil => cases ht
  | cons a l ih =>
    rw [List.countP_cons, List.countP_cons]
    by_cases ha : a = task
    · rw [ha, Function.update_self, hr]
      have := hle l
      simp only [Bool.false_eq_true, if_false, if_true]
      omega
    · rw [Function.update_of_ne ha]
      have := ih ((List.mem_cons.1 ht).resolve_left (Ne.symm ha))
      omega

/-- The waiters are running as before, but for the first one. -/
theorem countP_wakeup {l : List Nat} {running : Nat → Bool} (ht : task ∉ l) :
    l.countP (Function.update running task true) = l.countP running := by
  refine List.countP_congr ?_
  intro x hx
  have hne : x ≠ task := by
    rintro rfl
    exact ht hx
  rw [Function.update_of_ne hne]

/-- The tasks inside can go on: whoever has the mutex is running. -/
def Going (s : TaskMutex) : Prop := s.Sound ∧ ∀ t, s.place t = .holding → s.running t = true

theorem Going.possible (h : Going s) (hn : ¬s.Idle) : ∃ e t, s.drain e = some t := by
  obtain ⟨hsound, hrun⟩ := h
  cases hl : s.locker with
  | true =>
    obtain ⟨t, ht⟩ := hsound.held.1 hl
    exact ⟨.unlock t, s.unlock t, by simp [drain, step, ht, hrun t ht]⟩
  | false =>
    cases hw : s.waiters with
    | nil => exact absurd ⟨hl, hw⟩ hn
    | cons t ts =>
      have hp : s.place t = .waiting := (hsound.waits t).1 (by rw [hw]; exact List.mem_cons_self)
      have hr : s.running t = true := hsound.awake hl t (by rw [hw]; rfl)
      exact ⟨.resume t, s.resume t, by simp [drain, step, hp, hr]⟩

theorem Going.resume (h : Going s) (hp : s.place task = .waiting) (hr : s.running task = true) :
    Going (s.resume task) ∧ rank (s.resume task) < rank s := by
  obtain ⟨hsound, hrun⟩ := h
  have hmem : task ∈ s.waiters := (hsound.waits task).2 hp
  refine ⟨⟨sound_resume hsound task, ?_⟩, ?_⟩
  · intro t ht
    unfold TaskMutex.resume at ht ⊢
    split at ht
    · rename_i hc
      rw [if_pos hc]
      have ht' : s.place t = .holding := ht
      have hne : t ≠ task := by
        rintro rfl
        rw [hp] at ht'
        cases ht'
      simp only [waitio, Function.update_of_ne hne]
      exact hrun t ht'
    · rename_i hc
      rw [if_neg hc]
      simp only [acquire, Function.update_apply] at ht ⊢
      by_cases he : t = task
      · rw [he]
        exact hr
      · rw [if_neg he] at ht
        exact hrun t ht
  · unfold TaskMutex.resume
    split
    · exact Nat.add_lt_add_left (countP_sleep_lt hmem hr) _
    · rename_i hc
      rw [not_or, Bool.not_eq_true, not_not] at hc
      obtain ⟨hl, hhead⟩ := hc
      cases hw : s.waiters with
      | nil =>
        rw [hw] at hmem
        cases hmem
      | cons t ts =>
        rw [hw, List.head?_cons, Option.some.injEq] at hhead
        simp only [rank, acquire, hw, List.tail_cons, List.length_cons, List.countP_cons, hhead, hr, hl, if_true, Bool.false_eq_true,
          if_false]
        omega

theorem Going.unlock (h : Going s) (hp : s.place task = .holding) :
    Going (s.unlock task) ∧ rank (s.unlock task) < rank s := by
  obtain ⟨hsound, hrun⟩ := h
  have hsound' := sound_unlock hsound hp
  have hl : s.locker = true := hsound.held.2 ⟨task, hp⟩
  have hl' : (s.unlock task).locker = false := by
    unfold TaskMutex.unlock
    dsimp only
    split <;> rfl
  refine ⟨⟨hsound', fun t ht => absurd ht (hsound'.free hl' t)⟩, ?_⟩
  unfold TaskMutex.unlock
  dsimp only
  split
  · rename_i hw
    simp only [rank, hl, hw, if_true, Bool.false_eq_true, if_false]
    simp
  · rename_i waiter ws hw
    have honce := hsound.once
    rw [hw, List.nodup_cons] at honce
    have hcount : ws.countP (Function.update s.running waiter true) = ws.countP s.running := countP_wakeup honce.1
    simp only [rank, wakeup, hl, hw, List.countP_cons, hcount, Function.update_self, if_true, Bool.false_eq_true, if_false]
    omega

theorem Going.step {e : TaskMutexEvent} (h : Going s) (hs : s.drain e = some t) : Going t ∧ rank t < rank s := by
  cases e with
  | resume task =>
    simp only [drain, TaskMutex.step, Option.ite_none_right_eq_some, Option.some.injEq] at hs
    obtain ⟨⟨hp, hr⟩, rfl⟩ := hs
    exact h.resume hp hr
  | unlock task =>
    simp only [drain, TaskMutex.step, Option.ite_none_right_eq_some, Option.some.injEq] at hs
    obtain ⟨⟨hp, _⟩, rfl⟩ := hs
    exact h.unlock hp
  | lock | trylock | wakeup | yield => cases hs

end MutexAux

end TaskMutex

open TaskMutex MutexAux

/-- After every run, whichever tasks are running at the start: one task at most has the mutex, and one has it exactly when it is
locked; the waiters are the tasks inside of `hev_task_mutex_lock`, each once; and while the mutex is free the first of them is
running, so no wakeup is lost, neither to a task that takes the mutex first nor to one that waits behind it. -/
theorem task_mutex_safe (running : Nat → Bool) (es : List TaskMutexEvent) (s : TaskMutex)
    (hx : exec TaskMutex.step (TaskMutex.init running) es = some s) :
    (∀ t u, s.place t = .holding → s.place u = .holding → t = u) ∧ (s.locker = true ↔ ∃ t, s.place t = .holding) ∧
      (∀ t, t ∈ s.waiters ↔ s.place t = .waiting) ∧ s.waiters.Nodup ∧
      (s.locker = false → ∀ t, s.waiters.head? = some t → s.running t = true) := by
  have h := exec_sound hx
  exact ⟨h.alone, h.held, h.waits, h.once, h.awake⟩

/-- Two tasks wait; the first of them is woken, but another one takes the mutex before it. -/
def bargingRun : List TaskMutexEvent := [.lock 0, .lock 1, .lock 2, .unlock 0, .lock 3, .resume 2, .unlock 3]

/-- It is woken again. -/
theorem task_mutex_safe_barging :
    ∃ s, exec TaskMutex.step (TaskMutex.init fun _ => true) bargingRun = some s ∧ s.waiters = [2, 1] ∧ s.running 2 = true := by
  refine ⟨_, rfl, rfl, ?_⟩
  exact (task_mutex_safe (fun _ => true) bargingRun _ rfl).2.2.2.2 rfl 2 rfl

/-- After every run in which whoever has the mutex is running: when no other task comes, every order of the turns of the tasks that
are inside leads to a free mutex and no waiters, so each of them has had it. -/
theorem task_mutex_drains (running : Nat → Bool) (es : List TaskMutexEvent) (s : TaskMutex)
    (hx : exec TaskMutex.step (TaskMutex.init running) es = some s) (hrun : ∀ t, s.place t = .holding → s.running t = true) :
    MustLead drain Idle s :=
  mustLead_of_measure Going Idle rank (fun _ h hn => h.possible hn) (fun _ _ _ h _ hs => h.step hs) ⟨exec_sound hx, hrun⟩

/-- The two tasks that wait in the run above come through. -/
theorem task_mutex_drains_barging :
    ∃ s, exec TaskMutex.step (TaskMutex.init fun _ => true) bargingRun = some s ∧ s.waiters = [2, 1] ∧ MustLead drain Idle s := by
  obtain ⟨s, hx, hw, hl⟩ : ∃ s, exec TaskMutex.step (TaskMutex.init fun _ => true) bargingRun = some s ∧ s.waiters = [2, 1] ∧
    s.locker = false := ⟨_, rfl, rfl, rfl⟩
  refine ⟨s, hx, hw, task_mutex_drains (fun _ => true) bargingRun s hx ?_⟩
  intro t ht
  exact absurd ht ((exec_sound hx).free hl t)

end Open365Vpn
