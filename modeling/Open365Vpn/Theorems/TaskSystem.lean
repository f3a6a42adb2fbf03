import Mathlib.Data.List.Basic
import Mathlib.Data.List.Perm.Basic
import Open365Vpn.Tunnel.TaskSystem

/-!
# Every running task has its turn

A task that is woken or run comes behind the task with the smallest key, and a task that has had its turn does, when the
priorities are not 0: so the turns before that of a running task are bounded by its key, whatever the tasks do in their turns and
whoever wakes them (`task_system_fair`). `HEV_TASK_PRIORITY_REALTIME` is 0, and a task that has it and does not wait keeps all the
others from their turns (`realtime_task_starves`).
-/

namespace Open365Vpn

open Runs

namespace TaskSystem

/-- No priority is set to 0. -/
def Positive : TaskSystemEvent → Prop
  | .setPriority _ priority => 0 < priority
  | _ => True

instance (e : TaskSystemEvent) : Decidable (Positive e) :=
  match e with
  | .setPriority _ _ => inferInstanceAs (Decidable (_ < _))
  | .switch => inferInstanceAs (Decidable True)
  | .waitio => inferInstanceAs (Decidable True)
  | .exit => inferInstanceAs (Decidable True)
  | .wakeup _ => inferInstanceAs (Decidable True)
  | .run _ => inferInstanceAs (Decidable True)
  | .pick => inferInstanceAs (Decidable True)

namespace SchedAux

variable {node : SchedNode} {l : List SchedNode}

/-! ## The tree -/

theorem insertNode_cons (node h : SchedNode) (r : List SchedNode) :
    insertNode node (h :: r) = if h.schedKey ≤ node.schedKey then h :: insertNode node r else node :: h :: r := by
  unfold insertNode
  split
  · rename_i hle
    simp [hle]
  · rename_i hlt
    simp [hlt]

theorem insertNode_perm (node : SchedNode) (l : List SchedNode) : (insertNode node l).Perm (node :: l) := by
  induction l with
  | nil => exact List.Perm.refl _
  | cons h r ih =>
    rw [insertNode_cons]
    split
    · exact (ih.cons h).trans (List.Perm.swap node h r)
    · exact List.Perm.refl _

/-- The keys are in order. -/
def Ordered (l : List SchedNode) : Prop := l.Pairwise fun a b => a.schedKey ≤ b.schedKey

theorem ordered_insertNode (h : Ordered l) (node : SchedNode) : Ordered (insertNode node l) := by
  induction l with
  | nil => exact List.pairwise_singleton _ _
  | cons a r ih =>
    obtain ⟨ha, hr⟩ := List.pairwise_cons.1 h
    rw [insertNode_cons]
    split
    · rename_i hle
      refine List.pairwise_cons.2 ⟨?_, ih hr⟩
      intro b hb
      rcases List.mem_cons.1 ((insertNode_perm node r).mem_iff.1 hb) with rfl | hb
      · exact hle
      · exact ha b hb
    · rename_i hlt
      refine List.pairwise_cons.2 ⟨?_, h⟩
      intro b hb
      rcases List.mem_cons.1 hb with rfl | hb
      · omega
      · have := ha b hb
        omega

theorem Ordered.min_le (h : Ordered l) (hn : node ∈ l) : minSchedKey l ≤ node.schedKey := by
  cases l with
  | nil => cases hn
  | cons a r =>
    rcases List.mem_cons.1 hn with rfl | hn
    · exact Nat.le_refl _
    · exact (List.pairwise_cons.1 h).1 node hn

/-- How many turns there may be before a key comes first, with at most `n` tasks in the tree: `n` for each smaller key, and one for
each task that has the smallest. -/
def level (key n : Nat) (l : List SchedNode) : Nat :=
  (key - minSchedKey l) * n + l.countP fun a => a.schedKey = minSchedKey l

theorem level_le (key : Nat) {n : Nat} (hl : l.length ≤ n) : level key n l ≤ (key - minSchedKey l + 1) * n := by
  have := List.countP_le_length (p := fun a => decide (a.schedKey = minSchedKey l)) (l := l)
  rw [level, Nat.add_mul, Nat.one_mul]
  omega

/-- A task that comes behind the smallest key does not change it. -/
theorem level_insertNode {key n : Nat} (hne : l ≠ []) (hlt : minSchedKey l < node.schedKey) :
    level key n (insertNode node l) = level key n l := by
  cases l with
  | nil => exact absurd rfl hne
  | cons a r =>
    have hlt : a.schedKey < node.schedKey := hlt
    have hmin : minSchedKey (insertNode node (a :: r)) = a.schedKey := by
      rw [insertNode_cons, if_pos (Nat.le_of_lt hlt)]
      rfl
    have hcount := (insertNode_perm node (a :: r)).countP_eq fun b => decide (b.schedKey = a.schedKey)
    have hnode : decide (node.schedKey = a.schedKey) = false := decide_eq_false (by omega)
    rw [List.countP_cons, hnode] at hcount
    unfold level
    rw [hmin, hcount]
    rfl

/-- When a task with the smallest key has gone, or come again with a greater one, the level is lower. -/
theorem level_lt {n : Nat} {a : SchedNode} {r l' : List SchedNode} (ho : Ordered l') (hn : node ∈ l') (hlen : l'.length ≤ n)
    (hge : ∀ b ∈ l', a.schedKey ≤ b.schedKey)
    (hcount : l'.countP (fun b => b.schedKey = a.schedKey) ≤ r.countP fun b => b.schedKey = a.schedKey) :
    level node.schedKey n l' < level node.schedKey n (a :: r) := by
  have hmin : a.schedKey ≤ minSchedKey l' := by
    cases l' with
    | nil => cases hn
    | cons b r' => exact hge b List.mem_cons_self
  have hkey := ho.min_le hn
  have hleft : level node.schedKey n (a :: r) =
      (node.schedKey - a.schedKey) * n + (r.countP (fun b => b.schedKey = a.schedKey) + 1) := by
    unfold level minSchedKey
    rw [List.countP_cons]
    simp
  rw [hleft]
  rcases Nat.eq_or_lt_of_le hmin with he | hlt
  · unfold level
    rw [← he]
    omega
  · refine Nat.lt_of_le_of_lt (level_le node.schedKey hlen) ?_
    have hstep : (node.schedKey - minSchedKey l' + 1) * n ≤ (node.schedKey - a.schedKey) * n :=
      Nat.mul_le_mul_right n (by omega)
    omega

/-! ## A step -/

/-- What holds of the scheduler while the priorities are positive. -/
structure Sound (s : TaskSystem) : Prop where
  ordered : Ordered s.runningTasks
  positive : ∀ node ∈ s.runningTasks, 0 < node.priority
  next : ∀ t, 0 < s.nextPriority t
  waits : ∀ t key, s.state t = .waiting key → 0 < key
  turn : ∀ a, s.turn = some a → ∃ node r, s.runningTasks = node :: r ∧ node.task = a
  started : s.started = false → s.turn = none

theorem sound_init : Sound init where
  ordered := List.Pairwise.nil
  positive node h := by cases h
  next _ := Nat.succ_pos 7
  waits t key h := by cases h
  turn a h := by cases h
  started _ := rfl

/-- What a step does. While a turn goes on tasks come behind the smallest key; at its end the task that had it, which is the first
in the tree, comes again behind its old key or goes. -/
theorem step_cases {s t : TaskSystem} {e : TaskSystemEvent} (h : Sound s) (hs : s.step e = some t) :
    (e.endsTurn = false ∧ t = s) ∨
    (e.endsTurn = false ∧ ∃ task key, t = s.insertTask task key ∧ (s.started = true → minSchedKey s.runningTasks < key)) ∨
    (∃ task priority, e = .setPriority task priority ∧
      t = { s with nextPriority := Function.update s.nextPriority task (min priority 15) }) ∨
    (e = .pick ∧ ∃ node r, s.runningTasks = node :: r ∧ t = { s with turn := some node.task, started := true }) ∨
    (e.endsTurn = true ∧ ∃ a r, s.runningTasks = a :: r ∧ s.turn = some a.task ∧
      ((∃ key, a.schedKey < key ∧
        t = { s with runningTasks := insertNode ⟨a.task, key, s.nextPriority a.task⟩ r, turn := none }) ∨
      ∃ state, (∀ key, state = .waiting key → 0 < key) ∧
        t = { s with runningTasks := r, state := Function.update s.state a.task state, turn := none })) := by
  cases e with
  | switch =>
    obtain ⟨task, ht, rfl⟩ := Option.map_eq_some_iff.1 hs
    obtain ⟨a, r, hr, rfl⟩ := h.turn task ht
    have hpos := h.positive a (by rw [hr]; exact List.mem_cons_self)
    refine Or.inr (Or.inr (Or.inr (Or.inr ⟨rfl, a, r, hr, ht, Or.inl ⟨a.schedKey + a.priority, by omega, ?_⟩⟩)))
    simp [reinsertCurrentTask, hr]
  | waitio =>
    obtain ⟨task, ht, rfl⟩ := Option.map_eq_some_iff.1 hs
    obtain ⟨a, r, hr, rfl⟩ := h.turn task ht
    refine Or.inr (Or.inr (Or.inr (Or.inr ⟨rfl, a, r, hr, ht, Or.inr ⟨.waiting (s.nextPriority a.task), ?_, ?_⟩⟩)))
    · rintro key hk
      cases hk
      exact h.next a.task
    · simp [removeCurrentTask, hr]
  | exit =>
    obtain ⟨task, ht, rfl⟩ := Option.map_eq_some_iff.1 hs
    obtain ⟨a, r, hr, rfl⟩ := h.turn task ht
    refine Or.inr (Or.inr (Or.inr (Or.inr ⟨rfl, a, r, hr, ht, Or.inr ⟨.stopped, (fun key hk => by cases hk), ?_⟩⟩)))
    simp [removeCurrentTask, hr]
  | wakeup task =>
    simp only [step] at hs
    split at hs
    · cases hs
    · cases hs
      exact Or.inl ⟨rfl, rfl⟩
    · rename_i key hstate
      cases hs
      refine Or.inr (Or.inl ⟨rfl, task, _, rfl, ?_⟩)
      intro _
      have := h.waits task key hstate
      omega
  | run task =>
    simp only [step] at hs
    split at hs
    · cases hs
    split at hs
    · cases hs
      refine Or.inr (Or.inl ⟨rfl, task, _, rfl, ?_⟩)
      intro hst
      have := h.next task
      rw [if_pos hst]
      omega
    · cases hs
      exact Or.inl ⟨rfl, rfl⟩
  | setPriority task priority =>
    cases hs
    exact Or.inr (Or.inr (Or.inl ⟨task, priority, rfl, rfl⟩))
  | pick =>
    simp only [step] at hs
    split at hs
    · rename_i node r _ hr
      cases hs
      exact Or.inr (Or.inr (Or.inr (Or.inl ⟨rfl, node, r, hr, rfl⟩)))
    · cases hs

/-- What a step does to the tree. -/
theorem tree_cases {s t : TaskSystem} {e : TaskSystemEvent} (h : Sound s) (hs : s.step e = some t) :
    (e.endsTurn = false ∧ (t.runningTasks = s.runningTasks ∨
      ∃ node, t.runningTasks = insertNode node s.runningTasks ∧ 0 < node.priority ∧
        (s.started = true → minSchedKey s.runningTasks < node.schedKey))) ∨
    (e.endsTurn = true ∧ ∃ a r, s.runningTasks = a :: r ∧ s.turn = some a.task ∧
      (t.runningTasks = r ∨ ∃ node, t.runningTasks = insertNode node r ∧ 0 < node.priority ∧ a.schedKey < node.schedKey)) := by
  rcases step_cases h hs with ⟨he, rfl⟩ | ⟨he, task, key, rfl, hlt⟩ | ⟨task, priority, rfl, rfl⟩ | ⟨rfl, node, r, _, rfl⟩ |
    ⟨he, a, r, hr, hturn, ⟨key, hlt, rfl⟩ | ⟨state, _, rfl⟩⟩
  · exact Or.inl ⟨he, Or.inl rfl⟩
  · exact Or.inl ⟨he, Or.inr ⟨_, rfl, h.next task, hlt⟩⟩
  · exact Or.inl ⟨rfl, Or.inl rfl⟩
  · exact Or.inl ⟨rfl, Or.inl rfl⟩
  · exact Or.inr ⟨he, a, r, hr, hturn, Or.inr ⟨_, rfl, h.next a.task, hlt⟩⟩
  · exact Or.inr ⟨he, a, r, hr, hturn, Or.inl rfl⟩

theorem positive_insertNode {node : SchedNode} {l : List SchedNode} (h : ∀ a ∈ l, 0 < a.priority) (hn : 0 < node.priority) :
    ∀ a ∈ insertNode node l, 0 < a.priority := by
  intro a ha
  rcases List.mem_cons.1 ((insertNode_perm node l).mem_iff.1 ha) with rfl | ha
  · exact hn
  · exact h a ha

/-- The tree stays in order. -/
theorem tree_step {s t : TaskSystem} {e : TaskSystemEvent} (h : Sound s) (hs : s.step e = some t) :
    Ordered t.runningTasks ∧ ∀ node ∈ t.runningTasks, 0 < node.priority := by
  have hp := h.positive
  have ho := h.ordered
  rcases tree_cases h hs with ⟨_, ht | ⟨node, ht, hpos, _⟩⟩ | ⟨_, a, r, hr, _, ht | ⟨node, ht, hpos, _⟩⟩
  · rw [ht]
    exact ⟨ho, hp⟩
  · rw [ht]
    exact ⟨ordered_insertNode ho node, positive_insertNode hp hpos⟩
  · rw [hr] at ho hp
    rw [ht]
    exact ⟨(List.pairwise_cons.1 ho).2, fun b hb => hp b (List.mem_cons_of_mem a hb)⟩
  · rw [hr] at ho hp
    rw [ht]
    exact ⟨ordered_insertNode (List.pairwise_cons.1 ho).2 node,
      positive_insertNode (fun b hb => hp b (List.mem_cons_of_mem a hb)) hpos⟩

/-- The task that has its turn stays the first. -/
theorem turn_insertTask {s : TaskSystem} {task key a : Nat} (h : Sound s) (ha : s.turn = some a)
    (hlt : minSchedKey s.runningTasks < key) : ∃ node r, (s.insertTask task key).runningTasks = node :: r ∧ node.task = a := by
  obtain ⟨node, r, hr, hn⟩ := h.turn a ha
  rw [hr] at hlt
  refine ⟨node, insertNode ⟨task, key, s.nextPriority task⟩ r, ?_, hn⟩
  have hle : node.schedKey ≤ key := Nat.le_of_lt hlt
  simp only [insertTask, hr]
  rw [insertNode_cons, if_pos hle]

theorem waits_update {s : TaskSystem} (h : Sound s) {task : Nat} {state : TaskState} (hst : ∀ key, state = .waiting key → 0 < key) :
    ∀ t key, Function.update s.state task state t = .waiting key → 0 < key := by
  intro t key ht
  rw [Function.update_apply] at ht
  split at ht
  · exact hst key ht
  · exact h.waits t key ht

theorem sound_step {s t : TaskSystem} {e : TaskSystemEvent} (h : Sound s) (hpos : Positive e) (hs : s.step e = some t) :
    Sound t := by
  obtain ⟨ho, hp⟩ := tree_step h hs
  rcases step_cases h hs with ⟨_, rfl⟩ | ⟨_, task, key, rfl, hlt⟩ | ⟨task, priority, rfl, rfl⟩ | ⟨_, node, r, hr, rfl⟩ |
    ⟨_, a, r, _, _, ⟨key, _, rfl⟩ | ⟨state, hst, rfl⟩⟩
  · exact h
  · refine ⟨ho, hp, h.next, waits_update h (fun key hk => by cases hk), ?_, h.started⟩
    intro a (ha : s.turn = some a)
    have hst : s.started = true := by
      by_contra hf
      rw [h.started (by simpa using hf)] at ha
      cases ha
    exact turn_insertTask h ha (hlt hst)
  · refine ⟨ho, hp, ?_, h.waits, h.turn, h.started⟩
    intro t
    have : 0 < priority := hpos
    simp only [Function.update_apply]
    split
    · omega
    · exact h.next t
  · refine ⟨ho, hp, h.next, h.waits, ?_, (fun hf => by cases hf)⟩
    intro a ha
    cases ha
    exact ⟨node, r, hr, rfl⟩
  · exact ⟨ho, hp, h.next, h.waits, (fun a ha => by cases ha), fun _ => rfl⟩
  · exact ⟨ho, hp, h.next, waits_update h hst, (fun a ha => by cases ha), fun _ => rfl⟩

theorem started_step {s t : TaskSystem} {e : TaskSystemEvent} (h : Sound s) (hst : s.started = true) (hs : s.step e = some t) :
    t.started = true := by
  rcases step_cases h hs with ⟨_, rfl⟩ | ⟨_, task, key, rfl, _⟩ | ⟨task, priority, _, rfl⟩ | ⟨_, node, r, _, rfl⟩ |
    ⟨_, a, r, _, _, ⟨key, _, rfl⟩ | ⟨state, _, rfl⟩⟩
  · exact hst
  · exact hst
  · exact hst
  · rfl
  · exact hst
  · exact hst

/-! ## Turns -/

/-- A step while another task has its turn: the node stays in the tree, and the level falls when a turn ends. -/
theorem level_step {s t : TaskSystem} {e : TaskSystemEvent} {node : SchedNode} {n : Nat} (h : Sound s) (hst : s.started = true)
    (hn : node ∈ s.runningTasks) (hturn : s.turn ≠ some node.task) (hlen : s.runningTasks.length ≤ n) (hs : s.step e = some t) :
    node ∈ t.runningTasks ∧
      level node.schedKey n t.runningTasks + (if e.endsTurn then 1 else 0) ≤ level node.schedKey n s.runningTasks := by
  have ho' := (tree_step h hs).1
  rcases tree_cases h hs with ⟨he, ht | ⟨node', ht, _, hlt⟩⟩ | ⟨he, a, r, hr, hturn', hcase⟩
  · rw [ht, he]
    exact ⟨hn, Nat.le_refl _⟩
  · rw [ht, he, level_insertNode (List.ne_nil_of_mem hn) (hlt hst)]
    exact ⟨(insertNode_perm node' _).mem_iff.2 (List.mem_cons_of_mem node' hn), Nat.le_refl _⟩
  · have hnr : node ∈ r := by
      rw [hr] at hn
      rcases List.mem_cons.1 hn with rfl | hn
      · exact absurd hturn' hturn
      · exact hn
    have ho := h.ordered
    rw [hr] at ho hlen
    have hge := (List.pairwise_cons.1 ho).1
    rw [List.length_cons] at hlen
    rw [he, hr]
    rcases hcase with ht | ⟨node', ht, _, hlt⟩
    · rw [ht] at ho' ⊢
      exact ⟨hnr, level_lt ho' hnr (by omega) hge (Nat.le_refl _)⟩
    · have hperm := insertNode_perm node' r
      rw [ht] at ho' ⊢
      have hn' : node ∈ insertNode node' r := hperm.mem_iff.2 (List.mem_cons_of_mem node' hnr)
      refine ⟨hn', level_lt ho' hn' ?_ ?_ ?_⟩
      · rw [hperm.length_eq, List.length_cons]
        exact hlen
      · intro b hb
        rcases List.mem_cons.1 (hperm.mem_iff.1 hb) with rfl | hb
        · exact Nat.le_of_lt hlt
        · exact hge b hb
      · rw [hperm.countP_eq, List.countP_cons, decide_eq_false (by omega : ¬node'.schedKey = a.schedKey)]
        exact Nat.le_refl _

/-- The task does not have its turn, there are at most `n` running tasks, and no priority is set to 0. -/
def Waits (node : SchedNode) (n : Nat) (s : TaskSystem) (e : TaskSystemEvent) : Prop :=
  Positive e ∧ s.turn ≠ some node.task ∧ s.runningTasks.length ≤ n

instance (node : SchedNode) (n : Nat) (s : TaskSystem) (e : TaskSystemEvent) : Decidable (Waits node n s e) :=
  inferInstanceAs (Decidable (_ ∧ _))

/-- A run while the task does not have its turn. -/
theorem level_exec {s t : TaskSystem} {es : List TaskSystemEvent} {node : SchedNode} {n : Nat} (h : Sound s)
    (hst : s.started = true) (hn : node ∈ s.runningTasks) (hm : Meets step (Waits node n) s es) (hx : exec step s es = some t) :
    node ∈ t.runningTasks ∧
      level node.schedKey n t.runningTasks + es.countP TaskSystemEvent.endsTurn ≤ level node.schedKey n s.runningTasks := by
  induction es generalizing s with
  | nil =>
    cases hx
    exact ⟨hn, Nat.le_refl _⟩
  | cons e es ih =>
    obtain ⟨u, hu, hx⟩ := exec_cons_eq_some.1 hx
    obtain ⟨⟨hpos, hturn, hlen⟩, hm⟩ := meets_cons.1 hm
    obtain ⟨hn', hlevel⟩ := level_step h hst hn hturn hlen hu
    obtain ⟨hn'', hlevel'⟩ := ih (sound_step h hpos hu) (started_step h hst hu) hn' (hm u hu) hx
    refine ⟨hn'', ?_⟩
    rw [List.countP_cons]
    omega

end SchedAux

end TaskSystem

open TaskSystem SchedAux

/-- After every run in which no priority is set to 0, a running task stays in the tree until it has its turn, and while at most `n`
tasks are running it waits for at most `n` turns for each key from the smallest one up to its own, whatever the tasks do in their
turns, whoever wakes or runs others, and in whatever order. -/
theorem task_system_fair (before : List TaskSystemEvent) (s : TaskSystem)
    (hb : Meets TaskSystem.step (fun _ e => Positive e) TaskSystem.init before)
    (hs : exec TaskSystem.step TaskSystem.init before = some s) (hst : s.started = true) (node : SchedNode)
    (hn : node ∈ s.runningTasks) (n : Nat) (es : List TaskSystemEvent) (t : TaskSystem)
    (hm : Meets TaskSystem.step (Waits node n) s es) (hx : exec TaskSystem.step s es = some t) :
    node ∈ t.runningTasks ∧ es.countP TaskSystemEvent.endsTurn ≤ (node.schedKey - minSchedKey s.runningTasks + 1) * n := by
  have hsound : Sound s := exec_invariant Sound (fun _ _ _ h hpos hstep => sound_step h hpos hstep) sound_init hb hs
  obtain ⟨hn', hlevel⟩ := level_exec hsound hst hn hm hx
  refine ⟨hn', ?_⟩
  cases es with
  | nil => exact Nat.zero_le _
  | cons e es =>
    obtain ⟨⟨_, _, hlen⟩, _⟩ := meets_cons.1 hm
    have := level_le node.schedKey hlen
    omega

/-- Two tasks are run and the first one yields: the second one is in front of it. -/
theorem task_system_fair_pair :
    ∃ s t, exec TaskSystem.step TaskSystem.init [.run 0, .run 1, .pick] = some s ∧
      exec TaskSystem.step s [.switch] = some t ∧ (⟨1, 8, 8⟩ : SchedNode) ∈ t.runningTasks ∧
      [TaskSystemEvent.switch].countP TaskSystemEvent.endsTurn ≤ (8 - minSchedKey s.runningTasks + 1) * 2 := by
  refine ⟨_, _, rfl, rfl, ?_⟩
  exact task_system_fair [.run 0, .run 1, .pick] _ (by decide) rfl rfl ⟨1, 8, 8⟩ (by decide) 2 [.switch] _ (by decide) rfl

/-! ## A task of priority 0 -/

namespace TaskSystem

/-- A task of priority 0 is before all the others, whose priorities are not 0, and no other task has its turn. -/
structure Foremost (a : SchedNode) (s : TaskSystem) : Prop where
  first : ∃ r, s.runningTasks = a :: r ∧ ∀ b ∈ r, a.schedKey < b.schedKey
  zero : a.priority = 0 ∧ s.nextPriority a.task = 0
  running : s.state a.task = .running
  next : ∀ t, t ≠ a.task → 0 < s.nextPriority t
  waits : ∀ t key, s.state t = .waiting key → 0 < key
  turn : s.turn = none ∨ s.turn = some a.task
  started : s.started = true

/-- The task that has its turn neither waits nor ends, and only the priority of the task is set to 0. -/
def Keeps (a : SchedNode) : TaskSystemEvent → Prop
  | .waitio => False
  | .exit => False
  | .setPriority task priority => priority = 0 ↔ task = a.task
  | _ => True

variable {a : SchedNode} {s t : TaskSystem}

theorem insertNode_first {node : SchedNode} {l : List SchedNode} (h : ∀ b ∈ l, node.schedKey < b.schedKey) :
    insertNode node l = node :: l := by
  cases l with
  | nil => rfl
  | cons b r => rw [insertNode_cons, if_neg (Nat.not_le_of_lt (h b List.mem_cons_self))]

theorem Foremost.ne_of_state (h : Foremost a s) {task : Nat} (hs : s.state task ≠ .running) : task ≠ a.task := by
  rintro rfl
  exact hs h.running

theorem Foremost.min_eq (h : Foremost a s) : minSchedKey s.runningTasks = a.schedKey := by
  obtain ⟨r, hr, _⟩ := h.first
  rw [hr]
  rfl

/-- A task that comes behind it. -/
theorem foremost_insertTask (h : Foremost a s) {task key : Nat} (hne : task ≠ a.task) (hlt : a.schedKey < key) :
    Foremost a (s.insertTask task key) := by
  obtain ⟨r, hr, hgt⟩ := h.first
  refine ⟨⟨insertNode ⟨task, key, s.nextPriority task⟩ r, ?_, ?_⟩, h.zero, ?_, h.next, ?_, h.turn, h.started⟩
  · simp only [insertTask, hr]
    rw [insertNode_cons, if_pos (Nat.le_of_lt hlt)]
  · intro b hb
    rcases List.mem_cons.1 ((insertNode_perm _ r).mem_iff.1 hb) with rfl | hb
    · exact hlt
    · exact hgt b hb
  · simp only [insertTask]
    rw [Function.update_of_ne hne.symm]
    exact h.running
  · intro t key ht
    simp only [insertTask, Function.update_apply] at ht
    split at ht
    · cases ht
    · exact h.waits t key ht

/-- At the end of its turn it comes to where it was. -/
theorem Foremost.reinsert (h : Foremost a s) : s.reinsertCurrentTask a.task = { s with turn := none } := by
  obtain ⟨r, hr, hgt⟩ := h.first
  have hnode : (⟨a.task, a.schedKey + a.priority, s.nextPriority a.task⟩ : SchedNode) = a := by
    obtain ⟨task, key, priority⟩ := a
    obtain ⟨hp, hnext⟩ := h.zero
    simp only at hp hnext
    rw [hp, hnext, Nat.add_zero]
  have hfind : s.runningTasks.find? (·.task = a.task) = some a := by
    rw [hr]
    simp
  have herase : s.runningTasks.eraseP (·.task = a.task) = r := by
    rw [hr]
    simp
  unfold reinsertCurrentTask
  rw [hfind]
  simp only
  rw [herase, hnode, insertNode_first hgt, ← hr]

theorem foremost_step {e : TaskSystemEvent} (h : Foremost a s) (hk : Keeps a e) (hs : s.step e = some t) :
    Foremost a t ∧ ∀ b ∈ s.runningTasks, b ∈ t.runningTasks := by
  have hinsert : ∀ {task key : Nat}, ∀ b ∈ s.runningTasks, b ∈ (s.insertTask task key).runningTasks := by
    intro task key b hb
    exact (insertNode_perm _ s.runningTasks).mem_iff.2 (List.mem_cons_of_mem _ hb)
  cases e with
  | switch =>
    obtain ⟨task, ht, rfl⟩ := Option.map_eq_some_iff.1 hs
    obtain rfl : task = a.task := by
      rcases h.turn with hn | hn
      · rw [hn] at ht
        cases ht
      · rw [hn] at ht
        exact (Option.some.inj ht).symm
    rw [h.reinsert]
    exact ⟨⟨h.first, h.zero, h.running, h.next, h.waits, Or.inl rfl, h.started⟩, fun _ hb => hb⟩
  | waitio | exit => exact hk.elim
  | wakeup task =>
    simp only [step] at hs
    split at hs
    · cases hs
    · cases hs
      exact ⟨h, fun _ hb => hb⟩
    · rename_i key hstate
      cases hs
      have := h.waits task key hstate
      refine ⟨foremost_insertTask h (h.ne_of_state (by simp [hstate])) ?_, hinsert⟩
      rw [h.min_eq]
      omega
  | run task =>
    simp only [step] at hs
    split at hs
    · cases hs
    split at hs
    · rename_i hstate
      cases hs
      have hne : task ≠ a.task := h.ne_of_state (by simp [hstate])
      have := h.next task hne
      refine ⟨foremost_insertTask h hne ?_, hinsert⟩
      rw [if_pos h.started, h.min_eq]
      omega
    · cases hs
      exact ⟨h, fun _ hb => hb⟩
  | setPriority task priority =>
    cases hs
    have hp : priority = 0 ↔ task = a.task := hk
    refine ⟨⟨h.first, ⟨h.zero.1, ?_⟩, h.running, ?_, h.waits, h.turn, h.started⟩, fun _ hb => hb⟩
    · simp only [Function.update_apply]
      split
      · rename_i heq
        rw [hp.2 heq.symm]
        rfl
      · exact h.zero.2
    · intro t ht
      simp only [Function.update_apply]
      split
      · rename_i heq
        have : priority ≠ 0 := fun h0 => ht (heq.trans (hp.1 h0))
        omega
      · exact h.next t ht
  | pick =>
    obtain ⟨r, hr, _⟩ := h.first
    simp only [step] at hs
    split at hs
    · rename_i node r' _ hr'
      cases hs
      rw [hr] at hr'
      cases hr'
      exact ⟨⟨h.first, h.zero, h.running, h.next, h.waits, Or.inr rfl, rfl⟩, fun _ hb => hb⟩
    · cases hs

end TaskSystem

/-- Why no priority is 0 there: a task of priority 0 that neither waits nor ends has every turn, however often it yields. The others
that are running stay in the tree and never have one, in every run in which only its own priority is set to 0. -/
theorem realtime_task_starves (s : TaskSystem) (a : SchedNode) (h : Foremost a s) (es : List TaskSystemEvent)
    (hk : ∀ e ∈ es, Keeps a e) (t : TaskSystem) (hx : exec TaskSystem.step s es = some t) :
    (t.turn = none ∨ t.turn = some a.task) ∧ ∀ b ∈ s.runningTasks, b ∈ t.runningTasks := by
  induction es generalizing s with
  | nil =>
    cases hx
    exact ⟨h.turn, fun _ hb => hb⟩
  | cons e es ih =>
    obtain ⟨u, hu, hx⟩ := exec_cons_eq_some.1 hx
    obtain ⟨hf, hkept⟩ := foremost_step h (hk e List.mem_cons_self) hu
    obtain ⟨hturn, hrest⟩ := ih u hf (fun e' he' => hk e' (List.mem_cons_of_mem e he')) hx
    exact ⟨hturn, fun b hb => hrest b (hkept b hb)⟩

/-- A task of priority 0 and one of the default priority. -/
theorem realtime_task_starves_default :
    ∃ s t, exec TaskSystem.step TaskSystem.init [.setPriority 0 0, .run 0, .run 1, .pick] = some s ∧
      exec TaskSystem.step s [.switch, .pick, .switch, .pick] = some t ∧ (t.turn = none ∨ t.turn = some 0) ∧
      ∀ b ∈ s.runningTasks, b ∈ t.runningTasks := by
  refine ⟨_, _, rfl, rfl, ?_⟩
  refine realtime_task_starves _ ⟨0, 0, 0⟩ ?_ [.switch, .pick, .switch, .pick] ?_ _ rfl
  · refine ⟨⟨[⟨1, 8, 8⟩], rfl, by decide⟩, ⟨rfl, rfl⟩, rfl, ?_, ?_, Or.inr rfl, rfl⟩
    · intro t ht
      change 0 < Function.update (fun _ => taskPriorityDefault) 0 (min 0 15) t
      rw [Function.update_of_ne ht]
      decide
    · intro t key ht
      change Function.update (Function.update (fun _ => TaskState.stopped) 0 .running) 1 .running t = .waiting key at ht
      simp only [Function.update_apply] at ht
      split at ht
      · cases ht
      split at ht
      · cases ht
      · cases ht
  · intro e he
    simp only [List.mem_cons, List.not_mem_nil, or_false] at he
    rcases he with rfl | rfl | rfl | rfl <;> trivial

end Open365Vpn
