import Mathlib.Tactic.Basic
import Mathlib.Logic.Basic
import Mathlib.Data.List.Basic

/-!
# Runs of a partial step function

A machine is a function `step : σ → ε → Option σ`: the events `ε` are the moves of its threads and of its environment, and
`none` says that the event cannot happen in that state. `exec` runs a list of events, so an interleaving of several threads is
one such list. A condition on single steps is a relation `ok : σ → ε → Prop` between the state before a step and its event, and
`Meets` says that every step of a run satisfies it. The rules: an invariant kept by the steps that satisfy the condition holds
after every run whose steps all do (`exec_invariant`); and a condition whose breach shows at once is exact
(`meets_iff_forall_states`), and one whose breach may show later is tight (`Meets.safe_and_tight`). What a machine does not
remember an observer may (`observe`). `MayLead` is what some run comes to, `MustLead` what no run avoids.
-/

namespace Runs

variable {σ ε : Type*} {step : σ → ε → Option σ} {ok : σ → ε → Prop}

/-- The state after a list of events, when each of them can happen. -/
def exec (step : σ → ε → Option σ) : σ → List ε → Option σ
  | s, [] => some s
  | s, e :: es => (step s e).bind fun t => exec step t es

/-- Every step of a run satisfies `ok` in the state before it. -/
def Meets (step : σ → ε → Option σ) (ok : σ → ε → Prop) : σ → List ε → Prop
  | _, [] => True
  | s, e :: es => ok s e ∧ (step s e).elim True fun t => Meets step ok t es

instance decidableMeets [∀ s e, Decidable (ok s e)] : ∀ (s : σ) (es : List ε), Decidable (Meets step ok s es)
  | _, [] => inferInstanceAs (Decidable True)
  | s, e :: es =>
    have : Decidable ((step s e).elim True fun t => Meets step ok t es) :=
      match step s e with
      | none => inferInstanceAs (Decidable True)
      | some t => decidableMeets t es
    inferInstanceAs (Decidable (_ ∧ _))

@[simp] theorem exec_nil (s : σ) : exec step s [] = some s := rfl

theorem exec_cons (s : σ) (e : ε) (es : List ε) : exec step s (e :: es) = (step s e).bind fun t => exec step t es := rfl

/-- A run of one more event is a step and a run. -/
theorem exec_cons_eq_some {s t : σ} {e : ε} {es : List ε} :
    exec step s (e :: es) = some t ↔ ∃ u, step s e = some u ∧ exec step u es = some t := by
  rw [exec_cons, Option.bind_eq_some_iff]

/-- A run of two lists of events is a run of the first and then of the second. -/
theorem exec_append (s : σ) (es fs : List ε) : exec step s (es ++ fs) = (exec step s es).bind fun t => exec step t fs := by
  induction es generalizing s with
  | nil => rfl
  | cons e es ih =>
    rw [List.cons_append, exec_cons, exec_cons, Option.bind_assoc]
    congr 1
    funext t
    exact ih t

theorem exec_append_eq_some {s t : σ} {es fs : List ε} :
    exec step s (es ++ fs) = some t ↔ ∃ u, exec step s es = some u ∧ exec step u fs = some t := by
  rw [exec_append, Option.bind_eq_some_iff]

theorem meets_cons {s : σ} {e : ε} {es : List ε} :
    Meets step ok s (e :: es) ↔ ok s e ∧ ∀ t, step s e = some t → Meets step ok t es := by
  rw [Meets]
  cases step s e with
  | none => simp
  | some t => simp

/-- The steps of two lists of events satisfy the condition when those of the first do, and those of the second do from the
state the first leaves. -/
theorem meets_append {s : σ} {es fs : List ε} :
    Meets step ok s (es ++ fs) ↔ Meets step ok s es ∧ ∀ t, exec step s es = some t → Meets step ok t fs := by
  induction es generalizing s with
  | nil => simp [Meets]
  | cons e es ih =>
    rw [List.cons_append, meets_cons, meets_cons, exec_cons]
    cases step s e with
    | none => simp
    | some t => simp [ih, and_assoc]

/-- Two conditions are met by a run when it meets both. -/
theorem Meets.and {ok' : σ → ε → Prop} {s : σ} {es : List ε} (hm : Meets step ok s es) (hm' : Meets step ok' s es) :
    Meets step (fun s e => ok s e ∧ ok' s e) s es := by
  induction es generalizing s with
  | nil => trivial
  | cons e es ih =>
    rw [meets_cons] at hm hm' ⊢
    exact ⟨⟨hm.1, hm'.1⟩, fun t ht => ih (hm.2 t ht) (hm'.2 t ht)⟩

/-- A condition on the events alone may be added to the condition of a run. -/
theorem Meets.and_mem {p : ε → Prop} {s : σ} {es : List ε} (hm : Meets step ok s es) (hp : ∀ e ∈ es, p e) :
    Meets step (fun s e => p e ∧ ok s e) s es := by
  induction es generalizing s with
  | nil => trivial
  | cons e es ih =>
    rw [meets_cons] at hm ⊢
    exact ⟨⟨hp e List.mem_cons_self, hm.1⟩, fun t ht => ih (hm.2 t ht) fun e' he' => hp e' (List.mem_cons_of_mem e he')⟩

/-- The invariant rule: what holds at the start and is kept by every step that satisfies the condition holds at the end. -/
theorem exec_invariant (Inv : σ → Prop) (hstep : ∀ s e t, Inv s → ok s e → step s e = some t → Inv t) {s t : σ}
    {es : List ε} (h0 : Inv s) (hm : Meets step ok s es) (hx : exec step s es = some t) : Inv t := by
  induction es generalizing s with
  | nil =>
    rw [exec_nil, Option.some.injEq] at hx
    exact hx ▸ h0
  | cons e es ih =>
    obtain ⟨u, hu, hx⟩ := exec_cons_eq_some.1 hx
    rw [meets_cons] at hm
    exact ih (hstep s e u h0 hm.1 hu) (hm.2 u hu) hx

/-- The invariant rule for a relation between the events so far and the state they lead to. -/
theorem exec_history_invariant (Inv : List ε → σ → Prop)
    (hstep : ∀ es s e t, Inv es s → ok s e → step s e = some t → Inv (es ++ [e]) t) {s t : σ} {es : List ε} (h0 : Inv [] s)
    (hm : Meets step ok s es) (hx : exec step s es = some t) : Inv es t := by
  have key : ∀ (es past : List ε) (s : σ), Inv past s → Meets step ok s es → exec step s es = some t → Inv (past ++ es) t := by
    intro es
    induction es with
    | nil =>
      intro past s h _ hx
      rw [exec_nil, Option.some.injEq] at hx
      rw [List.append_nil]
      exact hx ▸ h
    | cons e es ih =>
      intro past s h hm hx
      obtain ⟨u, hu, hx⟩ := exec_cons_eq_some.1 hx
      rw [meets_cons] at hm
      have := ih (past ++ [e]) u (hstep past s e u h hm.1 hu) (hm.2 u hu) hx
      rwa [List.append_assoc] at this
  exact key es [] s h0 hm hx

theorem meets_true (s : σ) (es : List ε) : Meets step (fun _ _ => True) s es := by
  induction es generalizing s with
  | nil => trivial
  | cons e es ih => exact meets_cons.2 ⟨trivial, fun t _ => ih t⟩

/-- When a step that breaks the condition shows at once, the condition is exact: among the runs of a domain, a property that
follows from the invariant and fails after every step that breaks the condition holds in every state of a run exactly when all
its steps satisfy the condition. -/
theorem meets_iff_forall_states_of {dom : σ → ε → Prop} (Inv P : σ → Prop)
    (hstep : ∀ s e t, Inv s → dom s e → ok s e → step s e = some t → Inv t) (hP : ∀ s, Inv s → P s)
    (hbad : ∀ s e, Inv s → dom s e → ¬ok s e → ∃ t, step s e = some t ∧ ¬P t) {s : σ} (h0 : Inv s) {es : List ε}
    (hd : Meets step dom s es) : (∀ pre t, pre <+: es → exec step s pre = some t → P t) ↔ Meets step ok s es := by
  constructor
  · intro h
    induction es generalizing s with
    | nil => trivial
    | cons e es ih =>
      rw [meets_cons] at hd
      have hok : ok s e := by
        by_contra hn
        obtain ⟨t, ht, hnP⟩ := hbad s e h0 hd.1 hn
        exact hnP (h [e] t (by simp) (exec_cons_eq_some.2 ⟨t, ht, rfl⟩))
      refine meets_cons.2 ⟨hok, fun t ht => ih (hstep s e t h0 hd.1 hok ht) (hd.2 t ht) fun pre u hpre hu => ?_⟩
      exact h (e :: pre) u (List.cons_prefix_cons.2 ⟨rfl, hpre⟩) (exec_cons_eq_some.2 ⟨t, ht, hu⟩)
  · rintro hm pre t ⟨post, rfl⟩ hx
    have hboth := (meets_append.1 hm).1.and (meets_append.1 hd).1
    exact hP t (exec_invariant Inv (fun s e t hi hok => hstep s e t hi hok.2 hok.1) h0 hboth hx)

/-- The condition is exact, over all runs. -/
theorem meets_iff_forall_states (Inv P : σ → Prop) (hstep : ∀ s e t, Inv s → ok s e → step s e = some t → Inv t)
    (hP : ∀ s, Inv s → P s) (hbad : ∀ s e, Inv s → ¬ok s e → ∃ t, step s e = some t ∧ ¬P t) {s : σ} (h0 : Inv s)
    (es : List ε) : (∀ pre t, pre <+: es → exec step s pre = some t → P t) ↔ Meets step ok s es :=
  meets_iff_forall_states_of Inv P (fun s e t hi _ => hstep s e t hi) hP (fun s e hi _ => hbad s e hi) h0 (meets_true s es)

/-! ## An observer of the machine -/

section Observe

variable {γ : Type*} {record : σ → ε → σ → γ → γ}

/-- The machine with an observer who sees every step, the state before it and the one after it, and keeps a record; the record
does not act on the machine. -/
def observe (step : σ → ε → Option σ) (record : σ → ε → σ → γ → γ) (s : σ × γ) (e : ε) : Option (σ × γ) :=
  (step s.1 e).map fun t => (t, record s.1 e t s.2)

theorem observe_eq_some {s t : σ × γ} {e : ε} :
    observe step record s e = some t ↔ step s.1 e = some t.1 ∧ t.2 = record s.1 e t.1 s.2 := by
  rw [observe, Option.map_eq_some_iff]
  constructor
  · rintro ⟨u, hu, rfl⟩
    exact ⟨hu, rfl⟩
  · rintro ⟨hu, hr⟩
    exact ⟨t.1, hu, by rw [← hr]⟩

/-- A condition on the machine is met by its steps whether they are observed or not. -/
theorem meets_observe {s : σ × γ} {es : List ε} :
    Meets (observe step record) (fun s e => ok s.1 e) s es ↔ Meets step ok s.1 es := by
  induction es generalizing s with
  | nil => exact Iff.rfl
  | cons e es ih =>
    rw [meets_cons, meets_cons]
    constructor
    · rintro ⟨hok, h⟩
      exact ⟨hok, fun t ht => ih.1 (h (t, record s.1 e t s.2) (observe_eq_some.2 ⟨ht, rfl⟩))⟩
    · rintro ⟨hok, h⟩
      exact ⟨hok, fun t ht => ih.2 (h t.1 (observe_eq_some.1 ht).1)⟩

/-- A condition that looks at the record may be one on the machine alone, when an invariant of the two says what the record is. -/
theorem meets_observe_iff {ok' : σ × γ → ε → Prop} (Inv : σ × γ → Prop)
    (hstep : ∀ s e t, Inv s → observe step record s e = some t → Inv t) (hok : ∀ s e, Inv s → (ok' s e ↔ ok s.1 e)) {s : σ × γ}
    (h0 : Inv s) {es : List ε} : Meets (observe step record) ok' s es ↔ Meets step ok s.1 es := by
  induction es generalizing s with
  | nil => exact Iff.rfl
  | cons e es ih =>
    rw [meets_cons, meets_cons, hok s e h0]
    refine and_congr_right fun _ => ⟨fun h t ht => ?_, fun h t ht => ?_⟩
    · have hobs : observe step record s e = some (t, record s.1 e t s.2) := observe_eq_some.2 ⟨ht, rfl⟩
      exact (ih (hstep s e _ h0 hobs)).1 (h _ hobs)
    · exact (ih (hstep s e t h0 ht)).2 (h t.1 (observe_eq_some.1 ht).1)

end Observe

/-- Some run leads from one state to another. -/
def Reaches (step : σ → ε → Option σ) (s t : σ) : Prop := ∃ es, exec step s es = some t

theorem Reaches.refl (s : σ) : Reaches step s s := ⟨[], rfl⟩

theorem Reaches.single {s t : σ} {e : ε} (h : step s e = some t) : Reaches step s t := ⟨[e], by rw [exec_cons, h]; rfl⟩

theorem Reaches.trans {s t u : σ} (h : Reaches step s t) (h' : Reaches step t u) : Reaches step s u := by
  obtain ⟨es, hes⟩ := h
  obtain ⟨fs, hfs⟩ := h'
  exact ⟨es ++ fs, exec_append_eq_some.2 ⟨t, hes, hfs⟩⟩

/-- Some run leads from the state to one with the property. -/
def MayLead (step : σ → ε → Option σ) (Q : σ → Prop) (s : σ) : Prop := ∃ t, Reaches step s t ∧ Q t

theorem MayLead.now {Q : σ → Prop} {s : σ} (h : Q s) : MayLead step Q s := ⟨s, Reaches.refl s, h⟩

theorem MayLead.of_step {Q : σ → Prop} {s t : σ} {e : ε} (hs : step s e = some t) (h : MayLead step Q t) : MayLead step Q s := by
  obtain ⟨u, hu, hq⟩ := h
  exact ⟨u, (Reaches.single hs).trans hu, hq⟩

/-- A condition that is enough and not too strong, though its breach may show only later: while the steps of a run satisfy it
the property holds in every state, and a step that breaks it leads to a state from which the property can be broken. -/
theorem Meets.safe_and_tight (Inv P : σ → Prop) (hstep : ∀ s e t, Inv s → ok s e → step s e = some t → Inv t)
    (hP : ∀ s, Inv s → P s) (hbad : ∀ s e t, Inv s → ¬ok s e → step s e = some t → MayLead step (fun u => ¬P u) t) {s : σ}
    (h0 : Inv s) {es : List ε} (hm : Meets step ok s es) :
    (∀ pre t, pre <+: es → exec step s pre = some t → P t) ∧
      ∀ t e u, exec step s es = some t → step t e = some u → ¬ok t e → MayLead step (fun v => ¬P v) u := by
  have hinv : ∀ pre t, pre <+: es → exec step s pre = some t → Inv t := by
    rintro pre t ⟨post, rfl⟩ hx
    exact exec_invariant Inv hstep h0 (meets_append.1 hm).1 hx
  constructor
  · intro pre t hpre hx
    exact hP t (hinv pre t hpre hx)
  · intro t e u hx hs hn
    exact hbad t e u (hinv es t (List.prefix_refl es) hx) hn hs

/-! ## What a machine cannot avoid -/

/-- Every run that does not stop where a step is possible comes to a state with the property. -/
inductive MustLead (step : σ → ε → Option σ) (Q : σ → Prop) : σ → Prop
  | now {s : σ} (h : Q s) : MustLead step Q s
  | next {s : σ} (possible : ∃ e t, step s e = some t) (all : ∀ e t, step s e = some t → MustLead step Q t) : MustLead step Q s

/-- The rule for a measure: while the property does not hold a step is possible, and every step makes the measure smaller. -/
theorem mustLead_of_measure (Inv Q : σ → Prop) (μ : σ → Nat) (hpossible : ∀ s, Inv s → ¬Q s → ∃ e t, step s e = some t)
    (hstep : ∀ s e t, Inv s → ¬Q s → step s e = some t → Inv t ∧ μ t < μ s) {s : σ} (h0 : Inv s) : MustLead step Q s := by
  generalize hn : μ s = n
  induction n using Nat.strongRecOn generalizing s with
  | _ n ih =>
    by_cases hq : Q s
    · exact MustLead.now hq
    · refine MustLead.next (hpossible s h0 hq) ?_
      intro e t ht
      obtain ⟨hi, hlt⟩ := hstep s e t h0 hq ht
      exact ih (μ t) (hn ▸ hlt) hi rfl

end Runs
