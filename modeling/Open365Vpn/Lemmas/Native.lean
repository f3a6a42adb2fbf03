import Mathlib.Tactic.MkIffOfInductiveProp
import Open365Vpn.Tunnel.Native

/-!
# One call and one thread at a time

Whatever the order of the steps, one Java thread is inside of a call and one thread of the tunnel is not joined (`Sound`), so the
state is that of a caller `c`, which may not be there, and of a thread `w`, which may be joined. `Fits` says how the variables go
with the two, and every step keeps it.
-/

namespace Open365Vpn

open Runs

/-- The thread has not come to the store to `is_running` that is its last one. -/
def WorkThread.live : WorkThread → Bool
  | .terminated => false
  | .joined => false
  | _ => true

/-- `SYNC_SEND`, where the thread determines it. -/
def WorkThread.sends : WorkThread → Option Bool
  | .ready => some true
  | .serving => some true
  | .stopping => some true
  | .draining => some true
  | .fini => none
  | _ => some false

/-- Whether `event_fds` are open, where the thread determines it. -/
def WorkThread.opens : WorkThread → Option Bool
  | .opened => some true
  | .ready => some true
  | .serving => some true
  | .stopping => some true
  | .draining => some true
  | .fini => none
  | .closing => none
  | _ => some false

namespace NativeAux

/-- The caller has stored to `is_running` for a thread that is not there yet. -/
def creating : Option Caller → Bool
  | some .startCreate => true
  | some .startUndo => true
  | _ => false

/-- The caller has set `SYNC_WAIT`. -/
def waiting : Option Caller → Bool
  | some (.quit .retry) => false
  | some (.quit _) => true
  | _ => false

/-- The caller has told the thread to stop, or has found it at its end. -/
def signalled : Option Caller → Bool
  | some (.quit .release) => true
  | some .stopJoin => true
  | _ => false

/-- Which thread a caller may meet. -/
def Agrees : Option Caller → WorkThread → Prop
  | some .startJoin, w => w = .terminated
  | some .startPrepare, w => w = .joined
  | some .startCreate, w => w = .joined
  | some .startUndo, w => w = .joined
  | some .stopStore, w => w = .joined
  | some (.quit _), w => w ≠ .joined
  | some .stopJoin, w => w ≠ .joined
  | some .broken, _ => False
  | _, _ => True

/-- The variables go with the caller and the thread. -/
@[mk_iff]
structure Fits (c : Option Caller) (w : WorkThread) (g : Globals) : Prop where
  mutex : g.mutex = c.isSome
  joinable : g.threadJoinable = decide (w ≠ .joined)
  running : g.isRunning = (w.live || creating c)
  agrees : Agrees c w
  wait : g.tsync.wait = waiting c
  send : ∀ b, w.sends = some b → g.tsync.send = b
  unsent : w.sends = some false → g.tsync.sent = false
  sent : g.tsync.sent = true → c = some (.quit .write) ∨ signalled c = true
  opens : ∀ b, w.opens = some b → g.events.isSome = b
  sending : g.tsync.send = true → g.events.isSome = true
  pending : ∀ n, g.events = some (n + 1) → n = 0 ∧ signalled c = true
  seen : c = some (.quit .seen) ∨ c = some (.quit .write) →
    (w = .ready ∨ w = .serving ∨ w = .fini) ∧ g.events.isSome = true
  stopping : w = .stopping ∨ w = .draining → signalled c = true

attribute [local grind =] WorkThread.live WorkThread.sends WorkThread.opens creating waiting signalled

theorem fits_init : Fits none .joined Native.init.globals := by
  constructor <;> simp [Native.init, WorkThread.live, creating, waiting, Agrees, WorkThread.sends, WorkThread.opens]

/-- A caller that meets a thread before its end may meet every one that is not joined. -/
theorem Agrees.of_live {c : Option Caller} {w w' : WorkThread} (h : Agrees c w) (hw : w.live = true) (hj : w' ≠ .joined) :
    Agrees c w' := by
  cases c with
  | none => trivial
  | some c => cases c <;> cases w <;> simp_all [Agrees, WorkThread.live]

theorem Agrees.not_creating {c : Option Caller} {w : WorkThread} (h : Agrees c w) (hj : w ≠ .joined) : creating c = false := by
  cases c with
  | none => rfl
  | some c => cases c <;> simp_all [Agrees, creating]

/-- A step of the thread. -/
theorem fits_worker {c : Option Caller} {w w' : WorkThread} {g g' : Globals} {ok : Bool} (h : Fits c w g)
    (hs : w.step g ok = some (g', w')) : Fits c w' g' := by
  obtain ⟨h1, h2, h3, h4, h5, h6, h7, h8, h9, h10, h11, h12, h13⟩ := h
  have hag : w.live = true → w' ≠ .joined → Agrees c w' := h4.of_live
  have hcr : w ≠ .joined → creating c = false := h4.not_creating
  rw [fits_iff]
  cases w with
  | config =>
    cases hs
    cases ok <;> grind
  | init | opened =>
    cases ok <;> (cases hs; grind)
  | ready | stopping | draining | fini | closing | exiting =>
    cases hs
    grind
  | serving =>
    simp only [WorkThread.step] at hs
    split at hs
    · cases hs
      grind
    · nomatch hs
  | terminated | joined => nomatch hs

/-! ## The steps of a caller -/

/-- `w` is the thread at `work_thread`, or a joined one when there is none, and all the others are joined. -/
structure Current (g : Globals) (w : WorkThread) : Prop where
  here : (g.workers[g.workThread]?).getD .joined = w
  others : ∀ (i : Nat) (v : WorkThread), g.workers[i]? = some v → i = g.workThread ∨ v = .joined

theorem Current.getElem? {g : Globals} {w : WorkThread} (h : Current g w) (hw : w ≠ .joined) :
    g.workers[g.workThread]? = some w := by
  have := h.here
  cases hg : g.workers[g.workThread]? with
  | none =>
    rw [hg] at this
    exact absurd this.symm hw
  | some v =>
    rw [hg] at this
    rw [← this]
    rfl

/-- A join waits for the end of the thread. -/
theorem pthreadJoin_eq_some {g g' : Globals} {w : WorkThread} {next : Caller} {c : Option Caller} (h : Current g w)
    (hw : w ≠ .joined) (hj : g.pthreadJoin next = some (g', c)) :
    w = .terminated ∧ c = some next ∧
      g' = { g with workers := g.workers.set g.workThread .joined, threadJoinable := false } := by
  unfold Globals.pthreadJoin at hj
  rw [h.getElem? hw] at hj
  cases w <;> simp_all

theorem current_join {g : Globals} {w : WorkThread} (h : Current g w) :
    Current { g with workers := g.workers.set g.workThread .joined, threadJoinable := false } .joined := by
  constructor
  · simp only [List.getElem?_set, if_true]
    split <;> rfl
  · intro i v hv
    simp only [List.getElem?_set] at hv
    split at hv
    · exact Or.inl (by assumption : g.workThread = i).symm
    · exact h.others i v hv

/-- A new thread, when the last one is joined. -/
theorem current_create {g : Globals} (h : Current g .joined) :
    Current { g with workers := g.workers ++ [.config], workThread := g.workers.length, threadJoinable := true } .config := by
  constructor
  · simp
  · intro i v hv
    simp only at hv ⊢
    rcases Nat.lt_trichotomy i g.workers.length with hi | hi | hi
    · rw [List.getElem?_append_left hi] at hv
      refine Or.inr ?_
      rcases h.others i v hv with rfl | hj
      · have := h.here
        rw [hv] at this
        exact this
      · exact hj
    · exact Or.inl hi
    · have hlen : (g.workers ++ [WorkThread.config]).length ≤ i := by
        rw [List.length_append, List.length_singleton]
        omega
      rw [List.getElem?_eq_none hlen] at hv
      cases hv

/-- A step of the caller. -/
theorem fits_caller {c : Caller} {c' : Option Caller} {w : WorkThread} {g g' : Globals} {ok : Bool} (h : Fits (some c) w g)
    (hcur : Current g w) (hs : c.step g ok = some (g', c')) : ∃ w', Current g' w' ∧ Fits c' w' g' := by
  obtain ⟨h1, h2, h3, h4, h5, h6, h7, h8, h9, h10, h11, h12, h13⟩ := h
  cases c with
  | startCheck =>
    simp only [Caller.step] at hs
    split at hs
    · cases hs
      exact ⟨w, hcur, (fits_iff _ _ _).2 (by grind [Agrees])⟩
    split at hs
    · cases hs
      exact ⟨w, hcur, (fits_iff _ _ _).2 (by grind [Agrees])⟩
    · cases hs
      exact ⟨w, hcur, (fits_iff _ _ _).2 (by grind [Agrees])⟩
  | startJoin =>
    obtain rfl : w = .terminated := h4
    obtain ⟨_, rfl, rfl⟩ := pthreadJoin_eq_some hcur nofun hs
    exact ⟨.joined, current_join hcur, (fits_iff _ _ _).2 (by grind [Agrees])⟩
  | startPrepare =>
    obtain rfl : w = .joined := h4
    simp only [Caller.step] at hs
    split at hs
    · cases hs
      exact ⟨.joined, ⟨hcur.here, hcur.others⟩, (fits_iff _ _ _).2 (by grind [Agrees])⟩
    · cases hs
      exact ⟨.joined, hcur, (fits_iff _ _ _).2 (by grind [Agrees])⟩
  | startCreate =>
    obtain rfl : w = .joined := h4
    simp only [Caller.step] at hs
    split at hs
    · cases hs
      exact ⟨.config, current_create hcur, (fits_iff _ _ _).2 (by grind [Agrees])⟩
    · cases hs
      exact ⟨.joined, hcur, (fits_iff _ _ _).2 (by grind [Agrees])⟩
  | startUndo =>
    obtain rfl : w = .joined := h4
    cases hs
    exact ⟨.joined, ⟨hcur.here, hcur.others⟩, (fits_iff _ _ _).2 (by grind [Agrees])⟩
  | stopCheck =>
    simp only [Caller.step] at hs
    split at hs
    · cases hs
      exact ⟨w, hcur, (fits_iff _ _ _).2 (by grind [Agrees])⟩
    split at hs
    · cases hs
      exact ⟨w, hcur, (fits_iff _ _ _).2 (by grind [Agrees])⟩
    · cases hs
      exact ⟨w, hcur, (fits_iff _ _ _).2 (by grind [Agrees])⟩
  | quit p =>
    refine ⟨w, ?_⟩
    cases p with
    | retry =>
      simp only [Caller.step] at hs
      split at hs
      · cases hs
        exact ⟨hcur, ⟨h1, h2, h3, h4, h5, h6, h7, h8, h9, h10, h11, h12, h13⟩⟩
      · cases hs
        exact ⟨⟨hcur.here, hcur.others⟩, (fits_iff _ _ _).2 (by grind [Agrees])⟩
    | seen =>
      cases hs
      exact ⟨⟨hcur.here, hcur.others⟩, (fits_iff _ _ _).2 (by grind [Agrees])⟩
    | unseen =>
      cases hs
      exact ⟨⟨hcur.here, hcur.others⟩, (fits_iff _ _ _).2 (by grind [Agrees])⟩
    | write =>
      obtain ⟨_, hopen⟩ := h12 (Or.inr rfl)
      have hn : g.events = some 0 := by
        obtain ⟨_ | n, hn⟩ := Option.isSome_iff_exists.1 hopen
        · exact hn
        · exact absurd (h11 n hn).2 (by decide)
      simp only [Caller.step, hn] at hs
      cases hs
      exact ⟨⟨hcur.here, hcur.others⟩, (fits_iff _ _ _).2 (by grind [Agrees])⟩
    | release =>
      cases hs
      exact ⟨⟨hcur.here, hcur.others⟩, (fits_iff _ _ _).2 (by grind [Agrees])⟩
  | stopJoin =>
    obtain ⟨rfl, rfl, rfl⟩ := pthreadJoin_eq_some hcur h4 hs
    exact ⟨.joined, current_join hcur, (fits_iff _ _ _).2 (by grind [Agrees])⟩
  | stopStore =>
    obtain rfl : w = .joined := h4
    cases hs
    exact ⟨.joined, ⟨hcur.here, hcur.others⟩, (fits_iff _ _ _).2 (by grind [Agrees])⟩
  | unlock result =>
    cases hs
    exact ⟨w, ⟨hcur.here, hcur.others⟩, (fits_iff _ _ _).2 (by grind [Agrees])⟩
  | broken => exact h4.elim

/-! ## The steps of the process -/

/-- The process is that of the caller and the thread. -/
structure View (s : Native) (c : Option Caller) (w : WorkThread) : Prop where
  callers : s.callers = c.toList
  current : Current s.globals w
  fits : Fits c w s.globals

theorem view_init : View Native.init none .joined where
  callers := rfl
  current := ⟨rfl, nofun⟩
  fits := fits_init

theorem worker_step_workers {w w' : WorkThread} {g g' : Globals} {ok : Bool} (hs : w.step g ok = some (g', w')) :
    g'.workers = g.workers ∧ g'.workThread = g.workThread := by
  cases w with
  | config | ready | stopping | draining | fini | closing | exiting =>
    cases hs
    exact ⟨rfl, rfl⟩
  | init | opened => cases ok <;> (cases hs; exact ⟨rfl, rfl⟩)
  | serving =>
    simp only [WorkThread.step] at hs
    split at hs
    · cases hs
      exact ⟨rfl, rfl⟩
    · nomatch hs
  | terminated | joined => nomatch hs

/-- A step of the thread changes the thread. -/
theorem current_worker {w w' : WorkThread} {g g' : Globals} {ok : Bool} (h : Current g w) (hw : w ≠ .joined)
    (hs : w.step g ok = some (g', w')) : Current { g' with workers := g'.workers.set g.workThread w' } w' := by
  obtain ⟨hws, hwt⟩ := worker_step_workers hs
  obtain ⟨hlt, _⟩ := List.getElem?_eq_some_iff.1 (h.getElem? hw)
  constructor
  · simp only [hws, hwt]
    rw [List.getElem?_set_self hlt]
    rfl
  · intro i v hv
    simp only [hws, hwt] at hv ⊢
    by_cases hi : i = g.workThread
    · exact Or.inl hi
    · rw [List.getElem?_set_ne (Ne.symm hi)] at hv
      exact h.others i v hv

theorem Fits.set_workers {c : Option Caller} {w : WorkThread} {g : Globals} (h : Fits c w g) (ws : List WorkThread) :
    Fits c w { g with workers := ws } :=
  ⟨h.mutex, h.joinable, h.running, h.agrees, h.wait, h.send, h.unsent, h.sent, h.opens, h.sending, h.pending, h.seen, h.stopping⟩

theorem Fits.enter {w : WorkThread} {g : Globals} {c : Caller} (h : Fits none w g) (hc : c = .startCheck ∨ c = .stopCheck) :
    Fits (some c) w { g with mutex := true } := by
  obtain ⟨h1, h2, h3, h4, h5, h6, h7, h8, h9, h10, h11, h12, h13⟩ := h
  rw [fits_iff]
  rcases hc with rfl | rfl <;> grind [Agrees]

/-- What a step does: a call begins, or the caller makes a step, or the thread does. -/
inductive Moved (s t : Native) (e : NativeEvent) (c : Option Caller) (w : WorkThread) (c' : Option Caller) (w' : WorkThread) : Prop
  | enter (hc : c = none) (hc' : c' = some .startCheck ∨ c' = some .stopCheck) (hw : w' = w)
      (hg : t.globals = { s.globals with mutex := true })
  | caller (ok : Bool) (c₀ : Caller) (he : e = .caller 0 ok) (hc : c = some c₀) (hs : c₀.step s.globals ok = some (t.globals, c'))
  | worker (ok : Bool) (g : Globals) (he : e = .worker s.globals.workThread ok) (hc : c' = c)
      (hs : w.step s.globals ok = some (g, w')) (hg : t.globals = { g with workers := g.workers.set s.globals.workThread w' })

theorem View.enter {s t : Native} {c : Option Caller} {w : WorkThread} {c₀ : Caller} (h : View s c w)
    (hc₀ : c₀ = .startCheck ∨ c₀ = .stopCheck) (hs : s.enter c₀ = some t) : c = none ∧ View t (some c₀) w ∧
      t.globals = { s.globals with mutex := true } := by
  unfold Native.enter at hs
  split at hs
  · nomatch hs
  rename_i hm
  rw [h.fits.mutex, Bool.not_eq_true, Option.isSome_eq_false_iff, Option.isNone_iff_eq_none] at hm
  subst hm
  cases hs
  refine ⟨rfl, ⟨?_, ⟨h.current.here, h.current.others⟩, h.fits.enter hc₀⟩, rfl⟩
  rw [h.callers]
  rfl

/-- A step keeps the view. -/
theorem View.step {s t : Native} {e : NativeEvent} {c : Option Caller} {w : WorkThread} (h : View s c w) (hs : s.step e = some t) :
    ∃ c' w', View t c' w' ∧ Moved s t e c w c' w' := by
  cases e with
  | startService =>
    obtain ⟨hc, hv, hg⟩ := h.enter (Or.inl rfl) hs
    exact ⟨_, w, hv, .enter hc (Or.inl rfl) rfl hg⟩
  | stopService =>
    obtain ⟨hc, hv, hg⟩ := h.enter (Or.inr rfl) hs
    exact ⟨_, w, hv, .enter hc (Or.inr rfl) rfl hg⟩
  | caller i ok =>
    simp only [Native.step, Option.bind_eq_bind, Option.bind_eq_some_iff] at hs
    obtain ⟨c₀, hc₀, ⟨g', c'⟩, hstep, ht⟩ := hs
    rw [h.callers] at hc₀ ht
    cases c with
    | none => nomatch hc₀
    | some c =>
      obtain _ | i := i
      · cases hc₀
        obtain ⟨w', hcur, hfit⟩ := fits_caller h.fits h.current hstep
        refine ⟨c', w', ?_⟩
        cases c' with
        | none =>
          cases ht
          exact ⟨⟨rfl, hcur, hfit⟩, .caller ok _ rfl rfl hstep⟩
        | some c' =>
          cases ht
          exact ⟨⟨rfl, hcur, hfit⟩, .caller ok _ rfl rfl hstep⟩
      · nomatch hc₀
  | worker i ok =>
    simp only [Native.step, Option.bind_eq_bind, Option.bind_eq_some_iff] at hs
    obtain ⟨v, hv, ⟨g', w'⟩, hstep, ht⟩ := hs
    have hv' : v ≠ .joined := by
      rintro rfl
      nomatch hstep
    obtain rfl : i = s.globals.workThread := (h.current.others i v hv).resolve_right hv'
    obtain rfl : w = v := by
      rw [← h.current.here, hv]
      rfl
    cases ht
    exact ⟨c, w', ⟨h.callers, current_worker h.current hv' hstep, (fits_worker h.fits hstep).set_workers _⟩,
      .worker ok g' rfl rfl hstep rfl⟩

end NativeAux

end Open365Vpn
