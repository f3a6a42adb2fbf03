import Open365Vpn.Lemmas.Native

/-!
# Start and stop in every order

In every order of the calls of Java threads and of the steps of the threads they make, no two calls and no two threads of the
tunnel are there at the same time, an event is written only where it can be, and a thread is joined once
(`native_threads_safe`).

A stop looks at `SYNC_SEND` and sets `SYNC_STOP` in two accesses. When the thread of the tunnel passes both flags between them it
never gets to know of the stop, which then waits for it with the mutex (`native_stop_returns`). A stop of a thread that fails
leaves `SYNC_STOP` behind, and the next thread takes it for its own (`native_stop_is_asked_for`).
-/

namespace Open365Vpn

open Runs

namespace NativeAux

theorem exec_view {es : List NativeEvent} {s : Native} (hx : exec Native.step Native.init es = some s) : ∃ c w, View s c w := by
  refine exec_invariant (fun s => ∃ c w, View s c w) ?_ ⟨none, .joined, view_init⟩ (meets_true _ _) hx
  rintro s e t ⟨c, w, h⟩ _ hs
  obtain ⟨c', w', h', _⟩ := h.step hs
  exact ⟨c', w', h'⟩

theorem View.mem_workers {s : Native} {c : Option Caller} {w v : WorkThread} (h : View s c w) (hv : v ∈ s.globals.workers)
    (hj : v ≠ .joined) : v = w := by
  obtain ⟨i, hi⟩ := List.mem_iff_getElem?.1 hv
  obtain rfl : i = s.globals.workThread := (h.current.others i v hi).resolve_right hj
  rw [← h.current.here, hi]
  rfl

theorem View.mem_self {s : Native} {c : Option Caller} {w : WorkThread} (h : View s c w) (hw : w ≠ .joined) :
    w ∈ s.globals.workers :=
  List.mem_of_getElem? (h.current.getElem? hw)

end NativeAux

open NativeAux

/-- The thread has been made and not been joined. -/
def Native.Unjoined (s : Native) (i : Nat) : Prop := ∃ w, s.globals.workers[i]? = some w ∧ w ≠ .joined

/-- After every run: one Java thread at most is inside of a call and one thread of the tunnel at most is not joined; no call has
written to a closed `event_fds` or joined a thread that is not there; between the calls `is_running` says whether the
thread has more to do than to return; and when there is none to be joined, `event_fds` are closed and the flags of a stop
cleared, but for `SYNC_STOP`. -/
theorem native_threads_safe (es : List NativeEvent) (s : Native) (hx : exec Native.step Native.init es = some s) :
    s.callers.length ≤ 1 ∧ .broken ∉ s.callers ∧ (∀ i j, s.Unjoined i → s.Unjoined j → i = j) ∧
      (s.callers = [] → (s.globals.isRunning = true ↔ ∃ w ∈ s.globals.workers, w.live = true)) ∧
      (s.globals.threadJoinable = false → s.globals.events = none ∧ s.globals.tsync.send = false ∧ s.globals.tsync.sent = false) := by
  obtain ⟨c, w, h⟩ := exec_view hx
  refine ⟨?_, ?_, ?_, ?_, ?_⟩
  · rw [h.callers]
    cases c <;> simp
  · rw [h.callers]
    rintro hb
    rw [Option.mem_toList] at hb
    cases hb
    exact h.fits.agrees
  · rintro i j ⟨v, hv, hvj⟩ ⟨v', hv', hvj'⟩
    rw [(h.current.others i v hv).resolve_right hvj, (h.current.others j v' hv').resolve_right hvj']
  · intro hc
    obtain rfl : c = none := by
      rw [h.callers] at hc
      cases c with
      | none => rfl
      | some c => cases hc
    rw [h.fits.running, show creating none = false from rfl, Bool.or_false]
    constructor
    · intro hl
      refine ⟨w, h.mem_self ?_, hl⟩
      rintro rfl
      cases hl
    · rintro ⟨v, hv, hl⟩
      rw [← h.mem_workers hv (by rintro rfl; cases hl)]
      exact hl
  · intro hj
    rw [h.fits.joinable, decide_eq_false_iff_not, not_not] at hj
    subst hj
    refine ⟨?_, h.fits.send false rfl, h.fits.unsent rfl⟩
    have := h.fits.opens false rfl
    rwa [Option.isSome_eq_false_iff, Option.isNone_iff_eq_none] at this

/-- A tunnel is started and serves. -/
theorem native_threads_safe_serving :
    ∃ s, exec Native.step Native.init [.startService, .caller 0 true, .caller 0 true, .caller 0 true, .caller 0 true, .worker 0 true,
        .worker 0 true, .worker 0 true, .worker 0 true] = some s ∧
      s.globals.workers = [.serving] ∧ ∀ i j, s.Unjoined i → s.Unjoined j → i = j := by
  refine ⟨_, rfl, rfl, ?_⟩
  exact (native_threads_safe [.startService, .caller 0 true, .caller 0 true, .caller 0 true, .caller 0 true, .worker 0 true,
    .worker 0 true, .worker 0 true, .worker 0 true] _ rfl).2.2.1

/-! ## A stop that is told too late -/

/-- The thread does not pass the look at `SYNC_STOP` while a stop has seen no `SYNC_SEND` and has not set `SYNC_STOP` yet. -/
def Native.StopsInTime (s : Native) : NativeEvent → Prop
  | .worker i _ => s.globals.workers[i]? = some .ready → .quit .unseen ∈ s.callers → s.globals.tsync.stop = true
  | _ => True

instance (s : Native) (e : NativeEvent) : Decidable (s.StopsInTime e) :=
  match e with
  | .startService => inferInstanceAs (Decidable True)
  | .stopService => inferInstanceAs (Decidable True)
  | .caller _ _ => inferInstanceAs (Decidable True)
  | .worker _ _ => inferInstanceAs (Decidable (_ → _ → _))

/-- A stop has returned: no thread is left, and no call is inside. -/
def Native.Stopped (s : Native) : Prop :=
  s.callers = [] ∧ s.globals.isRunning = false ∧ s.globals.events = none ∧ ∀ w ∈ s.globals.workers, w = .joined

namespace NativeAux

/-- The thread gets to know of the stop, or is behind the place where it waits for it. -/
def Doomed (w : WorkThread) (g : Globals) : Prop :=
  (w = .config ∨ w = .init ∨ w = .opened → g.tsync.stop = true) ∧
    (w = .ready → g.tsync.stop = true ∨ ∃ n, g.events = some (n + 1)) ∧ (w = .serving → ∃ n, g.events = some (n + 1))

theorem Doomed.worker {w w' : WorkThread} {g g' : Globals} {ok : Bool} (h : Doomed w g) (hs : w.step g ok = some (g', w')) :
    Doomed w' g' := by
  obtain ⟨h1, h2, h3⟩ := h
  unfold Doomed
  cases w with
  | config =>
    cases hs
    cases ok <;> grind
  | init | opened =>
    cases ok <;> (cases hs; grind)
  | ready | stopping | draining | fini | closing | exiting =>
    cases hs
    grind
  | serving =>
    simp only [WorkThread.step] at hs
    split at hs
    · cases hs
      grind
    · cases hs
  | terminated | joined => cases hs

/-- A thread that is not at its end makes a step when it gets to know of the stop. -/
theorem Doomed.possible {w : WorkThread} {g : Globals} (h : Doomed w g) (hw : w.live = true) :
    ∃ g' w', w.step g true = some (g', w') := by
  cases w with
  | serving =>
    obtain ⟨n, hn⟩ := h.2.2 rfl
    exact ⟨{ g with events := some (n + 1 - 4) }, .stopping, by simp only [WorkThread.step, hn]⟩
  | terminated | joined => cases hw
  | _ => exact ⟨_, _, rfl⟩

/-- What a run keeps in which every stop is told in time. -/
structure Told (c : Option Caller) (w : WorkThread) (g : Globals) : Prop where
  signalled : signalled c = true → Doomed w g
  unseen : c = some (.quit .unseen) → w ≠ .serving

/-- A caller that is not in a stop, or not so far, has nothing to be told. -/
theorem told_of_idle {c : Option Caller} {w : WorkThread} {g : Globals} (hs : NativeAux.signalled c = false)
    (hu : c ≠ some (.quit .unseen)) : Told c w g :=
  ⟨fun h => absurd (hs.symm.trans h) Bool.false_ne_true, fun h => absurd h hu⟩

theorem told_of_doomed {c : Option Caller} {w : WorkThread} {g : Globals} (hd : Doomed w g) (hu : c ≠ some (.quit .unseen)) :
    Told c w g :=
  ⟨fun _ => hd, fun h => absurd h hu⟩

/-- The thread is told by what is shared. -/
theorem Current.unique {g g' : Globals} {w w' : WorkThread} (h : Current g w) (h' : Current g' w') (hw : g'.workers = g.workers)
    (ht : g'.workThread = g.workThread) : w' = w := by
  rw [← h'.here, hw, ht, h.here]

/-- A step of the caller. -/
theorem Told.caller {s t : Native} {c₀ : Caller} {c' : Option Caller} {w w' : WorkThread} {ok : Bool} (h : View s (some c₀) w)
    (h' : View t c' w') (hi : Told (some c₀) w s.globals) (hs : c₀.step s.globals ok = some (t.globals, c')) :
    Told c' w' t.globals := by
  obtain ⟨g', callers'⟩ := t
  cases c₀ with
  | startCheck =>
    simp only [Caller.step] at hs
    split at hs
    · cases hs
      exact told_of_idle rfl (by simp)
    split at hs
    · cases hs
      exact told_of_idle rfl (by simp)
    · cases hs
      exact told_of_idle rfl (by simp)
  | startJoin =>
    obtain ⟨_, rfl, _⟩ := pthreadJoin_eq_some h.current (by rw [show w = .terminated from h.fits.agrees]; decide) hs
    exact told_of_idle rfl (by simp)
  | startPrepare | startCreate =>
    simp only [Caller.step] at hs
    split at hs
    · cases hs
      exact told_of_idle rfl (by simp)
    · cases hs
      exact told_of_idle rfl (by simp)
  | startUndo | stopStore | unlock result =>
    cases hs
    exact told_of_idle rfl (by simp)
  | stopCheck =>
    simp only [Caller.step] at hs
    split at hs
    · cases hs
      exact told_of_idle rfl (by simp)
    rename_i hj
    split at hs
    · cases hs
      exact told_of_idle rfl (by simp)
    · rename_i hr
      cases hs
      obtain rfl : w' = w := h.current.unique h'.current rfl rfl
      have hf := h.fits
      refine told_of_doomed ?_ (by simp)
      -- The thread is not joined and has stored to `is_running`.
      rw [hf.running, show creating (some .stopCheck) = false from rfl, Bool.or_false] at hr
      unfold Doomed
      cases w' <;> simp_all [WorkThread.live]
  | quit p =>
    cases p with
    | retry =>
      simp only [Caller.step] at hs
      split at hs
      · cases hs
        exact told_of_idle rfl (by simp)
      · cases hs
        obtain rfl : w' = w := h.current.unique h'.current rfl rfl
        refine ⟨?_, ?_⟩
        · intro hc
          split at hc <;> cases hc
        rintro hu rfl
        rw [h.fits.send true rfl] at hu
        cases hu
    | seen =>
      have hsent : s.globals.tsync.sent = false := by
        by_contra hn
        rw [Bool.not_eq_false] at hn
        rcases h.fits.sent hn with hc | hc <;> cases hc
      cases hs
      rw [hsent]
      exact told_of_idle rfl (by simp)
    | unseen =>
      cases hs
      obtain rfl : w' = w := h.current.unique h'.current rfl rfl
      exact told_of_doomed ⟨fun _ => rfl, fun _ => Or.inl rfl, fun hw => absurd hw (hi.unseen rfl)⟩ (by simp)
    | write =>
      simp only [Caller.step] at hs
      split at hs
      · cases hs
        exact told_of_idle rfl (by simp)
      · rename_i n hn
        cases hs
        obtain rfl : w' = w := h.current.unique h'.current rfl rfl
        obtain ⟨hw, _⟩ := h.fits.seen (Or.inr rfl)
        refine told_of_doomed ⟨?_, fun _ => Or.inr ⟨n, rfl⟩, fun _ => ⟨n, rfl⟩⟩ (by simp)
        rcases hw with rfl | rfl | rfl <;> rintro (hc | hc | hc) <;> cases hc
    | release =>
      cases hs
      obtain rfl : w' = w := h.current.unique h'.current rfl rfl
      exact told_of_doomed (hi.signalled rfl) (by simp)
  | stopJoin =>
    obtain ⟨_, rfl, _⟩ := pthreadJoin_eq_some h.current h.fits.agrees hs
    exact told_of_idle rfl (by simp)
  | broken => cases hs

/-- A step of the process that tells a stop in time. -/
theorem Told.step {s t : Native} {e : NativeEvent} {c c' : Option Caller} {w w' : WorkThread} (h : View s c w) (h' : View t c' w')
    (hm : Moved s t e c w c' w') (hi : Told c w s.globals) (hok : s.StopsInTime e) : Told c' w' t.globals := by
  cases hm with
  | enter hc hc' hw hg => rcases hc' with rfl | rfl <;> exact told_of_idle rfl (by simp)
  | caller ok c₀ he hc hs =>
    subst hc
    exact Told.caller h h' hi hs
  | worker ok g he hc hs hg =>
    subst hc
    rw [hg]
    refine ⟨?_, ?_⟩
    · intro hc
      have hd := (hi.signalled hc).worker hs
      exact ⟨hd.1, hd.2.1, hd.2.2⟩
    rintro rfl rfl
    have hready : w = .ready ∧ s.globals.tsync.stop = false := by
      cases w <;> simp only [WorkThread.step] at hs <;> grind
    have hcur := h.current.getElem? (by rw [hready.1]; decide)
    rw [hready.1] at hcur
    have hmem : Caller.quit .unseen ∈ s.callers := by
      rw [h.callers]
      exact List.mem_singleton_self _
    subst he
    have hstop := hok hcur hmem
    rw [hready.2] at hstop
    cases hstop

/-! ### What a stop waits for -/

/-- The steps that a thread that is told has before it. -/
def workRank : WorkThread → Nat
  | .config => 11
  | .init => 10
  | .opened => 9
  | .ready => 8
  | .serving => 7
  | .stopping => 6
  | .draining => 5
  | .fini => 4
  | .closing => 3
  | .exiting => 2
  | .terminated => 1
  | .joined => 0

/-- The steps that a stop has before it. -/
def callRank : Caller → Nat
  | .stopJoin => 3
  | .stopStore => 2
  | .unlock _ => 1
  | _ => 0

def rank (s : Native) : Nat :=
  workRank ((s.globals.workers[s.globals.workThread]?).getD .joined) + callRank (s.callers.headD .broken)

theorem View.rank_eq {s : Native} {c : Option Caller} {w : WorkThread} (h : View s c w) :
    rank s = workRank w + callRank (c.toList.headD .broken) := by
  rw [rank, h.current.here, h.callers]

theorem workRank_step {w w' : WorkThread} {g g' : Globals} {ok : Bool} (hwait : g.tsync.wait = false)
    (hs : w.step g ok = some (g', w')) : workRank w' < workRank w := by
  cases w with
  | config =>
    cases hs
    cases ok <;> decide
  | init | opened =>
    cases ok <;> (cases hs; decide)
  | ready =>
    cases hs
    split <;> decide
  | fini =>
    cases hs
    rw [hwait]
    decide
  | stopping | draining | closing | exiting =>
    cases hs
    decide
  | serving =>
    simp only [WorkThread.step] at hs
    split at hs
    · cases hs
      decide
    · cases hs
  | terminated | joined => cases hs

/-- A stop waits for a thread that is told, or comes to its end behind it. -/
def Ending (s : Native) : Prop :=
  ∃ c w, View s c w ∧ (c = some .stopJoin ∧ Doomed w s.globals ∨
    (c = some .stopStore ∨ (∃ r, c = some (.unlock r)) ∨ c = none) ∧ w = .joined)

/-- The thread makes a step of its own. -/
theorem View.run_worker {s : Native} {c : Option Caller} {w w' : WorkThread} {g : Globals} (ok : Bool) (h : View s c w)
    (hs : w.step s.globals ok = some (g, w')) :
    ∃ t, s.step (.worker s.globals.workThread ok) = some t ∧ View t c w' ∧ t.globals.tsync = g.tsync := by
  have hw : w ≠ .joined := by
    rintro rfl
    cases hs
  have hst : s.step (.worker s.globals.workThread ok) =
      some { s with globals := { g with workers := g.workers.set s.globals.workThread w' } } := by
    simp only [Native.step, h.current.getElem? hw, Option.bind_eq_bind, Option.bind_some, hs]
    rfl
  exact ⟨_, hst, ⟨h.callers, current_worker h.current hw hs, (fits_worker h.fits hs).set_workers _⟩, rfl⟩

/-- The caller makes a step of its own. -/
theorem View.run_caller {s : Native} {c : Caller} {c' : Option Caller} {w : WorkThread} {g : Globals} (ok : Bool)
    (h : View s (some c) w) (hs : c.step s.globals ok = some (g, c')) :
    ∃ t w', s.step (.caller 0 ok) = some t ∧ View t c' w' ∧ t.globals = g := by
  obtain ⟨w', hcur, hfit⟩ := fits_caller h.fits h.current hs
  have hst : s.step (.caller 0 ok) = some ⟨g, c'.toList⟩ := by
    have hc : s.callers[0]? = some c := by
      rw [h.callers]
      rfl
    simp only [Native.step, hc, Option.bind_eq_bind, Option.bind_some, hs]
    rw [h.callers]
    cases c' <;> rfl
  exact ⟨_, w', hst, ⟨rfl, hcur, hfit⟩, rfl⟩

theorem View.stopped {s : Native} (h : View s none .joined) : s.Stopped := by
  refine ⟨h.callers, h.fits.running, ?_, ?_⟩
  · have := h.fits.opens false rfl
    rwa [Option.isSome_eq_false_iff, Option.isNone_iff_eq_none] at this
  · intro v hv
    by_contra hj
    exact hj (h.mem_workers hv hj)

theorem Ending.possible {s : Native} (h : Ending s) (hn : ¬s.Stopped) : ∃ e t, s.step e = some t := by
  obtain ⟨c, w, hv, ⟨rfl, hd⟩ | ⟨rfl | ⟨r, rfl⟩ | rfl, rfl⟩⟩ := h
  · by_cases hl : w.live = true
    · obtain ⟨g, w', hs⟩ := hd.possible hl
      obtain ⟨t, ht, _⟩ := hv.run_worker true hs
      exact ⟨_, t, ht⟩
    · have hw : w = .terminated := by
        have := hv.fits.agrees
        cases w <;> simp_all [WorkThread.live, Agrees]
      subst hw
      have hj : s.globals.pthreadJoin .stopStore =
          some ({ s.globals with workers := s.globals.workers.set s.globals.workThread .joined, threadJoinable := false },
            some .stopStore) := by
        unfold Globals.pthreadJoin
        rw [hv.current.getElem? (by decide)]
      obtain ⟨t, _, ht, _⟩ := hv.run_caller true hj
      exact ⟨_, t, ht⟩
  · obtain ⟨t, _, ht, _⟩ := hv.run_caller true rfl
    exact ⟨_, t, ht⟩
  · obtain ⟨t, _, ht, _⟩ := hv.run_caller true rfl
    exact ⟨_, t, ht⟩
  · exact absurd hv.stopped hn

theorem Ending.step {s t : Native} {e : NativeEvent} (h : Ending s) (hn : ¬s.Stopped) (hs : s.step e = some t) :
    Ending t ∧ rank t < rank s := by
  obtain ⟨c, w, hv, hc⟩ := h
  obtain ⟨c', w', hv', hm⟩ := hv.step hs
  rw [hv.rank_eq, hv'.rank_eq]
  obtain ⟨rfl, hd⟩ | ⟨hc, rfl⟩ := hc
  · cases hm with
    | enter hc => cases hc
    | caller ok c₀ he hc hst =>
      cases hc
      obtain ⟨rfl, rfl, _⟩ := pthreadJoin_eq_some hv.current hv.fits.agrees hst
      obtain rfl : w' = .joined := hv'.fits.agrees
      exact ⟨⟨_, _, hv', Or.inr ⟨Or.inl rfl, rfl⟩⟩, by decide⟩
    | worker ok g he hc hst hg =>
      subst hc
      have hd' := hd.worker hst
      refine ⟨⟨_, _, hv', Or.inl ⟨rfl, ?_⟩⟩, Nat.add_lt_add_right (workRank_step hv.fits.wait hst) _⟩
      rw [hg]
      exact ⟨hd'.1, hd'.2.1, hd'.2.2⟩
  · cases hm with
    | enter hc₀ =>
      subst hc₀
      exact absurd hv.stopped hn
    | caller ok c₀ he hc₀ hst =>
      subst hc₀
      obtain ⟨g', callers'⟩ := t
      rcases hc with hc | ⟨r, hc⟩ | hc
      · cases hc
        cases hst
        obtain rfl : w' = .joined := hv.current.unique hv'.current rfl rfl
        exact ⟨⟨_, _, hv', Or.inr ⟨Or.inr (Or.inl ⟨_, rfl⟩), rfl⟩⟩, by decide⟩
      · cases hc
        cases hst
        obtain rfl : w' = .joined := hv.current.unique hv'.current rfl rfl
        exact ⟨⟨_, _, hv', Or.inr ⟨Or.inr (Or.inr rfl), rfl⟩⟩, Nat.zero_lt_one⟩
      · cases hc
    | worker ok g he hc' hst hg => cases hst

/-- A stop that has come to its join, of a thread that is told, returns in every order of the steps. -/
theorem Ending.mustLead {s : Native} (h : Ending s) : MustLead Native.step Native.Stopped s :=
  mustLead_of_measure Ending Native.Stopped rank (fun _ h hn => h.possible hn) (fun _ _ _ h hn hs => h.step hn hs) h

/-- A stop that waits for a thread that is not told: nothing moves any more. -/
theorem View.stuck {s : Native} (h : View s (some .stopJoin) .serving) (hev : s.globals.events = some 0) (e : NativeEvent) :
    s.step e = none := by
  rw [Option.eq_none_iff_forall_ne_some]
  intro t ht
  obtain ⟨c', w', _, hm⟩ := h.step ht
  cases hm with
  | enter hc => cases hc
  | caller ok c₀ he hc hs =>
    cases hc
    cases (pthreadJoin_eq_some h.current (by decide) hs).1
  | worker ok g he hc hs hg =>
    simp only [WorkThread.step, hev] at hs
    cases hs

/-- Beside a thread that waits for an event that nobody has sent only the call moves. -/
theorem View.alone {s t : Native} {c : Caller} {e : NativeEvent} (h : View s (some c) .serving) (hev : s.globals.events = some 0)
    (hs : s.step e = some t) : ∃ ok c' w', c.step s.globals ok = some (t.globals, c') ∧ View t c' w' := by
  obtain ⟨c', w', h', hm⟩ := h.step hs
  cases hm with
  | enter hc => cases hc
  | caller ok c₀ he hc hst =>
    cases hc
    exact ⟨ok, c', w', hst, h'⟩
  | worker ok g he hc hst hg =>
    simp only [WorkThread.step, hev] at hst
    cases hst

/-- A thread that has passed the look at `SYNC_STOP` before the stop sets it. -/
theorem View.hang {s : Native} (h : View s (some (.quit .unseen)) .serving) (hev : s.globals.events = some 0) :
    MustLead Native.step (fun u => u.callers = [.stopJoin] ∧ ∀ e, u.step e = none) s := by
  obtain ⟨s₁, _, hs₁, _⟩ := h.run_caller true rfl
  refine MustLead.next ⟨_, s₁, hs₁⟩ fun e t ht => ?_
  obtain ⟨ok, c₁, w₁, hst, h₁⟩ := h.alone hev ht
  obtain ⟨hg₁, rfl⟩ := Prod.mk.inj (Option.some.inj hst)
  obtain rfl : w₁ = .serving := h.current.unique h₁.current (by rw [← hg₁]) (by rw [← hg₁])
  have hev₁ : t.globals.events = some 0 := by
    rw [← hg₁]
    exact hev
  obtain ⟨s₂, _, hs₂, _⟩ := h₁.run_caller true rfl
  refine MustLead.next ⟨_, s₂, hs₂⟩ fun e' u hu => MustLead.now ?_
  obtain ⟨ok', c₂, w₂, hst', h₂⟩ := h₁.alone hev₁ hu
  obtain ⟨hg₂, rfl⟩ := Prod.mk.inj (Option.some.inj hst')
  obtain rfl : w₂ = .serving := h₁.current.unique h₂.current (by rw [← hg₂]) (by rw [← hg₂])
  refine ⟨h₂.callers, h₂.stuck ?_⟩
  rw [← hg₂]
  exact hev₁

end NativeAux

/-- In every run in which the thread of the tunnel does not pass the look at `SYNC_STOP` between the two accesses of a stop: a stop
that has come to its join returns whatever the order of the steps behind it is, and leaves no thread, no open `event_fds` and
`is_running` cleared. The condition is not too strong: a step that breaks it leads, in every order of the steps, to a state in which
the stop waits with the mutex and nothing moves any more. -/
theorem native_stop_returns (es : List NativeEvent) (hm : Meets Native.step Native.StopsInTime Native.init es) :
    (∀ pre s, pre <+: es → exec Native.step Native.init pre = some s → .stopJoin ∈ s.callers →
      MustLead Native.step Native.Stopped s) ∧
    ∀ s e t, exec Native.step Native.init es = some s → s.step e = some t → ¬s.StopsInTime e →
      MustLead Native.step (fun u => u.callers = [.stopJoin] ∧ ∀ e, u.step e = none) t := by
  constructor
  · rintro pre s ⟨post, rfl⟩ hx hj
    obtain ⟨c, w, hv, hi⟩ : ∃ c w, View s c w ∧ Told c w s.globals := by
      refine exec_invariant (fun s => ∃ c w, View s c w ∧ Told c w s.globals) ?_ ⟨none, .joined, view_init, told_of_idle rfl (by simp)⟩
        (meets_append.1 hm).1 hx
      rintro s e t ⟨c, w, hv, hi⟩ hok hs
      obtain ⟨c', w', hv', hmv⟩ := hv.step hs
      exact ⟨c', w', hv', Told.step hv hv' hmv hi hok⟩
    rw [hv.callers, Option.mem_toList] at hj
    cases hj
    exact Ending.mustLead ⟨_, w, hv, Or.inl ⟨rfl, hi.signalled rfl⟩⟩
  · intro s e t hx hs hn
    obtain ⟨c, w, hv⟩ := exec_view hx
    cases e with
    | startService | stopService | caller => exact absurd trivial hn
    | worker i ok =>
      simp only [Native.StopsInTime, not_forall] at hn
      obtain ⟨hready, hmem, hstop⟩ := hn
      rw [hv.callers, Option.mem_toList] at hmem
      cases hmem
      obtain ⟨c', w', hv', hmv⟩ := hv.step hs
      cases hmv with
      | enter hc => cases hc
      | caller ok c₀ he => cases he
      | worker ok g he hc hst hg =>
        cases he
        obtain rfl : w = .ready := by
          rw [← hv.current.here, hready]
          rfl
        cases hst
        rw [if_neg hstop] at hv'
        subst hc
        refine hv'.hang ?_
        rw [hg]
        obtain ⟨_ | n, hev⟩ := Option.isSome_iff_exists.1 (hv.fits.opens true rfl)
        · exact hev
        · cases (hv.fits.pending n hev).2

/-- The stop of a tunnel that is being started, when the thread comes to its run between the two accesses. -/
def lateStop : List NativeEvent :=
  [.startService, .caller 0 true, .caller 0 true, .caller 0 true, .caller 0 true, .worker 0 true, .worker 0 true, .stopService,
    .caller 0 true, .caller 0 true, .worker 0 true]

/-- The next step of the thread leaves the stop waiting for ever. -/
theorem native_stop_returns_lateStop :
    ∃ s t, exec Native.step Native.init lateStop = some s ∧ s.step (.worker 0 true) = some t ∧
      MustLead Native.step (fun u => u.callers = [.stopJoin] ∧ ∀ e, u.step e = none) t := by
  refine ⟨_, _, rfl, rfl, ?_⟩
  exact (native_stop_returns lateStop (by decide)).2 _ (.worker 0 true) _ rfl rfl (by decide)

/-! ## A stop that is left behind -/

/-- The thread is behind its run, or has failed before it. -/
def WorkThread.leaving : WorkThread → Bool
  | .fini => true
  | .closing => true
  | .exiting => true
  | .terminated => true
  | _ => false

/-- The thread is before its run. -/
def WorkThread.starting : WorkThread → Bool
  | .config => true
  | .init => true
  | .opened => true
  | _ => false

/-- A stop does not set `SYNC_STOP` for a thread that has failed, and a thread for which it is set does not fail. -/
def Native.FailsUnasked (s : Native) : NativeEvent → Prop
  | .caller i _ => s.callers[i]? = some (.quit .unseen) → ∀ w ∈ s.globals.workers, w.leaving = false
  | .worker i ok => ok = false → (s.globals.workers[i]?).any WorkThread.starting = true → s.globals.tsync.stop = false
  | _ => True

instance (s : Native) (e : NativeEvent) : Decidable (s.FailsUnasked e) :=
  match e with
  | .startService => inferInstanceAs (Decidable True)
  | .stopService => inferInstanceAs (Decidable True)
  | .caller _ _ => inferInstanceAs (Decidable (_ → _))
  | .worker _ _ => inferInstanceAs (Decidable (_ → _ → _))

/-- A thread that comes to its run finds `SYNC_STOP` only when a stop has set it that has not returned. -/
def Native.StopIsAskedFor (s : Native) : Prop :=
  .ready ∈ s.globals.workers → s.globals.tsync.stop = true → .quit .release ∈ s.callers ∨ .stopJoin ∈ s.callers

namespace NativeAux

/-- What a run keeps in which no stop is left behind. -/
def Asked (c : Option Caller) (w : WorkThread) (g : Globals) : Prop :=
  g.tsync.stop = true → signalled c = true ∧ (w.starting = true ∨ w = .ready ∨ w = .serving ∧ g.events = some 0)

/-- Only a stop that has seen no `SYNC_SEND` sets `SYNC_STOP`. -/
theorem caller_step_stop {c₀ : Caller} {c' : Option Caller} {g g' : Globals} {ok : Bool} (hc : c₀ ≠ .quit .unseen)
    (hs : c₀.step g ok = some (g', c')) : g'.tsync.stop = g.tsync.stop := by
  cases c₀ with
  | startCheck | startPrepare | startCreate | stopCheck =>
    simp only [Caller.step] at hs
    grind
  | startJoin | stopJoin =>
    simp only [Caller.step, Globals.pthreadJoin] at hs
    grind
  | startUndo | stopStore | unlock result =>
    cases hs
    rfl
  | quit p =>
    cases p with
    | retry | write =>
      simp only [Caller.step] at hs
      grind
    | seen | release =>
      cases hs
      rfl
    | unseen => exact absurd rfl hc
  | broken => cases hs

theorem Asked.caller {s t : Native} {c₀ : Caller} {c' : Option Caller} {w w' : WorkThread} {ok : Bool} (h : View s (some c₀) w)
    (h' : View t c' w') (hi : Asked (some c₀) w s.globals) (hs : c₀.step s.globals ok = some (t.globals, c'))
    (hok : c₀ = .quit .unseen → w.leaving = false) : Asked c' w' t.globals := by
  obtain ⟨g', callers'⟩ := t
  by_cases hc : c₀ = .quit .unseen
  · subst hc
    cases hs
    obtain rfl : w' = w := h.current.unique h'.current rfl rfl
    intro _
    refine ⟨rfl, ?_⟩
    -- The thread has not failed, is not joined, and has read no event.
    have hl := hok rfl
    have hj : w' ≠ .joined := h.fits.agrees
    have hstopping := h.fits.stopping
    cases w' with
    | config | init | opened => exact Or.inl rfl
    | ready => exact Or.inr (Or.inl rfl)
    | serving =>
      refine Or.inr (Or.inr ⟨rfl, ?_⟩)
      obtain ⟨_ | n, hev⟩ := Option.isSome_iff_exists.1 (h.fits.opens true rfl)
      · exact hev
      · cases (h.fits.pending n hev).2
    | stopping => cases hstopping (Or.inl rfl)
    | draining => cases hstopping (Or.inr rfl)
    | fini | closing | exiting | terminated => cases hl
    | joined => exact absurd rfl hj
  · intro hst
    rw [caller_step_stop hc hs] at hst
    obtain ⟨hsig, hw⟩ := hi hst
    cases c₀ with
    | quit p =>
      cases p with
      | release =>
        cases hs
        obtain rfl : w' = w := h.current.unique h'.current rfl rfl
        exact ⟨rfl, hw⟩
      | retry | seen | unseen | write => cases hsig
    | stopJoin =>
      obtain ⟨rfl, _⟩ := pthreadJoin_eq_some h.current h.fits.agrees hs
      rcases hw with hw | hw | ⟨hw, _⟩ <;> cases hw
    | startCheck | startJoin | startPrepare | startCreate | startUndo | stopCheck | stopStore | unlock | broken => cases hsig

theorem Asked.worker {w w' : WorkThread} {c : Option Caller} {g g' : Globals} {ok : Bool} (hi : Asked c w g)
    (hs : w.step g ok = some (g', w')) (hok : ok = false → w.starting = true → g.tsync.stop = false) : Asked c w' g' := by
  unfold Asked at hi ⊢
  cases w with
  | config | init | opened =>
    cases ok <;> (cases hs; simp_all [WorkThread.starting])
  | ready =>
    cases hs
    intro hf
    cases hf
  | stopping | draining | fini | closing | exiting =>
    cases hs
    simp_all [WorkThread.starting]
  | serving =>
    simp only [WorkThread.step] at hs
    split at hs
    · cases hs
      simp_all [WorkThread.starting]
    · cases hs
  | terminated | joined => cases hs

/-- A step of the process that leaves no stop behind. -/
theorem Asked.step {s t : Native} {e : NativeEvent} {c c' : Option Caller} {w w' : WorkThread} (h : View s c w) (h' : View t c' w')
    (hm : Moved s t e c w c' w') (hi : Asked c w s.globals) (hok : s.FailsUnasked e) : Asked c' w' t.globals := by
  cases hm with
  | enter hc hc' hw hg =>
    subst hc
    rw [hg]
    intro hst
    cases (hi hst).1
  | caller ok c₀ he hc hs =>
    subst hc he
    refine Asked.caller h h' hi hs ?_
    rintro rfl
    by_cases hw : w = .joined
    · rw [hw]
      rfl
    · exact hok (by rw [h.callers]; rfl) w (h.mem_self hw)
  | worker ok g he hc hs hg =>
    subst hc he
    rw [hg]
    have hw : w ≠ .joined := by
      rintro rfl
      cases hs
    have hasked : Asked c' w' g := by
      refine Asked.worker hi hs ?_
      intro hf hst
      refine hok hf ?_
      rw [h.current.getElem? hw]
      exact hst
    exact hasked

/-! ### The next thread takes it for its own -/

/-- The property does not hold. -/
def Unasked (s : Native) : Prop := ¬s.StopIsAskedFor

theorem View.unasked_ready {s : Native} (h : View s none .ready) (hst : s.globals.tsync.stop = true) : Unasked s := by
  intro hp
  have := hp (h.mem_self (by decide)) hst
  rw [h.callers] at this
  rcases this with hc | hc <;> cases hc

/-- A new thread comes to its run. -/
theorem View.unasked_config {s : Native} (h : View s none .config) (hst : s.globals.tsync.stop = true) :
    MayLead Native.step Unasked s := by
  obtain ⟨s₁, hs₁, h₁, ht₁⟩ := h.run_worker true rfl
  obtain ⟨s₂, hs₂, h₂, ht₂⟩ := h₁.run_worker true rfl
  obtain ⟨s₃, hs₃, h₃, ht₃⟩ := h₂.run_worker true rfl
  have hst₃ : s₃.globals.tsync.stop = true := by rw [ht₃]; change s₂.globals.tsync.stop = true; rw [ht₂, ht₁]; exact hst
  exact MayLead.of_step hs₁ (MayLead.of_step hs₂ (MayLead.of_step hs₃ (MayLead.now (h₃.unasked_ready hst₃))))

/-- A call of `TProxyStartService` makes a new thread. -/
theorem View.unasked_joined {s : Native} (h : View s none .joined) (hst : s.globals.tsync.stop = true) :
    MayLead Native.step Unasked s := by
  have hs₀ : s.step .startService = some ⟨{ s.globals with mutex := true }, s.callers ++ [.startCheck]⟩ := by
    have hm : s.globals.mutex = false := h.fits.mutex
    simp only [Native.step, Native.enter, hm]
    rfl
  obtain ⟨_, h₀, _⟩ := h.enter (Or.inl rfl) hs₀
  have hcheck : Caller.startCheck.step { s.globals with mutex := true } true =
      some ({ s.globals with mutex := true }, some .startPrepare) := by
    have hr : s.globals.isRunning = false := h.fits.running
    have hj : s.globals.threadJoinable = false := h.fits.joinable
    simp only [Caller.step, hr, hj]
    rfl
  obtain ⟨s₁, w₁, hs₁, h₁, hg₁⟩ := h₀.run_caller true hcheck
  obtain ⟨s₂, w₂, hs₂, h₂, hg₂⟩ := h₁.run_caller true rfl
  obtain ⟨s₃, w₃, hs₃, h₃, hg₃⟩ := h₂.run_caller true rfl
  obtain rfl : w₃ = .config := by
    rw [← h₃.current.here, hg₃]
    simp
  obtain ⟨s₄, w₄, hs₄, h₄, hg₄⟩ := h₃.run_caller true rfl
  obtain rfl : w₄ = .config := h₃.current.unique h₄.current (by rw [hg₄]) (by rw [hg₄])
  have hst₄ : s₄.globals.tsync.stop = true := by
    rw [hg₄, hg₃, hg₂, hg₁]
    exact hst
  exact MayLead.of_step hs₀ (MayLead.of_step hs₁ (MayLead.of_step hs₂ (MayLead.of_step hs₃ (MayLead.of_step hs₄
    (h₄.unasked_config hst₄)))))

/-- The stop returns. -/
theorem View.unasked_terminated {s : Native} (h : View s (some .stopJoin) .terminated) (hst : s.globals.tsync.stop = true) :
    MayLead Native.step Unasked s := by
  have hj : Caller.stopJoin.step s.globals true =
      some ({ s.globals with workers := s.globals.workers.set s.globals.workThread .joined, threadJoinable := false },
        some .stopStore) := by
    simp only [Caller.step, Globals.pthreadJoin, h.current.getElem? (by decide)]
  obtain ⟨s₁, w₁, hs₁, h₁, hg₁⟩ := h.run_caller true hj
  obtain rfl : w₁ = .joined := h₁.fits.agrees
  obtain ⟨s₂, w₂, hs₂, h₂, hg₂⟩ := h₁.run_caller true rfl
  obtain rfl : w₂ = .joined := h₁.current.unique h₂.current (by rw [hg₂]) (by rw [hg₂])
  obtain ⟨s₃, w₃, hs₃, h₃, hg₃⟩ := h₂.run_caller true rfl
  obtain rfl : w₃ = .joined := h₂.current.unique h₃.current (by rw [hg₃]) (by rw [hg₃])
  have hst₃ : s₃.globals.tsync.stop = true := by
    rw [hg₃, hg₂, hg₁]
    exact hst
  exact MayLead.of_step hs₁ (MayLead.of_step hs₂ (MayLead.of_step hs₃ (h₃.unasked_joined hst₃)))

/-- A thread that has failed, and for which `SYNC_STOP` is set, comes to its end. -/
theorem View.unasked_leaving {s : Native} {w : WorkThread} (h : View s (some .stopJoin) w) (hw : w.leaving = true)
    (hst : s.globals.tsync.stop = true) : MayLead Native.step Unasked s := by
  generalize hn : workRank w = n
  induction n using Nat.strongRecOn generalizing s w with
  | _ n ih =>
    have hwait : s.globals.tsync.wait = false := h.fits.wait
    have next {g : Globals} {w' : WorkThread} (hs : w.step s.globals true = some (g, w')) (hw' : w'.leaving = true)
        (hg : g.tsync.stop = true) : MayLead Native.step Unasked s := by
      obtain ⟨t, ht, h', htsync⟩ := h.run_worker true hs
      exact MayLead.of_step ht (ih _ (hn ▸ workRank_step hwait hs) h' hw' (by rw [htsync]; exact hg) rfl)
    cases w with
    | fini => exact next rfl (by rw [hwait]; rfl) hst
    | closing => exact next rfl rfl hst
    | exiting => exact next rfl rfl hst
    | terminated => exact h.unasked_terminated hst
    | config | init | opened | ready | serving | stopping | draining | joined => cases hw

/-- A stop that has set `SYNC_STOP` for a thread that has failed. -/
theorem View.unasked_signalled {s : Native} {c : Option Caller} {w : WorkThread} (h : View s c w) (hc : signalled c = true)
    (hw : w.leaving = true) (hst : s.globals.tsync.stop = true) : MayLead Native.step Unasked s := by
  obtain _ | c := c
  · cases hc
  cases c with
  | stopJoin => exact h.unasked_leaving hw hst
  | quit p =>
    cases p with
    | release =>
      obtain ⟨s₁, w₁, hs₁, h₁, hg₁⟩ := h.run_caller true rfl
      obtain rfl : w₁ = w := h.current.unique h₁.current (by rw [hg₁]) (by rw [hg₁])
      exact MayLead.of_step hs₁ (h₁.unasked_leaving hw (by rw [hg₁]; exact hst))
    | retry | seen | unseen | write => cases hc
  | startCheck | startJoin | startPrepare | startCreate | startUndo | stopCheck | stopStore | unlock | broken => cases hc

/-- A step that breaks the condition. -/
theorem Asked.unasked {s t : Native} {e : NativeEvent} {c : Option Caller} {w : WorkThread} (h : View s c w)
    (hi : Asked c w s.globals) (hn : ¬s.FailsUnasked e) (hs : s.step e = some t) : MayLead Native.step Unasked t := by
  obtain ⟨c', w', h', hm⟩ := h.step hs
  cases hm with
  | enter hc hc' hw hg =>
    cases e with
    | startService | stopService => exact absurd trivial hn
    | caller i ok =>
      simp only [Native.step, h.callers, hc] at hs
      cases hs
    | worker i ok =>
      simp only [Native.FailsUnasked, not_forall] at hn
      obtain ⟨_, _, hstop⟩ := hn
      rw [Bool.not_eq_false] at hstop
      rw [hc] at hi
      cases (hi hstop).1
  | caller ok c₀ he hc hst =>
    subst he hc
    simp only [Native.FailsUnasked, not_forall] at hn
    obtain ⟨hc₀, v, hv, hl⟩ := hn
    rw [h.callers] at hc₀
    cases hc₀
    rw [Bool.not_eq_false] at hl
    obtain rfl : v = w := h.mem_workers hv (by rintro rfl; cases hl)
    obtain ⟨g', callers'⟩ := t
    cases hst
    obtain rfl : w' = v := h.current.unique h'.current rfl rfl
    exact h'.unasked_signalled rfl hl rfl
  | worker ok g he hc hst hg =>
    subst he hc
    have hw : w ≠ .joined := by
      rintro rfl
      cases hst
    simp only [Native.FailsUnasked, not_forall, h.current.getElem? hw] at hn
    obtain ⟨rfl, hstart, hstop⟩ := hn
    rw [Bool.not_eq_false] at hstop
    have hstart : w.starting = true := hstart
    have hfail : w'.leaving = true ∧ g.tsync = s.globals.tsync := by
      cases w with
      | config | init | opened =>
        cases hst
        exact ⟨rfl, rfl⟩
      | ready | serving | stopping | draining | fini | closing | exiting | terminated | joined => cases hstart
    refine h'.unasked_signalled (hi hstop).1 hfail.1 ?_
    rw [hg]
    change g.tsync.stop = true
    rw [hfail.2]
    exact hstop

end NativeAux

/-- In every run in which no stop sets `SYNC_STOP` for a thread that has failed and no thread fails for which it is set: a thread
that comes to its run finds `SYNC_STOP` only when a stop that waits for it has set it, so a tunnel that has been started runs
until it is stopped. The condition is not too strong: a step that breaks it leaves the flag behind, and the thread of a later
start may find it though nobody asks for a stop. -/
theorem native_stop_is_asked_for (es : List NativeEvent) (hm : Meets Native.step Native.FailsUnasked Native.init es) :
    (∀ pre s, pre <+: es → exec Native.step Native.init pre = some s → s.StopIsAskedFor) ∧
    ∀ s e t, exec Native.step Native.init es = some s → s.step e = some t → ¬s.FailsUnasked e →
      MayLead Native.step (fun u => ¬u.StopIsAskedFor) t := by
  refine Meets.safe_and_tight (fun s => ∃ c w, View s c w ∧ Asked c w s.globals) Native.StopIsAskedFor ?_ ?_ ?_
    ⟨none, .joined, view_init, fun h => absurd h Bool.false_ne_true⟩ hm
  · rintro s e t ⟨c, w, hv, hi⟩ hok hs
    obtain ⟨c', w', hv', hmv⟩ := hv.step hs
    exact ⟨c', w', hv', Asked.step hv hv' hmv hi hok⟩
  · rintro s ⟨c, w, hv, hi⟩ hready hstop
    have hsig := (hi hstop).1
    rw [hv.callers]
    cases c with
    | none => cases hsig
    | some c =>
      cases c with
      | stopJoin => exact Or.inr (List.mem_singleton_self _)
      | quit p =>
        cases p with
        | release => exact Or.inl (List.mem_singleton_self _)
        | retry | seen | unseen | write => cases hsig
      | startCheck | startJoin | startPrepare | startCreate | startUndo | stopCheck | stopStore | unlock | broken => cases hsig
  · rintro s e t ⟨c, w, hv, hi⟩ hn hs
    exact Asked.unasked hv hi hn hs

/-- A tunnel fails to start while it is being stopped. -/
def stopOfFailed : List NativeEvent :=
  [.startService, .caller 0 true, .caller 0 true, .caller 0 true, .caller 0 true, .worker 0 true, .stopService, .caller 0 true,
    .caller 0 true, .worker 0 false]

/-- The next step of the stop leaves `SYNC_STOP` behind. -/
theorem native_stop_is_asked_for_stopOfFailed :
    ∃ s t, exec Native.step Native.init stopOfFailed = some s ∧ s.step (.caller 0 true) = some t ∧
      MayLead Native.step (fun u => ¬u.StopIsAskedFor) t := by
  refine ⟨_, _, rfl, rfl, ?_⟩
  exact (native_stop_is_asked_for stopOfFailed (by decide)).2 _ (.caller 0 true) _ rfl rfl (by decide)

end Open365Vpn
