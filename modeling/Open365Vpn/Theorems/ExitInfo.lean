import Open365Vpn.Probe

/-!
# Whose exit information is shown

A switch of nodes goes from `Connected` over `Connecting` to `Connected`, and the collector clears the exit information only
on `Disconnected` and `Failed`. So what is shown after the switch is replaced only by a query that succeeds, and the query
that the collector launches may be turned down by the rate limit, or fail, or be overtaken by an older one.
`exit_info_current_iff` says exactly when the information shown is that of the current connection.
-/

namespace Open365Vpn

open Kotlin Runs

/-- The connections a query in flight had seen when it began. -/
def QueryStage.began? : QueryStage → Option Nat
  | .inFlight began => some began
  | .launched | .returned => none

namespace NetworkProbe

/-- The query that the collector launched for the current connection, if the state is `Connected` and it has handled it. -/
def currentQuery (s : NetworkProbe) : Option Nat :=
  match s.connState, s.handled with
  | .connected _, some (c, q) => if c = s.connections then some q else none
  | _, _ => none

/-- The query has returned. -/
def returned (s : NetworkProbe) (q : Nat) : Bool := (s.queries[q]?).any fun query => query.stage == .returned

/-- The exit information is null, or it was written by a query that began after the last change to `Connected`. -/
def upToDate (s : NetworkProbe) : Bool := s.exitInfo.all fun e => e.2 == s.connections

/-- Once the query that the collector launched for the current connection has returned, the exit information is up to date. -/
def ShowsCurrent (s : NetworkProbe) : Prop := ∀ q, s.currentQuery = some q → s.returned q = true → s.upToDate = true

end NetworkProbe

open NetworkProbe

/-- What an observer remembers: the connection in which the query had begun that was the last to be answered, until the collector
handles `Disconnected` or `Failed`. -/
def lastAnswered (s : NetworkProbe) (ev : ProbeEvent) (_ : NetworkProbe) (last : Option Nat) : Option Nat :=
  match ev with
  | .collect =>
    match s.connState with
    | .disconnected | .failed _ => none
    | .connected _ | .connecting _ => last
  | .complete q (some _) => ((s.queries[q]?).bind fun query => query.stage.began?).or last
  | .complete _ none | .setConnState _ | .refreshExitInfo | .tick _ | .begin _ => last

/-- When the collector's query for the current connection is turned down or fails, no query has been answered since the collector
has last handled `Disconnected` or `Failed`, or the last that was had begun in this connection; and once the collector's query has
returned, no query that began before the connection succeeds. -/
def AnswersInTime (s : NetworkProbe × Option Nat) : ProbeEvent → Prop
  | .begin q =>
    ∀ query ∈ s.1.queries[q]?, query.stage = .launched → s.1.limited query = true → s.1.currentQuery = some q →
      ∀ began ∈ s.2, began = s.1.connections
  | .complete q none =>
    ∀ query ∈ s.1.queries[q]?, query.stage.began?.isSome = true → s.1.currentQuery = some q → ∀ began ∈ s.2, began = s.1.connections
  | .complete q (some _) =>
    ∀ query ∈ s.1.queries[q]?, ∀ began ∈ query.stage.began?, ∀ r ∈ s.1.currentQuery, s.1.returned r = true →
      began = s.1.connections
  | .setConnState _ | .collect | .refreshExitInfo | .tick _ => True

namespace ExitInfoAux

/-- The condition on the state alone: the collector's query is turned down or fails only while the information is up to date. -/
def UpToDateInTime (s : NetworkProbe) : ProbeEvent → Prop
  | .begin q =>
    ∀ query ∈ s.queries[q]?, query.stage = .launched → s.limited query = true → s.currentQuery = some q → s.upToDate = true
  | .complete q none => ∀ query ∈ s.queries[q]?, query.stage.began?.isSome = true → s.currentQuery = some q → s.upToDate = true
  | .complete q (some _) =>
    ∀ query ∈ s.queries[q]?, ∀ began ∈ query.stage.began?, ∀ r ∈ s.currentQuery, s.returned r = true → began = s.connections
  | .setConnState _ | .collect | .refreshExitInfo | .tick _ => True

/-- The invariant: the information is current; the collector has handled a connection that there was, and its query exists;
and that query, when it is in flight for the current connection, began in it. -/
structure Inv (s : NetworkProbe) : Prop where
  current : s.ShowsCurrent
  handled : ∀ c q, s.handled = some (c, q) → c ≤ s.connections ∧ q < s.queries.length
  began : ∀ q query b, s.handled = some (s.connections, q) → s.queries[q]? = some query → query.stage = .inFlight b →
    b = s.connections

theorem inv_create (now : Int) : Inv (.create now) := ⟨nofun, nofun, nofun⟩

/-- The collector has handled the current connection. -/
theorem handled_of_currentQuery {s : NetworkProbe} {q : Nat} (h : s.currentQuery = some q) :
    (∃ label, s.connState = .connected label) ∧ s.handled = some (s.connections, q) := by
  unfold currentQuery at h
  split at h
  · rename_i label c q' hc hh
    split at h
    · rename_i he
      refine ⟨⟨label, hc⟩, ?_⟩
      rw [hh, he, Option.some.inj h]
    · cases h
  · cases h

/-! ## Queries under a change of stage -/

theorem getElem?_setStage (s : NetworkProbe) (q r : Nat) (stage : QueryStage) :
    (s.setStage q stage).queries[r]? =
      if q = r then (s.queries[r]?).map fun query => { query with stage := stage } else s.queries[r]? := by
  rw [setStage, List.getElem?_modify]
  by_cases h : q = r
  · simp [h]
  · simp [h]

theorem length_setStage (s : NetworkProbe) (q : Nat) (stage : QueryStage) :
    (s.setStage q stage).queries.length = s.queries.length :=
  List.length_modify _ _ _

theorem returned_setStage_of_ne {s : NetworkProbe} {q r : Nat} (h : q ≠ r) (stage : QueryStage) :
    (s.setStage q stage).returned r = s.returned r := by
  rw [returned, getElem?_setStage, if_neg h]
  rfl

theorem returned_setStage_inFlight (s : NetworkProbe) (q b : Nat) : (s.setStage q (.inFlight b)).returned q = false := by
  rw [returned, getElem?_setStage, if_pos rfl]
  cases s.queries[q]? <;> rfl

theorem returned_setStage_returned {s : NetworkProbe} {q : Nat} {query : Query} (h : s.queries[q]? = some query) :
    (s.setStage q .returned).returned q = true := by
  rw [returned, getElem?_setStage, if_pos rfl, h]
  rfl

/-- The last two parts of the invariant when a query returns. -/
theorem Inv.began_returned {s : NetworkProbe} (h : Inv s) (q : Nat) (r : Nat) (query : Query) (b : Nat)
    (hh : s.handled = some (s.connections, r)) (hq : (s.setStage q .returned).queries[r]? = some query)
    (hb : query.stage = .inFlight b) : b = s.connections := by
  rw [getElem?_setStage] at hq
  split at hq
  · obtain ⟨query', -, rfl⟩ := Option.map_eq_some_iff.1 hq
    cases hb
  · exact h.began r query b hh hq hb

theorem Inv.handled_setStage {s : NetworkProbe} (h : Inv s) (q : Nat) (stage : QueryStage) (c r : Nat)
    (hh : s.handled = some (c, r)) : c ≤ s.connections ∧ r < (s.setStage q stage).queries.length := by
  rw [length_setStage]
  exact h.handled c r hh

/-- A query that returns without an answer. -/
theorem Inv.returned {s : NetworkProbe} (h : Inv s) {q : Nat} (hok : s.currentQuery = some q → s.upToDate = true) :
    Inv (s.setStage q .returned) := by
  refine ⟨fun r hr hret => ?_, h.handled_setStage q _, h.began_returned q⟩
  have hr' : s.currentQuery = some r := hr
  have hgoal : s.upToDate = true := by
    by_cases hqr : q = r
    · subst hqr
      exact hok hr'
    · rw [returned_setStage_of_ne hqr] at hret
      exact h.current r hr' hret
  exact hgoal

/-! ## Steps -/

/-- A write to the state flow. -/
theorem inv_setConnState {s : NetworkProbe} (h : Inv s) (state : ConnState) : Inv (s.setConnState state) := by
  unfold setConnState
  split
  · exact h
  · split
    · -- a new connection: the collector has not handled it yet
      have hnew : ∀ q, s.handled ≠ some (s.connections + 1, q) := by
        intro q hq
        have := (h.handled _ _ hq).1
        omega
      refine ⟨fun q hq => absurd (handled_of_currentQuery hq).2 (hnew q), fun c q hh => ?_, fun q query b hh => ?_⟩
      · obtain ⟨h1, h2⟩ := h.handled c q hh
        exact ⟨Nat.le_succ_of_le h1, h2⟩
      · exact absurd hh (hnew q)
    · rename_i hne
      refine ⟨fun q hq => ?_, h.handled, h.began⟩
      obtain ⟨label, hl⟩ := (handled_of_currentQuery hq).1
      exact absurd hl (hne label)

/-- A query more, launched by the user. -/
theorem inv_launch {s : NetworkProbe} (h : Inv s) (force : Bool) : Inv (s.launch force) := by
  have hold : ∀ q, q < s.queries.length → (s.launch force).queries[q]? = s.queries[q]? := by
    intro q hq
    rw [launch, List.getElem?_append_left hq]
  refine ⟨fun q hq hret => ?_, fun c q hh => ?_, fun q query b hh hq hb => ?_⟩
  · have hq' : s.currentQuery = some q := hq
    have hlt := (h.handled _ _ (handled_of_currentQuery hq').2).2
    have hret' : s.returned q = true := by
      rw [NetworkProbe.returned, hold q hlt] at hret
      exact hret
    exact h.current q hq' hret'
  · obtain ⟨h1, h2⟩ := h.handled c q hh
    refine ⟨h1, ?_⟩
    rw [launch, List.length_append]
    omega
  · rw [hold q (h.handled _ _ hh).2] at hq
    exact h.began q query b hh hq hb

/-- The collector gets its turn. -/
theorem inv_collect {s : NetworkProbe} (h : Inv s) : Inv s.collect := by
  unfold NetworkProbe.collect
  split
  · -- the query it launches has not returned
    have hnew : (s.launch false).queries[s.queries.length]? = some ⟨false, .launched⟩ := by
      rw [launch, List.getElem?_append_right (Nat.le_refl _), Nat.sub_self]
      rfl
    refine ⟨fun q hq hret => ?_, fun c q hh => ?_, fun q query b hh hq hb => ?_⟩
    · have hh := (handled_of_currentQuery hq).2
      obtain ⟨-, rfl⟩ := Prod.mk.inj (Option.some.inj hh)
      have hret' : (s.launch false).returned s.queries.length = true := hret
      rw [NetworkProbe.returned, hnew] at hret'
      cases hret'
    · obtain ⟨rfl, rfl⟩ := Prod.mk.inj (Option.some.inj hh)
      refine ⟨Nat.le_refl _, ?_⟩
      simp [launch]
    · obtain ⟨-, rfl⟩ := Prod.mk.inj (Option.some.inj hh)
      have hq' : (s.launch false).queries[s.queries.length]? = some query := hq
      rw [hnew] at hq'
      rw [← Option.some.inj hq'] at hb
      cases hb
  · exact ⟨fun _ _ _ => rfl, h.handled, h.began⟩
  · exact ⟨fun _ _ _ => rfl, h.handled, h.began⟩
  · exact ⟨h.current, h.handled, h.began⟩

/-- A query begins. -/
theorem inv_begin {s : NetworkProbe} (h : Inv s) {q : Nat} {query : Query}
    (hok : s.limited query = true → s.currentQuery = some q → s.upToDate = true) : Inv (s.begin q query) := by
  unfold NetworkProbe.begin
  split
  · rename_i hl
    exact h.returned (hok hl)
  · refine ⟨fun r hr hret => ?_, h.handled_setStage q _, fun r query' b hh hr hb => ?_⟩
    · have hr' : s.currentQuery = some r := hr
      have hret' : (s.setStage q (.inFlight s.connections)).returned r = true := hret
      have hne : q ≠ r := by
        rintro rfl
        rw [returned_setStage_inFlight] at hret'
        cases hret'
      rw [returned_setStage_of_ne hne] at hret'
      exact h.current r hr' hret'
    · have hr' : (s.setStage q (.inFlight s.connections)).queries[r]? = some query' := hr
      rw [getElem?_setStage] at hr'
      split at hr'
      · obtain ⟨query'', -, rfl⟩ := Option.map_eq_some_iff.1 hr'
        exact (QueryStage.inFlight.inj hb).symm
      · exact h.began r query' b hh hr' hb

/-- The server of a query answers. -/
theorem inv_complete {s : NetworkProbe} (h : Inv s) {q began : Nat} {query : Query} {answer : Option ExitInfo}
    (hq : s.queries[q]? = some query) (hb : query.stage = .inFlight began) (hok : UpToDateInTime s (.complete q answer)) :
    Inv (s.complete q began answer) := by
  cases answer with
  | none => exact h.returned (hok query hq (by rw [hb]; rfl))
  | some info =>
    refine ⟨fun r hr hret => ?_, h.handled_setStage q _, h.began_returned q⟩
    have hr' : s.currentQuery = some r := hr
    have hret' : (s.setStage q .returned).returned r = true := hret
    have hbegan : began = s.connections := by
      by_cases hqr : q = r
      · subst hqr
        exact h.began q query began (handled_of_currentQuery hr').2 hq hb
      · rw [returned_setStage_of_ne hqr] at hret'
        exact hok query hq began (by rw [hb]; rfl) r hr' hret'
    exact beq_iff_eq.2 hbegan

/-- What it takes for a query to begin, and to be answered. -/
theorem step_begin {s t : NetworkProbe} {q : Nat} (h : s.step (.begin q) = some t) :
    ∃ query, s.queries[q]? = some query ∧ query.stage = .launched ∧ t = s.begin q query := by
  obtain ⟨query, hq, h⟩ := Option.bind_eq_some_iff.1 h
  split at h
  · rename_i hs
    exact ⟨query, hq, hs, (Option.some.inj h).symm⟩
  · cases h
  · cases h

theorem step_complete {s t : NetworkProbe} {q : Nat} {answer : Option ExitInfo} (h : s.step (.complete q answer) = some t) :
    ∃ query began, s.queries[q]? = some query ∧ query.stage = .inFlight began ∧ t = s.complete q began answer := by
  obtain ⟨query, hq, h⟩ := Option.bind_eq_some_iff.1 h
  split at h
  · rename_i began hs
    exact ⟨query, began, hq, hs, (Option.some.inj h).symm⟩
  · cases h
  · cases h

/-- Every event keeps the invariant. -/
theorem inv_step {s t : NetworkProbe} {ev : ProbeEvent} (h : Inv s) (hok : UpToDateInTime s ev) (hs : s.step ev = some t) :
    Inv t := by
  cases ev with
  | setConnState state =>
    obtain rfl := Option.some.inj hs
    exact inv_setConnState h state
  | collect =>
    simp only [NetworkProbe.step] at hs
    split at hs
    · cases hs
    · obtain rfl := Option.some.inj hs
      exact inv_collect h
  | refreshExitInfo =>
    obtain rfl := Option.some.inj hs
    exact inv_launch h true
  | tick ms =>
    obtain rfl := Option.some.inj hs
    exact ⟨h.current, h.handled, h.began⟩
  | begin q =>
    obtain ⟨query, hq, hst, rfl⟩ := step_begin hs
    exact inv_begin h (hok query hq hst)
  | complete q answer =>
    obtain ⟨query, began, hq, hb, rfl⟩ := step_complete hs
    exact inv_complete h hq hb hok

/-- A query that returns without an answer while the information is of an earlier connection. -/
theorem not_showsCurrent_returned {s : NetworkProbe} {q : Nat} {query : Query} (hq : s.queries[q]? = some query)
    (hc : s.currentQuery = some q) (hn : s.upToDate ≠ true) : ¬(s.setStage q .returned).ShowsCurrent :=
  fun hP => hn (hP q hc (returned_setStage_returned hq))

/-- A step that breaks the condition shows at once. -/
theorem not_showsCurrent_of_not {s : NetworkProbe} {ev : ProbeEvent} (hn : ¬UpToDateInTime s ev) :
    ∃ t, s.step ev = some t ∧ ¬t.ShowsCurrent := by
  cases ev with
  | begin q =>
    simp only [UpToDateInTime, not_forall] at hn
    obtain ⟨query, hq, hst, hl, hc, hup⟩ := hn
    have hq' : s.queries[q]? = some query := hq
    refine ⟨s.setStage q .returned, ?_, not_showsCurrent_returned hq' hc hup⟩
    simp [NetworkProbe.step, hq', hst, NetworkProbe.begin, hl]
  | complete q answer =>
    cases answer with
    | none =>
      simp only [UpToDateInTime, not_forall] at hn
      obtain ⟨query, hq, hst, hc, hup⟩ := hn
      have hq' : s.queries[q]? = some query := hq
      refine ⟨s.setStage q .returned, ?_, not_showsCurrent_returned hq' hc hup⟩
      cases hstage : query.stage with
      | inFlight began => simp [NetworkProbe.step, hq', hstage, NetworkProbe.complete]
      | launched | returned =>
        rw [hstage] at hst
        cases hst
    | some info =>
      simp only [UpToDateInTime, not_forall] at hn
      obtain ⟨query, hq, began, hb, r, hr, hret, hne⟩ := hn
      have hq' : s.queries[q]? = some query := hq
      have hstage : query.stage = .inFlight began := by
        cases hst : query.stage with
        | inFlight b =>
          rw [hst] at hb
          rw [Option.some.inj hb]
        | launched | returned =>
          rw [hst] at hb
          cases hb
      refine ⟨s.complete q began (some info), by simp [NetworkProbe.step, hq', hstage], fun hP => ?_⟩
      have hret' : (s.setStage q .returned).returned r = true := by
        by_cases hqr : q = r
        · subst hqr
          exact returned_setStage_returned hq'
        · rw [returned_setStage_of_ne hqr]
          exact hret
      exact hne (beq_iff_eq.1 (hP r hr hret'))
  | setConnState | collect | refreshExitInfo | tick => exact absurd trivial hn

/-! ## What the observer knows -/

/-- The last query that was answered wrote the information. -/
theorem lastAnswered_step {s t : NetworkProbe × Option Nat} {ev : ProbeEvent} (h : s.2 = s.1.exitInfo.map (·.2))
    (hs : observe NetworkProbe.step lastAnswered s ev = some t) : t.2 = t.1.exitInfo.map (·.2) := by
  obtain ⟨hs, hlast⟩ := observe_eq_some.1 hs
  obtain ⟨s, last⟩ := s
  obtain ⟨t, last'⟩ := t
  dsimp only at h hs hlast ⊢
  rw [hlast]
  cases ev with
  | setConnState state =>
    obtain rfl := Option.some.inj hs
    unfold setConnState
    split
    · exact h
    · split <;> exact h
  | collect =>
    simp only [NetworkProbe.step] at hs
    split at hs
    · cases hs
    · obtain rfl := Option.some.inj hs
      unfold lastAnswered NetworkProbe.collect
      cases s.connState with
      | disconnected | failed message => rfl
      | connected label | connecting label => exact h
  | refreshExitInfo | tick ms =>
    obtain rfl := Option.some.inj hs
    exact h
  | begin q =>
    obtain ⟨query, _, _, rfl⟩ := step_begin hs
    unfold NetworkProbe.begin
    split <;> exact h
  | complete q answer =>
    obtain ⟨query, began, hq, hb, rfl⟩ := step_complete hs
    cases answer with
    | none => exact h
    | some info =>
      rw [lastAnswered, hq, Option.bind_some, hb]
      rfl

theorem upToDate_iff {s : NetworkProbe × Option Nat} (h : s.2 = s.1.exitInfo.map (·.2)) :
    s.1.upToDate = true ↔ ∀ began ∈ s.2, began = s.1.connections := by
  rw [h, upToDate]
  cases s.1.exitInfo with
  | none => simp
  | some e => simp

theorem answersInTime_iff {s : NetworkProbe × Option Nat} (h : s.2 = s.1.exitInfo.map (·.2)) (ev : ProbeEvent) :
    AnswersInTime s ev ↔ UpToDateInTime s.1 ev := by
  cases ev with
  | begin q => simp only [AnswersInTime, UpToDateInTime, upToDate_iff h]
  | complete q answer =>
    cases answer with
    | none => simp only [AnswersInTime, UpToDateInTime, upToDate_iff h]
    | some info => exact Iff.rfl
  | setConnState | collect | refreshExitInfo | tick => exact Iff.rfl

end ExitInfoAux

open ExitInfoAux

/-- In every run of changes of the connection state, turns of the collector, forced refreshes, starts and ends of queries and a
clock that does not go back, in any order: once the collector has handled a state `Connected` and the query it launched for it
has returned, the exit information is null or was written by a query that began after the last change to `Connected`, in every
state of the run, exactly when the collector's query for the current connection is turned down or fails only if since the last
`Disconnected` or `Failed` that the collector has handled no query has been answered or the last that was had begun in this connection,
and no query that began before the connection succeeds after the collector's query has returned. -/
theorem exit_info_current_iff (now : Int) (es : List ProbeEvent) :
    (∀ pre t, pre <+: es → exec NetworkProbe.step (.create now) pre = some t → t.ShowsCurrent) ↔
    Meets (observe NetworkProbe.step lastAnswered) AnswersInTime (.create now, none) es := by
  have hobs : Meets (observe NetworkProbe.step lastAnswered) AnswersInTime (.create now, none) es ↔
      Meets NetworkProbe.step UpToDateInTime (.create now) es :=
    meets_observe_iff (fun s => s.2 = s.1.exitInfo.map (·.2)) (fun _ _ _ h hs => lastAnswered_step h hs)
      (fun _ ev h => answersInTime_iff h ev) rfl
  rw [hobs]
  exact meets_iff_forall_states Inv ShowsCurrent (fun _ _ _ h hok hs => inv_step h hok hs) (fun _ h => h.current)
    (fun _ _ _ hn => not_showsCurrent_of_not hn) (inv_create now) es

/-- A switch of nodes within the interval of the rate limit. -/
def switchWithinInterval : List ProbeEvent :=
  [.setConnState (.connecting "A".toList), .collect, .setConnState (.connected "A".toList), .collect, .begin 0,
    .complete 0 (some ⟨"1.1.1.1".toList, "A".toList, "A".toList, "A".toList, "A".toList⟩), .tick 1000,
    .setConnState (.connecting "B".toList), .collect, .setConnState (.connected "B".toList), .collect, .begin 1]

/-- The collector has handled the second connection and its query has returned, turned down, and the exit information shown
is that of the first node. -/
theorem switch_keeps_exit_info :
    ∃ t, exec NetworkProbe.step (.create 1000000) switchWithinInterval = some t ∧ t.connState = .connected "B".toList ∧
      t.currentQuery = some 1 ∧ t.returned 1 = true ∧ t.connections = 2 ∧ t.exitInfo.map (·.2) = some 1 ∧ ¬t.ShowsCurrent := by
  refine ⟨_, rfl, rfl, rfl, rfl, rfl, rfl, fun h => ?_⟩
  have := h 1 rfl rfl
  revert this
  decide

end Open365Vpn
