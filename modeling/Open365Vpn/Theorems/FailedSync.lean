import Open365Vpn.Lemmas.Background

/-!
# A login or a refresh that fails

Every way in which `fetchNodes` can fail comes before its first write to the nodes: a coroutine that has published a list goes
on to its end. What a sync that ends in the catch branch leaves is therefore what its call found, but for the stored token and
device id. The busy flag is set before a coroutine is launched and cleared when it ends, so there is never a second one.
-/

namespace Open365Vpn

open Kotlin Runs

/-- The nodes, the stored nodes and set of URIs, the stored credentials and the email shown are the same. -/
structure Untouched (s t : ViewModel) : Prop where
  nodes : t.nodes = s.nodes
  saved : t.prefs.nodes = s.prefs.nodes
  apiNodes : t.prefs.apiNodes = s.prefs.apiNodes
  email : t.prefs.email = s.prefs.email
  password : t.prefs.password = s.prefs.password
  accountEmail : t.accountEmail = s.accountEmail

/-- The two entry points and the steps of the coroutines they launch. -/
def Event.isSync : Event → Bool
  | .login .. | .refreshNodes .. | .io .. => true
  | .edit _ | .logout => false

/-- The coroutine that an event launched in `a` is still in flight in `b`, with only calls of the two entry points and steps of
coroutines in between. -/
inductive InFlight (a : App) : App → Prop where
  | launched {ev : Event} {b : App} (hev : ev.isSync = true) (hstep : a.step ev = some b)
      (hjobs : a.jobs.length < b.jobs.length) : InFlight a b
  | next {ev : Event} {b c : App} (h : InFlight a b) (hev : ev.isSync = true) (hstep : b.step ev = some c)
      (hjobs : c.jobs ≠ []) : InFlight a c

/-- At most one coroutine is in flight, and the flag is set while one is. -/
def OneSync (a : App) : Prop := a.jobs.length ≤ 1 ∧ (a.jobs ≠ [] → a.vm.loginBusy = true)

namespace FailedSyncAux

theorem Untouched.refl (s : ViewModel) : Untouched s s := ⟨rfl, rfl, rfl, rfl, rfl, rfl⟩

theorem Untouched.trans {s t u : ViewModel} (h : Untouched s t) (h' : Untouched t u) : Untouched s u :=
  ⟨h'.nodes.trans h.nodes, h'.saved.trans h.saved, h'.apiNodes.trans h.apiNodes, h'.email.trans h.email,
    h'.password.trans h.password, h'.accountEmail.trans h.accountEmail⟩

/-! ## The calls -/

/-- Reading the account stores at most a device id. -/
theorem untouched_loadAccount (s : ViewModel) (uuid : Str) (busy : Bool) (toast : Option Str) :
    Untouched s { s with loginBusy := busy, toast := toast, prefs := (SettingsStore.loadAccount s.prefs uuid).2 } := by
  unfold SettingsStore.loadAccount
  split
  · split <;> exact ⟨rfl, rfl, rfl, rfl, rfl, rfl⟩
  · exact ⟨rfl, rfl, rfl, rfl, rfl, rfl⟩

/-- A call launches no coroutine, or it launches one, in a state that is not busy, and sets the flag. -/
theorem login_cases (a : App) (email password did : Str) :
    Untouched a.vm (a.login email password did).vm ∧
      (((a.login email password did).jobs = a.jobs ∧ (a.login email password did).vm.loginBusy = a.vm.loginBusy) ∨
        ∃ kind account, a.vm.loginBusy = false ∧ (a.login email password did).vm.loginBusy = true ∧
          (a.login email password did).jobs = a.jobs ++ [⟨kind, account, .loadToken⟩]) := by
  unfold App.login
  dsimp only
  split
  · exact ⟨⟨rfl, rfl, rfl, rfl, rfl, rfl⟩, Or.inl ⟨rfl, rfl⟩⟩
  · split
    · exact ⟨Untouched.refl _, Or.inl ⟨rfl, rfl⟩⟩
    · rename_i hb
      exact ⟨⟨rfl, rfl, rfl, rfl, rfl, rfl⟩, Or.inr ⟨_, _, Bool.eq_false_iff.2 hb, rfl, rfl⟩⟩

theorem refreshNodes_cases (a : App) (silent : Bool) (uuid : Str) :
    Untouched a.vm (a.refreshNodes silent uuid).vm ∧
      (((a.refreshNodes silent uuid).jobs = a.jobs ∧ (a.refreshNodes silent uuid).vm.loginBusy = a.vm.loginBusy) ∨
        ∃ kind account, a.vm.loginBusy = false ∧ (a.refreshNodes silent uuid).vm.loginBusy = true ∧
          (a.refreshNodes silent uuid).jobs = a.jobs ++ [⟨kind, account, .loadToken⟩]) := by
  have hload := untouched_loadAccount a.vm uuid
  unfold App.refreshNodes
  split
  · exact ⟨Untouched.refl _, Or.inl ⟨rfl, rfl⟩⟩
  · rename_i hb
    have hb := Bool.eq_false_iff.2 hb
    split
    · rename_i prefs he
      rw [he] at hload
      exact ⟨hload false _, Or.inl ⟨rfl, hb.symm⟩⟩
    · rename_i account prefs he
      rw [he] at hload
      exact ⟨hload true _, Or.inr ⟨_, _, hb, rfl, rfl⟩⟩

/-! ## The steps of a coroutine -/

/-- The stages up to the first write to the nodes, and the catch branch. -/
def Stage.unwritten : Stage → Bool
  | .saveNodes .. | .saveApi _ | .finish => false
  | _ => true

/-- A step of a coroutine that does not end it keeps the flag, and what leads to a stage before the first write has written
nothing. -/
theorem io_next {j : Job} {s : ViewModel} {reply : Reply} {stage : Stage} (h : (j.io s reply).2.2 = some stage) :
    (j.io s reply).1.loginBusy = s.loginBusy ∧
      (Stage.unwritten stage = true → Stage.unwritten j.stage = true ∧ Untouched s (j.io s reply).1) := by
  obtain ⟨kind, account, st⟩ := j
  cases st with
  | loadToken | fetchFirst token | relogin | fetchAgain token | extract yaml | readApi found | readNodes found old =>
    exact ⟨rfl, fun _ => ⟨rfl, Untouched.refl s⟩⟩
  | saveToken token => exact ⟨rfl, fun _ => ⟨rfl, rfl, rfl, rfl, rfl, rfl, rfl⟩⟩
  | publish merged newUris | saveNodes merged newUris | saveApi newUris =>
    obtain rfl := Option.some.inj h
    exact ⟨rfl, fun hw => absurd hw Bool.false_ne_true⟩
  | finish | caught message => cases h

/-- A step that ends a coroutine clears the flag. -/
theorem io_end {j : Job} {s : ViewModel} {reply : Reply} (h : (j.io s reply).2.2 = none) :
    (j.io s reply).1.loginBusy = false := by
  obtain ⟨kind, account, st⟩ := j
  cases st with
  | finish => cases kind <;> rfl
  | caught message => cases kind <;> rfl
  | fetchFirst token | relogin | fetchAgain token => cases reply <;> cases h
  | loadToken | saveToken token | extract yaml | readApi found | readNodes found old | publish merged newUris
  | saveNodes merged newUris | saveApi newUris => cases h

/-- The catch branch changes nothing of the nodes and the account. -/
theorem io_caught (kind : JobKind) (account : Account) (message : Option Str) (s : ViewModel) (reply : Reply) :
    Untouched s (Job.io ⟨kind, account, .caught message⟩ s reply).1 := by
  cases kind <;> exact ⟨rfl, rfl, rfl, rfl, rfl, rfl⟩

/-! ## Runs -/

/-- An edit or a logout does not touch the flag. -/
theorem OneSync.call {a b : App} (h : OneSync a)
    (hc : (b.jobs = a.jobs ∧ b.vm.loginBusy = a.vm.loginBusy) ∨
      ∃ kind account, a.vm.loginBusy = false ∧ b.vm.loginBusy = true ∧ b.jobs = a.jobs ++ [⟨kind, account, .loadToken⟩]) :
    OneSync b := by
  rcases hc with ⟨hj, hb⟩ | ⟨kind, account, ha, hb, hj⟩
  · rw [OneSync, hj, hb]
    exact h
  · have hnil : a.jobs = [] := by
      by_contra hne
      rw [h.2 hne] at ha
      cases ha
    rw [OneSync, hj, hnil]
    exact ⟨Nat.le_refl 1, fun _ => hb⟩

/-- With one coroutine at most, a step of a coroutine is a step of the only one. -/
theorem eq_zero_of_oneSync {a : App} (h : OneSync a) {k : Nat} {j : Job} (hk : a.jobs[k]? = some j) : k = 0 ∧ a.jobs = [j] := by
  obtain ⟨hlt, -⟩ := List.getElem?_eq_some_iff.1 hk
  have h1 := h.1
  obtain ⟨x, hx⟩ := List.length_eq_one_iff.1 (by omega : a.jobs.length = 1)
  obtain rfl : k = 0 := by omega
  rw [hx, List.getElem?_cons_zero] at hk
  exact ⟨rfl, by rw [hx, Option.some.inj hk]⟩

theorem OneSync.io {a : App} (h : OneSync a) {k : Nat} {j : Job} (hk : a.jobs[k]? = some j) (reply : Reply) :
    OneSync (a.io k j reply) := by
  obtain ⟨rfl, hj⟩ := eq_zero_of_oneSync h hk
  unfold App.io OneSync
  cases hs : (j.io a.vm reply).2.2 with
  | none => simp [hs, hj]
  | some stage =>
    have hb : a.vm.loginBusy = true := h.2 (by simp [hj])
    simp [hs, hj, (io_next hs).1, hb]

theorem OneSync.step {a b : App} (h : OneSync a) {ev : Event} (hs : a.step ev = some b) : OneSync b := by
  cases ev with
  | edit e =>
    obtain rfl := Option.some.inj hs
    obtain ⟨_, _, _, _, hedit⟩ := a.vm.edit_frame e
    refine ⟨h.1, fun hne => ?_⟩
    rw [hedit]
    exact h.2 hne
  | login email password did =>
    simp only [App.step] at hs
    split at hs
    · cases hs
    · obtain rfl := Option.some.inj hs
      exact OneSync.call h (login_cases a email password did).2
  | refreshNodes silent uuid =>
    simp only [App.step] at hs
    split at hs
    · cases hs
    · obtain rfl := Option.some.inj hs
      exact OneSync.call h (refreshNodes_cases a silent uuid).2
  | logout =>
    obtain rfl := Option.some.inj hs
    exact h
  | io k reply =>
    obtain ⟨j, hj, rfl⟩ := Option.map_eq_some_iff.1 hs
    exact OneSync.io h hj reply

/-- What holds while a coroutine launched in `a` is in flight: it is the only one, and up to its first write it has written
nothing. -/
structure Progress (a b : App) : Prop where
  oneSync : OneSync b
  inFlight : b.jobs ≠ []
  untouched : ∀ j ∈ b.jobs, Stage.unwritten j.stage = true → Untouched a.vm b.vm

/-- A call made while a coroutine is in flight launches no other, and writes nothing. -/
theorem Progress.call {a b c : App} (h : Progress a b) (hc : Untouched b.vm c.vm)
    (hj : (c.jobs = b.jobs ∧ c.vm.loginBusy = b.vm.loginBusy) ∨
      ∃ kind account, b.vm.loginBusy = false ∧ c.vm.loginBusy = true ∧ c.jobs = b.jobs ++ [⟨kind, account, .loadToken⟩]) :
    Progress a c := by
  refine ⟨OneSync.call h.oneSync hj, ?_, ?_⟩
  · rcases hj with ⟨hj, -⟩ | ⟨kind, account, -, -, hj⟩
    · rw [hj]
      exact h.inFlight
    · simp [hj]
  · rcases hj with ⟨hj, -⟩ | ⟨-, -, hb, -⟩
    · intro j hm hu
      rw [hj] at hm
      exact Untouched.trans (h.untouched j hm hu) hc
    · rw [h.oneSync.2 h.inFlight] at hb
      cases hb

theorem Progress.io {a b : App} (h : Progress a b) {k : Nat} {j : Job} (hk : b.jobs[k]? = some j) (reply : Reply)
    (hne : (b.io k j reply).jobs ≠ []) : Progress a (b.io k j reply) := by
  obtain ⟨rfl, hj⟩ := eq_zero_of_oneSync h.oneSync hk
  refine ⟨OneSync.io h.oneSync hk reply, hne, ?_⟩
  intro j' hm hu
  unfold App.io at hm hne
  cases hs : (j.io b.vm reply).2.2 with
  | none => simp [hs, hj] at hne
  | some stage =>
    obtain rfl : j' = { j with stage := stage } := by simpa [hs, hj] using hm
    obtain ⟨-, hw⟩ := io_next hs
    obtain ⟨hu', hun⟩ := hw hu
    exact Untouched.trans (h.untouched j (by simp [hj]) hu') hun

/-- From the launch on, every step keeps `Progress`. -/
theorem progress_of_inFlight {a b : App} (ha : OneSync a) (h : InFlight a b) : Progress a b := by
  induction h with
  | @launched ev b hev hstep hjobs =>
    have hone : OneSync b := OneSync.step ha hstep
    have hne : b.jobs ≠ [] := List.ne_nil_of_length_pos (by omega)
    refine ⟨hone, hne, fun _ _ _ => ?_⟩
    cases ev with
    | edit | logout => cases hev
    | login email password did =>
      simp only [App.step] at hstep
      split at hstep
      · cases hstep
      · obtain rfl := Option.some.inj hstep
        exact (login_cases a email password did).1
    | refreshNodes silent uuid =>
      simp only [App.step] at hstep
      split at hstep
      · cases hstep
      · obtain rfl := Option.some.inj hstep
        exact (refreshNodes_cases a silent uuid).1
    | io k reply =>
      -- a step of a coroutine launches none
      obtain ⟨j, hj, rfl⟩ := Option.map_eq_some_iff.1 hstep
      obtain ⟨-, ha1⟩ := eq_zero_of_oneSync ha hj
      have := hone.1
      rw [ha1] at hjobs
      simp only [List.length_singleton] at hjobs
      omega
  | @next ev b c _ hev hstep hjobs ih =>
    cases ev with
    | edit | logout => cases hev
    | login email password did =>
      simp only [App.step] at hstep
      split at hstep
      · cases hstep
      · obtain rfl := Option.some.inj hstep
        obtain ⟨h1, h2⟩ := login_cases b email password did
        exact ih.call h1 h2
    | refreshNodes silent uuid =>
      simp only [App.step] at hstep
      split at hstep
      · cases hstep
      · obtain rfl := Option.some.inj hstep
        obtain ⟨h1, h2⟩ := refreshNodes_cases b silent uuid
        exact ih.call h1 h2
    | io k reply =>
      obtain ⟨j, hj, rfl⟩ := Option.map_eq_some_iff.1 hstep
      exact ih.io hj reply hjobs

end FailedSyncAux

open FailedSyncAux

/-- In every state of every run, with edits and logouts or without: at most one coroutine is in flight, and the flag is set
while one is; a sync launched here that comes to its catch branch leaves the nodes, the stored nodes and set of URIs, the stored
credentials and the email shown as its call found them, and the flag cleared; and so does a refresh without an account, which
fails at once. -/
theorem failed_sync_untouched (vm : ViewModel) (es : List Event) (a : App) (hx : exec App.step ⟨vm, [], []⟩ es = some a) :
    (a.jobs.length ≤ 1 ∧ (a.jobs ≠ [] → a.vm.loginBusy = true)) ∧
      (∀ b c k kind account message reply, InFlight a b → b.jobs[k]? = some ⟨kind, account, .caught message⟩ →
        b.step (.io k reply) = some c → Untouched a.vm c.vm ∧ c.vm.loginBusy = false) ∧
      ∀ silent uuid, a.vm.loginBusy = false → (SettingsStore.loadAccount a.vm.prefs uuid).1 = none →
        Untouched a.vm (a.refreshNodes silent uuid).vm ∧ (a.refreshNodes silent uuid).vm.loginBusy = false := by
  have hone : OneSync a := by
    refine exec_invariant OneSync (fun s e t h _ ht => OneSync.step h ht) ?_ (meets_true _ es) hx
    exact ⟨Nat.zero_le 1, fun h => absurd rfl h⟩
  refine ⟨hone, fun b c k kind account message reply hb hk hs => ?_, fun silent uuid hbusy hnone => ?_⟩
  · have hp := progress_of_inFlight hone hb
    have hm : (⟨kind, account, .caught message⟩ : Job) ∈ b.jobs := List.mem_of_getElem? hk
    simp only [App.step, hk, Option.map_some, Option.some.injEq] at hs
    subst hs
    exact ⟨Untouched.trans (hp.untouched _ hm rfl) (io_caught kind account message b.vm reply), io_end rfl⟩
  · refine ⟨(refreshNodes_cases a silent uuid).1, ?_⟩
    unfold App.refreshNodes
    rw [if_neg (by simp [hbusy])]
    cases hl : SettingsStore.loadAccount a.vm.prefs uuid with
    | mk account prefs =>
      rw [hl] at hnone
      obtain rfl : account = none := hnone
      rfl

/-- A login of a fresh installation that the server turns down: the list is empty as before, and the flag is cleared. -/
theorem failed_sync_untouched_login :
    (exec App.step App.start [.login "a@x".toList "p".toList "d".toList, .io 0 (.ok []), .io 0 (.error none),
      .io 0 (.ok [])]).map (fun c => c.vm.loginBusy) = some false ∧
    ∀ b c, exec App.step App.start [.login "a@x".toList "p".toList "d".toList, .io 0 (.ok []), .io 0 (.error none)] = some b →
      b.step (.io 0 (.ok [])) = some c → Untouched App.start.vm c.vm := by
  refine ⟨by decide, fun b c hb hc => ?_⟩
  obtain ⟨a1, h1, hb⟩ := exec_cons_eq_some.1 hb
  obtain ⟨a2, h2, hb⟩ := exec_cons_eq_some.1 hb
  obtain ⟨a3, h3, hb⟩ := exec_cons_eq_some.1 hb
  obtain rfl := Option.some.inj h1
  obtain rfl := Option.some.inj h2
  obtain rfl := Option.some.inj h3
  obtain rfl := Option.some.inj hb
  have hfly := InFlight.next (InFlight.next (InFlight.launched rfl h1 (by decide)) rfl h2 (by decide)) rfl h3 (by decide)
  exact ((failed_sync_untouched App.start.vm [] App.start rfl).2.1 _ c 0 _ _ _ (.ok []) hfly rfl hc).1

end Open365Vpn
