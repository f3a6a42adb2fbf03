import Open365Vpn.Lemmas.Background

/-!
# Tokens and credentials

A token is stored by a sync as soon as a login of the API returns it, before the account is known to be good, and the next sync
uses it whatever account it is for. A `login` made while a token is stored is therefore not a login at all: the request goes
out with the token of somebody else, and when it succeeds the new credentials are stored without the server having seen them.
While every `login` is made with neither an account nor a token in the store, every request carries a token that the server
gave out for that very account (`tokens_bound`).
-/

namespace Open365Vpn

open Kotlin Runs

/-- The server has returned the token to a login with the credentials and the device id of the account. -/
def Issued (calls : List ApiCall) (account : Account) (token : Str) : Prop := .login account (.ok token) ∈ calls

theorem Issued.mono {calls : List ApiCall} {account : Account} {token : Str} (h : Issued calls account token)
    (cs : List ApiCall) : Issued (calls ++ cs) account token :=
  List.mem_append_left cs h

/-- The server has accepted the email and the password. -/
def Accepted (calls : List ApiCall) (email password : Str) : Prop := ∃ did token, Issued calls ⟨email, password, did⟩ token

/-- Every request for the configuration of an account was made with a token that was issued for the account before. -/
def Bound (calls : List ApiCall) : Prop :=
  ∀ pre post account token reply, calls = pre ++ .fetchConfigYaml account token reply :: post → Issued pre account token

/-- A `login` that gets past its checks finds neither an account nor a token in the store. -/
def LoginClean (a : App) : Event → Prop
  | .login email password _ =>
    ¬(trim email).isEmpty → ¬password.isEmpty → a.vm.loginBusy = false →
      SettingsStore.isNullOrEmpty a.vm.prefs.token ∧ (a.vm.prefs.email = none ∨ a.vm.prefs.password = none)
  | _ => True

instance (a : App) : ∀ ev, Decidable (LoginClean a ev)
  | .login .. => inferInstanceAs (Decidable (_ → _))
  | .edit _ | .refreshNodes .. | .logout | .io .. => inferInstanceAs (Decidable True)

namespace CredentialsAux

/-- One more call: a request for the configuration needs its token issued before. -/
theorem bound_snoc {calls : List ApiCall} (h : Bound calls) {c : ApiCall}
    (hc : ∀ account token reply, c = .fetchConfigYaml account token reply → Issued calls account token) :
    Bound (calls ++ [c]) := by
  intro pre post account token reply he
  rcases List.eq_nil_or_concat post with rfl | ⟨post', x, rfl⟩
  · obtain ⟨h1, h2⟩ := List.append_inj' he rfl
    rw [← h1]
    exact hc account token reply (by simpa using h2)
  · rw [List.concat_eq_append, ← List.cons_append, ← List.append_assoc] at he
    exact h pre post' account token reply (List.append_inj' he rfl).1

/-- What the account functions read and write: the stored credentials and token, the email shown and the busy flag. -/
structure Cred where
  email : Option Str
  password : Option Str
  did : Option Str
  token : Option Str
  shown : Option Str
  busy : Bool

/-- The account part of a state. -/
def cred (s : ViewModel) : Cred :=
  ⟨s.prefs.email, s.prefs.password, s.prefs.did, s.prefs.token, s.accountEmail, s.loginBusy⟩

/-- An edit of the list does not touch the account. -/
theorem cred_edit (s : ViewModel) (e : Edit) : cred (s.edit e) = cred s := by
  obtain ⟨_, _, _, _, h⟩ := s.edit_frame e
  rw [h]
  rfl

/-- What a coroutine knows about the tokens of its account, by stage: a token it holds was issued for the account, and once it
has the text, some token was. -/
def StageInv (calls : List ApiCall) (account : Account) : Stage → Prop
  | .fetchFirst token | .saveToken token | .fetchAgain token => Issued calls account token
  | .extract _ | .readApi _ | .readNodes .. | .publish .. | .saveNodes .. | .saveApi _ | .finish =>
    ∃ token, Issued calls account token
  | .loadToken | .relogin | .caught _ => True

/-- What holds while a coroutine is in flight: the stored account, if there is one, is its own, and the stored token, if there
is one, was issued for it. -/
structure JobInv (c : Cred) (calls : List ApiCall) (j : Job) : Prop where
  did : j.account.did ≠ []
  own : ∀ e p, c.email = some e → c.password = some p →
    j.account.email = e ∧ j.account.password = p ∧ c.did = some j.account.did
  token : ∀ t, c.token = some t → t ≠ [] → Issued calls j.account t
  stage : StageInv calls j.account j.stage

/-- The invariant: at most one coroutine, and then the busy flag is set; every request was made with a token of its account;
the stored token was issued for the stored account, and the email shown was accepted. -/
structure Inv (c : Cred) (jobs : List Job) (calls : List ApiCall) : Prop where
  one : jobs.length ≤ 1
  busy : jobs ≠ [] → c.busy = true
  bound : Bound calls
  stored : ∀ e p, c.email = some e → c.password = some p → ∃ d, c.did = some d ∧ d ≠ [] ∧
    (∃ t, Issued calls ⟨e, p, d⟩ t) ∧ ∀ t, c.token = some t → t ≠ [] → Issued calls ⟨e, p, d⟩ t
  shown : ∀ e, c.shown = some e → ∃ p, Accepted calls e p
  job : ∀ j ∈ jobs, JobInv c calls j

theorem inv_start : Inv (cred App.start.vm) App.start.jobs App.start.calls := by
  refine ⟨by decide, fun h => absurd rfl h, fun pre post account token reply he => ?_, fun e p he => ?_, fun e he => ?_,
    fun j hj => ?_⟩
  · simp [App.start] at he
  · cases he
  · cases he
  · cases hj

theorem StageInv.mono {calls : List ApiCall} {account : Account} {stage : Stage} (h : StageInv calls account stage)
    (cs : List ApiCall) : StageInv (calls ++ cs) account stage := by
  cases stage with
  | fetchFirst token | saveToken token | fetchAgain token => exact Issued.mono h cs
  | extract | readApi | readNodes | publish | saveNodes | saveApi | finish =>
    obtain ⟨t, ht⟩ := h
    exact ⟨t, ht.mono cs⟩
  | loadToken | relogin | caught => trivial

/-- No coroutine is in flight while the busy flag is not set. -/
theorem Inv.jobs_eq_nil {c : Cred} {jobs : List Job} {calls : List ApiCall} (h : Inv c jobs calls) (hb : ¬c.busy = true) :
    jobs = [] := by
  by_contra hn
  exact hb (h.busy hn)

/-- The only coroutine in flight is the one that takes a step. -/
theorem Inv.only {c : Cred} {jobs : List Job} {calls : List ApiCall} (h : Inv c jobs calls) {k : Nat} {j : Job}
    (hj : jobs[k]? = some j) : k = 0 ∧ jobs = [j] := by
  have hone := h.one
  obtain ⟨hk, hget⟩ := List.getElem?_eq_some_iff.1 hj
  obtain ⟨x, hx⟩ := List.length_eq_one_iff.1 (show jobs.length = 1 by omega)
  subst hx
  have hk0 : k = 0 := by
    rw [List.length_singleton] at hk
    omega
  subst hk0
  exact ⟨rfl, by rw [← hget]; rfl⟩

/-- A step of the only coroutine that leaves the stored account and the email shown as they are, with the calls it made. -/
theorem Inv.next {c c' : Cred} {j : Job} {calls cs : List ApiCall} {stage : Stage} (h : Inv c [j] calls)
    (he : c'.email = c.email) (hp : c'.password = c.password) (hd : c'.did = c.did) (hs : c'.shown = c.shown)
    (hb : c'.busy = c.busy) (ht : c'.token = c.token ∨ ∃ t, c'.token = some t ∧ Issued calls j.account t)
    (hbound : Bound (calls ++ cs)) (hst : StageInv (calls ++ cs) j.account stage) :
    Inv c' [{ j with stage := stage }] (calls ++ cs) := by
  have hj : JobInv c calls j := h.job j (by simp)
  have htok : ∀ t, c'.token = some t → t ≠ [] → Issued (calls ++ cs) j.account t := by
    intro t hct hne
    rcases ht with ht | ⟨t', ht', hi⟩
    · exact (hj.token t (ht ▸ hct) hne).mono cs
    · obtain rfl : t' = t := by rw [ht'] at hct; exact Option.some.inj hct
      exact hi.mono cs
  refine ⟨by simp, fun _ => ?_, hbound, fun e p hce hcp => ?_, fun e hce => ?_, fun j' hj' => ?_⟩
  · rw [hb]
    exact h.busy (by simp)
  · rw [he] at hce
    rw [hp] at hcp
    rw [hd]
    obtain ⟨d, h1, h2, ⟨t, h3⟩, -⟩ := h.stored e p hce hcp
    obtain ⟨o1, o2, o3⟩ := hj.own e p hce hcp
    obtain rfl : d = j.account.did := by rw [h1] at o3; exact Option.some.inj o3
    refine ⟨_, h1, h2, ⟨t, h3.mono cs⟩, fun t' ht' hne => ?_⟩
    have := htok t' ht' hne
    rw [← o1, ← o2]
    exact this
  · rw [hs] at hce
    obtain ⟨p, d, t, hi⟩ := h.shown e hce
    exact ⟨p, d, t, hi.mono cs⟩
  · rw [List.mem_singleton.1 hj']
    exact ⟨hj.did, fun e p hce hcp => by rw [he] at hce; rw [hp] at hcp; rw [hd]; exact hj.own e p hce hcp, htok, hst⟩

/-- A step of the only coroutine that changes nothing of the account and makes no call. -/
theorem Inv.quiet {c : Cred} {j : Job} {calls : List ApiCall} {stage : Stage} (h : Inv c [j] calls)
    (hst : StageInv calls j.account stage) : Inv c [{ j with stage := stage }] (calls ++ []) :=
  h.next rfl rfl rfl rfl rfl (Or.inl rfl) (by rw [List.append_nil]; exact h.bound) (hst.mono [])

/-- The end of a coroutine that leaves the account as it is. -/
theorem Inv.ended {c : Cred} {jobs : List Job} {calls : List ApiCall} (h : Inv c jobs calls) :
    Inv { c with busy := false } [] (calls ++ []) := by
  rw [List.append_nil]
  exact ⟨by simp, fun h => absurd rfl h, h.bound, h.stored, h.shown, fun j hj => absurd hj List.not_mem_nil⟩

/-- A step of the coroutine in flight keeps the invariant. -/
theorem inv_io {s : ViewModel} {j : Job} {calls : List ApiCall} (h : Inv (cred s) [j] calls) (reply : Reply) :
    Inv (cred (j.io s reply).1) ((j.io s reply).2.2.elim [] fun stage => [{ j with stage := stage }])
      (calls ++ (j.io s reply).2.1) := by
  have hj : JobInv (cred s) calls j := h.job j (by simp)
  have hst := hj.stage
  obtain ⟨kind, account, stage⟩ := j
  dsimp only at hst
  -- a request with a token that was issued for the account
  have hfetch : ∀ token, Issued calls account token → Bound (calls ++ [.fetchConfigYaml account token reply]) := by
    intro token hi
    refine bound_snoc h.bound fun acc tok rep he => ?_
    obtain ⟨rfl, rfl, -⟩ : account = acc ∧ token = tok ∧ reply = rep := by simpa using he
    exact hi
  cases stage with
  | loadToken =>
    refine h.quiet ?_
    dsimp only
    split
    · trivial
    · rename_i ht
      cases hp : s.prefs.token with
      | none =>
        rw [hp] at ht
        exact absurd rfl ht
      | some token =>
        have hne : token ≠ [] := by
          rintro rfl
          rw [hp] at ht
          exact absurd rfl ht
        exact hj.token token hp hne
  | fetchFirst token =>
    cases reply with
    | ok yaml =>
      exact h.next rfl rfl rfl rfl rfl (Or.inl rfl) (hfetch token hst) ⟨token, Issued.mono hst _⟩
    | error message => exact h.next rfl rfl rfl rfl rfl (Or.inl rfl) (hfetch token hst) trivial
  | relogin =>
    have hb : Bound (calls ++ [.login account reply]) := by
      refine bound_snoc h.bound fun acc tok rep he => ?_
      cases he
    cases reply with
    | ok token => exact h.next rfl rfl rfl rfl rfl (Or.inl rfl) hb (List.mem_append_right _ (List.mem_singleton_self _))
    | error message => exact h.next rfl rfl rfl rfl rfl (Or.inl rfl) hb trivial
  | saveToken token =>
    refine h.next rfl rfl rfl rfl rfl (Or.inr ⟨token, rfl, hst⟩) ?_ (Issued.mono hst _)
    simp only [Job.io, List.append_nil]
    exact h.bound
  | fetchAgain token =>
    cases reply with
    | ok yaml => exact h.next rfl rfl rfl rfl rfl (Or.inl rfl) (hfetch token hst) ⟨token, Issued.mono hst _⟩
    | error message => exact h.next rfl rfl rfl rfl rfl (Or.inl rfl) (hfetch token hst) trivial
  | extract yaml =>
    refine h.quiet ?_
    dsimp only
    split
    · trivial
    · exact hst
  | readApi | readNodes | publish | saveNodes | saveApi => exact h.quiet hst
  | finish =>
    cases kind with
    | login =>
      obtain ⟨t, ht⟩ := hst
      simp only [Job.io, Job.finish, List.append_nil]
      refine ⟨by simp, fun hn => absurd rfl hn, h.bound, fun e p he hp => ?_, fun e he => ?_,
        fun j hj => absurd hj List.not_mem_nil⟩
      · obtain rfl : account.email = e := Option.some.inj he
        obtain rfl : account.password = p := Option.some.inj hp
        exact ⟨account.did, rfl, hj.did, ⟨t, ht⟩, hj.token⟩
      · obtain rfl : account.email = e := Option.some.inj he
        exact ⟨account.password, account.did, t, ht⟩
    | refresh silent => exact h.ended
  | caught message =>
    cases kind with
    | login => exact h.ended
    | refresh silent => exact h.ended

/-- `login` keeps the invariant when neither an account nor a token is stored. -/
theorem inv_login {a : App} (h : Inv (cred a.vm) a.jobs a.calls) {email password newDid : Str} (hdid : newDid ≠ [])
    (hok : LoginClean a (.login email password newDid)) :
    Inv (cred (a.login email password newDid).vm) (a.login email password newDid).jobs
      (a.login email password newDid).calls := by
  unfold App.login
  dsimp only
  split
  · exact h
  · rename_i hne
    rw [Bool.or_eq_true, not_or] at hne
    split
    · exact h
    · rename_i hb
      have hb' : a.vm.loginBusy = false := Bool.eq_false_iff.2 hb
      obtain ⟨htok, hacc⟩ := hok hne.1 hne.2 hb'
      have hjobs : a.jobs = [] := h.jobs_eq_nil hb
      have hnone : ∀ e p, a.vm.prefs.email = some e → a.vm.prefs.password = some p → False := by
        intro e p he hp
        rcases hacc with h1 | h1
        · rw [h1] at he
          cases he
        · rw [h1] at hp
          cases hp
      rw [hjobs]
      refine ⟨by simp, fun _ => rfl, h.bound, fun e p he hp => absurd (hnone e p he hp) id, h.shown, fun j hj => ?_⟩
      rw [List.nil_append, List.mem_singleton] at hj
      subst hj
      refine ⟨hdid, fun e p he hp => absurd (hnone e p he hp) id, fun t ht hne => ?_, trivial⟩
      have ht' : a.vm.prefs.token = some t := ht
      rw [ht'] at htok
      exact absurd (List.isEmpty_iff.1 htok) hne

/-- `refreshNodes` keeps the invariant: the account it loads is the stored one. -/
theorem inv_refreshNodes {a : App} (h : Inv (cred a.vm) a.jobs a.calls) (silent : Bool) (uuid : Str) :
    Inv (cred (a.refreshNodes silent uuid).vm) (a.refreshNodes silent uuid).jobs (a.refreshNodes silent uuid).calls := by
  unfold App.refreshNodes
  split
  · exact h
  · rename_i hb
    have hjobs : a.jobs = [] := h.jobs_eq_nil hb
    have hended := h.ended
    rw [List.append_nil] at hended
    cases he : a.vm.prefs.email with
    | none =>
      simp only [SettingsStore.loadAccount, he]
      rw [hjobs]
      exact hended
    | some e =>
      cases hp : a.vm.prefs.password with
      | none =>
        simp only [SettingsStore.loadAccount, he, hp]
        rw [hjobs]
        exact hended
      | some p =>
        obtain ⟨d, hd, hne, hi, ht⟩ := h.stored e p he hp
        have hd' : a.vm.prefs.did = some d := hd
        have hempty : SettingsStore.isNullOrEmpty a.vm.prefs.did = false := by
          rw [hd']
          cases d with
          | nil => exact absurd rfl hne
          | cons c cs => rfl
        simp only [SettingsStore.loadAccount, he, hp, hempty, Bool.false_eq_true, if_false]
        rw [hjobs]
        refine ⟨by simp, fun _ => rfl, h.bound, h.stored, h.shown, fun j hj => ?_⟩
        rw [List.nil_append, List.mem_singleton] at hj
        subst hj
        rw [hd', Option.getD_some]
        refine ⟨hne, fun e' p' he' hp' => ?_, ht, trivial⟩
        have h1 : a.vm.prefs.email = some e' := he'
        have h2 : a.vm.prefs.password = some p' := hp'
        rw [he] at h1
        rw [hp] at h2
        exact ⟨Option.some.inj h1, Option.some.inj h2, hd⟩

/-- Every event keeps the invariant when every `login` starts clean. -/
theorem inv_step {a a' : App} {ev : Event} (h : Inv (cred a.vm) a.jobs a.calls) (hok : LoginClean a ev)
    (hs : a.step ev = some a') : Inv (cred a'.vm) a'.jobs a'.calls := by
  cases ev with
  | edit e =>
    obtain rfl := Option.some.inj hs
    rw [cred_edit]
    exact h
  | login email password newDid =>
    simp only [App.step] at hs
    split at hs
    · cases hs
    · rename_i hd
      obtain rfl := Option.some.inj hs
      exact inv_login h (fun e => hd (List.isEmpty_iff.2 e)) hok
  | refreshNodes silent uuid =>
    simp only [App.step] at hs
    split at hs
    · cases hs
    · obtain rfl := Option.some.inj hs
      exact inv_refreshNodes h silent uuid
  | logout =>
    obtain rfl := Option.some.inj hs
    have hnone : ∀ {α : Type} {x : α}, none ≠ some x := fun h => Option.some_ne_none _ h.symm
    refine ⟨h.one, h.busy, h.bound, fun e p he => absurd he hnone, fun e he => absurd he hnone, fun j hj => ?_⟩
    have hjob := h.job j hj
    exact ⟨hjob.did, fun e p he => absurd he hnone, fun t ht => absurd ht hnone, hjob.stage⟩
  | io k reply =>
    obtain ⟨j, hj, rfl⟩ := Option.map_eq_some_iff.1 hs
    obtain ⟨rfl, hjobs⟩ := h.only hj
    rw [hjobs] at h
    have := inv_io h reply
    simp only [App.io, hjobs]
    cases hst : (j.io a.vm reply).2.2 <;> rw [hst] at this <;> exact this

end CredentialsAux

open CredentialsAux

/-- From a fresh installation, in every run of the account calls (the edits of the list and the steps of the coroutines in any
order between them, the API answering anything) in which every `login` that gets past its checks finds neither an account nor
a token in the store: every request for the configuration of an account carries a token that a login with exactly its email,
password and device id returned before, and the credentials stored, and the email shown, were accepted by the server. -/
theorem tokens_bound (es : List Event) (a : App) (hm : Meets App.step LoginClean App.start es)
    (hx : exec App.step App.start es = some a) :
    Bound a.calls ∧
      (∀ e p, a.vm.prefs.email = some e → a.vm.prefs.password = some p → Accepted a.calls e p) ∧
      ∀ e, a.vm.accountEmail = some e → ∃ p, Accepted a.calls e p := by
  have h := exec_invariant (fun a : App => Inv (cred a.vm) a.jobs a.calls)
    (fun a ev a' h hok hs => inv_step h hok hs) inv_start hm hx
  refine ⟨h.bound, fun e p he hp => ?_, h.shown⟩
  obtain ⟨d, -, -, ⟨t, ht⟩, -⟩ := h.stored e p he hp
  exact ⟨d, t, ht⟩

/-- A configuration with one node. -/
def oneNodeYaml : Str := "proxies:\n    香港:\n      - x365://u@h:443\n".toList

/-- The steps of a coroutine once it has the configuration, up to its end. -/
def restOfSync : List Event := List.replicate 7 (.io 0 (.ok []))

/-- A first login, whose account is then refreshed with the token that the login stored. -/
def loginThenRefresh : List Event :=
  [.login "a@x".toList "p".toList "d".toList, .io 0 (.ok []), .io 0 (.ok "t".toList), .io 0 (.ok []),
    .io 0 (.ok oneNodeYaml)] ++ restOfSync ++
  [.refreshNodes false "r".toList, .io 0 (.ok []), .io 0 (.ok oneNodeYaml)]

theorem tokens_bound_login_refresh :
    ((exec App.step App.start loginThenRefresh).map fun a => (a.calls.length, a.vm.accountEmail)) =
        some (3, some "a@x".toList) ∧
      ∀ a, exec App.step App.start loginThenRefresh = some a → Bound a.calls :=
  ⟨by decide, fun a hx => (tokens_bound loginThenRefresh a (by decide) hx).1⟩

/-- A login with a good password whose request fails after the token is stored, and then a login with other credentials. -/
def loginAfterFailure : List Event :=
  [.login "a@x".toList "p".toList "d".toList, .io 0 (.ok []), .io 0 (.ok "t".toList), .io 0 (.ok []),
    .io 0 (.error none), .io 0 (.ok []),
    .login "b@x".toList "wrong".toList "e".toList, .io 0 (.ok []), .io 0 (.ok oneNodeYaml)] ++ restOfSync

/-- The request of the second login goes out with the token of the first account, and the second account is stored and shown
although the server never saw its password. -/
theorem login_takes_foreign_token :
    ∃ a, exec App.step App.start loginAfterFailure = some a ∧ ¬Bound a.calls ∧
      a.vm.prefs.email = some "b@x".toList ∧ a.vm.prefs.password = some "wrong".toList ∧
      a.vm.accountEmail = some "b@x".toList ∧ ¬Accepted a.calls "b@x".toList "wrong".toList := by
  obtain ⟨a, hx, ha⟩ := Option.map_eq_some_iff.1
    (show (exec App.step App.start loginAfterFailure).map
        (fun a => (a.calls, a.vm.prefs.email, a.vm.prefs.password, a.vm.accountEmail)) =
      some ([.login ⟨"a@x".toList, "p".toList, "d".toList⟩ (.ok "t".toList),
        .fetchConfigYaml ⟨"a@x".toList, "p".toList, "d".toList⟩ "t".toList (.error none),
        .fetchConfigYaml ⟨"b@x".toList, "wrong".toList, "e".toList⟩ "t".toList (.ok oneNodeYaml)],
        some "b@x".toList, some "wrong".toList, some "b@x".toList) by decide)
  obtain ⟨hc, he, hp, hs⟩ : _ ∧ _ ∧ _ ∧ _ := by simpa only [Prod.mk.injEq] using ha
  refine ⟨a, hx, fun h => ?_, he, hp, hs, ?_⟩
  · have hi := h [_, _] [] _ _ _ hc
    revert hi
    unfold Issued
    decide
  · rintro ⟨did, token, hi⟩
    rw [hc] at hi
    simp [Issued] at hi

end Open365Vpn
