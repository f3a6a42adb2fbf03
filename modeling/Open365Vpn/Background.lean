import Open365Vpn.Lemmas.Operations

/-!
# Syncs in the background

`login` and `refreshNodes` launch a coroutine whose `fetchNodes` runs on the IO dispatcher, while the main thread goes on to
serve the user. `App` is the view model with the coroutines in flight and the calls made to the API so far; an event is a call
on the main thread, or one step of a coroutine together with the answer of the API where the step asks for one. A coroutine
runs on the main thread up to its first suspension and after its last one, so the part of `login` and `refreshNodes` before
`fetchNodes`, and the part after it, are one step each.
-/

namespace Open365Vpn

open Kotlin

/-- The calls on the main thread that edit the node list. -/
inductive Edit where
  | importNodes (text : Str)
  | deleteNode (node : NodeItem)
  | renameNode (node : NodeItem) (newLabel : Str)
  deriving DecidableEq

/-- One edit. -/
def ViewModel.edit (s : ViewModel) : Edit → ViewModel
  | .importNodes text => s.importNodes text
  | .deleteNode node => s.deleteNode node
  | .renameNode node newLabel => s.renameNode node newLabel

/-- A call to the API with its answer: a login with the credentials of an account, or a request for the configuration of an
account with a token. -/
inductive ApiCall where
  | login (account : Account) (reply : Reply)
  | fetchConfigYaml (account : Account) (token : Str) (reply : Reply)
  deriving DecidableEq

/-- Who launched a coroutine. -/
inductive JobKind where
  | login
  | refresh (silent : Bool)
  deriving DecidableEq

/-- Where a coroutine stands: the steps of `fetchNodes`, with the local variables that later steps read, then the end of the
caller (`finish`) or its catch branch (`caught`). -/
inductive Stage where
  | loadToken
  | fetchFirst (token : Str)
  | relogin
  | saveToken (token : Str)
  | fetchAgain (token : Str)
  | extract (yaml : Str)
  | readApi (found : List (Str × Str))
  | readNodes (found : List (Str × Str)) (oldApiUris : List Str)
  | publish (merged : List NodeItem) (newUris : List Str)
  | saveNodes (merged : List NodeItem) (newUris : List Str)
  | saveApi (newUris : List Str)
  | finish
  | caught (message : Option Str)
  deriving DecidableEq

/-- A coroutine in flight. -/
structure Job where
  kind : JobKind
  account : Account
  stage : Stage
  deriving DecidableEq

/-- The end of `login` or `refreshNodes` after `fetchNodes` returned, with the finally branch. -/
def Job.finish (j : Job) (s : ViewModel) : ViewModel :=
  match j.kind with
  | .login =>
    { s with
      prefs := SettingsStore.saveAccount s.prefs j.account
      accountEmail := some j.account.email
      loginError := none
      loginBusy := false }
  | .refresh silent => { s with toast := if silent then s.toast else some "节点已刷新".toList, loginBusy := false }

/-- The catch branch of `login` or `refreshNodes`, with the finally branch. -/
def Job.caught (j : Job) (s : ViewModel) (message : Option Str) : ViewModel :=
  match j.kind with
  | .login => { s with loginError := some (message.getD "登录失败".toList), loginBusy := false }
  | .refresh silent =>
    { s with
      toast := if silent then s.toast else some ("刷新失败: ".toList ++ message.getD "null".toList)
      loginBusy := false }

/-- One step of a coroutine: the state it leaves, the calls it made, and where it stands then (`none` when it has ended). -/
def Job.io (j : Job) (s : ViewModel) (reply : Reply) : ViewModel × List ApiCall × Option Stage :=
  match j.stage with
  | .loadToken =>
    (s, [], some (if SettingsStore.isNullOrEmpty s.prefs.token then .relogin else .fetchFirst (s.prefs.token.getD [])))
  | .fetchFirst token =>
    (s, [.fetchConfigYaml j.account token reply],
      match reply with
      | .ok yaml => some (.extract yaml)
      | .error _ => some .relogin)
  | .relogin =>
    (s, [.login j.account reply],
      match reply with
      | .ok token => some (.saveToken token)
      | .error message => some (.caught message))
  | .saveToken token => ({ s with prefs := SettingsStore.saveToken s.prefs token }, [], some (.fetchAgain token))
  | .fetchAgain token =>
    (s, [.fetchConfigYaml j.account token reply],
      match reply with
      | .ok yaml => some (.extract yaml)
      | .error message => some (.caught message))
  | .extract yaml =>
    let found := X365Api.extractNodes yaml
    (s, [], some (if found.isEmpty then .caught (some "配置中没有节点".toList) else .readApi found))
  | .readApi found => (s, [], some (.readNodes found s.prefs.apiNodes))
  | .readNodes found oldApiUris =>
    let m := merge s.nodes oldApiUris found
    (s, [], some (.publish m.1 m.2))
  | .publish merged newUris => ({ s with nodes := merged }, [], some (.saveNodes merged newUris))
  | .saveNodes merged newUris =>
    ({ s with prefs := { s.prefs with nodes := NodeStore.save merged } }, [], some (.saveApi newUris))
  | .saveApi newUris => ({ s with prefs := SettingsStore.saveApiNodeUris s.prefs newUris }, [], some .finish)
  | .finish => (j.finish s, [], none)
  | .caught message => (j.caught s message, [], none)

/-- The view model, the coroutines in flight and the calls made to the API so far. -/
structure App where
  vm : ViewModel
  jobs : List Job
  calls : List ApiCall
  deriving DecidableEq

/-- A fresh installation. -/
def App.start : App := { vm := ViewModel.start Prefs.empty [], jobs := [], calls := [] }

/-- What can happen: an edit, the account calls (with the random id that they draw), or a step of a coroutine. -/
inductive Event where
  | edit (e : Edit)
  | login (email password newDid : Str)
  | refreshNodes (silent : Bool) (randomUUID : Str)
  | logout
  | io (k : Nat) (reply : Reply)
  deriving DecidableEq

/-- `login`, up to the suspension in `fetchNodes`. -/
def App.login (a : App) (email password newDid : Str) : App :=
  let e := trim email
  if e.isEmpty || password.isEmpty then { a with vm := { a.vm with loginError := some "请输入邮箱和密码".toList } }
  else if a.vm.loginBusy then a
  else
    { a with
      vm := { a.vm with loginBusy := true }
      jobs := a.jobs ++ [{ kind := .login, account := ⟨e, password, newDid⟩, stage := .loadToken }] }

/-- `refreshNodes`, up to the suspension in `fetchNodes`; without an account it ends in its catch branch at once. -/
def App.refreshNodes (a : App) (silent : Bool) (randomUUID : Str) : App :=
  if a.vm.loginBusy then a
  else
    match SettingsStore.loadAccount a.vm.prefs randomUUID with
    | (none, prefs) =>
      { a with
        vm :=
          { a.vm with
            toast := if silent then a.vm.toast else some ("刷新失败: ".toList ++ "未登录".toList)
            loginBusy := false
            prefs := prefs } }
    | (some account, prefs) =>
      { a with
        vm := { a.vm with loginBusy := true, prefs := prefs }
        jobs := a.jobs ++ [{ kind := .refresh silent, account := account, stage := .loadToken }] }

/-- One step of the coroutine at a place of the list. -/
def App.io (a : App) (k : Nat) (j : Job) (reply : Reply) : App :=
  let r := j.io a.vm reply
  { vm := r.1
    jobs := r.2.2.elim (a.jobs.eraseIdx k) fun stage => a.jobs.set k { j with stage := stage }
    calls := a.calls ++ r.2.1 }

/-- One event. The ids that `login` and `refreshNodes` draw are random UUIDs, which are not empty. -/
def App.step (a : App) : Event → Option App
  | .edit e => some { a with vm := a.vm.edit e }
  | .login email password newDid => if newDid.isEmpty then none else some (a.login email password newDid)
  | .refreshNodes silent randomUUID => if randomUUID.isEmpty then none else some (a.refreshNodes silent randomUUID)
  | .logout => some { a with vm := a.vm.logout }
  | .io k reply => (a.jobs[k]?).map fun j => a.io k j reply

end Open365Vpn
