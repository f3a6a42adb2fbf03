import Open365Vpn.Api

/-!
# The node list of the view model

`ui/MainViewModel.kt` with `ui/data/SettingsStore.kt`: the in-memory list `_nodes`, what the preferences hold, and the six ways
the list is rebuilt (import, delete, rename, the merge of a sync, logout, and a restart of the app). Each function here is one
call run to its end; `Open365Vpn.Background` takes a sync apart into the steps between which other calls can fall. The lines
posted to the log are left out.
-/

namespace Open365Vpn

open Kotlin

/-- `SettingsStore.Account`. -/
structure Account where
  email : Str
  password : Str
  did : Str
  deriving DecidableEq, Repr

/-- What the two preference files hold: the stored node string (empty when the key is not set), the credentials, the token and
the set of URIs the API sent last. -/
structure Prefs where
  nodes : Str
  email : Option Str
  password : Option Str
  did : Option Str
  token : Option Str
  apiNodes : List Str
  deriving DecidableEq, Repr

/-- The preferences of a fresh installation. -/
def Prefs.empty : Prefs := { nodes := [], email := none, password := none, did := none, token := none, apiNodes := [] }

namespace SettingsStore

/-- `isNullOrEmpty`. -/
def isNullOrEmpty (s : Option Str) : Bool := s.elim true List.isEmpty

/-- `loadAccount`: an account without a device id gets a random one, which is stored. -/
def loadAccount (p : Prefs) (randomUUID : Str) : Option Account × Prefs :=
  match p.email, p.password with
  | some email, some password =>
    if isNullOrEmpty p.did then (some ⟨email, password, randomUUID⟩, { p with did := some randomUUID })
    else (some ⟨email, password, p.did.getD []⟩, p)
  | _, _ => (none, p)

/-- `saveAccount`. -/
def saveAccount (p : Prefs) (account : Account) : Prefs :=
  { p with email := some account.email, password := some account.password, did := some account.did }

/-- `clearAccount`: the device id stays. -/
def clearAccount (p : Prefs) : Prefs := { p with email := none, password := none, token := none, apiNodes := [] }

/-- `saveToken`. -/
def saveToken (p : Prefs) (token : Str) : Prefs := { p with token := some token }

/-- `saveApiNodeUris`. -/
def saveApiNodeUris (p : Prefs) (uris : List Str) : Prefs := { p with apiNodes := uris }

end SettingsStore

/-- The flows of the view model that its node and account functions read and write. -/
structure ViewModel where
  nodes : List NodeItem
  accountEmail : Option Str
  loginBusy : Bool
  loginError : Option Str
  toast : Option Str
  importExpanded : Bool
  prefs : Prefs
  deriving DecidableEq, Repr

/-- The URIs of a list of nodes. -/
def uris (nodes : List NodeItem) : List Str := nodes.map (·.uri)

/-- `current.any { it.uri == uri }`. -/
def hasUri (nodes : List NodeItem) (uri : Str) : Bool := nodes.any fun it => it.uri == uri

/-- `_nodes.value = current; NodeStore.save(app, current)`. -/
def ViewModel.setNodes (s : ViewModel) (current : List NodeItem) : ViewModel :=
  { s with nodes := current, prefs := { s.prefs with nodes := NodeStore.save current } }

/-! ## Import, delete, rename -/

/-- The loop body of `importNodes`: the list that grows, and the count of nodes added. -/
def importLine (acc : List NodeItem × Nat) (line : Str) : List NodeItem × Nat :=
  let uri := trim line
  if !startsWith scheme uri then acc
  else
    match parseNode uri with
    | none => acc
    | some parsed => if hasUri acc.1 parsed.uri then acc else (acc.1 ++ [parsed], acc.2 + 1)

/-- The loop of `importNodes`. -/
def importLines (nodes : List NodeItem) (trimmed : Str) : List NodeItem × Nat := (lines trimmed).foldl importLine (nodes, 0)

/-- `importNodes`. -/
def ViewModel.importNodes (s : ViewModel) (text : Str) : ViewModel :=
  let trimmed := trim text
  if trimmed.isEmpty then { s with toast := some "请先粘贴 URI".toList }
  else
    let r := importLines s.nodes trimmed
    if 0 < r.2 then
      { s.setNodes r.1 with
        toast := some ("导入 ".toList ++ (toString r.2).toList ++ " 个节点".toList)
        importExpanded := false }
    else { s with toast := some "未找到有效 x365:// URI".toList }

/-- `deleteNode`. -/
def ViewModel.deleteNode (s : ViewModel) (node : NodeItem) : ViewModel :=
  s.setNodes (s.nodes.filter fun it => !(it.uri == node.uri))

/-- The body of the `map` of `renameNode`. -/
def renameItem (uri newUri : Str) (it : NodeItem) : NodeItem := if it.uri == uri then (parseNode newUri).getD it else it

/-- `renameNode`. -/
def ViewModel.renameNode (s : ViewModel) (node : NodeItem) (newLabel : Str) : ViewModel :=
  let label := trim newLabel
  if label.isEmpty then { s with toast := some "名称不能为空".toList }
  else s.setNodes (s.nodes.map (renameItem node.uri (relabel node.uri label)))

/-! ## The merge of a sync -/

/-- The label of a section: sections named by an address are shown as a dedicated IP. -/
def regionLabel (region : Str) : Str :=
  match region with
  | [] => "节点".toList
  | c :: _ => if isDigit c then "独立IP".toList else region

/-- The node of one pair of the response, under the label of its section. -/
def pairItem (pair : Str × Str) : Option NodeItem := parseNode (relabel pair.2 (regionLabel pair.1))

/-- `MutableSet.add`. -/
def addUri (set : List Str) (uri : Str) : List Str := if uri ∈ set then set else set ++ [uri]

/-- The loop body of the merge: the list `merged` and the set `newUris`. -/
def mergePair (acc : List NodeItem × List Str) (pair : Str × Str) : List NodeItem × List Str :=
  match pairItem pair with
  | none => acc
  | some item => (if hasUri acc.1 item.uri then acc.1 else acc.1 ++ [item], addUri acc.2 item.uri)

/-- The nodes that are not in the set of URIs. -/
def withoutUris (nodes : List NodeItem) (set : List Str) : List NodeItem := nodes.filter fun it => !decide (it.uri ∈ set)

/-- The merge of `fetchNodes`: from the nodes, the URIs the API sent before and the pairs it sent now, the new list and the
new set. -/
def merge (nodes : List NodeItem) (oldApiUris : List Str) (found : List (Str × Str)) : List NodeItem × List Str :=
  found.foldl mergePair (withoutUris nodes oldApiUris, [])

/-- The second half of `fetchNodes`, from the pairs of the response on. -/
def ViewModel.syncNodes (s : ViewModel) (found : List (Str × Str)) : ViewModel :=
  let m := merge s.nodes s.prefs.apiNodes found
  let s' := s.setNodes m.1
  { s' with prefs := SettingsStore.saveApiNodeUris s'.prefs m.2 }

/-- The answer of a call to the API: a value, or an exception with its message. -/
abbrev Reply : Type := Except (Option Str) Str

/-- The answers that the calls of one `fetchNodes` get, where they are made: to `fetchConfigYaml` with the stored token, to
`login`, and to `fetchConfigYaml` with the new token. -/
structure Replies where
  first : Reply
  login : Reply
  second : Reply

/-- The first half of `fetchNodes`: the configuration read with the stored token, or after a new login. -/
def ViewModel.fetchYaml (s : ViewModel) (r : Replies) : Reply × ViewModel :=
  match if SettingsStore.isNullOrEmpty s.prefs.token then .error (some "no token".toList) else r.first with
  | .ok yaml => (.ok yaml, s)
  | .error _ =>
    match r.login with
    | .error message => (.error message, s)
    | .ok token => (r.second, { s with prefs := SettingsStore.saveToken s.prefs token })

/-- `fetchNodes`: the pairs it merged, or the message of the exception it ends in, and the state it leaves. -/
def ViewModel.fetchNodes (s : ViewModel) (r : Replies) : Except (Option Str) (List (Str × Str)) × ViewModel :=
  match s.fetchYaml r with
  | (.error message, s') => (.error message, s')
  | (.ok yaml, s') =>
    let found := X365Api.extractNodes yaml
    if found.isEmpty then (.error (some "配置中没有节点".toList), s') else (.ok found, s'.syncNodes found)

/-! ## Logout and restart -/

/-- `logout`. -/
def ViewModel.logout (s : ViewModel) : ViewModel :=
  let s' := s.setNodes (withoutUris s.nodes s.prefs.apiNodes)
  { s' with prefs := SettingsStore.clearAccount s'.prefs, accountEmail := none }

/-- A new process over the same preferences: the initialiser of the view model, up to the refresh it may launch. -/
def ViewModel.restart (s : ViewModel) (randomUUID : Str) : ViewModel :=
  let nodes := NodeStore.load s.prefs.nodes
  let account := SettingsStore.loadAccount { s.prefs with nodes := nodes.2 } randomUUID
  { nodes := nodes.1
    accountEmail := account.1.map (·.email)
    loginBusy := false
    loginError := none
    toast := none
    importExpanded := false
    prefs := account.2 }

/-- The app started over some preferences. -/
def ViewModel.start (p : Prefs) (randomUUID : Str) : ViewModel :=
  ViewModel.restart
    { nodes := [], accountEmail := none, loginBusy := false, loginError := none, toast := none, importExpanded := false,
      prefs := p }
    randomUUID

/-- The operations on the node list, each run to its end. -/
inductive Op where
  | importNodes (text : Str)
  | deleteNode (node : NodeItem)
  | renameNode (node : NodeItem) (newLabel : Str)
  | fetchNodes (replies : Replies)
  | logout
  | restart (randomUUID : Str)

/-- One operation. -/
def ViewModel.perform (s : ViewModel) : Op → ViewModel
  | .importNodes text => s.importNodes text
  | .deleteNode node => s.deleteNode node
  | .renameNode node newLabel => s.renameNode node newLabel
  | .fetchNodes replies => (s.fetchNodes replies).2
  | .logout => s.logout
  | .restart randomUUID => s.restart randomUUID

/-- The step function of runs of operations. -/
def ViewModel.step (s : ViewModel) (op : Op) : Option ViewModel := some (s.perform op)

end Open365Vpn
