import Open365Vpn.Background

/-!
# Edits, and a sync that runs alone

What an edit does to the list is a function of the list (`editNodes`), and an edit never touches the stored set of URIs. A
coroutine whose steps follow each other without another event computes what `ViewModel.fetchNodes` says (`ends_fetchNodes`):
the operations of `Open365Vpn.ViewModel` are the runs of `App` in which every sync runs alone.
-/

namespace Open365Vpn

open Kotlin Runs

/-! ## Edits -/

/-- The list after an edit. -/
def editNodes (nodes : List NodeItem) : Edit → List NodeItem
  | .importNodes text => importedNodes nodes text
  | .deleteNode node => nodes.filter fun it => !(it.uri == node.uri)
  | .renameNode node newLabel => ViewModel.renamedNodes nodes node.uri newLabel

namespace ViewModel

theorem edit_nodes (s : ViewModel) (e : Edit) : (s.edit e).nodes = editNodes s.nodes e := by
  cases e with
  | importNodes text => exact s.importNodes_nodes text
  | deleteNode node => rfl
  | renameNode node newLabel => exact s.renameNode_nodes node newLabel

/-- An edit writes the list, on the screen and in the preferences, the toast and whether the import is open. -/
theorem edit_frame (s : ViewModel) (e : Edit) :
    ∃ nodes toast importExpanded stored, s.edit e = { s with nodes, toast, importExpanded, prefs := { s.prefs with nodes := stored } } := by
  cases e with
  | importNodes text =>
    simp only [edit, importNodes]
    split
    · exact ⟨_, _, _, _, rfl⟩
    · split <;> exact ⟨_, _, _, _, rfl⟩
  | deleteNode node => exact ⟨_, _, _, _, rfl⟩
  | renameNode node newLabel =>
    simp only [edit, renameNode]
    split <;> exact ⟨_, _, _, _, rfl⟩

theorem edit_apiNodes (s : ViewModel) (e : Edit) : (s.edit e).prefs.apiNodes = s.prefs.apiNodes := by
  obtain ⟨_, _, _, _, h⟩ := s.edit_frame e
  rw [h]

/-- An edit keeps the stored string that of the list. -/
theorem edit_saved {s : ViewModel} (h : s.prefs.nodes = NodeStore.save s.nodes) (e : Edit) :
    (s.edit e).prefs.nodes = NodeStore.save (s.edit e).nodes := by
  cases e with
  | importNodes text =>
    simp only [edit]
    rcases s.importNodes_cases text with ⟨-, h1, h2⟩ | ⟨-, h1, h2⟩
    · rw [h1, h2, setNodes_prefs_nodes]
    · rw [h1, h2, h]
  | deleteNode node => rfl
  | renameNode node newLabel =>
    simp only [edit]
    rcases s.renameNode_cases node newLabel with ⟨h1, h2⟩ | ⟨-, h1, h2⟩
    · rw [h1, h2, setNodes_prefs_nodes]
    · rw [h1, h2, h]

theorem foldl_edit_nodes (es : List Edit) (s : ViewModel) : (es.foldl edit s).nodes = es.foldl editNodes s.nodes := by
  induction es generalizing s with
  | nil => rfl
  | cons e es ih => rw [List.foldl_cons, List.foldl_cons, ih, edit_nodes]

theorem foldl_edit_apiNodes (es : List Edit) (s : ViewModel) :
    (es.foldl edit s).prefs.apiNodes = s.prefs.apiNodes := by
  induction es generalizing s with
  | nil => rfl
  | cons e es ih => rw [List.foldl_cons, ih, edit_apiNodes]

end ViewModel

/-! ## One coroutine -/

/-- A step of the only coroutine in flight. -/
theorem step_io_zero (s : ViewModel) (j : Job) (calls : List ApiCall) (reply : Reply) :
    App.step ⟨s, [j], calls⟩ (.io 0 reply) =
      some ⟨(j.io s reply).1, (j.io s reply).2.2.elim [] fun stage => [{ j with stage := stage }],
        calls ++ (j.io s reply).2.1⟩ := by
  simp only [App.step, List.getElem?_cons_zero, Option.map_some, App.io]
  cases (j.io s reply).2.2 <;> simp

/-- A step of the only coroutine in flight that does not end it. -/
theorem reaches_io {s s' : ViewModel} {j : Job} {cs : List ApiCall} {stage : Stage} (calls : List ApiCall) (reply : Reply)
    (h : j.io s reply = (s', cs, some stage)) :
    Reaches App.step ⟨s, [j], calls⟩ ⟨s', [{ j with stage := stage }], calls ++ cs⟩ := by
  apply Reaches.single (e := .io 0 reply)
  rw [step_io_zero, h]
  rfl

/-- The stage in which a sync ends. -/
def Stage.ofResult : Except (Option Str) (List (Str × Str)) → Stage
  | .ok _ => .finish
  | .error message => .caught message

/-- From here the coroutine, when it runs alone, ends in the state and with the result given. -/
def Ends (s : ViewModel) (j : Job) (r : Except (Option Str) (List (Str × Str)) × ViewModel) : Prop :=
  ∀ calls, ∃ calls', Reaches App.step ⟨s, [j], calls⟩ ⟨r.2, [{ j with stage := Stage.ofResult r.1 }], calls'⟩

theorem Ends.io {s s' : ViewModel} {j : Job} {cs : List ApiCall} {stage : Stage}
    {r : Except (Option Str) (List (Str × Str)) × ViewModel} (reply : Reply) (h : j.io s reply = (s', cs, some stage))
    (h' : Ends s' { j with stage := stage } r) : Ends s j r := by
  intro calls
  obtain ⟨calls', hr⟩ := h' (calls ++ cs)
  exact ⟨calls', (reaches_io calls reply h).trans hr⟩

theorem Ends.done {s : ViewModel} {j : Job} {r : Except (Option Str) (List (Str × Str))} (h : j.stage = Stage.ofResult r) :
    Ends s j (r, s) := by
  intro calls
  refine ⟨calls, ?_⟩
  rw [← h]
  exact Reaches.refl _

/-- The five steps of a merge that runs alone. -/
theorem ends_readApi (s : ViewModel) (kind : JobKind) (account : Account) (found : List (Str × Str)) :
    Ends s ⟨kind, account, .readApi found⟩ (.ok found, s.syncNodes found) := by
  refine Ends.io (.ok []) rfl (Ends.io (.ok []) rfl (Ends.io (.ok []) rfl ?_))
  exact Ends.io (.ok []) rfl (Ends.io (.ok []) rfl (Ends.done rfl))

/-- The end of a sync that runs alone, once it has the text. -/
theorem ends_extract (s : ViewModel) (kind : JobKind) (account : Account) (yaml : Str) :
    Ends s ⟨kind, account, .extract yaml⟩
      (if (X365Api.extractNodes yaml).isEmpty then (.error (some "配置中没有节点".toList), s)
        else (.ok (X365Api.extractNodes yaml), s.syncNodes (X365Api.extractNodes yaml))) := by
  by_cases he : (X365Api.extractNodes yaml).isEmpty
  · have hio : Job.io ⟨kind, account, .extract yaml⟩ s (.ok []) =
        (s, [], some (.caught (some "配置中没有节点".toList))) := by
      simp only [Job.io, he, if_true]
    rw [if_pos he]
    exact Ends.io (.ok []) hio (Ends.done rfl)
  · have hio : Job.io ⟨kind, account, .extract yaml⟩ s (.ok []) = (s, [], some (.readApi (X365Api.extractNodes yaml))) := by
      simp only [Job.io, he, if_false, Bool.false_eq_true]
    rw [if_neg he]
    exact Ends.io (.ok []) hio (ends_readApi s kind account _)

/-- The second attempt of a sync that runs alone: a new login, its token stored, and the request with it. -/
theorem ends_relogin (s : ViewModel) (kind : JobKind) (account : Account) (r : Replies) {message : Option Str}
    (h : (if SettingsStore.isNullOrEmpty s.prefs.token then .error (some "no token".toList) else r.first) =
      Except.error message) : Ends s ⟨kind, account, .relogin⟩ (s.fetchNodes r) := by
  cases hl : r.login with
  | error m =>
    have hf : s.fetchNodes r = (.error m, s) := by simp only [ViewModel.fetchNodes, ViewModel.fetchYaml, h, hl]
    rw [hf]
    exact Ends.io (.error m) rfl (Ends.done rfl)
  | ok token =>
    refine Ends.io (.ok token) rfl (Ends.io (.ok []) rfl ?_)
    cases hs : r.second with
    | error m =>
      have hf : s.fetchNodes r = (.error m, { s with prefs := SettingsStore.saveToken s.prefs token }) := by
        simp only [ViewModel.fetchNodes, ViewModel.fetchYaml, h, hl, hs]
      rw [hf]
      exact Ends.io (.error m) rfl (Ends.done rfl)
    | ok yaml =>
      simp only [ViewModel.fetchNodes, ViewModel.fetchYaml, h, hl, hs]
      exact Ends.io (.ok yaml) rfl (ends_extract _ kind account yaml)

/-- A sync that runs alone ends in the state and with the result that `ViewModel.fetchNodes` gives. -/
theorem ends_fetchNodes (s : ViewModel) (kind : JobKind) (account : Account) (r : Replies) :
    Ends s ⟨kind, account, .loadToken⟩ (s.fetchNodes r) := by
  by_cases ht : SettingsStore.isNullOrEmpty s.prefs.token
  · have hio : Job.io ⟨kind, account, .loadToken⟩ s (.ok []) = (s, [], some .relogin) := by
      simp only [Job.io, ht, if_true]
    exact Ends.io (.ok []) hio (ends_relogin s kind account r (if_pos ht))
  · have hio : Job.io ⟨kind, account, .loadToken⟩ s (.ok []) =
        (s, [], some (.fetchFirst (s.prefs.token.getD []))) := by
      simp only [Job.io, ht, if_false, Bool.false_eq_true]
    refine Ends.io (.ok []) hio ?_
    cases hf : r.first with
    | error m => exact Ends.io (.error m) rfl (ends_relogin s kind account r ((if_neg ht).trans hf))
    | ok yaml =>
      simp only [ViewModel.fetchNodes, ViewModel.fetchYaml, hf, ht, if_false, Bool.false_eq_true]
      exact Ends.io (.ok yaml) rfl (ends_extract s kind account yaml)

end Open365Vpn
