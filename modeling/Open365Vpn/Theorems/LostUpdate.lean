import Open365Vpn.Lemmas.Background

/-!
# Edits while a sync runs

The merge of a sync reads the stored set and the list, and then writes the list, the stored string and the set, one step each
on the IO dispatcher; the edits of the user are single steps on the main thread, and nothing keeps them out of the merge. An
edit between the read of the list and the write of the stored string is lost from the list or from the store, unless it
changes nothing (`sync_serializable`).
-/

namespace Open365Vpn

open Kotlin Runs

/-- The runs considered: the steps of the one coroutine, and edits. -/
def IsSyncEvent : Event → Prop
  | .edit _ | .io _ _ => True
  | .login .. | .refreshNodes .. | .logout => False

/-- The edits of a run, in order. -/
def editsOf (es : List Event) : List Edit :=
  es.filterMap fun
    | .edit e => some e
    | _ => none

/-- The merge has read the list and has not yet written the stored string. -/
def Stage.inWindow : Stage → Bool
  | .publish .. | .saveNodes .. => true
  | _ => false

/-- An edit that falls between the read of the list and the write of the stored string leaves the list as it is. -/
def QuietInWindow (a : App) : Event → Prop
  | .edit e => (∃ j ∈ a.jobs, j.stage.inWindow = true) → (a.vm.edit e).nodes = a.vm.nodes
  | _ => True

instance (a : App) : ∀ ev, Decidable (QuietInWindow a ev)
  | .edit _ => inferInstanceAs (Decidable (_ → _))
  | .login .. | .refreshNodes .. | .logout | .io .. => inferInstanceAs (Decidable True)

namespace LostUpdateAux

theorem editsOf_append_edit (es : List Event) (e : Edit) : editsOf (es ++ [.edit e]) = editsOf es ++ [e] := by
  simp [editsOf]

theorem editsOf_append_io (es : List Event) (k : Nat) (reply : Reply) : editsOf (es ++ [.io k reply]) = editsOf es := by
  simp [editsOf]

/-- The list and the stored set that a serial execution is compared with: `nodes` and `api` at the start of the merge of
`found`. -/
structure Start where
  nodes : List NodeItem
  api : List Str
  found : List (Str × Str)

/-- The list after some edits, the merge, and some more edits. -/
def Start.serial (b : Start) (xs ys : List Edit) : List NodeItem :=
  ys.foldl editNodes (merge (xs.foldl editNodes b.nodes) b.api b.found).1

/-- What holds at each stage of the merge, after the edits `es`: before the list is read, the edits so far are in the list; the
merge is computed from a list with all of them; and once the list is published, it is that of a serial execution. -/
def Phase (b : Start) (es : List Edit) (s : ViewModel) : Stage → Prop
  | .readApi found => found = b.found ∧ s.nodes = es.foldl editNodes b.nodes ∧ s.prefs.apiNodes = b.api
  | .readNodes found old => found = b.found ∧ old = b.api ∧ s.nodes = es.foldl editNodes b.nodes
  | .publish merged _ => merged = (merge (es.foldl editNodes b.nodes) b.api b.found).1 ∧ s.nodes = es.foldl editNodes b.nodes
  | .saveNodes merged _ => s.nodes = merged ∧ ∃ xs ys, es = xs ++ ys ∧ s.nodes = b.serial xs ys
  | .saveApi _ | .finish => s.prefs.nodes = NodeStore.save s.nodes ∧ ∃ xs ys, es = xs ++ ys ∧ s.nodes = b.serial xs ys
  | _ => False

/-- An edit keeps the phase of the merge. -/
theorem phase_edit {b : Start} {es : List Edit} {s : ViewModel} {stage : Stage} (h : Phase b es s stage) {e : Edit}
    (hq : stage.inWindow = true → (s.edit e).nodes = s.nodes) : Phase b (es ++ [e]) (s.edit e) stage := by
  have hfold : (es ++ [e]).foldl editNodes b.nodes = editNodes (es.foldl editNodes b.nodes) e := by
    rw [List.foldl_append]
    rfl
  have hserial : ∀ xs ys, es = xs ++ ys → s.nodes = b.serial xs ys →
      ∃ xs ys, es ++ [e] = xs ++ ys ∧ (s.edit e).nodes = b.serial xs ys := by
    intro xs ys he hs
    refine ⟨xs, ys ++ [e], by rw [he, List.append_assoc], ?_⟩
    rw [s.edit_nodes, hs, Start.serial, Start.serial, List.foldl_append]
    rfl
  cases stage with
  | readApi found =>
    obtain ⟨h1, h2, h3⟩ := h
    exact ⟨h1, by rw [s.edit_nodes, h2, hfold], by rw [s.edit_apiNodes, h3]⟩
  | readNodes found old =>
    obtain ⟨h1, h2, h3⟩ := h
    exact ⟨h1, h2, by rw [s.edit_nodes, h3, hfold]⟩
  | publish merged new =>
    obtain ⟨h1, h2⟩ := h
    -- the edit changes nothing, so the merge is also the merge of the list after it
    have hn : (es ++ [e]).foldl editNodes b.nodes = es.foldl editNodes b.nodes := by
      rw [hfold, ← h2, ← s.edit_nodes, hq rfl]
    exact ⟨by rw [hn, h1], by rw [hn, hq rfl, h2]⟩
  | saveNodes merged new =>
    obtain ⟨h1, xs, ys, he, hs⟩ := h
    exact ⟨by rw [hq rfl, h1], hserial xs ys he hs⟩
  | saveApi new | finish =>
    obtain ⟨h1, xs, ys, he, hs⟩ := h
    exact ⟨ViewModel.edit_saved h1 e, hserial xs ys he hs⟩
  | loadToken | fetchFirst | relogin | saveToken | fetchAgain | extract | caught => exact h

/-- A step of the merge leads from its phase to the next. -/
theorem phase_io {b : Start} {es : List Edit} {s : ViewModel} {j : Job} (h : Phase b es s j.stage) {reply : Reply}
    {stage : Stage} (hs : (j.io s reply).2.2 = some stage) : Phase b es (j.io s reply).1 stage := by
  obtain ⟨kind, account, st⟩ := j
  dsimp only at h
  cases st with
  | readApi found =>
    obtain ⟨h1, h2, h3⟩ := h
    obtain rfl := Option.some.inj hs
    exact ⟨h1, h3, h2⟩
  | readNodes found old =>
    obtain ⟨h1, h2, h3⟩ := h
    obtain rfl := Option.some.inj hs
    exact ⟨by rw [h1, h2, h3], h3⟩
  | publish merged new =>
    obtain ⟨h1, h2⟩ := h
    obtain rfl := Option.some.inj hs
    exact ⟨rfl, es, [], by simp, h1⟩
  | saveNodes merged new =>
    obtain ⟨h1, h2⟩ := h
    obtain rfl := Option.some.inj hs
    exact ⟨by simp only [Job.io, h1], h2⟩
  | saveApi new =>
    obtain rfl := Option.some.inj hs
    exact h
  | finish => cases hs
  | loadToken | fetchFirst | relogin | saveToken | fetchAgain | extract | caught => exact absurd h id

/-- The invariant of a run: the one coroutine is in the phase that its stage and the edits so far ask for, or it has ended. -/
def SyncInv (b : Start) (es : List Event) (a : App) : Prop :=
  a.jobs = [] ∨ ∃ j, a.jobs = [j] ∧ Phase b (editsOf es) a.vm j.stage

theorem syncInv_step {b : Start} {es : List Event} {a a' : App} {ev : Event} (h : SyncInv b es a)
    (hok : IsSyncEvent ev ∧ QuietInWindow a ev) (hs : a.step ev = some a') : SyncInv b (es ++ [ev]) a' := by
  cases ev with
  | edit e =>
    obtain rfl := Option.some.inj hs
    rcases h with h | ⟨j, hj, hp⟩
    · exact Or.inl h
    · refine Or.inr ⟨j, hj, ?_⟩
      rw [editsOf_append_edit]
      exact phase_edit hp fun hw => hok.2 ⟨j, by simp [hj], hw⟩
  | io k reply =>
    obtain ⟨j, hj, rfl⟩ := Option.map_eq_some_iff.1 hs
    rcases h with h | ⟨j', hj', hp⟩
    · rw [h] at hj
      cases hj
    · rw [hj'] at hj
      obtain ⟨rfl, rfl⟩ : k = 0 ∧ j' = j := by
        cases k with
        | zero => exact ⟨rfl, Option.some.inj hj⟩
        | succ k => cases hj
      cases hst : (j'.io a.vm reply).2.2 with
      | none => exact Or.inl (by simp [App.io, hst, hj'])
      | some stage =>
        refine Or.inr ⟨{ j' with stage := stage }, by simp [App.io, hst, hj'], ?_⟩
        rw [editsOf_append_io]
        exact phase_io hp hst
  | login | refreshNodes | logout => exact absurd hok.1 id

end LostUpdateAux

open LostUpdateAux

/-- Take a merge that is about to start and any interleaving of its five steps with edits. When the merge is done, the list is
that of the edits and the whole merge run one after another, in an order that keeps the edits' own, and the stored string is
that list joined, if every edit that fell between the read of the list and the write of the stored string left the list as it
was. -/
theorem sync_serializable (s : ViewModel) (kind : JobKind) (account : Account) (found : List (Str × Str))
    (calls : List ApiCall) (es : List Event) (a : App) (hes : ∀ ev ∈ es, IsSyncEvent ev)
    (hm : Meets App.step QuietInWindow ⟨s, [⟨kind, account, .readApi found⟩], calls⟩ es)
    (hx : exec App.step ⟨s, [⟨kind, account, .readApi found⟩], calls⟩ es = some a)
    (hd : a.jobs = [⟨kind, account, .finish⟩]) :
    (∃ xs ys, editsOf es = xs ++ ys ∧
      a.vm.nodes = (ys.foldl ViewModel.edit ((xs.foldl ViewModel.edit s).syncNodes found)).nodes) ∧
    a.vm.prefs.nodes = joinToString '\n' (uris a.vm.nodes) := by
  have hm' : Meets App.step (fun a ev => IsSyncEvent ev ∧ QuietInWindow a ev)
      ⟨s, [⟨kind, account, .readApi found⟩], calls⟩ es :=
    hm.and_mem hes
  have h0 : SyncInv ⟨s.nodes, s.prefs.apiNodes, found⟩ [] ⟨s, [⟨kind, account, .readApi found⟩], calls⟩ :=
    Or.inr ⟨_, rfl, rfl, rfl, rfl⟩
  have hinv := exec_history_invariant (SyncInv ⟨s.nodes, s.prefs.apiNodes, found⟩)
    (fun es a ev a' h hok hs => syncInv_step h hok hs) h0 hm' hx
  rcases hinv with h | ⟨j, hj, hp⟩
  · rw [h] at hd
    cases hd
  · rw [hj] at hd
    obtain rfl : j = ⟨kind, account, .finish⟩ := by simpa using hd
    obtain ⟨hsave, xs, ys, he, hn⟩ := hp
    refine ⟨⟨xs, ys, he, ?_⟩, hsave⟩
    rw [hn, ViewModel.foldl_edit_nodes, ViewModel.syncNodes_nodes, ViewModel.foldl_edit_nodes,
      ViewModel.foldl_edit_apiNodes]
    rfl

/-- A refresh about to merge a response with one node into an empty list. -/
def aboutToMerge : App :=
  ⟨ViewModel.start Prefs.empty [],
    [⟨.refresh true, ⟨"e".toList, "p".toList, "d".toList⟩, .readApi [("香港".toList, "x365://u@h:443".toList)]⟩], []⟩

/-- The import of another node. -/
def importOther : Edit := .importNodes "x365://v@h:443#a".toList

/-- A blank import falls into the merge, and the import of a node comes once the stored string is written. -/
theorem sync_serializable_late_import :
    ∃ a, exec App.step aboutToMerge [.io 0 (.ok []), .io 0 (.ok []), .edit (.importNodes " ".toList), .io 0 (.ok []),
        .io 0 (.ok []), .edit importOther, .io 0 (.ok [])] = some a ∧
      a.vm.prefs.nodes = joinToString '\n' (uris a.vm.nodes) :=
  ⟨_, rfl, (sync_serializable _ _ _ _ _ [.io 0 (.ok []), .io 0 (.ok []), .edit (.importNodes " ".toList), .io 0 (.ok []),
    .io 0 (.ok []), .edit importOther, .io 0 (.ok [])] _ (by simp [IsSyncEvent]) (by decide) rfl rfl).2⟩

/-- An import after the list is read and before it is published is lost: the list is neither that of the import before the sync
nor that of the import after it. -/
theorem sync_loses_import :
    ∃ a, exec App.step aboutToMerge [.io 0 (.ok []), .io 0 (.ok []), .edit importOther, .io 0 (.ok []), .io 0 (.ok []),
        .io 0 (.ok [])] = some a ∧ a.jobs.map (·.stage) = [.finish] ∧
      ¬∃ xs ys, [importOther] = xs ++ ys ∧
        a.vm.nodes = (ys.foldl ViewModel.edit ((xs.foldl ViewModel.edit aboutToMerge.vm).syncNodes
          [("香港".toList, "x365://u@h:443".toList)])).nodes := by
  refine ⟨_, rfl, rfl, ?_⟩
  rintro ⟨xs, ys, he, hn⟩
  rcases List.singleton_eq_append_iff.1 he with ⟨rfl, rfl⟩ | ⟨rfl, rfl⟩
  · revert hn
    decide
  · revert hn
    decide

end Open365Vpn
