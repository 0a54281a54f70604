import Pantoken.Client.Composer
import Pantoken.Client.HostViews

/-!
# The configuration of a draft

A new session is drafted per project: its chips are kept in the draft and stored under the
project's key whenever one of them changes, all of them together.  The base branch of its
worktree is one of them.  It is picked by the user, or filled in from the branches of the
repository when they arrive, and only a pick is to be stored.

## Main definitions

* `reseedDraftFromDefaults` — a draft when the defaults arrive.
* `Drafting`, `Drafting.step` — the draft, what is stored, and the branches.
* `Picking`, `Picking.step` — the same with the branch the user has picked last for each draft.
* `Picking.OnlyPicks` — every stored branch is the one picked for its draft.
* `Drafting.Stores` — the condition under which a step stores no other.

## Main results

* `stores_iff` — **what is stored are picks exactly as long as every step meets the condition.**
* `not_onlyPicks` — a worktree that is switched on stores the branch that was filled in.
-/

namespace Pantoken

structure ModelDefaults where
  modelId : Option String
  thinkingLevel : Option String
  defaultPermissionMonitor : Option PermissionMonitorMode

/-- `reseedDraftFromDefaults`: only what is not set is filled in. -/
def reseedDraftFromDefaults (d : Draft) (defaults : ModelDefaults) : Draft :=
  { d with
    model := d.model.or (Ts.truthy defaults.modelId)
    thinking :=
      if (Ts.truthy d.thinking).isSome then d.thinking
      else (Ts.truthy defaults.thinkingLevel).or d.thinking
    permissionMonitor := d.permissionMonitor.or defaults.defaultPermissionMonitor }

/-- `loadDraftConfigMap`, of entries whose fields have the right types. -/
def loadDraftConfigMap (raw : PMap DraftKey StoredDraftConfig) : PMap DraftKey StoredDraftConfig :=
  fun key => (raw key).bind fun rec =>
    let cfg := { rec with baseBranch := Ts.truthy rec.baseBranch, facet := Ts.truthy rec.facet }
    if cfg.isEmpty then none else some cfg

structure BranchList where
  path : String
  branches : List String
  error : Bool

def pickDefaultBranch (branches : List String) : Option String :=
  if "main" ∈ branches then some "main"
  else if "master" ∈ branches then some "master"
  else branches.head?

/-- The part of the client's store that keeps the draft of a new session. -/
structure Drafting where
  draft : Option Draft
  draftConfigMap : PMap DraftKey StoredDraftConfig
  branchList : Option BranchList
  branchLoading : Bool
  branchRequestId : ℕ
  modelDefaults : ModelDefaults

namespace Drafting

inductive Action where
  | startDraft (cwd : String)
  | toggleDraftWorktree
  | setDraftBaseBranch (branch : Option String)
  /-- The branches arrive. -/
  | branchList (requestId : ℕ) (list : BranchList)
  | setModel (modelId : String) (thinkingLevel : Option String)
  | setThinking (level : String)
  | setFacet (facet : String)
  | setPermissionMonitor (mode : PermissionMonitorMode)
  | setDraftAdventurousHandoff (enabled : Bool)
  | setDraftCwd (cwd : String)
  /-- The composer asks for the branches. -/
  | queryBranches
  /-- `cancelDraft`, or a session is opened. -/
  | leave
  | discardDraft (key : DraftKey)
  /-- The draft is sent. -/
  | submitted
  | defaults (defaults : ModelDefaults)

/-- The key of a draft. -/
def keyOf (d : Draft) : DraftKey := .ofCwd d.cwd

/-- `persistDraftConfig`, of this draft. -/
def persist (s : Drafting) (d : Draft) : Drafting :=
  { s with
    draftConfigMap := persistDraftConfig s.draftConfigMap (keyOf d) d s.modelDefaults.modelId
      s.modelDefaults.thinkingLevel }

/-- A setter: one field of the draft changes, and all of it is stored. -/
def set (s : Drafting) (change : Draft → Draft) : Drafting :=
  match s.draft with
  | none => s
  | some d => { s with draft := some (change d) }.persist (change d)

/-- `queryBranches` -/
def queryBranches (s : Drafting) : Drafting :=
  { s with
    branchLoading := true
    branchRequestId := s.branchRequestId + 1 }

/-- The draft of a project from the defaults and from what is stored for it. -/
def seeded (s : Drafting) (cwd : String) : Draft :=
  let d : Draft :=
    { cwd := cwd
      worktree := false
      baseBranch := none
      model := Ts.truthy s.modelDefaults.modelId
      thinking := s.modelDefaults.thinkingLevel
      facet := some "execute"
      permissionMonitor := s.modelDefaults.defaultPermissionMonitor
      adventurousHandoff := some false }
  match s.draftConfigMap (keyOf d) with
  | none => d
  | some saved =>
    { d with
      worktree := saved.worktree
      baseBranch := saved.baseBranch.or d.baseBranch
      model := saved.model.or d.model
      thinking := saved.thinking.or d.thinking
      facet := saved.facet.or d.facet
      permissionMonitor := saved.permissionMonitor.or d.permissionMonitor
      adventurousHandoff := some saved.adventurousHandoff }

def startDraft (s : Drafting) (cwd : String) : Drafting :=
  let s' := { s with draft := some (s.seeded cwd) }
  if cwd ≠ "" ∧ s.branchList.map (·.path) ≠ some cwd ∧ s.branchLoading = false then
    s'.queryBranches
  else s'

/-- The branches of a draft's project, if the list is for it. -/
def freshBranches (s : Drafting) (d : Draft) : List String :=
  match s.branchList with
  | none => []
  | some list => if list.path = d.cwd ∧ list.error = false then list.branches else []

/-- The branch of a draft whose worktree is switched: the default one where it is switched on and
the branches are there. -/
def derived (s : Drafting) (d : Draft) : Option String :=
  if d.worktree = false ∧ s.freshBranches d ≠ [] then pickDefaultBranch (s.freshBranches d)
  else none

def toggleDraftWorktree (s : Drafting) : Drafting :=
  match s.draft with
  | none => s
  | some d =>
    let hadExplicitBranch := (Ts.truthy d.baseBranch).isSome
    let d' := { d with worktree := !d.worktree, baseBranch := s.derived d }
    let s' :=
      { s with
        draft := some d'
        branchList := if d'.worktree then s.branchList else none }
    if hadExplicitBranch then s'.persist d' else s'.persist { d' with baseBranch := none }

/-- The branches of a request arrive.  A draft without a branch gets one. -/
def onBranchList (s : Drafting) (requestId : ℕ) (list : BranchList) : Drafting :=
  if requestId ≠ s.branchRequestId then s
  else
    { s with
      branchList := some list
      branchLoading := false
      draft := s.draft.map fun d =>
        if (Ts.truthy d.baseBranch).isSome then d
        else
          match Ts.truthy (pickDefaultBranch list.branches) with
          | some branch => { d with baseBranch := some branch }
          | none => d }

def setDraftCwd (s : Drafting) (cwd : String) : Drafting :=
  match s.draft with
  | none => s
  | some d =>
    let d' := { d with cwd := cwd }
    if keyOf d ≠ keyOf d' then
      { s with
        draft := some d'
        draftConfigMap := s.draftConfigMap.erase (keyOf d)
        branchList := none }.persist d'
    else { s with draft := some d' }

/-- `clearStoredDraftConfig` -/
def clearStoredDraftConfig (s : Drafting) (key : DraftKey) : Drafting :=
  { s with draftConfigMap := s.draftConfigMap.erase key }

def discardDraft (s : Drafting) (key : DraftKey) : Drafting :=
  let s' := s.clearStoredDraftConfig key
  if s.draft.map keyOf = some key then { s' with draft := none } else s'

/-- The end of `submitDraft`. -/
def submitted (s : Drafting) : Drafting :=
  match s.draft with
  | none => s
  | some d => { s.clearStoredDraftConfig (keyOf d) with draft := none }

/-- One step. -/
def step (s : Drafting) : Action → Drafting
  | .startDraft cwd => s.startDraft cwd
  | .toggleDraftWorktree => s.toggleDraftWorktree
  | .setDraftBaseBranch branch => s.set ({ · with baseBranch := branch })
  | .branchList requestId list => s.onBranchList requestId list
  | .setModel modelId level => s.set ({ · with model := some modelId, thinking := level })
  | .setThinking level => s.set ({ · with thinking := some level })
  | .setFacet facet => s.set ({ · with facet := some facet })
  | .setPermissionMonitor mode => s.set ({ · with permissionMonitor := some mode })
  | .setDraftAdventurousHandoff enabled => s.set ({ · with adventurousHandoff := some enabled })
  | .setDraftCwd cwd => s.setDraftCwd cwd
  | .queryBranches => s.queryBranches
  | .leave => { s with draft := none }
  | .discardDraft key => s.discardDraft key
  | .submitted => s.submitted
  | .defaults defaults =>
    { s with
      modelDefaults := defaults
      draft := s.draft.map (reseedDraftFromDefaults · defaults) }

/-- The page has loaded. -/
def boot (raw : PMap DraftKey StoredDraftConfig) : Drafting :=
  ⟨none, loadDraftConfigMap raw, none, false, 0, ⟨none, none, none⟩⟩

/-- The branch that is stored under a key. -/
def stored (s : Drafting) (key : DraftKey) : Option String :=
  (s.draftConfigMap key).bind (·.baseBranch)

/-- What is stored of a draft is to be a branch that is stored for it already. -/
def Pinned (s : Drafting) (d : Draft) : Prop :=
  ∀ branch, Ts.truthy d.baseBranch = some branch → s.stored (keyOf d) = some branch

/-- A step stores no branch that was filled in: the draft has none or the stored one where it is
stored with another field or for another project, and a worktree is not switched on when the
draft has a branch and the branches of its project are known. -/
def Stores (s : Drafting) : Action → Prop
  | .setModel .. | .setThinking _ | .setFacet _ | .setPermissionMonitor _
  | .setDraftAdventurousHandoff _ => ∀ d, s.draft = some d → s.Pinned d
  | .setDraftCwd cwd =>
    ∀ d, s.draft = some d → keyOf d ≠ keyOf { d with cwd := cwd } → s.Pinned d
  | .toggleDraftWorktree =>
    ∀ d, s.draft = some d → d.worktree = false → Ts.truthy d.baseBranch ≠ none →
      Ts.truthy (pickDefaultBranch (s.freshBranches d)) = none
  | _ => True

end Drafting

/-! ### Picks -/

/-- The store, with the branch that was picked last for each draft. -/
structure Picking where
  store : Drafting
  picks : PMap DraftKey String

namespace Picking

open Drafting

/-- A branch is picked for a draft, or the automatic one. -/
def pick (picks : PMap DraftKey String) (key : DraftKey) (branch : Option String) :
    PMap DraftKey String :=
  Function.update picks key branch

/-- What a step means for the picks.  A worktree that is switched gets a new branch, and a draft
that goes to another project takes its pick along. -/
def picksAfter (picks : PMap DraftKey String) (s : Drafting) : Action → PMap DraftKey String
  | .setDraftBaseBranch branch =>
    match s.draft with
    | none => picks
    | some d => pick picks (keyOf d) (Ts.truthy branch)
  | .toggleDraftWorktree | .submitted =>
    match s.draft with
    | none => picks
    | some d => pick picks (keyOf d) none
  | .setDraftCwd cwd =>
    match s.draft with
    | none => picks
    | some d =>
      if keyOf d ≠ keyOf { d with cwd := cwd } then
        pick (pick picks (keyOf d) none) (keyOf { d with cwd := cwd }) (picks (keyOf d))
      else picks
  | .discardDraft key => pick picks key none
  | _ => picks

/-- One step of both. -/
def step (p : Picking) (a : Action) : Picking :=
  ⟨p.store.step a, picksAfter p.picks p.store a⟩

/-- The page has loaded.  What is stored was picked before. -/
def boot (raw : PMap DraftKey StoredDraftConfig) : Picking :=
  ⟨.boot raw, (Drafting.boot raw).stored⟩

/-- Every branch that is stored is the one the user has picked for the draft. -/
def OnlyPicks (p : Picking) : Prop :=
  ∀ key branch, p.store.stored key = some branch → p.picks key = some branch

/-- What steps under the condition keep: the picks are what is stored, and the draft has the
pick of its project. -/
structure Kept (p : Picking) : Prop where
  stored : ∀ key, p.store.stored key = p.picks key
  nonempty : ∀ key, p.picks key ≠ some ""
  draft : ∀ d, p.store.draft = some d → ∀ branch, p.picks (keyOf d) = some branch →
    d.baseBranch = some branch

end Picking

/-! ### What a step stores -/

namespace Drafting

section Stored

variable {s : Drafting} {d : Draft} {key : DraftKey}

theorem config_baseBranch_of_isEmpty {cfg : StoredDraftConfig} (h : cfg.isEmpty = true) :
    Ts.truthy cfg.baseBranch = none := by
  simp only [StoredDraftConfig.isEmpty, Bool.and_eq_true, Option.isNone_iff_eq_none] at h
  exact h.1.1.1.1.1.2

theorem truthy_truthy (o : Option String) : Ts.truthy (Ts.truthy o) = Ts.truthy o := by
  rw [Ts.truthy, Ts.truthy, Option.filter_filter]
  congr 1
  funext x
  exact Bool.and_self _

theorem truthy_ne_empty {o : Option String} {x : String} (h : Ts.truthy o = some x) : x ≠ "" := by
  have := (Option.filter_eq_some_iff.mp h).2
  simpa using this

theorem truthy_of_ne_empty {x : String} (h : x ≠ "") : Ts.truthy (some x) = some x :=
  Option.filter_eq_some_iff.mpr ⟨rfl, by simpa using h⟩

/-- What is stored of a draft has its branch. -/
theorem baseBranch_storedDraftConfig (d : Draft) (modelId thinkingLevel : Option String) :
    (storedDraftConfig d modelId thinkingLevel).bind (·.baseBranch) = Ts.truthy d.baseBranch := by
  rw [storedDraftConfig]
  split_ifs with hempty
  · have hbranch := config_baseBranch_of_isEmpty hempty
    rw [truthy_truthy] at hbranch
    exact hbranch.symm
  · rfl

/-- What `persistDraftConfig` writes is the branch of the draft. -/
theorem stored_persist (s : Drafting) (d : Draft) :
    (s.persist d).stored = Function.update s.stored (keyOf d) (Ts.truthy d.baseBranch) := by
  funext key
  rw [← baseBranch_storedDraftConfig d s.modelDefaults.modelId s.modelDefaults.thinkingLevel,
    stored, persist, persistDraftConfig]
  dsimp only
  generalize storedDraftConfig d s.modelDefaults.modelId s.modelDefaults.thinkingLevel = cfg
  by_cases hkey : key = keyOf d
  · subst hkey
    rw [Function.update_self]
    cases cfg with
    | none => exact congrArg (Option.bind · _) (PMap.erase_self _ _)
    | some cfg => exact congrArg (Option.bind · _) (PMap.insert_self _ _ _)
  · rw [Function.update_of_ne hkey]
    cases cfg with
    | none => exact congrArg (Option.bind · _) (PMap.erase_of_ne _ hkey)
    | some cfg => exact congrArg (Option.bind · _) (PMap.insert_of_ne _ _ hkey)

theorem stored_clear (s : Drafting) (key : DraftKey) :
    (s.clearStoredDraftConfig key).stored = Function.update s.stored key none := by
  funext key'
  rw [stored, clearStoredDraftConfig]
  by_cases hkey : key' = key
  · subst hkey
    rw [Function.update_self]
    dsimp only
    rw [PMap.erase_self]
    rfl
  · rw [Function.update_of_ne hkey]
    dsimp only
    rw [PMap.erase_of_ne _ hkey]
    rfl

theorem stored_set (h : s.draft = some d) {change : Draft → Draft}
    (hcwd : (change d).cwd = d.cwd) :
    (s.set change).stored =
      Function.update s.stored (keyOf d) (Ts.truthy (change d).baseBranch) := by
  have hkey : keyOf (change d) = keyOf d := by rw [keyOf, hcwd, keyOf]
  rw [set, h]
  exact (stored_persist _ _).trans (by rw [hkey]; rfl)

theorem draft_set (h : s.draft = some d) (change : Draft → Draft) :
    (s.set change).draft = some (change d) := by
  rw [set, h]
  rfl

theorem draft_toggle (h : s.draft = some d) :
    s.toggleDraftWorktree.draft =
      some { d with worktree := !d.worktree, baseBranch := s.derived d } := by
  rw [toggleDraftWorktree, h]
  dsimp only
  rw [apply_ite Drafting.draft]
  exact ite_self _

/-- A toggle stores the new branch exactly if the draft had one. -/
theorem stored_toggle (h : s.draft = some d) :
    s.toggleDraftWorktree.stored =
      Function.update s.stored (keyOf d)
        (if (Ts.truthy d.baseBranch).isSome then Ts.truthy (s.derived d) else none) := by
  rw [toggleDraftWorktree, h]
  dsimp only
  by_cases hhad : (Ts.truthy d.baseBranch).isSome
  · rw [if_pos hhad, if_pos hhad]
    exact stored_persist _ _
  · rw [if_neg hhad, if_neg hhad]
    exact stored_persist _ _

theorem derived_of_worktree (h : d.worktree = true) : s.derived d = none := by
  rw [derived, if_neg]
  rw [h]
  exact fun hoff => Bool.false_ne_true hoff.1.symm

theorem truthy_derived (h : d.worktree = false) :
    Ts.truthy (s.derived d) = Ts.truthy (pickDefaultBranch (s.freshBranches d)) := by
  rw [derived, h]
  by_cases hfresh : s.freshBranches d = []
  · rw [if_neg fun hne => hne.2 hfresh, hfresh]
    rfl
  · rw [if_pos ⟨rfl, hfresh⟩]

/-- A toggle stores no branch exactly under its condition. -/
theorem stores_toggle_iff (h : s.draft = some d) :
    s.Stores .toggleDraftWorktree ↔
      (if (Ts.truthy d.baseBranch).isSome then Ts.truthy (s.derived d) else none) = none := by
  have hiff : s.Stores .toggleDraftWorktree ↔ (d.worktree = false → Ts.truthy d.baseBranch ≠ none →
      Ts.truthy (pickDefaultBranch (s.freshBranches d)) = none) :=
    ⟨fun hs => hs d h, fun hs d' hd' => Option.some.inj (h.symm.trans hd') ▸ hs⟩
  rw [hiff]
  rcases hhad : Ts.truthy d.baseBranch with _ | branch
  · simp
  · rcases hon : d.worktree with _ | _
    · simp [truthy_derived hon]
    · simp [derived_of_worktree hon, Ts.truthy]

end Stored

end Drafting

/-! ### What steps under the condition keep -/

namespace Picking

open Drafting

section Kept

variable {p : Picking} {d : Draft}

theorem Kept.onlyPicks (h : Kept p) : OnlyPicks p := fun key _ hstored => (h.stored key) ▸ hstored

/-- A draft that is pinned has the pick of its project, if any. -/
theorem Kept.picks_eq (h : Kept p) (hd : p.store.draft = some d) (hpin : p.store.Pinned d) :
    p.picks (keyOf d) = Ts.truthy d.baseBranch := by
  rcases hbranch : Ts.truthy d.baseBranch with _ | branch
  · rcases hpick : p.picks (keyOf d) with _ | x
    · rfl
    · have hx : x ≠ "" := fun hx => h.nonempty (keyOf d) (hx ▸ hpick)
      rw [h.draft d hd x hpick, truthy_of_ne_empty hx] at hbranch
      cases hbranch
  · rw [← h.stored]
    exact hpin branch hbranch

/-- One entry changes, in both maps and in a way that fits the draft. -/
theorem Kept.update (h : Kept p) {p' : Picking} (key : DraftKey) (branch : Option String)
    (hstored : p'.store.stored = Function.update p.store.stored key branch)
    (hpicks : p'.picks = Function.update p.picks key branch) (hne : branch ≠ some "")
    (hdraft : ∀ d, p'.store.draft = some d → ∀ x, p'.picks (keyOf d) = some x →
      d.baseBranch = some x) : Kept p' where
  stored key' := by
    rw [hstored, hpicks, show p.store.stored = p.picks from funext h.stored]
  nonempty key' := by
    rw [hpicks]
    by_cases hkey : key' = key
    · rw [hkey, Function.update_self]
      exact hne
    · rw [Function.update_of_ne hkey]
      exact h.nonempty key'
  draft := hdraft

/-- What is stored and picked stays. -/
theorem Kept.congr (h : Kept p) {p' : Picking} (hstored : p'.store.stored = p.store.stored)
    (hpicks : p'.picks = p.picks)
    (hdraft : ∀ d, p'.store.draft = some d → ∀ x, p.picks (keyOf d) = some x →
      d.baseBranch = some x) : Kept p' where
  stored key := by rw [hstored, hpicks, h.stored]
  nonempty := hpicks ▸ h.nonempty
  draft d hd x hx := hdraft d hd x (hpicks ▸ hx)

/-- A field other than the branch changes. -/
theorem kept_set (h : Kept p) (hd : p.store.draft = some d) (hpin : p.store.Pinned d)
    {change : Draft → Draft} (hcwd : (change d).cwd = d.cwd)
    (hbranch : (change d).baseBranch = d.baseBranch) :
    Kept ⟨p.store.set change, p.picks⟩ := by
  have hkey : keyOf (change d) = keyOf d := by rw [keyOf, hcwd, keyOf]
  refine h.update (keyOf d) (Ts.truthy d.baseBranch) ?_ ?_ ?_ ?_
  · rw [← hbranch]
    exact stored_set hd hcwd
  · rw [← h.picks_eq hd hpin, Function.update_eq_self]
  · exact fun hempty => truthy_ne_empty hempty rfl
  · intro d' hd' x hx
    obtain rfl := Option.some.inj ((draft_set hd change).symm.trans hd')
    rw [hbranch]
    exact h.draft d hd x (hkey ▸ hx)

theorem kept_pick (h : Kept p) (hd : p.store.draft = some d) (branch : Option String) :
    Kept (p.step (.setDraftBaseBranch branch)) := by
  have hpicks : (p.step (.setDraftBaseBranch branch)).picks =
      Function.update p.picks (keyOf d) (Ts.truthy branch) := by
    simp only [step, picksAfter, hd, pick]
  refine h.update _ _ (stored_set hd rfl) hpicks (fun hempty => truthy_ne_empty hempty rfl) ?_
  intro d' hd' x hx
  obtain rfl := Option.some.inj ((draft_set hd ({ · with baseBranch := branch })).symm.trans hd')
  rw [hpicks] at hx
  have hx' : Ts.truthy branch = some x := (Function.update_self (keyOf d) _ _).symm.trans hx
  exact (Option.filter_eq_some_iff.mp hx').1

theorem kept_toggle (h : Kept p) (hd : p.store.draft = some d)
    (hstores : p.store.Stores .toggleDraftWorktree) : Kept (p.step .toggleDraftWorktree) := by
  have hpicks : (p.step .toggleDraftWorktree).picks =
      Function.update p.picks (keyOf d) none := by
    simp only [step, picksAfter, hd, pick]
  refine h.update (keyOf d) none ?_ hpicks (by simp) ?_
  · exact (stored_toggle hd).trans (by rw [(stores_toggle_iff hd).mp hstores])
  · intro d' hd' x hx
    obtain rfl := Option.some.inj ((draft_toggle hd).symm.trans hd')
    rw [hpicks] at hx
    cases (Function.update_self (keyOf d) _ _).symm.trans hx

theorem kept_startDraft (h : Kept p) (cwd : String) : Kept (p.step (.startDraft cwd)) := by
  have hdraft : (p.store.startDraft cwd).draft = some (p.store.seeded cwd) := by
    rw [startDraft]
    split_ifs <;> rfl
  have hstored : (p.store.startDraft cwd).stored = p.store.stored := by
    rw [startDraft]
    split_ifs <;> rfl
  refine h.congr hstored rfl ?_
  intro d' hd' x hx
  obtain rfl := Option.some.inj (hdraft.symm.trans hd')
  -- the branch of the draft is the one that is stored for its project
  have hkey : keyOf (p.store.seeded cwd) = .ofCwd cwd := by
    rw [seeded, keyOf]
    dsimp only
    split <;> rfl
  rw [hkey, ← h.stored, stored] at hx
  obtain ⟨cfg, hcfg, hbranch⟩ := Option.bind_eq_some_iff.mp hx
  have hseeded : (p.store.seeded cwd).baseBranch = cfg.baseBranch.or none := by
    rw [seeded]
    dsimp only [keyOf]
    rw [hcfg]
  rw [hseeded, hbranch]
  rfl

theorem kept_branchList (h : Kept p) (requestId : ℕ) (list : BranchList) :
    Kept (p.step (.branchList requestId list)) := by
  have hstored : (p.store.onBranchList requestId list).stored = p.store.stored := by
    rw [onBranchList]
    split_ifs <;> rfl
  refine h.congr hstored rfl ?_
  intro d' hd' x hx
  have hd' : (p.store.onBranchList requestId list).draft = some d' := hd'
  rw [onBranchList] at hd'
  split_ifs at hd' with hid
  · exact h.draft d' hd' x hx
  · obtain ⟨d, hd, hd'⟩ := Option.map_eq_some_iff.mp hd'
    -- a draft that gets a branch had none, and so its project has no pick
    have hpick : ∀ x, p.picks (keyOf d) = some x → (Ts.truthy d.baseBranch).isSome := by
      intro x hx
      have hx0 : x ≠ "" := fun h0 => h.nonempty _ (h0 ▸ hx)
      rw [h.draft d hd x hx, truthy_of_ne_empty hx0]
      rfl
    have hkey : keyOf d' = keyOf d := by
      rw [← hd']
      split_ifs
      · rfl
      · split <;> rfl
    rw [hkey] at hx
    rw [← hd', if_pos (hpick x hx)]
    exact h.draft d hd x hx

theorem kept_setDraftCwd (h : Kept p) (cwd : String)
    (hstores : p.store.Stores (.setDraftCwd cwd)) : Kept (p.step (.setDraftCwd cwd)) := by
  rcases hd : p.store.draft with _ | d
  · refine h.congr ?_ ?_ ?_ <;> simp [step, Drafting.step, setDraftCwd, picksAfter, hd]
  · by_cases hkey : keyOf d ≠ keyOf { d with cwd := cwd }
    · have hpin := hstores d hd hkey
      have hpicks : (p.step (.setDraftCwd cwd)).picks =
          Function.update (Function.update p.picks (keyOf d) none) (keyOf { d with cwd := cwd })
            (Ts.truthy d.baseBranch) := by
        simp only [step, picksAfter, hd, if_pos hkey, pick, h.picks_eq hd hpin]
      have hcleared : Kept ⟨{ p.store.clearStoredDraftConfig (keyOf d) with draft := none },
          Function.update p.picks (keyOf d) none⟩ :=
        h.update _ _ (stored_clear _ _) rfl (by simp) (by simp)
      refine hcleared.update _ _ ?_ hpicks (fun hempty => truthy_ne_empty hempty rfl) ?_
      · simp only [step, Drafting.step, setDraftCwd, hd, if_pos hkey]
        exact stored_persist _ _
      · intro d' hd' x hx
        obtain rfl : { d with cwd := cwd } = d' := by
          simp only [step, Drafting.step, setDraftCwd, hd, if_pos hkey] at hd'
          exact Option.some.inj hd'
        rw [hpicks, Function.update_self] at hx
        exact (Option.filter_eq_some_iff.mp hx).1
    · refine h.congr ?_ ?_ ?_
      · simp only [step, Drafting.step, setDraftCwd, hd, if_neg hkey]
        rfl
      · simp only [step, picksAfter, hd, if_neg hkey]
      · intro d' hd' x hx
        simp only [step, Drafting.step, setDraftCwd, hd, if_neg hkey] at hd'
        obtain rfl := Option.some.inj hd'
        rw [← not_not.mp hkey] at hx
        exact h.draft d hd x hx

theorem kept_discardDraft (h : Kept p) (key : DraftKey) : Kept (p.step (.discardDraft key)) := by
  refine h.update key none ?_ rfl (by simp) ?_
  · rw [← stored_clear]
    simp only [step, Drafting.step, discardDraft]
    split_ifs <;> rfl
  · intro d' hd' x hx
    have hd' : (p.store.discardDraft key).draft = some d' := hd'
    rw [discardDraft] at hd'
    split_ifs at hd' with hkey
    have hne : keyOf d' ≠ key := by
      rintro rfl
      exact hkey (congrArg (Option.map keyOf) hd')
    exact h.draft d' hd' x ((Function.update_of_ne hne _ _).symm.trans hx)

theorem kept_submitted (h : Kept p) : Kept (p.step .submitted) := by
  rcases hd : p.store.draft with _ | d
  · refine h.congr ?_ ?_ ?_ <;> simp [step, Drafting.step, submitted, picksAfter, hd]
  · refine h.update (keyOf d) none ?_ ?_ (by simp) ?_
    · rw [← stored_clear]
      simp only [step, Drafting.step, submitted, hd]
      rfl
    · simp only [step, picksAfter, hd, pick]
    · simp [step, Drafting.step, submitted, hd]

/-- **A step under the condition keeps the picks and what is stored together.** -/
theorem kept_step (h : Kept p) {a : Action} (hstores : p.store.Stores a) : Kept (p.step a) := by
  -- a setter without a draft does nothing
  have hset : ∀ change : Draft → Draft, (∀ d, (change d).cwd = d.cwd) →
      (∀ d, (change d).baseBranch = d.baseBranch) →
      (∀ d, p.store.draft = some d → p.store.Pinned d) → Kept ⟨p.store.set change, p.picks⟩ := by
    intro change hcwd hbranch hpin
    rcases hd : p.store.draft with _ | d
    · rw [Drafting.set, hd]
      exact h
    · exact kept_set h hd (hpin d hd) (hcwd d) (hbranch d)
  cases a with
  | startDraft cwd => exact kept_startDraft h cwd
  | toggleDraftWorktree =>
    rcases hd : p.store.draft with _ | d
    · refine h.congr ?_ ?_ ?_ <;> simp [step, Drafting.step, toggleDraftWorktree, picksAfter, hd]
    · exact kept_toggle h hd hstores
  | setDraftBaseBranch branch =>
    rcases hd : p.store.draft with _ | d
    · refine h.congr ?_ ?_ ?_ <;> simp [step, Drafting.step, Drafting.set, picksAfter, hd]
    · exact kept_pick h hd branch
  | branchList requestId list => exact kept_branchList h requestId list
  | setModel modelId level => exact hset _ (fun _ => rfl) (fun _ => rfl) hstores
  | setThinking level => exact hset _ (fun _ => rfl) (fun _ => rfl) hstores
  | setFacet facet => exact hset _ (fun _ => rfl) (fun _ => rfl) hstores
  | setPermissionMonitor mode => exact hset _ (fun _ => rfl) (fun _ => rfl) hstores
  | setDraftAdventurousHandoff enabled => exact hset _ (fun _ => rfl) (fun _ => rfl) hstores
  | setDraftCwd cwd => exact kept_setDraftCwd h cwd hstores
  | queryBranches => exact h.congr rfl rfl h.draft
  | leave => exact h.congr rfl rfl (by simp [step, Drafting.step])
  | discardDraft key => exact kept_discardDraft h key
  | submitted => exact kept_submitted h
  | defaults defaults =>
    refine h.congr rfl rfl fun d' hd' x hx => ?_
    -- neither the project nor the branch is filled in
    obtain ⟨d, hd, rfl⟩ := Option.map_eq_some_iff.mp hd'
    exact h.draft d hd x hx

/-- A branch that is stored though it was not picked. -/
theorem pinned_of_onlyPicks (h : Kept p) (p' : Picking)
    (hstored : p'.store.stored (keyOf d) = Ts.truthy d.baseBranch) (hpicks : p'.picks = p.picks)
    (honly : OnlyPicks p') : p.store.Pinned d := by
  intro branch hbranch
  rw [h.stored, ← hpicks]
  exact honly _ branch (hstored.trans hbranch)

theorem stores_of_onlyPicks (h : Kept p) {a : Action} (honly : OnlyPicks (p.step a)) :
    p.store.Stores a := by
  have hset : ∀ change : Draft → Draft, (∀ d, (change d).cwd = d.cwd) →
      (∀ d, (change d).baseBranch = d.baseBranch) → OnlyPicks ⟨p.store.set change, p.picks⟩ →
      ∀ d, p.store.draft = some d → p.store.Pinned d := by
    intro change hcwd hbranch honly d hd
    refine pinned_of_onlyPicks h ⟨p.store.set change, p.picks⟩ ?_ rfl honly
    rw [stored_set hd (hcwd d), hbranch, Function.update_self]
  cases a with
  | setModel modelId level =>
    exact hset ({ · with model := some modelId, thinking := level }) (fun _ => rfl) (fun _ => rfl)
      honly
  | setThinking level =>
    exact hset ({ · with thinking := some level }) (fun _ => rfl) (fun _ => rfl) honly
  | setFacet facet =>
    exact hset ({ · with facet := some facet }) (fun _ => rfl) (fun _ => rfl) honly
  | setPermissionMonitor mode =>
    exact hset ({ · with permissionMonitor := some mode }) (fun _ => rfl) (fun _ => rfl) honly
  | setDraftAdventurousHandoff enabled =>
    exact hset ({ · with adventurousHandoff := some enabled }) (fun _ => rfl) (fun _ => rfl) honly
  | setDraftCwd cwd =>
    intro d hd hkey branch hbranch
    have hstored : (p.step (.setDraftCwd cwd)).store.stored (keyOf { d with cwd := cwd }) =
        some branch := by
      simp only [step, Drafting.step, setDraftCwd, hd, if_pos hkey]
      rw [stored_persist, Function.update_self]
      exact hbranch
    have hpick := honly _ _ hstored
    simp only [step, picksAfter, hd, if_pos hkey, pick, Function.update_self] at hpick
    rw [h.stored]
    exact hpick
  | toggleDraftWorktree =>
    rcases hd : p.store.draft with _ | d
    · intro d hd'
      cases hd.symm.trans hd'
    · rw [stores_toggle_iff hd, Option.eq_none_iff_forall_ne_some]
      intro branch hbranch
      have hstored : (p.step .toggleDraftWorktree).store.stored (keyOf d) = some branch := by
        refine Eq.trans ?_ hbranch
        exact (congrFun (stored_toggle hd) (keyOf d)).trans (Function.update_self _ _ _)
      have hpick := honly _ _ hstored
      simp only [step, picksAfter, hd, pick, Function.update_self] at hpick
      cases hpick
  | _ => trivial

end Kept

theorem kept_boot (raw : PMap DraftKey StoredDraftConfig) : Kept (boot raw) where
  stored _ := rfl
  nonempty key hempty := by
    obtain ⟨cfg, hcfg, hbranch⟩ := Option.bind_eq_some_iff.mp hempty
    obtain ⟨rec, -, hrec⟩ := Option.bind_eq_some_iff.mp hcfg
    dsimp only at hrec
    split_ifs at hrec
    obtain rfl := Option.some.inj hrec
    exact truthy_ne_empty hbranch rfl
  draft _ hd := by cases hd

/-- **Every branch that is stored after any part of a run is the one picked for its draft exactly
if every step of the run meets the condition.** -/
theorem stores_iff (raw : PMap DraftKey StoredDraftConfig) (as : List Action) :
    Along step (fun p a => p.store.Stores a) (boot raw) as ↔
      ∀ pre, pre <+: as → OnlyPicks (pre.foldl step (boot raw)) :=
  along_iff_forall_part_of (I := Kept) (fun _ _ h hstores => kept_step h hstores)
    (fun _ h => h.onlyPicks) (fun _ _ h honly => stores_of_onlyPicks h honly) (kept_boot raw) as

/-- The branches of a project arrive, one is filled in, and the worktree is switched on. -/
theorem not_onlyPicks :
    ¬ ∀ as : List Action, OnlyPicks (as.foldl step (boot PMap.empty)) := by
  intro h
  have hstored := h [.startDraft "/repo", .branchList 1 ⟨"/repo", ["main"], false⟩,
    .toggleDraftWorktree] (.ofCwd "/repo") "main"
  exact absurd (hstored (by decide)) (by decide)

end Picking

end Pantoken
