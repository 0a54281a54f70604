import Pantoken.Lib.Run
import Pantoken.Polytoken.ListingCaches

/-!
# The watcher of the configuration

Changes of the daemon's binary and its configuration reach the driver as events of the file
system, each with some paths.  An event is classified by what is watched, the actions of a burst
of events are merged, and after a while without events the merged action is emitted; it clears the
caches of one directory or all of them.

## Main definitions

* `classifyEvent`, `DebounceCoalescer`, `registerProjectConfig`, `setupWatcher` — the watcher.
* `Watcher`, `Action`, `Watcher.step` — the watcher, its channel and what changes on disk.
* `Harmless` — the changes are seen, and each event is about one project or about none.
* `Owed` — every scope with a change waits in the channel or in the pending action.

## Main results

* `covers_merge` — **a merged action covers what its parts do.**
* `covers_classifyEvent_iff` — when the action of an event covers all that the event is about.
* `owed_step` — what each step keeps.
* `covered_of_settled` — **once the debounce has fired every scope with a change was covered.**
* `not_covered` — a rename between two scopes, and a directory that is made after it is watched.
-/

namespace Pantoken.ConfigWatcher

/-- An absolute path, by its components. -/
abbrev Path := List String

inductive WatchedPath
  | binary (path : Path)
  | globalConfig (path : Path)
  | projectConfig (path : Path) (cwd : String)
  deriving DecidableEq

inductive InvalidationAction
  | all
  | cwd (cwd : String)
  | none
  deriving DecidableEq

/-- What the callback of the driver does with an action. -/
def InvalidationAction.invalidation : InvalidationAction → Option Invalidation
  | .all => some .all
  | .cwd dir => some (.cwd dir)
  | .none => Option.none

/-- The action for a watched path that an event is in, if it is that of a project. -/
def WatchedPath.classify (eventPaths : List Path) : WatchedPath → Option InvalidationAction
  | .projectConfig path cwd =>
    if eventPaths.any (path.isPrefixOf ·) then some (.cwd cwd) else Option.none
  | _ => Option.none

/-- `classify_event` -/
def classifyEvent (eventPaths : List Path) (watchedPaths : List WatchedPath) :
    InvalidationAction :=
  (watchedPaths.findSome? (·.classify eventPaths)).getD .all

/-! ### Merging -/

/-- The merge rules of `feed`. -/
def merge : InvalidationAction → InvalidationAction → InvalidationAction
  | .all, _ | _, .all => .all
  | .cwd a, .cwd b => if a = b then .cwd a else .all
  | .cwd cwd, .none => .cwd cwd
  | .none, .cwd cwd => .cwd cwd
  | .none, .none => .none

structure DebounceCoalescer where
  debounceDuration : ℕ
  pending : Option InvalidationAction
  lastEventTime : Option ℕ

namespace DebounceCoalescer

def new (debounceDuration : ℕ) : DebounceCoalescer := ⟨debounceDuration, none, none⟩

/-- `feed`, which never fires. -/
def feed (c : DebounceCoalescer) (action : InvalidationAction) (now : ℕ) : DebounceCoalescer :=
  match c.pending with
  | none => { c with pending := some action, lastEventTime := some now }
  | some pending => { c with pending := some (merge pending action), lastEventTime := some now }

/-- `check_debounce` -/
def checkDebounce (c : DebounceCoalescer) (now : ℕ) :
    Option InvalidationAction × DebounceCoalescer :=
  match c.lastEventTime with
  | none => (none, c)
  | some last =>
    if c.debounceDuration ≤ now - last then
      (c.pending, { c with lastEventTime := none, pending := none })
    else (none, c)

end DebounceCoalescer

/-- What a change can make stale. -/
inductive Scope
  | global
  | cwd (cwd : String)
  deriving DecidableEq

def InvalidationAction.covers : InvalidationAction → Scope → Bool
  | .all, _ => true
  | .cwd a, .cwd b => a = b
  | _, _ => false

/-- **A merged action covers what its parts do.** -/
theorem covers_merge {a b : InvalidationAction} {scope : Scope}
    (h : a.covers scope = true ∨ b.covers scope = true) : (merge a b).covers scope = true := by
  cases a with
  | all => cases b <;> rfl
  | none =>
    cases b with
    | all => rfl
    | cwd b => exact h.resolve_left Bool.false_ne_true
    | none => exact h.elim id id
  | cwd a =>
    cases b with
    | all => rfl
    | none => exact h.resolve_right Bool.false_ne_true
    | cwd b =>
      -- two projects are merged to all
      change (if a = b then InvalidationAction.cwd a else .all).covers scope = true
      by_cases hab : a = b
      · subst hab
        rw [if_pos rfl]
        exact h.elim id id
      · rw [if_neg hab]
        rfl

/-- An action that covers a project clears its caches, and one that covers all clears all. -/
theorem invalidation_covers {action : InvalidationAction} {dir : String}
    (h : action.covers (.cwd dir) = true) :
    ∃ i, action.invalidation = some i ∧ i.covers (.facets dir) = true ∧
      i.covers (.commands dir) = true := by
  cases action with
  | all => exact ⟨.all, rfl, rfl, rfl⟩
  | cwd a => exact ⟨.cwd a, rfl, h, h⟩
  | none => cases h

/-! ### The watcher -/

/-- The scopes of a changed path, for what was asked to be watched. -/
def WatchedPath.scope (p : Path) : WatchedPath → Option Scope
  | .binary path => if p = path then some .global else none
  | .globalConfig path => if path <+: p then some .global else none
  | .projectConfig path cwd => if path <+: p then some (.cwd cwd) else none

def scopes (requested : List WatchedPath) (p : Path) : List Scope :=
  requested.filterMap (·.scope p)

/-- `Path::parent` -/
def parent (p : Path) : Option Path := if p = [] then none else some p.dropLast

/-- A directory that is watched, recursively or not. -/
structure Watch where
  dir : Path
  recursive : Bool
  deriving DecidableEq

/-- What is watched for a project: its directory where it exists, else the one it is to be in. -/
def projectTarget (path : Path) (existing : Bool) : Watch :=
  if existing then ⟨path, true⟩
  else
    match parent path with
    | some parent => ⟨parent, false⟩
    | none => ⟨path, true⟩

/-- The target of `setup_watcher` for a path. -/
def WatchedPath.target (existing : Path → Bool) : WatchedPath → Watch
  | .binary path =>
    match parent path with
    | some parent => ⟨parent, false⟩
    | none => ⟨path, false⟩
  | .globalConfig path => ⟨path, true⟩
  | .projectConfig path _ => projectTarget path (existing path)

/-- The handle and its task, with the channel of events in between. -/
structure Watcher where
  watchedPaths : List WatchedPath
  /-- Registrations that were watched and are not in the list yet. -/
  registering : List WatchedPath
  watches : List Watch
  channel : List (List Path)
  coalescer : DebounceCoalescer
  /-- All that was asked to be watched. -/
  requested : List WatchedPath
  /-- The scopes with a change that no action has covered since. -/
  stale : List Scope

/-- `setup_watcher`, where `watchable` says which targets can be watched; nothing where none can,
and then no task runs. -/
def setupWatcher (watchedPaths : List WatchedPath) (existing : Path → Bool)
    (watchable : Watch → Bool) : Option Watcher :=
  let watches := (watchedPaths.map (·.target existing)).filter watchable
  if watches.isEmpty then none
  else some ⟨watchedPaths, [], watches, [], .new 200, watchedPaths, []⟩

inductive Action
  /-- `register_project_config`, up to the watch. -/
  | register (path : Path) (cwd : String) (existing watchable : Bool)
  /-- The rest of it, for a registration that is watched. -/
  | registered (wp : WatchedPath)
  /-- Paths change on disk, and the watcher reports some in an event. -/
  | change (paths : List Path) (event : Option (List Path))
  /-- The task receives an event. -/
  | receive (now : ℕ)
  /-- The task checks the debounce. -/
  | tick (now : ℕ)
  deriving DecidableEq

/-- The cwd is that of a registered project. -/
def WatchedPath.hasCwd (cwd : String) : WatchedPath → Bool
  | .projectConfig _ c => c = cwd
  | _ => false

namespace Watcher

def step (s : Watcher) : Action → Watcher
  | .register path cwd existing watchable =>
    let s := { s with requested := .projectConfig path cwd :: s.requested }
    -- a registration that is under way is not seen here
    if s.watchedPaths.any (·.hasCwd cwd) then s
    else if watchable then
      { s with watches := projectTarget path existing :: s.watches,
               registering := .projectConfig path cwd :: s.registering }
    else s
  | .registered wp =>
    if wp ∈ s.registering then
      { s with registering := s.registering.erase wp, watchedPaths := s.watchedPaths ++ [wp] }
    else s
  | .change paths event =>
    { s with stale := paths.flatMap (scopes s.requested) ++ s.stale,
             channel := s.channel ++ event.toList }
  | .receive now =>
    match s.channel with
    | [] => s
    | event :: rest =>
      -- by what is registered now, not when the event came
      let action := classifyEvent event s.watchedPaths
      if action ≠ .none then
        { s with channel := rest, coalescer := s.coalescer.feed action now }
      else { s with channel := rest }
  | .tick now =>
    match s.coalescer.pending with
    | none => s
    | some _ =>
      match s.coalescer.checkDebounce now with
      | (some action, coalescer) =>
        { s with coalescer, stale := s.stale.filter (!action.covers ·) }
      | (none, coalescer) => { s with coalescer }

/-- Every event was received, and the debounce has fired. -/
def Settled (s : Watcher) : Prop := s.channel = [] ∧ s.coalescer.pending = none

instance (s : Watcher) : Decidable s.Settled := inferInstanceAs (Decidable (_ ∧ _))

end Watcher

/-! ### What is owed -/

/-- The watcher reports a change inside a directory that is watched recursively, and one of a
direct child of a directory that is not. -/
def Visible (watches : List Watch) (p : Path) : Prop :=
  ∃ w ∈ watches, if w.recursive = true then w.dir <+: p ∧ w.dir ≠ p else parent p = some w.dir

/-- What is assumed of the watcher. -/
def Reported (s : Watcher) : Action → Prop
  | .change paths event => ∀ p ∈ paths, Visible s.watches p → ∃ ps, event = some ps ∧ p ∈ ps
  | _ => True

/-- All the scopes of the paths are that of one project, or no path is in a registered one. -/
def OneProject (s : Watcher) (paths : List Path) : Prop :=
  (∃ cwd, ∀ p ∈ paths, ∀ scope ∈ scopes s.requested p, scope = .cwd cwd) ∨
    ∀ p ∈ paths, ∀ path cwd, .projectConfig path cwd ∈ s.watchedPaths → ¬ path <+: p

/-- **No change is missed, and no event is about more than it is classified as**: each changed path
of a scope is watched or reported all the same, and each event is about one project or about none
that is registered. -/
def Harmless (s : Watcher) : Action → Prop
  | .change paths event => ∀ p ∈ paths, scopes s.requested p ≠ [] →
      Visible s.watches p ∨ ∃ ps, event = some ps ∧ p ∈ ps
  | .receive _ => ∀ event, s.channel.head? = some event → OneProject s event
  | _ => True

/-! ### The action of an event -/

section Classify

variable {requested watchedPaths : List WatchedPath} {event : List Path} {p : Path}
  {scope : Scope} {action : InvalidationAction}

theorem mem_scopes : scope ∈ scopes requested p ↔ ∃ wp ∈ requested, wp.scope p = some scope :=
  List.mem_filterMap

/-- More that was asked for has more scopes. -/
theorem mem_scopes_mono {requested' : List WatchedPath} (hsub : requested ⊆ requested')
    (h : scope ∈ scopes requested p) : scope ∈ scopes requested' p := by
  obtain ⟨wp, hwp, hscope⟩ := mem_scopes.mp h
  exact mem_scopes.mpr ⟨wp, hsub hwp, hscope⟩

theorem cwd_mem_scopes {path : Path} {cwd : String} (hwp : .projectConfig path cwd ∈ requested)
    (hp : path <+: p) : .cwd cwd ∈ scopes requested p :=
  mem_scopes.mpr ⟨_, hwp, if_pos hp⟩

theorem classify_eq_some {wp : WatchedPath} (h : wp.classify event = some action) :
    ∃ path cwd, wp = .projectConfig path cwd ∧ (∃ p ∈ event, path <+: p) ∧ action = .cwd cwd := by
  cases wp with
  | binary path => cases h
  | globalConfig path => cases h
  | projectConfig path cwd =>
    simp only [WatchedPath.classify] at h
    split_ifs at h with hany
    obtain ⟨p, hp, hpre⟩ := List.any_eq_true.mp hany
    exact ⟨path, cwd, rfl, ⟨p, hp, List.isPrefixOf_iff_prefix.mp hpre⟩, (Option.some.inj h).symm⟩

/-- An event is classified by a registered project that one of its paths is in, or as all where
there is none. -/
theorem classifyEvent_cases (event : List Path) (watchedPaths : List WatchedPath) :
    (∃ path cwd, .projectConfig path cwd ∈ watchedPaths ∧ (∃ p ∈ event, path <+: p) ∧
      classifyEvent event watchedPaths = .cwd cwd) ∨
    (classifyEvent event watchedPaths = .all ∧
      ∀ p ∈ event, ∀ path cwd, .projectConfig path cwd ∈ watchedPaths → ¬ path <+: p) := by
  cases hfind : watchedPaths.findSome? (·.classify event) with
  | none =>
    refine .inr ⟨by rw [classifyEvent, hfind]; rfl, fun p hp path cwd hwp hpre => ?_⟩
    have hnone : (if event.any (path.isPrefixOf ·) then some (InvalidationAction.cwd cwd)
        else none) = none := List.findSome?_eq_none_iff.mp hfind _ hwp
    rw [if_pos (List.any_eq_true.mpr ⟨p, hp, List.isPrefixOf_iff_prefix.mpr hpre⟩)] at hnone
    cases hnone
  | some action =>
    obtain ⟨wp, hwp, hclassify⟩ := List.exists_of_findSome?_eq_some hfind
    obtain ⟨path, cwd, rfl, hin, rfl⟩ := classify_eq_some hclassify
    exact .inl ⟨path, cwd, hwp, hin, by rw [classifyEvent, hfind]; rfl⟩

theorem covers_cwd {cwd : String} (h : (InvalidationAction.cwd cwd).covers scope = true) :
    scope = .cwd cwd := by
  cases scope with
  | global => cases h
  | cwd b => rw [of_decide_eq_true h]

/-- **The action of an event covers every scope of it exactly when they are all that of one
project or no path is in a registered one.** -/
theorem covers_classifyEvent_iff {s : Watcher} (hsub : s.watchedPaths ⊆ s.requested) :
    (∀ p ∈ event, ∀ scope ∈ scopes s.requested p,
      (classifyEvent event s.watchedPaths).covers scope = true) ↔ OneProject s event := by
  obtain ⟨path, cwd, hwp, ⟨p, hp, hpre⟩, heq⟩ | ⟨heq, hnone⟩ :=
    classifyEvent_cases event s.watchedPaths
  · rw [heq]
    constructor
    · intro h
      exact .inl ⟨cwd, fun p hp scope hscope => covers_cwd (h p hp scope hscope)⟩
    · rintro (⟨cwd', hone⟩ | hnone)
      · -- the project it is classified by is the one project
        have hcwd := hone p hp _ (cwd_mem_scopes (hsub hwp) hpre)
        intro q hq scope hscope
        rw [hone q hq scope hscope, ← hcwd]
        exact decide_eq_true rfl
      · exact (hnone p hp path cwd hwp hpre).elim
  · rw [heq]
    exact iff_of_true (fun _ _ _ _ => rfl) (.inr hnone)

end Classify

/-- A stale scope waits in the channel or in the pending action. -/
structure Owed (s : Watcher) : Prop where
  registered : s.watchedPaths ⊆ s.requested
  registering : s.registering ⊆ s.requested
  owed : ∀ scope ∈ s.stale,
    (∃ event ∈ s.channel, ∃ p ∈ event, scope ∈ scopes s.requested p) ∨
      ∃ action, s.coalescer.pending = some action ∧ action.covers scope = true

theorem owed_setupWatcher {watchedPaths : List WatchedPath} {existing : Path → Bool}
    {watchable : Watch → Bool} {s : Watcher}
    (h : setupWatcher watchedPaths existing watchable = some s) : Owed s := by
  unfold setupWatcher at h
  dsimp only at h
  split_ifs at h
  cases h
  exact ⟨fun _ h => h, fun _ h => (List.not_mem_nil h).elim, fun _ h => (List.not_mem_nil h).elim⟩

section Steps

variable {s : Watcher}

theorem Owed.register (h : Owed s) (path : Path) (cwd : String) (existing watchable : Bool) :
    Owed (s.step (.register path cwd existing watchable)) := by
  have hsub : s.requested ⊆ .projectConfig path cwd :: s.requested := List.subset_cons_self _ _
  have howed : ∀ scope ∈ s.stale,
      (∃ event ∈ s.channel, ∃ p ∈ event,
        scope ∈ scopes (.projectConfig path cwd :: s.requested) p) ∨
      ∃ action, s.coalescer.pending = some action ∧ action.covers scope = true := by
    intro scope hscope
    refine (h.owed scope hscope).imp_left ?_
    rintro ⟨event, hevent, p, hp, hin⟩
    exact ⟨event, hevent, p, hp, mem_scopes_mono hsub hin⟩
  unfold Watcher.step
  dsimp only
  split_ifs
  · exact ⟨List.Subset.trans h.registered hsub, List.Subset.trans h.registering hsub, howed⟩
  · exact ⟨List.Subset.trans h.registered hsub, List.cons_subset_cons _ h.registering, howed⟩
  · exact ⟨List.Subset.trans h.registered hsub, List.Subset.trans h.registering hsub, howed⟩

theorem Owed.registered_step (h : Owed s) (wp : WatchedPath) : Owed (s.step (.registered wp)) := by
  unfold Watcher.step
  dsimp only
  split_ifs with hwp
  · refine ⟨List.append_subset.mpr ⟨h.registered, ?_⟩,
      List.Subset.trans List.erase_subset h.registering, h.owed⟩
    exact List.cons_subset.mpr ⟨h.registering hwp, List.nil_subset _⟩
  · exact h

theorem Owed.change (h : Owed s) {paths : List Path} {event : Option (List Path)}
    (hreported : Reported s (.change paths event)) (hharmless : Harmless s (.change paths event)) :
    Owed (s.step (.change paths event)) := by
  refine ⟨h.registered, h.registering, fun scope hscope => ?_⟩
  obtain hnew | hold := List.mem_append.mp hscope
  · -- a new one: its path is in the event, by what the watcher reports
    obtain ⟨p, hp, hin⟩ := List.mem_flatMap.mp hnew
    obtain ⟨ps, rfl, hps⟩ : ∃ ps, event = some ps ∧ p ∈ ps :=
      (hharmless p hp (List.ne_nil_of_mem hin)).elim (hreported p hp) id
    exact .inl ⟨ps, List.mem_append_right _ (List.mem_singleton_self _), p, hps, hin⟩
  · refine (h.owed scope hold).imp_left ?_
    rintro ⟨e, he, p, hp, hin⟩
    exact ⟨e, List.mem_append_left _ he, p, hp, hin⟩

/-- What was pending is covered by what is pending after an event, and so is the event's own
action. -/
theorem feed_pending (c : DebounceCoalescer) (action : InvalidationAction) (now : ℕ) :
    ∃ pending, (c.feed action now).pending = some pending ∧
      ∀ scope, (action.covers scope = true ∨
        ∃ old, c.pending = some old ∧ old.covers scope = true) → pending.covers scope = true := by
  unfold DebounceCoalescer.feed
  cases hpending : c.pending with
  | none =>
    refine ⟨action, rfl, fun scope h => h.resolve_right ?_⟩
    rintro ⟨old, hold, -⟩
    cases hold
  | some pending =>
    refine ⟨merge pending action, rfl, fun scope h => covers_merge ?_⟩
    rcases h with h | ⟨old, hold, h⟩
    · exact .inr h
    · cases hold
      exact .inl h

theorem classifyEvent_ne_none (event : List Path) (watchedPaths : List WatchedPath) :
    classifyEvent event watchedPaths ≠ .none := by
  obtain ⟨_, _, _, _, heq⟩ | ⟨heq, -⟩ := classifyEvent_cases event watchedPaths <;> rw [heq] <;>
    exact InvalidationAction.noConfusion

theorem Owed.receive (h : Owed s) {now : ℕ} (hharmless : Harmless s (.receive now)) :
    Owed (s.step (.receive now)) := by
  unfold Watcher.step
  dsimp only
  cases hchannel : s.channel with
  | nil => exact h
  | cons event rest =>
    dsimp only
    rw [if_pos (classifyEvent_ne_none _ _)]
    have hone : OneProject s event := hharmless event (by rw [hchannel]; rfl)
    have hcovers := (covers_classifyEvent_iff h.registered).mpr hone
    refine ⟨h.registered, h.registering, fun scope hscope => ?_⟩
    obtain ⟨pending, hpending, hfeed⟩ :=
      feed_pending s.coalescer (classifyEvent event s.watchedPaths) now
    -- what waited in the event is pending now, and the rest waits where it did
    obtain ⟨e, he, p, hp, hin⟩ | hold := h.owed scope hscope
    · rw [hchannel] at he
      obtain rfl | he := List.mem_cons.mp he
      · exact .inr ⟨pending, hpending, hfeed scope (.inl (hcovers p hp scope hin))⟩
      · exact .inl ⟨e, he, p, hp, hin⟩
    · exact .inr ⟨pending, hpending, hfeed scope (.inr hold)⟩

theorem Owed.tick (h : Owed s) (now : ℕ) : Owed (s.step (.tick now)) := by
  unfold Watcher.step
  dsimp only
  cases hpending : s.coalescer.pending with
  | none => exact h
  | some pending =>
    unfold DebounceCoalescer.checkDebounce
    dsimp only
    cases hlast : s.coalescer.lastEventTime with
    | none => exact h
    | some last =>
      dsimp only
      split_ifs with hquiet
      · -- it fires: what it covers is no longer stale, the rest is in the channel
        rw [hpending]
        refine ⟨h.registered, h.registering, fun scope hscope => ?_⟩
        obtain ⟨hscope, hcovers⟩ := List.mem_filter.mp hscope
        refine .inl ((h.owed scope hscope).resolve_right ?_)
        rintro ⟨action, haction, hcov⟩
        rw [hpending] at haction
        cases haction
        rw [hcov] at hcovers
        cases hcovers
      · exact h

/-- Every step keeps what is owed, where the watcher reports what it sees and the step is
harmless. -/
theorem owed_step {a : Action} (h : Owed s) (hreported : Reported s a) (hharmless : Harmless s a) :
    Owed (s.step a) := by
  cases a with
  | register path cwd existing watchable => exact h.register path cwd existing watchable
  | registered wp => exact h.registered_step wp
  | change paths event => exact h.change hreported hharmless
  | receive now => exact h.receive hharmless
  | tick now => exact h.tick now

/-- Nothing is owed any more once all was received and the debounce has fired. -/
theorem Owed.stale_eq_nil (h : Owed s) (hsettled : s.Settled) : s.stale = [] := by
  refine List.eq_nil_iff_forall_not_mem.mpr fun scope hscope => ?_
  obtain ⟨event, hevent, -⟩ | ⟨action, haction, -⟩ := h.owed scope hscope
  · rw [hsettled.1] at hevent
    cases hevent
  · rw [hsettled.2] at haction
    cases haction

end Steps

/-! ### Every scope is covered -/

/-- **Once the debounce has fired, every scope with a change was covered, and merging never
narrows**, in every run in which the changes are seen and each event is about one project or
about none. -/
theorem covered_of_settled {watchedPaths : List WatchedPath} {existing : Path → Bool}
    {watchable : Watch → Bool} {s : Watcher}
    (hsetup : setupWatcher watchedPaths existing watchable = some s) {run : List Action}
    (hreported : Along Watcher.step Reported s run)
    (hharmless : Along Watcher.step Harmless s run)
    (hsettled : (run.foldl Watcher.step s).Settled) :
    (run.foldl Watcher.step s).stale = [] ∧
      ∀ (a b : InvalidationAction) (scope : Scope),
        a.covers scope = true ∨ b.covers scope = true → (merge a b).covers scope = true := by
  refine ⟨Owed.stale_eq_nil ?_ hsettled, fun a b scope => covers_merge⟩
  exact Along.foldl_invariant (I := Owed) (fun s a hs hC => owed_step hs hC.1 hC.2)
    (owed_setupWatcher hsetup) (hreported.and hharmless)

/-- The global configuration and two projects. -/
def twoProjects : List WatchedPath :=
  [.globalConfig ["cfg"], .projectConfig ["p", ".polytoken"] "/p",
    .projectConfig ["q", ".polytoken"] "/q"]

/-- All three directories exist and are watched. -/
def twoWatched : Watcher :=
  ⟨twoProjects, [], twoProjects.map (·.target fun _ => true), [], .new 200, twoProjects, []⟩

/-- A change in each project, each in an event of its own. -/
def oneEach : List Action :=
  [.change [["p", ".polytoken", "a"]] (some [["p", ".polytoken", "a"]]), .receive 0,
    .change [["q", ".polytoken", "b"]] (some [["q", ".polytoken", "b"]]), .receive 10,
    .tick 100, .tick 210]

theorem covered_of_settled_two : (oneEach.foldl Watcher.step twoWatched).stale = [] := by
  have hsetup : setupWatcher twoProjects (fun _ => true) (fun _ => true) = some twoWatched := rfl
  refine (covered_of_settled hsetup ?_ ?_ (by decide)).1
  · exact ⟨fun p hp _ => ⟨_, rfl, hp⟩, trivial, fun p hp _ => ⟨_, rfl, hp⟩, trivial, trivial,
      trivial, trivial⟩
  · refine ⟨fun p hp _ => .inr ⟨_, rfl, hp⟩, ?_, fun p hp _ => .inr ⟨_, rfl, hp⟩, ?_, trivial,
      trivial, trivial⟩
    · rintro event ⟨⟩
      exact .inl ⟨"/p", by decide⟩
    · rintro event ⟨⟩
      exact .inl ⟨"/q", by decide⟩

/-- A file is moved from the first project into the global configuration. -/
def moved : List Action :=
  [.change [["p", ".polytoken", "a"], ["cfg", "a"]]
      (some [["p", ".polytoken", "a"], ["cfg", "a"]]), .receive 0, .tick 200]

/-- A third project is registered, its directory is made later, and a change in it is not seen
while one in the first project is. -/
def madeLater : List Action :=
  [.register ["r", ".polytoken"] "/r" false true,
    .registered (.projectConfig ["r", ".polytoken"] "/r"),
    .change [["r", ".polytoken", "c"]] none,
    .change [["p", ".polytoken", "a"]] (some [["p", ".polytoken", "a"]]), .receive 0, .tick 200]

/-- **A scope is dropped**: that of the second path of a move, and that of a project whose
directory is made after it is registered. -/
theorem not_covered :
    (setupWatcher twoProjects (fun _ => true) (fun _ => true) = some twoWatched ∧
      Along Watcher.step Reported twoWatched moved ∧
      (moved.foldl Watcher.step twoWatched).Settled ∧
      (moved.foldl Watcher.step twoWatched).stale = [.global]) ∧
    (Along Watcher.step Reported twoWatched madeLater ∧
      (madeLater.foldl Watcher.step twoWatched).Settled ∧
      (madeLater.foldl Watcher.step twoWatched).stale = [.cwd "/r"]) := by
  refine ⟨⟨rfl, ?_, by decide, by decide⟩, ?_, by decide, by decide⟩
  · exact ⟨fun p hp _ => ⟨_, rfl, hp⟩, trivial, trivial, trivial⟩
  · refine ⟨trivial, trivial, ?_, fun p hp _ => ⟨_, rfl, hp⟩, trivial, trivial, trivial⟩
    -- its directory is not watched, only the one it is made in
    intro p hp hvisible
    obtain rfl := List.mem_singleton.mp hp
    revert hvisible
    unfold Visible
    decide

end Pantoken.ConfigWatcher
