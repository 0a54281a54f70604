import Pantoken.Client.Composer

/-!
# The view state of each host

The composer's text, the stored drafts and their configuration, the prompt history and the
last project belong to the server that was selected when they were written.  The store
keeps one of each in memory, writes it under a global key at every change and under a key
of the server when the user selects another host.  A server that says hello takes over the
global keys if it has none of its own.

## Main definitions

* `HostView`, `ViewEdit` — what the store shows of one server, and how it is changed.
* `StoredKeys`, `migrateLegacyPersistence` — the keys in the browser, and the migration.
* `HostPage`, `HostPage.step` — the page: hellos, host selections, edits and reloads.
* `HostPage.Isolated` — what is shown and stored of a server is what was written for it.
* `HostPage.Keeps` — nothing was left in the composer at a switch, no keys of another server
  are taken over, and what is kept in memory is what the server has.

## Main results

* `HostPage.isolated_of_keeps` — **then the servers stay apart, and selecting one again
  brings back what it had**, after every part of the run.
* `HostPage.not_isolated` — the first visit to a second server shows it the drafts of the
  first.
-/

namespace Pantoken

/-! ### What the store shows of a server -/

/-- `StoredDraftConfig` -/
structure StoredDraftConfig where
  worktree : Bool
  baseBranch : Option String
  model : Option String
  thinking : Option String
  facet : Option String
  permissionMonitor : Option PermissionMonitorMode
  adventurousHandoff : Bool
  deriving DecidableEq

/-- A configuration that is not kept. -/
def StoredDraftConfig.isEmpty (cfg : StoredDraftConfig) : Bool :=
  !cfg.worktree && (Ts.truthy cfg.baseBranch).isNone && cfg.model.isNone &&
    (Ts.truthy cfg.thinking).isNone && (Ts.truthy cfg.facet).isNone &&
    cfg.permissionMonitor.isNone && !cfg.adventurousHandoff

/-- What `persistDraftConfig` stores of a draft, beside the default model and thinking level:
nothing, if it has no choice of its own. -/
def storedDraftConfig (draft : Draft) (modelId thinkingLevel : Option String) :
    Option StoredDraftConfig :=
  let cfg : StoredDraftConfig :=
    { worktree := draft.worktree
      baseBranch := Ts.truthy draft.baseBranch
      model := draft.model.filter (some · ≠ modelId)
      thinking := (Ts.truthy draft.thinking).filter (some · ≠ thinkingLevel)
      facet := (Ts.truthy draft.facet).filter (· ≠ "execute")
      permissionMonitor := draft.permissionMonitor.filter (· ≠ .standard)
      adventurousHandoff := draft.adventurousHandoff = some true }
  if cfg.isEmpty then none else some cfg

/-- `persistDraftConfig`: what is stored under the key of a draft. -/
def persistDraftConfig (configs : PMap DraftKey StoredDraftConfig) (key : DraftKey) (draft : Draft)
    (modelId thinkingLevel : Option String) : PMap DraftKey StoredDraftConfig :=
  match storedDraftConfig draft modelId thinkingLevel with
  | some cfg => configs.insert key cfg
  | none => configs.erase key

/-- `PROMPT_HISTORY_CAP` -/
def promptHistoryCap : ℕ := 100

/-- The part of the store that belongs to the client and to one server. -/
@[ext] structure HostView where
  /-- `composerDraft` -/
  text : String
  /-- `draftMap` -/
  drafts : PMap DraftKey String
  /-- `draftConfigMap` -/
  configs : PMap DraftKey StoredDraftConfig
  /-- `promptHistory` -/
  history : PMap DraftKey (List String)
  /-- `lastProjectCwd` -/
  cwd : String

namespace HostView

def empty : HostView := ⟨"", .empty, .empty, .empty, ""⟩

/-- All but the composer's text, which no key holds. -/
def kept (v : HostView) : HostView := { v with text := "" }

theorem kept_of_text {v : HostView} (h : v.text = "") : v.kept = v :=
  HostView.ext h.symm rfl rfl rfl rfl

end HostView

/-- The keys of one kind in `localStorage`, global or of one server, with what they parse
to. -/
structure StoredKeys where
  drafts : Option (PMap DraftKey String)
  configs : Option (PMap DraftKey StoredDraftConfig)
  history : Option (PMap DraftKey (List String))
  cwd : Option String

namespace StoredKeys

def empty : StoredKeys := ⟨none, none, none, none⟩

/-- What is read of the keys. -/
def view (k : StoredKeys) : HostView :=
  ⟨"", k.drafts.getD .empty, k.configs.getD .empty, k.history.getD .empty, k.cwd.getD ""⟩

/-- `migrateLegacyPersistence`: the keys of a server, the global ones taken where it has
none. -/
def migrateLegacyPersistence (k global : StoredKeys) : StoredKeys :=
  ⟨k.drafts.or global.drafts, k.configs.or global.configs, k.history.or global.history,
    k.cwd.or global.cwd⟩

end StoredKeys

/-- What the functions of the store that edit the view state do to it. -/
inductive ViewEdit where
  /-- The composer's text is typed, restored or cleared. -/
  | setText (text : String)
  | stashDraft (key : DraftKey)
  | loadDraft (key : DraftKey)
  | clearStoredDraft (key : DraftKey)
  | persistDraftConfig (key : DraftKey) (draft : Draft) (modelId thinkingLevel : Option String)
  | clearStoredDraftConfig (key : DraftKey)
  | recordPromptHistory (key : DraftKey) (text : String)
  | setLastProjectCwd (cwd : String)

namespace HostView

/-- `recordPromptHistory` -/
def recordPromptHistory (v : HostView) (key : DraftKey) (text : String) : HostView :=
  let t := Ts.trim text
  let list := (v.history key).getD []
  if t = "" ∨ list.getLast? = some t then v
  else
    let next := list ++ [t]
    { v with history := v.history.insert key (next.drop (next.length - promptHistoryCap)) }

/-- The view after an edit. -/
def edit (v : HostView) : ViewEdit → HostView
  | .setText text => { v with text := text }
  | .stashDraft key =>
    { v with
      drafts :=
        match written v.text with
        | some text => v.drafts.insert key text
        | none => v.drafts.erase key }
  | .loadDraft key => { v with text := (v.drafts key).getD "" }
  | .clearStoredDraft key => { v with drafts := v.drafts.erase key }
  | .persistDraftConfig key draft modelId thinkingLevel =>
    { v with configs := persistDraftConfig v.configs key draft modelId thinkingLevel }
  | .clearStoredDraftConfig key => { v with configs := v.configs.erase key }
  | .recordPromptHistory key text => v.recordPromptHistory key text
  | .setLastProjectCwd cwd =>
    if Ts.trim cwd = "" ∨ Ts.trim cwd = v.cwd then v else { v with cwd := Ts.trim cwd }

end HostView

/-- The global keys after an edit of `v`: each edit writes the map it changes, some only if
they change it. -/
def StoredKeys.write (k : StoredKeys) (v : HostView) (e : ViewEdit) : StoredKeys :=
  match e with
  | .setText _ | .loadDraft _ => k
  | .stashDraft _ => { k with drafts := some (v.edit e).drafts }
  | .clearStoredDraft key =>
    if (v.drafts key).isSome then { k with drafts := some (v.edit e).drafts } else k
  | .persistDraftConfig _ _ _ _ => { k with configs := some (v.edit e).configs }
  | .clearStoredDraftConfig key =>
    if (v.configs key).isSome then { k with configs := some (v.edit e).configs } else k
  | .recordPromptHistory key text =>
    if Ts.trim text = "" ∨ ((v.history key).getD []).getLast? = some (Ts.trim text) then k
    else { k with history := some (v.edit e).history }
  | .setLastProjectCwd cwd =>
    if Ts.trim cwd = "" ∨ Ts.trim cwd = v.cwd then k else { k with cwd := some (v.edit e).cwd }

/-! A step of the composer is some of these edits, of its text and its drafts. -/

/-- `v` has the text and the drafts of the composer. -/
def HostView.Mirrors (v : HostView) (s : Composer) : Prop :=
  v.text = s.text ∧ v.drafts = s.draftMap

namespace HostView.Mirrors

variable {v : HostView} {s : Composer}

theorem stashDraft (h : v.Mirrors s) :
    (v.edit (.stashDraft s.composerDraftKey)).Mirrors s.stashDraft := by
  cases hwritten : written s.text <;>
    simp only [Mirrors, HostView.edit, Composer.stashDraft, h.1, h.2, hwritten, and_self]

theorem loadDraft (h : v.drafts = s.draftMap) (key : DraftKey) :
    (v.edit (.loadDraft key)).Mirrors (s.loadDraft key) := by
  simp only [Mirrors, HostView.edit, Composer.loadDraft, h, and_self]

theorem clearStoredDraft (h : v.Mirrors s) (key : DraftKey) :
    (v.edit (.clearStoredDraft key)).Mirrors (s.clearStoredDraft key) := by
  simp only [Mirrors, HostView.edit, Composer.clearStoredDraft, h.1, h.2, and_self]

theorem setText (h : v.drafts = s.draftMap) :
    (v.edit (.setText s.text)).Mirrors s := ⟨rfl, h⟩

/-- **Whatever the composer does to its text and drafts, some edits do.** -/
theorem exists_edits (h : v.Mirrors s) (a : Composer.Action) :
    ∃ edits : List ViewEdit, (edits.foldl HostView.edit v).Mirrors (s.step a) := by
  cases a with
  | type text => exact ⟨[.setText text], rfl, h.2⟩
  | stash => exact ⟨[.stashDraft s.composerDraftKey], h.stashDraft⟩
  | prompt text images turnActive => exact ⟨[], h⟩
  | submitDraft text images => exact ⟨[], h⟩
  | enqueued i ok =>
    rw [Composer.step, Composer.enqueued]
    cases s.sends[i]? with
    | none => exact ⟨[], h⟩
    | some send =>
      cases ok with
      | false => exact ⟨[], h⟩
      | true =>
        have hclear := h.clearStoredDraft s.composerDraftKey
        refine ⟨[.clearStoredDraft s.composerDraftKey, .setText ""], ?_⟩
        cases hkind : send.kind <;> simp only [if_true, hkind] <;> exact ⟨rfl, hclear.2⟩
  | openSession path =>
    rw [Composer.step, Composer.openSession]
    have hstash := h.stashDraft.2
    generalize s.stashDraft = s' at hstash ⊢
    exact ⟨[.stashDraft s.composerDraftKey, .loadDraft (s.pathKey path)], loadDraft hstash _⟩
  | startDraft cwd =>
    rw [Composer.step, Composer.startDraft]
    have hstash := h.stashDraft.2
    generalize s.stashDraft = s' at hstash ⊢
    exact ⟨[.stashDraft s.composerDraftKey, .loadDraft (.ofCwd cwd)], loadDraft hstash _⟩
  | cancelDraft =>
    rw [Composer.step, Composer.cancelDraft]
    have hstash := h.stashDraft.2
    generalize s.stashDraft = s' at hstash ⊢
    exact ⟨[.stashDraft s.composerDraftKey, .loadDraft _],
      loadDraft (s := { s' with draft := none }) hstash _⟩
  | discardDraft dir =>
    have hclear := h.clearStoredDraft (.project dir)
    rw [Composer.step, Composer.discardDraft]
    by_cases hactive : s.draft.isSome ∧ s.composerDraftKey = .project dir
    · rw [if_pos hactive]
      have hempty := setText
        (s := { s.clearStoredDraft (.project dir) with draft := none, text := "" }) hclear.2
      exact ⟨[.clearStoredDraft (.project dir), .setText "", .loadDraft _], loadDraft hempty.2 _⟩
    · rw [if_neg hactive]
      exact ⟨[.clearStoredDraft (.project dir)], hclear⟩
  | setDraftCwd cwd =>
    rw [Composer.step, Composer.setDraftCwd]
    cases s.draft with
    | none => exact ⟨[], h⟩
    | some _ =>
      by_cases hkey : s.composerDraftKey ≠ { s with draft := some cwd }.composerDraftKey
      · refine ⟨[.clearStoredDraft s.composerDraftKey], ?_⟩
        simp only [if_pos hkey]
        exact clearStoredDraft (s := { s with draft := some cwd }) h _
      · refine ⟨[], ?_⟩
        simp only [if_neg hkey]
        exact h
  | restoreFailedDraft cwd text =>
    rw [Composer.step, Composer.restoreFailedDraft]
    have hstash := h.stashDraft.2
    generalize s.stashDraft = s' at hstash ⊢
    have hrestored := setText (s := { s' with draft := some cwd, text := text }) hstash
    have hagain := hrestored.stashDraft
    refine ⟨[.stashDraft s.composerDraftKey, .setText text, .stashDraft (.ofCwd cwd)], ?_⟩
    simp only [List.foldl_cons, List.foldl_nil]
    exact hagain
  | bootRestore =>
    rw [Composer.step, Composer.bootRestore]
    cases s.draft with
    | some _ => exact ⟨[], h⟩
    | none =>
      cases Ts.truthy s.activeSessionId with
      | none => exact ⟨[], h⟩
      | some id => exact ⟨[.loadDraft (.session id)], loadDraft h.2 _⟩
  | seed ref => exact ⟨[], h⟩
  | sessionList sessions activeSessionId => exact ⟨[], h⟩

end HostView.Mirrors

/-! ### The page -/

/-- A `hello`: the server it names, and whether its protocol version is the client's. -/
structure ServerHello where
  serverId : String
  current : Bool
  deriving DecidableEq

/-- A call of `prompt` or `submitDraft` that waits for its save, with the server that was
selected when it began. -/
structure HostSend where
  kind : PendingKind
  text : String
  origin : String

/-- The store and the coordinator of a page, and the browser's keys. -/
structure HostPage where
  view : HostView
  /-- The server that the store has heard a `hello` from. -/
  serverId : Option String
  /-- `selectedHostId` -/
  selected : Option String
  /-- The `hello` in `cachedBootstrap` of each host. -/
  cached : PMap String ServerHello
  sends : List HostSend
  global : StoredKeys
  /-- The keys of each server. -/
  spaced : String → StoredKeys
  /-- The server behind the selected host, behind the local one if none is. -/
  server : String
  /-- What the user had of each server, the last first. -/
  past : String → List HostView

/-- What can happen. -/
inductive HostAct where
  | edit (e : ViewEdit)
  /-- `prompt` or `submitDraft`, up to the save. -/
  | send (kind : PendingKind) (text : String)
  /-- A send goes on: its prompt was enqueued, or not; `key` is the composer's key then. -/
  | enqueued (i : ℕ) (key : DraftKey) (ok : Bool)
  /-- A `hello` on the connection of a host, with whether the coordinator knows the host. -/
  | hello (host : String) (h : ServerHello) (known : Bool)
  /-- `selectHost`, once it is connected; the server behind the host, and the edits that the
  replay of its cached messages makes. -/
  | select (host server : String) (replayed : List ViewEdit)
  /-- The coordinator drops a host. -/
  | forget (host : String)
  /-- The page is loaded again; the server behind the local host. -/
  | reload (server : String)

namespace HostPage

/-- What the user had of a server, last. -/
def now (p : HostPage) (server : String) : HostView := (p.past server).headD .empty

/-- All that the user had of a server, and that it began with nothing. -/
def had (p : HostPage) (server : String) : List HostView := p.past server ++ [.empty]

/-- The user has `v` of a server. -/
def record (p : HostPage) (server : String) (v : HostView) : HostPage :=
  { p with past := Function.update p.past server (v :: p.past server) }

/-- An edit, which the user makes in what belongs to `origin`. -/
def editAs (p : HostPage) (origin : String) (e : ViewEdit) : HostPage :=
  { p with
    view := p.view.edit e
    global := p.global.write p.view e }.record origin ((p.now origin).edit e)

def edits (p : HostPage) (origin : String) (es : List ViewEdit) : HostPage :=
  es.foldl (fun p e => p.editAs origin e) p

/-- What `prompt` and `submitDraft` do once their prompt is enqueued. -/
def sentEdits (send : HostSend) (key : DraftKey) : List ViewEdit :=
  match send.kind with
  | .prompt => [.recordPromptHistory key send.text, .clearStoredDraft key, .setText ""]
  | .newSession =>
    [.recordPromptHistory key send.text, .clearStoredDraft key, .clearStoredDraftConfig key,
      .setText ""]

/-- A send goes on. -/
def enqueued (p : HostPage) (i : ℕ) (key : DraftKey) (ok : Bool) : HostPage :=
  match p.sends[i]? with
  | none => p
  | some send =>
    let p := { p with sends := p.sends.eraseIdx i }
    if ok then p.edits send.origin (sentEdits send key) else p

/-- The keys `stashPerClientState` writes. -/
def stashed (v : HostView) : StoredKeys :=
  ⟨some v.drafts, some v.configs, some v.history, some v.cwd⟩

/-- `stashPerClientState` -/
def stashPerClientState (p : HostPage) : HostPage :=
  match p.serverId with
  | some sid => { p with spaced := Function.update p.spaced sid (stashed p.view) }
  | none => p

/-- The part of `switchHost` that touches the view state: `resetServerScopedState` leaves
the maps, the composer's text and the last project. -/
def switchHost (p : HostPage) : HostPage := { p.stashPerClientState with serverId := none }

/-- `onServer` for a `hello`. -/
def onHello (p : HostPage) (h : ServerHello) : HostPage :=
  if h.current then
    { p with
      serverId := some h.serverId
      spaced := Function.update p.spaced h.serverId
        ((p.spaced h.serverId).migrateLegacyPersistence p.global) }
  else p

/-- `loadPerClientState` -/
def loadPerClientState (p : HostPage) (server : String) : HostPage :=
  { p with
    view :=
      { text := p.view.text
        drafts := (p.spaced server).drafts.getD .empty
        configs := (p.spaced server).configs.getD .empty
        history := (p.spaced server).history.getD .empty
        cwd := (p.spaced server).cwd.getD p.view.cwd } }

/-- `selectHost` up to the cached messages. -/
def turnTo (p : HostPage) (host server : String) : HostPage :=
  { p.switchHost with selected := some host, server := server }

/-- `selectHost`, from `switchHost` on. -/
def selectHost (p : HostPage) (host server : String) (replayed : List ViewEdit) : HostPage :=
  match p.cached host with
  | some h =>
    (((p.turnTo host server).onHello h).edits server replayed).loadPerClientState h.serverId
  | none => (p.turnTo host server).edits server replayed

/-- The store processes what this host's connection receives: that of the local host always,
that of another while it is selected. -/
def Hears (p : HostPage) (host : String) (known : Bool) : Prop :=
  host = "local" ∨ known = true ∧ p.selected = some host

/-- The host is the selected one, or the local one before any is. -/
def Speaks (p : HostPage) (host : String) : Prop :=
  p.selected = some host ∨ p.selected = none ∧ host = "local"

instance (p : HostPage) (host : String) (known : Bool) : Decidable (p.Hears host known) :=
  inferInstanceAs (Decidable (_ ∨ _))

instance (p : HostPage) (host : String) : Decidable (p.Speaks host) :=
  inferInstanceAs (Decidable (_ ∨ _))

/-- A `hello` on a host's connection. -/
def hello (p : HostPage) (host : String) (h : ServerHello) (known : Bool) : HostPage :=
  let p' := if known then { p with cached := p.cached.insert host h } else p
  if p.Hears host known then
    { p' with server := if p.Speaks host then h.serverId else p.server }.onHello h
  else p'

/-- A new page: the store begins with what the global keys hold.  What was typed and not
stashed is gone. -/
def reload (p : HostPage) (server : String) : HostPage :=
  { p.record p.server (p.now p.server).kept with
    view := p.global.view
    serverId := none
    selected := none
    cached := .empty
    sends := []
    server := server }

def step (p : HostPage) : HostAct → HostPage
  | .edit e => p.editAs p.server e
  | .send kind text => { p with sends := p.sends ++ [⟨kind, Ts.trim text, p.server⟩] }
  | .enqueued i key ok => p.enqueued i key ok
  | .hello host h known => p.hello host h known
  | .select host server replayed => p.selectHost host server replayed
  | .forget host => { p with cached := p.cached.erase host }
  | .reload server => p.reload server

/-- The first page with host selection, over global keys from before, which belong to the
server behind the local host. -/
def boot (global : StoredKeys) (server : String) : HostPage where
  view := global.view
  serverId := none
  selected := none
  cached := .empty
  sends := []
  global := global
  spaced _ := .empty
  server := server
  past := Function.update (fun _ => []) server [global.view]

def run (p : HostPage) (acts : List HostAct) : HostPage := acts.foldl step p

/-! ### Isolation -/

/-- Whatever the keys hold, the user had among `vs`. -/
structure Within (k : StoredKeys) (vs : List HostView) : Prop where
  drafts : ∀ d, k.drafts = some d → ∃ v ∈ vs, v.drafts = d
  configs : ∀ c, k.configs = some c → ∃ v ∈ vs, v.configs = c
  history : ∀ h, k.history = some h → ∃ v ∈ vs, v.history = h
  cwd : ∀ c, k.cwd = some c → ∃ v ∈ vs, v.cwd = c

/-- The store shows what the user has of the selected server, the keys of every other server
hold what the user has of it, and no key of a server holds what the user did not have of
it. -/
structure Isolated (p : HostPage) : Prop where
  shown : p.view = p.now p.server
  others : ∀ server, server ≠ p.server → (p.spaced server).view = p.now server
  within : ∀ server, Within (p.spaced server) (p.had server)

/-- The keys hold what the store shows, the composer's text apart. -/
def Saved (k : StoredKeys) (v : HostView) : Prop := k.view = v.kept

/-- The migration gives a server only keys that hold nothing or what is `v`'s. -/
structure Harmless (k global : StoredKeys) (v : HostView) : Prop where
  drafts : k.drafts.isSome ∨ global.drafts.getD .empty = .empty ∨ global.drafts = some v.drafts
  configs : k.configs.isSome ∨ global.configs.getD .empty = .empty ∨
    global.configs = some v.configs
  history : k.history.isSome ∨ global.history.getD .empty = .empty ∨
    global.history = some v.history
  cwd : k.cwd.isSome ∨ global.cwd.getD "" = "" ∨ global.cwd = some v.cwd

/-- The composer is empty, and the selected server and this one have stored the same as the
store shows. -/
structure Alike (p : HostPage) (server : String) : Prop where
  text : p.view.text = ""
  selected : Saved (p.spaced p.server) p.view
  other : Saved (p.spaced server) p.view

/-- `stashPerClientState` leaves the state of the selected server stored: the server was
heard, or its keys hold what the store shows. -/
def Stashes (p : HostPage) : Prop := p.serverId = none → Saved (p.spaced p.server) p.view

/-- A selection without a cached `hello` stays at the server, or finds the composer empty and
the same stored of both. -/
def Stays (p : HostPage) (server : String) : Prop :=
  server = p.server ∨ p.view.text = "" ∧ p.Stashes ∧ Saved (p.spaced server) p.view

/-- The edits of a replay change nothing in this view. -/
def Quiet (es : List ViewEdit) (v : HostView) : Prop := es.foldl HostView.edit v = v

/-- A selection with a cached `hello` finds it to name the server, the composer empty, the
selected server's state stored, and, unless it is the server that the store has heard, no
global key to take over, no project left over and nothing for the replayed messages to do. -/
structure Loads (p : HostPage) (h : ServerHello) (server : String) (replayed : List ViewEdit) :
    Prop where
  named : h.serverId = server
  text : server = p.server ∨ p.view.text = ""
  stored : p.Stashes
  migrated : h.current = true → p.serverId ≠ some server →
    Harmless (p.spaced server) p.global .empty
  cwd : p.serverId = some server ∨ (p.spaced server).cwd.isSome ∨ p.view.cwd = ""
  quiet : Quiet replayed p.view
  quiet' : p.serverId ≠ some server →
    Quiet replayed { (p.spaced server).view with text := p.view.text }

/-- The condition under which a step keeps the servers apart. -/
def Keeps (p : HostPage) : HostAct → Prop
  | .enqueued i _ ok => ∀ send, p.sends[i]? = some send → ok = true → send.origin = p.server
  | .hello host h known => p.Hears host known →
      (h.serverId = p.server ∨
        (p.Speaks host ∧ p.Alike h.serverId ∧ (h.current = true ∨ p.serverId = none)) ∨
        (¬ p.Speaks host ∧ h.current = false)) ∧
      (h.current = true → Harmless (p.spaced h.serverId) p.global p.view)
  | .select host server replayed =>
    match p.cached host with
    | some h => p.Loads h server replayed
    | none => p.Stays server
  | .reload server =>
    (server = p.server ∧ Saved p.global p.view) ∨
      (Saved (p.spaced p.server) p.view ∧ p.global.view = (p.spaced server).view)
  | _ => True

/-! ### What the user had -/

section Had

variable {p : HostPage} {server other : String} {v w : HostView}

theorem now_mem_had (p : HostPage) (server : String) : p.now server ∈ p.had server := by
  rw [now, had]
  cases p.past server with
  | nil => exact List.mem_singleton_self _
  | cons v vs => exact List.mem_cons_self

theorem empty_mem_had (p : HostPage) (server : String) : HostView.empty ∈ p.had server :=
  List.mem_append_right _ (List.mem_singleton_self _)

@[simp] theorem now_record_self (p : HostPage) (server : String) (v : HostView) :
    (p.record server v).now server = v := by
  simp [now, record]

theorem now_record_of_ne (p : HostPage) (v : HostView) (h : other ≠ server) :
    (p.record server v).now other = p.now other := by
  simp [now, record, h]

theorem mem_had_record (h : v ∈ p.had other) : v ∈ (p.record server w).had other := by
  by_cases hs : other = server
  · subst hs
    simp only [had, record, Function.update_self] at h ⊢
    exact List.mem_append.mpr ((List.mem_append.mp h).imp_left (List.mem_cons_of_mem _))
  · simpa [had, record, hs] using h

end Had

/-! ### Keys -/

section Keys

variable {k g : StoredKeys} {v : HostView} {vs ws : List HostView}

theorem Within.mono (h : Within k vs) (hsub : ∀ v ∈ vs, v ∈ ws) : Within k ws where
  drafts d hd := (h.drafts d hd).imp fun v hv => ⟨hsub v hv.1, hv.2⟩
  configs c hc := (h.configs c hc).imp fun v hv => ⟨hsub v hv.1, hv.2⟩
  history l hl := (h.history l hl).imp fun v hv => ⟨hsub v hv.1, hv.2⟩
  cwd c hc := (h.cwd c hc).imp fun v hv => ⟨hsub v hv.1, hv.2⟩

theorem within_empty (vs : List HostView) : Within .empty vs := by
  constructor <;> intro _ h <;> cases h

theorem within_stashed (h : v ∈ vs) : Within (stashed v) vs where
  drafts _ hd := ⟨v, h, Option.some.inj hd⟩
  configs _ hc := ⟨v, h, Option.some.inj hc⟩
  history _ hl := ⟨v, h, Option.some.inj hl⟩
  cwd _ hc := ⟨v, h, Option.some.inj hc⟩

@[simp] theorem view_stashed (v : HostView) : (stashed v).view = v.kept := rfl

/-- One key after the migration, if the global one holds nothing. -/
theorem getD_or_of_harmless {α : Type*} {a b : Option α} {e : α}
    (h : a.isSome ∨ b.getD e = e ∨ b = some e) : (a.or b).getD e = a.getD e := by
  cases a with
  | some a => rfl
  | none =>
    rcases h with h | h | rfl
    · cases h
    · exact h
    · rfl

/-- Where the migration gives a server nothing, it reads as before. -/
theorem view_migrate (h : Harmless k g .empty) : (k.migrateLegacyPersistence g).view = k.view :=
  HostView.ext rfl (getD_or_of_harmless h.drafts) (getD_or_of_harmless h.configs)
    (getD_or_of_harmless h.history) (getD_or_of_harmless h.cwd)

/-- One key after the migration, if the global one is harmless. -/
theorem exists_of_or {α : Type*} {a b : Option α} {e x : α} (f : HostView → α)
    (hempty : f .empty = e) (ha : ∀ y, a = some y → ∃ v ∈ vs, f v = y)
    (h : a.isSome ∨ b.getD e = e ∨ b = some (f v)) (hv : v ∈ vs) (he : HostView.empty ∈ vs)
    (hx : a.or b = some x) : ∃ v ∈ vs, f v = x := by
  cases a with
  | some a => exact ha x hx
  | none =>
    rw [Option.none_or] at hx
    subst hx
    rcases h with h | h | h
    · cases h
    · exact ⟨.empty, he, hempty.trans h.symm⟩
    · exact ⟨v, hv, (Option.some.inj h).symm⟩

theorem Within.migrate (hk : Within k vs) (h : Harmless k g v) (hv : v ∈ vs)
    (he : HostView.empty ∈ vs) : Within (k.migrateLegacyPersistence g) vs where
  drafts _ hd := exists_of_or HostView.drafts rfl hk.drafts h.drafts hv he hd
  configs _ hc := exists_of_or HostView.configs rfl hk.configs h.configs hv he hc
  history _ hl := exists_of_or HostView.history rfl hk.history h.history hv he hl
  cwd _ hc := exists_of_or HostView.cwd rfl hk.cwd h.cwd hv he hc

end Keys

/-! ### Steps -/

/-- The servers are apart, and the server that the store has heard is the selected one. -/
structure Sound (p : HostPage) : Prop extends p.Isolated where
  heard : ∀ sid, p.serverId = some sid → sid = p.server

variable {p : HostPage}

theorem Sound.editAs (hp : p.Sound) (e : ViewEdit) : (p.editAs p.server e).Sound where
  shown := by
    rw [show (p.editAs p.server e).server = p.server from rfl, HostPage.editAs, now_record_self,
      ← hp.shown]
    rfl
  others server hs := (hp.others server hs).trans (now_record_of_ne _ _ hs).symm
  within server := (hp.within server).mono fun _ hv => mem_had_record hv
  heard := hp.heard

theorem Sound.edits (hp : p.Sound) (es : List ViewEdit) : (p.edits p.server es).Sound := by
  induction es generalizing p with
  | nil => exact hp
  | cons e es ih => exact ih (hp.editAs e)

theorem Sound.enqueued (hp : p.Sound) {i : ℕ} {key : DraftKey} {ok : Bool}
    (hC : p.Keeps (.enqueued i key ok)) : (p.enqueued i key ok).Sound := by
  unfold HostPage.enqueued
  cases hsend : p.sends[i]? with
  | none => exact hp
  | some send =>
    have hp' : HostPage.Sound { p with sends := p.sends.eraseIdx i } :=
      ⟨⟨hp.shown, hp.others, hp.within⟩, hp.heard⟩
    cases ok with
    | false => exact hp'
    | true =>
      dsimp only
      rw [if_pos rfl, hC send hsend rfl]
      exact hp'.edits _

/-- The keys after `stashPerClientState`: what the store shows, for the server that it has
heard. -/
theorem spaced_stash (p : HostPage) (server : String) :
    p.stashPerClientState.spaced server
      = if p.serverId = some server then stashed p.view else p.spaced server := by
  unfold HostPage.stashPerClientState
  split
  · rename_i sid hsid
    rw [hsid]
    by_cases hs : server = sid
    · subst hs
      rw [if_pos rfl]
      exact Function.update_self _ _ _
    · rw [if_neg fun h => hs (Option.some.inj h).symm]
      exact Function.update_of_ne hs _ _
  · rename_i hnone
    rw [hnone, if_neg fun h => by cases h]

theorem spaced_stash_of_ne {server : String} (h : p.serverId ≠ some server) :
    p.stashPerClientState.spaced server = p.spaced server := by
  rw [spaced_stash, if_neg h]

theorem spaced_stash_of_heard {server : String} (h : p.serverId = some server) :
    p.stashPerClientState.spaced server = stashed p.view := by
  rw [spaced_stash, if_pos h]

/-- The selected server's state is stored. -/
theorem Sound.saved_stash (hp : p.Sound) (h : p.Stashes) :
    Saved (p.stashPerClientState.spaced p.server) p.view := by
  by_cases hheard : p.serverId = some p.server
  · rw [spaced_stash_of_heard hheard]
    exact view_stashed p.view
  · rw [spaced_stash_of_ne hheard]
    refine h (Option.eq_none_iff_forall_ne_some.mpr fun sid hsid => hheard ?_)
    rw [hsid, hp.heard sid hsid]

/-- `stashPerClientState` writes keys and nothing else. -/
theorem stashPerClientState_eq (p : HostPage) :
    p.stashPerClientState = { p with spaced := p.stashPerClientState.spaced } := by
  unfold HostPage.stashPerClientState
  split <;> rfl

theorem Sound.stashPerClientState (hp : p.Sound) : p.stashPerClientState.Sound := by
  rw [stashPerClientState_eq]
  refine ⟨⟨hp.shown, fun server hs => ?_, fun server => ?_⟩, hp.heard⟩
  · rw [spaced_stash_of_ne fun h => hs (hp.heard server h)]
    exact hp.others server hs
  · dsimp only
    by_cases hheard : p.serverId = some server
    · rw [spaced_stash_of_heard hheard]
      obtain rfl := hp.heard server hheard
      exact within_stashed (hp.shown ▸ now_mem_had p p.server)
    · rw [spaced_stash_of_ne hheard]
      exact hp.within server

@[simp] theorem global_turnTo (p : HostPage) (host server : String) :
    (p.turnTo host server).global = p.global := by
  rw [turnTo, switchHost, stashPerClientState_eq]

/-- The keys after a `hello`: migrated for the server it names, if the page understands
it. -/
theorem spaced_onHello (p : HostPage) (h : ServerHello) (server : String) :
    (p.onHello h).spaced server = p.spaced server ∨
      (server = h.serverId ∧ h.current = true ∧
        (p.onHello h).spaced server = (p.spaced server).migrateLegacyPersistence p.global) := by
  unfold HostPage.onHello
  split
  · rename_i hcurrent
    by_cases hs : server = h.serverId
    · subst hs
      exact .inr ⟨rfl, hcurrent, Function.update_self _ _ _⟩
    · exact .inl (Function.update_of_ne hs _ _)
  · exact .inl rfl

theorem serverId_onHello (p : HostPage) (h : ServerHello) :
    (p.onHello h).serverId = if h.current then some h.serverId else p.serverId := by
  unfold HostPage.onHello
  split <;> rfl

theorem onHello_eq (p : HostPage) (h : ServerHello) :
    p.onHello h
      = { p with serverId := (p.onHello h).serverId, spaced := (p.onHello h).spaced } := by
  unfold HostPage.onHello
  split <;> rfl

/-- `onServer` for a `hello` of the server that is selected. -/
theorem Isolated.onHello (hp : p.Isolated) {h : ServerHello}
    (hnamed : h.current = true → h.serverId = p.server)
    (hC : h.current = true → Harmless (p.spaced h.serverId) p.global p.view)
    (hheard : h.current = false → ∀ sid, p.serverId = some sid → sid = p.server) :
    (p.onHello h).Sound := by
  rw [onHello_eq]
  refine ⟨⟨hp.shown, fun server hs => ?_, fun server => ?_⟩, fun sid hsid => ?_⟩
  · rcases spaced_onHello p h server with heq | ⟨rfl, hcurrent, -⟩
    · exact (congrArg StoredKeys.view heq).trans (hp.others server hs)
    · exact absurd (hnamed hcurrent) hs
  · rcases spaced_onHello p h server with heq | ⟨rfl, hcurrent, heq⟩
    · exact heq.symm ▸ hp.within server
    · have hview : p.view ∈ p.had h.serverId :=
        hnamed hcurrent ▸ hp.shown ▸ now_mem_had p p.server
      exact heq.symm ▸ (hp.within _).migrate (hC hcurrent) hview (empty_mem_had p _)
  · dsimp only at hsid
    rw [serverId_onHello] at hsid
    split at hsid
    · exact (Option.some.inj hsid).symm.trans (hnamed ‹_›)
    · exact hheard (Bool.eq_false_of_not_eq_true ‹_›) sid hsid

/-- Another server takes the place of the selected one, neither having what the store does
not show. -/
theorem Isolated.replace (hp : p.Isolated) {server : String} (hC : p.Alike server) :
    HostPage.Isolated { p with server := server } := by
  have hkept := HostView.kept_of_text hC.text
  refine ⟨?_, fun other hs => ?_, hp.within⟩
  · by_cases hs : server = p.server
    · exact hs ▸ hp.shown
    · exact hkept.symm.trans (hC.other.symm.trans (hp.others server hs))
  · by_cases ho : other = p.server
    · subst ho
      exact hC.selected.trans (hkept.trans hp.shown)
    · exact hp.others other ho

theorem Sound.hello (hp : p.Sound) {host : String} {h : ServerHello} {known : Bool}
    (hC : p.Keeps (.hello host h known)) : (p.hello host h known).Sound := by
  unfold HostPage.hello
  generalize hcached : (if known then { p with cached := p.cached.insert host h } else p) = p'
  -- the cache is none of what is kept apart
  have hp' : p' = { p with cached := p'.cached } := by
    rw [← hcached]
    split <;> rfl
  rw [hp']
  dsimp only
  split
  · rename_i hhears
    obtain ⟨hserver, hharmless⟩ := hC hhears
    rcases hserver with hs | ⟨hspeaks, halike, hcurrent⟩ | ⟨hspeaks, hcurrent⟩
    · rw [hs, ite_self]
      exact Isolated.onHello (p := { p with cached := p'.cached })
        ⟨hp.shown, hp.others, hp.within⟩ (fun _ => hs) hharmless fun _ => hp.heard
    · rw [if_pos hspeaks]
      have hreplaced := hp.toIsolated.replace halike
      refine Isolated.onHello (p := { p with cached := p'.cached, server := h.serverId })
        ⟨hreplaced.shown, hreplaced.others, hreplaced.within⟩ (fun _ => rfl) hharmless ?_
      intro hfalse sid hsid
      rcases hcurrent with htrue | hnone
      · rw [hfalse] at htrue
        cases htrue
      · cases hnone.symm.trans hsid
    · rw [if_neg hspeaks]
      refine Isolated.onHello (p := { p with cached := p'.cached })
        ⟨hp.shown, hp.others, hp.within⟩ ?_ ?_ fun _ => hp.heard
      all_goals
        intro htrue
        rw [hcurrent] at htrue
        cases htrue
  · exact ⟨⟨hp.shown, hp.others, hp.within⟩, hp.heard⟩

/-! Selections -/

theorem edits_eq (p : HostPage) (origin : String) (es : List ViewEdit) :
    p.edits origin es
      = { p with
          view := es.foldl HostView.edit p.view
          global := (p.edits origin es).global
          past := (p.edits origin es).past } := by
  induction es generalizing p with
  | nil => rfl
  | cons e es ih => exact ih (p.editAs origin e)

theorem now_edits_self (p : HostPage) (origin : String) (es : List ViewEdit) :
    (p.edits origin es).now origin = es.foldl HostView.edit (p.now origin) := by
  induction es generalizing p with
  | nil => rfl
  | cons e es ih =>
    have hnow : (p.editAs origin e).now origin = (p.now origin).edit e := now_record_self _ _ _
    rw [edits, List.foldl_cons, ← edits, ih, List.foldl_cons, hnow]

theorem now_edits_of_ne (p : HostPage) {origin other : String} (es : List ViewEdit)
    (h : other ≠ origin) : (p.edits origin es).now other = p.now other := by
  induction es generalizing p with
  | nil => rfl
  | cons e es ih => exact (ih (p.editAs origin e)).trans (now_record_of_ne _ _ h)

theorem mem_had_edits {v : HostView} {other : String} (h : v ∈ p.had other) (origin : String)
    (es : List ViewEdit) : v ∈ (p.edits origin es).had other := by
  induction es generalizing p with
  | nil => exact h
  | cons e es ih => exact ih (p := p.editAs origin e) (mem_had_record h)

/-- A selection without a cached `hello`: the store goes on with what it shows. -/
theorem Sound.selectHost_uncached (hp : p.Sound) (host : String) {server : String}
    (replayed : List ViewEdit) (hC : p.Stays server) :
    ((p.turnTo host server).edits server replayed).Sound := by
  have hq := hp.stashPerClientState
  rw [stashPerClientState_eq] at hq
  have hisolated : HostPage.Isolated { p.stashPerClientState with server := server } := by
    rw [stashPerClientState_eq]
    by_cases hs : server = p.server
    · rw [hs]
      exact hq.toIsolated
    · obtain ⟨htext, hstored, hother⟩ := hC.resolve_left hs
      have hkeys := spaced_stash_of_ne (p := p) fun h => hs (hp.heard server h)
      have hview := (congrArg StoredKeys.view hkeys).trans hother
      exact hq.toIsolated.replace ⟨htext, hp.saved_stash hstored, hview⟩
  have hturned : (p.turnTo host server).Sound :=
    ⟨⟨hisolated.shown, hisolated.others, hisolated.within⟩, fun sid hsid => by cases hsid⟩
  exact hturned.edits replayed

/-! The page between the cached `hello` and the load -/

/-- A selection with a cached `hello`, up to the load. -/
def replay (p : HostPage) (h : ServerHello) (host server : String) (es : List ViewEdit) :
    HostPage :=
  ((p.turnTo host server).onHello h).edits server es

section Replay

variable (p) (h : ServerHello) (host server : String) (es : List ViewEdit)

theorem onHello_turnTo :
    (p.turnTo host server).onHello h
      = { p with
          serverId := if h.current then some h.serverId else none
          selected := some host
          spaced := ((p.turnTo host server).onHello h).spaced
          server := server } := by
  rw [onHello_eq, serverId_onHello, turnTo, switchHost, stashPerClientState_eq]

theorem server_replay : (p.replay h host server es).server = server := by
  rw [replay, edits_eq, onHello_turnTo]

theorem serverId_replay :
    (p.replay h host server es).serverId = if h.current then some h.serverId else none := by
  rw [replay, edits_eq, onHello_turnTo]

theorem view_replay : (p.replay h host server es).view = es.foldl HostView.edit p.view := by
  rw [replay, edits_eq, onHello_turnTo]

theorem now_replay_self :
    (p.replay h host server es).now server = es.foldl HostView.edit (p.now server) := by
  rw [replay, now_edits_self, onHello_turnTo]
  rfl

theorem now_replay_of_ne {other : String} (hne : other ≠ server) :
    (p.replay h host server es).now other = p.now other := by
  rw [replay, now_edits_of_ne _ es hne, onHello_turnTo]
  rfl

theorem mem_had_replay {v : HostView} {other : String} (hv : v ∈ p.had other) :
    v ∈ (p.replay h host server es).had other := by
  refine mem_had_edits ?_ server es
  rw [onHello_turnTo]
  exact hv

/-- The keys are those that were stashed, migrated for the server that the `hello` names. -/
theorem spaced_replay (x : String) :
    (p.replay h host server es).spaced x = p.stashPerClientState.spaced x ∨
      (x = h.serverId ∧ h.current = true ∧
        (p.replay h host server es).spaced x
          = (p.stashPerClientState.spaced x).migrateLegacyPersistence p.global) := by
  have hspaced : (p.replay h host server es).spaced
      = ((p.turnTo host server).onHello h).spaced := by rw [replay, edits_eq]
  have hkeys := spaced_onHello (p.turnTo host server) h x
  rw [global_turnTo] at hkeys
  rw [hspaced]
  exact hkeys

end Replay

section Loads

variable {h : ServerHello} {host server : String} {replayed : List ViewEdit}

theorem Loads.harmless_stash (hC : p.Loads h server replayed) (hcurrent : h.current = true) :
    Harmless (p.stashPerClientState.spaced server) p.global .empty := by
  by_cases hheard : p.serverId = some server
  · rw [spaced_stash_of_heard hheard]
    exact ⟨.inl rfl, .inl rfl, .inl rfl, .inl rfl⟩
  · rw [spaced_stash_of_ne hheard]
    exact hC.migrated hcurrent hheard

theorem Loads.cwd_stash (hC : p.Loads h server replayed) :
    (p.stashPerClientState.spaced server).cwd.isSome ∨ p.view.cwd = "" := by
  by_cases hheard : p.serverId = some server
  · rw [spaced_stash_of_heard hheard]
    exact .inl rfl
  · rw [spaced_stash_of_ne hheard]
    exact hC.cwd.resolve_left hheard

theorem Loads.quiet_stash (hC : p.Loads h server replayed) :
    Quiet replayed
      { (p.stashPerClientState.spaced server).view with text := p.view.text } := by
  by_cases hheard : p.serverId = some server
  · rw [spaced_stash_of_heard hheard]
    exact hC.quiet
  · rw [spaced_stash_of_ne hheard]
    exact hC.quiet' hheard

/-- What the user has of a server, read from its keys before a selection with a cached
`hello`. -/
theorem Loads.now (hp : p.Sound) (hC : p.Loads h server replayed) :
    p.now server
      = { (p.stashPerClientState.spaced server).view with text := p.view.text } := by
  by_cases hs : server = p.server
  · subst hs
    rw [← hp.shown, hp.saved_stash hC.stored]
    rfl
  · have hothers := hp.stashPerClientState.others server
    rw [stashPerClientState_eq] at hothers
    rw [hC.text.resolve_left hs]
    exact (hothers hs).symm

/-- The keys of the server after the replay: read as before, its project among them. -/
theorem Loads.spaced (hC : p.Loads h server replayed) :
    ((p.replay h host server replayed).spaced server).view
        = (p.stashPerClientState.spaced server).view ∧
      ((p.stashPerClientState.spaced server).cwd.isSome →
        ((p.replay h host server replayed).spaced server).cwd
          = (p.stashPerClientState.spaced server).cwd) := by
  rcases spaced_replay p h host server replayed server with heq | ⟨-, hcurrent, heq⟩
  · rw [heq]
    exact ⟨rfl, fun _ => rfl⟩
  · rw [heq]
    refine ⟨view_migrate (hC.harmless_stash hcurrent), fun hsome => ?_⟩
    obtain ⟨c, hc⟩ := Option.isSome_iff_exists.mp hsome
    rw [StoredKeys.migrateLegacyPersistence, hc]
    rfl

/-- The replay leaves what the user has of every server. -/
theorem Loads.now_replay (hp : p.Sound) (hC : p.Loads h server replayed) (x : String) :
    (p.replay h host server replayed).now x = p.now x := by
  by_cases hx : x = server
  · subst hx
    rw [now_replay_self, hC.now hp]
    exact hC.quiet_stash
  · exact now_replay_of_ne p h host server replayed hx

/-- The keys of a server that is not the one selected now. -/
theorem Loads.others (hp : p.Sound) (hC : p.Loads h server replayed) {x : String}
    (hx : x ≠ server) : ((p.replay h host server replayed).spaced x).view = p.now x := by
  have hspaced : (p.replay h host server replayed).spaced x = p.stashPerClientState.spaced x := by
    rcases spaced_replay p h host server replayed x with heq | ⟨heq, -, -⟩
    · exact heq
    · exact absurd (heq.trans hC.named) hx
  rw [hspaced]
  by_cases hxs : x = p.server
  · -- the server that was left, whose state is stored
    subst hxs
    have htext := hC.text.resolve_left fun heq => hx heq.symm
    exact (hp.saved_stash hC.stored).trans ((HostView.kept_of_text htext).trans hp.shown)
  · have hq := hp.stashPerClientState
    rw [stashPerClientState_eq] at hq
    exact hq.others x hxs

/-- What the keys hold after the replay, the user had. -/
theorem Loads.within (hp : p.Sound) (hC : p.Loads h server replayed) (x : String) :
    Within ((p.replay h host server replayed).spaced x)
      ((p.replay h host server replayed).had x) := by
  have hhad : ∀ v ∈ p.had x, v ∈ (p.replay h host server replayed).had x := fun _ =>
    mem_had_replay p h host server replayed
  have hwithin := hp.stashPerClientState.within x
  rw [stashPerClientState_eq] at hwithin
  rcases spaced_replay p h host server replayed x with heq | ⟨hnamed, hcurrent, heq⟩
  · rw [heq]
    exact hwithin.mono hhad
  · obtain rfl := hnamed.trans hC.named
    rw [heq]
    have hempty := empty_mem_had p x
    exact (hwithin.migrate (hC.harmless_stash hcurrent) hempty hempty).mono hhad

end Loads

/-- What `loadPerClientState` shows, where no project is left over from another server. -/
theorem view_loadPerClientState {server : String} {k : StoredKeys}
    (hview : (p.spaced server).view = k.view)
    (hsome : k.cwd.isSome → (p.spaced server).cwd = k.cwd)
    (hcwd : k.cwd.isSome ∨ p.view.cwd = "") :
    (p.loadPerClientState server).view = { k.view with text := p.view.text } := by
  have hload : (p.loadPerClientState server).view.cwd
      = (p.spaced server).cwd.getD p.view.cwd := rfl
  have hcwd' : (p.spaced server).cwd.getD p.view.cwd = k.view.cwd := by
    rcases hcwd with hk | hk
    · obtain ⟨c, hc⟩ := Option.isSome_iff_exists.mp hk
      rw [hsome hk, StoredKeys.view, hc]
      rfl
    · rw [hk]
      exact congrArg HostView.cwd hview
  have hdrafts := congrArg HostView.drafts hview
  have hconfigs := congrArg HostView.configs hview
  have hhistory := congrArg HostView.history hview
  exact HostView.ext rfl hdrafts hconfigs hhistory (hload.trans hcwd')

/-- A selection with a cached `hello`: the store loads what the server has. -/
theorem Sound.selectHost_cached (hp : p.Sound) (host : String) {server : String}
    {replayed : List ViewEdit} {h : ServerHello} (hC : p.Loads h server replayed) :
    ((p.replay h host server replayed).loadPerClientState h.serverId).Sound := by
  have hview : (p.replay h host server replayed).view = p.view :=
    (view_replay p h host server replayed).trans hC.quiet
  have hserver := server_replay p h host server replayed
  obtain ⟨hread, hproject⟩ := @Loads.spaced p h host server replayed hC
  have hload := view_loadPerClientState hread hproject (hview ▸ hC.cwd_stash)
  rw [hC.named]
  refine ⟨⟨?_, fun x hx => ?_, hC.within hp⟩, fun sid hsid => ?_⟩
  · have hnow : (p.replay h host server replayed).now server = _ :=
      (hC.now_replay hp server).trans (hC.now hp)
    rw [hload, hview, ← hnow]
    exact (congrArg (p.replay h host server replayed).now hserver).symm
  · have hx' : x ≠ server := fun heq => hx (heq.trans hserver.symm)
    exact (hC.others hp hx').trans (hC.now_replay hp x).symm
  · have hheard : (if h.current then some h.serverId else none) = some sid :=
      (serverId_replay p h host server replayed).symm.trans hsid
    split at hheard
    · exact (Option.some.inj hheard).symm.trans (hC.named.trans hserver.symm)
    · cases hheard

theorem Sound.reload (hp : p.Sound) {server : String} (hC : p.Keeps (.reload server)) :
    (p.reload server).Sound := by
  have hnow : (p.reload server).now p.server = p.view.kept := by
    rw [hp.shown]
    exact now_record_self _ _ _
  have hother : ∀ x, x ≠ p.server → (p.reload server).now x = p.now x :=
    fun x hx => now_record_of_ne _ _ hx
  refine ⟨⟨?_, fun x hx => ?_, fun x => (hp.within x).mono fun v hv => mem_had_record hv⟩, ?_⟩
  · rcases hC with ⟨rfl, hglobal⟩ | ⟨hsaved, hglobal⟩
    · exact hglobal.trans hnow.symm
    · by_cases hs : server = p.server
      · subst hs
        exact (hglobal.trans hsaved).trans hnow.symm
      · exact (hglobal.trans (hp.others server hs)).trans (hother server hs).symm
  · by_cases hxs : x = p.server
    · subst hxs
      rcases hC with ⟨rfl, -⟩ | ⟨hsaved, -⟩
      · exact absurd rfl hx
      · exact hsaved.trans hnow.symm
    · exact (hp.others x hxs).trans (hother x hxs).symm
  · intro sid hsid
    cases hsid

theorem Sound.step (hp : p.Sound) (a : HostAct) (hC : p.Keeps a) : (p.step a).Sound := by
  cases a with
  | edit e => exact hp.editAs e
  | send kind text => exact ⟨⟨hp.shown, hp.others, hp.within⟩, hp.heard⟩
  | enqueued i key ok => exact hp.enqueued hC
  | hello host h known => exact hp.hello hC
  | select host server replayed =>
    rw [HostPage.step, selectHost]
    rw [Keeps] at hC
    cases hcached : p.cached host with
    | none =>
      rw [hcached] at hC
      exact hp.selectHost_uncached host replayed hC
    | some h =>
      rw [hcached] at hC
      exact hp.selectHost_cached host hC
  | forget host => exact ⟨⟨hp.shown, hp.others, hp.within⟩, hp.heard⟩
  | reload server => exact hp.reload hC

theorem sound_boot (global : StoredKeys) (server : String) : (boot global server).Sound where
  shown := by
    rw [boot, HostPage.now]
    simp
  others x hx := by
    rw [boot, HostPage.now]
    simp only [Function.update_of_ne (show x ≠ server from hx), List.headD_nil]
    rfl
  within _ := within_empty _
  heard _ h := by cases h

/-- **The servers stay apart, and selecting one again brings back what it had**, after every
part of a run whose steps all meet the condition. -/
theorem isolated_of_keeps (global : StoredKeys) (server : String) (acts : List HostAct)
    (h : Along step Keeps (boot global server) acts) :
    ∀ pre, pre <+: acts → ((boot global server).run pre).Isolated := by
  rintro pre ⟨rest, rfl⟩
  exact (Along.foldl_invariant (I := Sound) (fun _ a hp hC => hp.step a hC)
    (sound_boot global server) h.of_append).toIsolated

/-- Two servers are visited in turn: a draft is stashed at the second, a prompt is sent at the
first. -/
def visits : List HostAct :=
  [.hello "local" ⟨"a", true⟩ true, .hello "remote" ⟨"b", true⟩ true, .select "remote" "b" [],
    .edit (.setText "hi"), .edit (.stashDraft (.session "1")), .edit (.setText ""),
    .select "local" "a" [], .edit (.recordPromptHistory (.session "1") "go"),
    .select "remote" "b" [], .edit (.loadDraft (.session "1"))]

theorem isolated_visits :
    ((boot .empty "a").run visits).Isolated ∧
      ((boot .empty "a").run visits).view.text = "hi" := by
  refine ⟨isolated_of_keeps .empty "a" visits ?_ visits (List.prefix_refl _), by decide⟩
  have hunheard : ¬ HostPage.Hears ((boot .empty "a").step (.hello "local" ⟨"a", true⟩ true))
      "remote" true := by decide
  refine ⟨fun _ => ⟨.inl rfl, fun _ => ?_⟩, fun h => absurd h hunheard, ?_, trivial, trivial,
    trivial, ?_, trivial, ?_, trivial, trivial⟩
  · exact ⟨.inr (.inl rfl), .inr (.inl rfl), .inr (.inl rfl), .inr (.inl rfl)⟩
  · exact ⟨rfl, .inr rfl, fun h => absurd h (by decide),
      fun _ _ => ⟨.inr (.inl rfl), .inr (.inl rfl), .inr (.inl rfl), .inr (.inl rfl)⟩,
      .inr (.inr rfl), rfl, fun _ => rfl⟩
  · exact ⟨rfl, .inr rfl, fun h => absurd h (by decide),
      fun _ _ => ⟨.inl rfl, .inl rfl, .inl rfl, .inl rfl⟩, .inr (.inl rfl), rfl, fun _ => rfl⟩
  · exact ⟨rfl, .inr rfl, fun h => absurd h (by decide),
      fun _ _ => ⟨.inl rfl, .inl rfl, .inl rfl, .inl rfl⟩, .inr (.inl rfl), rfl, fun _ => rfl⟩

/-- Text stashed at the first server when another says hello and is selected: its drafts
become those of the other. -/
theorem not_isolated :
    ¬ ∀ acts : List HostAct, ((boot .empty "a").run acts).Isolated := by
  intro h
  have hshown := (h [.hello "local" ⟨"a", true⟩ true, .edit (.setText "hi"),
    .edit (.stashDraft (.session "1")), .hello "remote" ⟨"b", true⟩ true,
    .select "remote" "b" []]).shown
  have hdraft := congrArg (HostView.drafts · (.session "1")) hshown
  revert hdraft
  decide

end HostPage

end Pantoken
