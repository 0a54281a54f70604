import Mathlib.Logic.Function.Basic
import Pantoken.Client.Outbox
import Pantoken.Lib.PMap
import Pantoken.Lib.Run

/-!
# The composer and its drafts

There is one composer for all sessions and projects.  What is typed in it belongs to a key,
a session or the new-session draft of a project, and is stored under this key when the user
goes elsewhere.  The key is computed anew at each step, from the draft and from the session
the server has shown last; a prompt that is sent clears the composer only when its save is
through, under the key of that moment.

## Main definitions

* `DraftKey`, `Composer.composerDraftKey` — what composer text belongs to.
* `Composer`, `Composer.step` — the composer, the stored drafts, and the sends that wait.
* `Desk`, `Desk.step` — what the user has written for each key, and where the user is.
* `Desk.Conserves` — the composer and the stored drafts hold what was written, each its own.
* `Desk.Keeps` — the condition under which a step keeps them so.

## Main results

* `conserves_of_keeps` — **in a run whose steps all meet the condition no text is lost or
  misplaced**, after every part of it.
* `not_conserves` — a stash before the seed, a send that is typed over, a draft submitted.
-/

namespace Pantoken

/-! ### Keys -/

/-- What composer text belongs to, and is stored under: `s:` and a session, `n:` and a
project, or `none`. -/
inductive DraftKey where
  | session (id : SessionId)
  | project (dir : String)
  | unfocused
  deriving DecidableEq

/-- The key of the new-session draft of a project. -/
def DraftKey.ofCwd (cwd : String) : DraftKey :=
  .project ((Ts.truthy (some (Ts.trim cwd))).getD "~")

/-- The key of a session, if there is one. -/
def DraftKey.ofSession (id : Option SessionId) : DraftKey :=
  match Ts.truthy id with
  | some id => .session id
  | none => .unfocused

/-- What is kept of a text: nothing, if there is only white space. -/
def written (text : String) : Option String := if Ts.trim text = "" then none else some text

/-! ### The composer -/

/-- A call of `prompt` or `submitDraft` that waits for its save, with the text it sends. -/
structure ComposerSend where
  kind : PendingKind
  text : String

/-- The part of the client's store that keeps the composer's text. -/
structure Composer where
  /-- The `cwd` of the new-session draft. -/
  draft : Option String
  /-- `session.ref?.sessionId` -/
  ref : Option SessionId
  activeSessionId : Option SessionId
  /-- The paths of the sessions, with their ids. -/
  sessions : List (String × SessionId)
  /-- `composerDraft` -/
  text : String
  draftMap : PMap DraftKey String
  sends : List ComposerSend

namespace Composer

/-- `composerDraftKey` -/
def composerDraftKey (s : Composer) : DraftKey :=
  match s.draft with
  | some cwd => .ofCwd cwd
  | none => .ofSession (s.ref.or s.activeSessionId)

/-- `stashDraft` -/
def stashDraft (s : Composer) : Composer :=
  { s with
    draftMap :=
      match written s.text with
      | some text => s.draftMap.insert s.composerDraftKey text
      | none => s.draftMap.erase s.composerDraftKey }

/-- `loadDraft` -/
def loadDraft (s : Composer) (key : DraftKey) : Composer :=
  { s with text := (s.draftMap key).getD "" }

/-- `clearStoredDraft` -/
def clearStoredDraft (s : Composer) (key : DraftKey) : Composer :=
  { s with draftMap := s.draftMap.erase key }

/-- What can happen. -/
inductive Action where
  /-- The user edits the text. -/
  | type (text : String)
  /-- `stashDraft`, after a pause in typing or when the page is hidden. -/
  | stash
  /-- `prompt`, with whether there are images and a turn is active. -/
  | prompt (text : String) (images turnActive : Bool)
  | submitDraft (text : String) (images : Bool)
  /-- A send goes on: its prompt was enqueued, or not. -/
  | enqueued (i : ℕ) (ok : Bool)
  | openSession (path : String)
  | startDraft (cwd : String)
  | cancelDraft
  /-- `discardDraft`, of the draft of a project. -/
  | discardDraft (dir : String)
  | setDraftCwd (cwd : String)
  /-- `restoreFailedDraft`, of a prompt with this `cwd` and text. -/
  | restoreFailedDraft (cwd text : String)
  /-- `maybeOpenBootDraft` restores the draft of the active session. -/
  | bootRestore
  | seed (ref : Option SessionId)
  | sessionList (sessions : List (String × SessionId)) (activeSessionId : Option SessionId)

/-- The send an action begins. -/
def sendOf (s : Composer) : Action → Option ComposerSend
  | .prompt text images turnActive =>
    if Ts.trim text = "" ∧ images = false ∧ turnActive = true then none
    else some ⟨.prompt, Ts.trim text⟩
  | .submitDraft text images =>
    if s.draft = none ∨ Ts.trim text = "" ∧ images = false then none
    else some ⟨.newSession, Ts.trim text⟩
  | _ => none

/-- `prompt` and `submitDraft`, up to where they wait. -/
def beginSend (s : Composer) (send : Option ComposerSend) : Composer :=
  { s with sends := s.sends ++ send.toList }

/-- A send goes on. -/
def enqueued (s : Composer) (i : ℕ) (ok : Bool) : Composer :=
  match s.sends[i]? with
  | none => s
  | some send =>
    let s := { s with sends := s.sends.eraseIdx i }
    if ok then
      match send.kind with
      | .prompt => { s.clearStoredDraft s.composerDraftKey with text := "" }
      | .newSession =>
        -- the transcript starts empty, so the session is that of the list until its seed
        { s.clearStoredDraft s.composerDraftKey with
          draft := none
          text := ""
          ref := none }
    else s

/-- The key of the session at a path. -/
def pathKey (s : Composer) (path : String) : DraftKey :=
  .ofSession ((s.sessions.find? (·.1 = path)).map (·.2))

/-- `openSession` -/
def openSession (s : Composer) (path : String) : Composer :=
  { s.stashDraft with draft := none }.loadDraft (s.pathKey path)

/-- `startDraft` -/
def startDraft (s : Composer) (cwd : String) : Composer :=
  { s.stashDraft with draft := some cwd }.loadDraft (.ofCwd cwd)

/-- `cancelDraft` -/
def cancelDraft (s : Composer) : Composer :=
  let s := { s.stashDraft with draft := none }
  s.loadDraft s.composerDraftKey

/-- `discardDraft` -/
def discardDraft (s : Composer) (dir : String) : Composer :=
  let s' := s.clearStoredDraft (.project dir)
  if s.draft.isSome ∧ s.composerDraftKey = .project dir then
    let s' :=
      { s' with
        draft := none
        text := "" }
    s'.loadDraft s'.composerDraftKey
  else s'

/-- `setDraftCwd` -/
def setDraftCwd (s : Composer) (cwd : String) : Composer :=
  match s.draft with
  | none => s
  | some _ =>
    let s' := { s with draft := some cwd }
    if s.composerDraftKey ≠ s'.composerDraftKey then s'.clearStoredDraft s.composerDraftKey else s'

/-- `restoreFailedDraft` -/
def restoreFailedDraft (s : Composer) (cwd text : String) : Composer :=
  stashDraft
    { s.stashDraft with
      draft := some cwd
      text := text }

/-- `maybeOpenBootDraft`, where it restores the draft of the active session. -/
def bootRestore (s : Composer) : Composer :=
  match s.draft, Ts.truthy s.activeSessionId with
  | none, some id => s.loadDraft (.session id)
  | _, _ => s

/-- One step. -/
def step (s : Composer) : Action → Composer
  | .type text => { s with text := text }
  | .stash => s.stashDraft
  | .prompt text images turnActive => s.beginSend (s.sendOf (.prompt text images turnActive))
  | .submitDraft text images => s.beginSend (s.sendOf (.submitDraft text images))
  | .enqueued i ok => s.enqueued i ok
  | .openSession path => s.openSession path
  | .startDraft cwd => s.startDraft cwd
  | .cancelDraft => s.cancelDraft
  | .discardDraft dir => s.discardDraft dir
  | .setDraftCwd cwd => s.setDraftCwd cwd
  | .restoreFailedDraft cwd text => s.restoreFailedDraft cwd text
  | .bootRestore => s.bootRestore
  | .seed ref => { s with ref := ref }
  | .sessionList sessions activeSessionId =>
    { s with
      sessions := sessions
      activeSessionId := activeSessionId }

/-- The page has loaded. -/
def boot (draftMap : PMap DraftKey String) : Composer where
  draft := none
  ref := none
  activeSessionId := none
  sessions := []
  text := ""
  draftMap := draftMap
  sends := []

/-- What is stored under a key. -/
def stored (s : Composer) (key : DraftKey) : Option String := (s.draftMap key).bind written

end Composer

/-! ### What the user has written -/

/-- What the user has written for each key and not sent, discarded or deleted, where the user
is, and the texts that are being sent, each with the key it was sent from. -/
structure Desk where
  focus : DraftKey
  texts : DraftKey → Option String
  sends : List (DraftKey × String)

namespace Desk

open Composer

/-- The user goes to a key. -/
def go (d : Desk) (key : DraftKey) : Desk := { d with focus := key }

/-- The user edits what is shown. -/
def edit (d : Desk) (shown text : String) : Desk :=
  if d.focus ≠ .unfocused ∧ written shown = d.texts d.focus then
    { d with texts := Function.update d.texts d.focus (written text) }
  else d

/-- A text is sent from where the user is. -/
def beginSend (d : Desk) (send : Option ComposerSend) : Desk :=
  { d with sends := d.sends ++ send.toList.map fun send => (d.focus, send.text) }

/-- A send went through: its text is gone, if the user is still there and has not changed
it. -/
def sent (d : Desk) (i : ℕ) : Desk :=
  match d.sends[i]? with
  | none => d
  | some (key, text) =>
    { d with
      texts :=
        if d.focus = key ∧ (d.texts key).map Ts.trim = some text then
          Function.update d.texts key none
        else d.texts
      sends := d.sends.eraseIdx i }

/-- A send failed. -/
def unsent (d : Desk) (i : ℕ) : Desk := { d with sends := d.sends.eraseIdx i }

/-- The text of a key is discarded. -/
def discard (d : Desk) (key : DraftKey) : Desk :=
  { d with texts := Function.update d.texts key none }

/-- The draft the user is at becomes that of another project, which keeps its own text if it
has one. -/
def retarget (d : Desk) (key : DraftKey) : Desk :=
  if key = d.focus then d
  else
    { d with
      focus := key
      texts := Function.update (Function.update d.texts d.focus none) key
        ((d.texts key).or (d.texts d.focus)) }

/-- A prompt that could not be sent is the draft of a project again, if there is none. -/
def restore (d : Desk) (key : DraftKey) (text : String) : Desk :=
  { d with
    focus := key
    texts := Function.update d.texts key ((d.texts key).or (written text)) }

/-- The server shows a session.  What was typed while there was none is a text for it, if it
has none of its own. -/
def land (d : Desk) (key : DraftKey) (shown : String) : Desk :=
  { d with
    focus := key
    texts :=
      if d.focus = .unfocused then
        Function.update d.texts key ((d.texts key).or (written shown))
      else d.texts }

/-- What a step of the composer means for what the user has written.  After a new session was
asked for, and until it is shown, the user is at no key. -/
def step (d : Desk) (s : Composer) (a : Action) : Desk :=
  match a with
  | .type text => d.edit s.text text
  | .stash => d
  | .prompt .. | .submitDraft .. => d.beginSend (s.sendOf a)
  | .enqueued i true =>
    match s.sends[i]? with
    | none => d
    | some send =>
      match send.kind with
      | .prompt => d.sent i
      | .newSession => (d.sent i).go .unfocused
  | .enqueued i false => d.unsent i
  | .openSession path => d.go (s.pathKey path)
  | .startDraft cwd => d.go (.ofCwd cwd)
  | .cancelDraft => d.go (s.step a).composerDraftKey
  | .discardDraft dir => (d.discard (.project dir)).go
      (if d.focus = .project dir then (s.step a).composerDraftKey else d.focus)
  | .setDraftCwd cwd => if s.draft.isSome then d.retarget (.ofCwd cwd) else d
  | .restoreFailedDraft cwd text => d.restore (.ofCwd cwd) text
  | .bootRestore =>
    match s.draft, Ts.truthy s.activeSessionId with
    | none, some id => d.go (.session id)
    | _, _ => d
  | .seed _ => if s.draft.isSome then d else d.land (s.step a).composerDraftKey s.text
  | .sessionList .. =>
    if (s.step a).composerDraftKey = s.composerDraftKey then d
    else d.land (s.step a).composerDraftKey s.text

/-- Nothing is written yet but what is stored. -/
def boot (draftMap : PMap DraftKey String) : Desk where
  focus := .unfocused
  texts := (Composer.boot draftMap).stored
  sends := []

/-- **No text is lost or misplaced**: what is stored under each other key is what was written
for it, and the composer shows what was written where the user is, or nothing while this is
still stored. -/
structure Conserves (d : Desk) (s : Composer) : Prop where
  others : ∀ key, key ≠ .unfocused → key ≠ d.focus → s.stored key = d.texts key
  shown : d.focus ≠ .unfocused → written s.text = d.texts d.focus ∨
    written s.text = none ∧ s.stored d.focus = d.texts d.focus

/-! ### The condition -/

/-- What is stashed is the text of the key it is stashed under. -/
def Stashes (d : Desk) (s : Composer) : Prop :=
  s.composerDraftKey ≠ .unfocused → written s.text = d.texts s.composerDraftKey

/-- What was written where the user is, is stored. -/
def Stored (d : Desk) (s : Composer) : Prop :=
  d.focus ≠ .unfocused → s.stored d.focus = d.texts d.focus

/-- The composer can be left after a stash: nothing is written over, and what is not stashed
is stored. -/
def Leaves (d : Desk) (s : Composer) : Prop :=
  d.Stashes s ∧ (d.focus ≠ s.composerDraftKey → d.Stored s)

/-- Another session can be shown without a stash: the text is stored, and that of the other
session is shown, or nothing, or what was typed for none. -/
def Lands (d : Desk) (s : Composer) (key : DraftKey) : Prop :=
  key ≠ d.focus → d.Stored s ∧ (key ≠ .unfocused → written s.text = none ∨
    written s.text = d.texts key ∨ d.focus = .unfocused ∧ d.texts key = none)

/-- A step loses no text. -/
def Keeps (d : Desk) (s : Composer) (a : Action) : Prop :=
  match a with
  | .type text => d.focus ≠ .unfocused → written s.text = d.texts d.focus ∨ written text = none
  | .stash => d.Stashes s
  | .enqueued i true =>
    ∀ send, s.sends[i]? = some send →
      (s.composerDraftKey ≠ .unfocused → (d.sent i).texts s.composerDraftKey = none) ∧
        (d.focus ≠ s.composerDraftKey → (d.sent i).Stored s ∨
          send.kind = .prompt ∧ (d.sent i).texts d.focus = none)
  | .openSession _ | .startDraft _ | .cancelDraft => d.Leaves s
  | .setDraftCwd cwd =>
    s.draft.isSome → .ofCwd cwd ≠ d.focus → written s.text = d.texts d.focus ∧
      (d.texts d.focus = none ∨ d.texts (.ofCwd cwd) = none)
  | .restoreFailedDraft cwd text =>
    d.Leaves s ∧ (d.texts (.ofCwd cwd) = none ∨ d.texts (.ofCwd cwd) = written text)
  | .bootRestore => s.draft = none → Ts.truthy s.activeSessionId ≠ none → d.Stored s
  | .seed _ => s.draft = none → d.Lands s (s.step a).composerDraftKey
  | .sessionList .. =>
    (s.step a).composerDraftKey ≠ s.composerDraftKey → d.Lands s (s.step a).composerDraftKey
  | _ => True

end Desk

/-! ### Stored and shown texts -/

theorem written_eq_some {text t : String} (h : written text = some t) :
    t = text ∧ written t = some t := by
  have heq := h
  unfold written at heq
  split_ifs at heq with hblank
  cases heq
  exact ⟨rfl, h⟩

theorem written_empty : written "" = none := by decide

namespace Composer

variable (s : Composer) (key : DraftKey)

@[simp] theorem stashDraft_text : s.stashDraft.text = s.text := rfl

theorem stored_congr {s s' : Composer} (h : s'.draftMap = s.draftMap) (key : DraftKey) :
    s'.stored key = s.stored key := by
  rw [stored, stored, h]

/-- A stash stores what is shown under the key of the moment, and nothing else. -/
theorem stored_stashDraft : s.stashDraft.stored key =
    if key = s.composerDraftKey then written s.text else s.stored key := by
  unfold stored stashDraft
  cases hwritten : written s.text with
  | none =>
    dsimp only
    rw [PMap.erase_apply]
    split_ifs <;> rfl
  | some t =>
    dsimp only
    rw [PMap.insert_apply]
    split_ifs
    · rw [Option.bind_some]
      exact (written_eq_some hwritten).2
    · rfl

theorem stored_clearStoredDraft (other : DraftKey) : (s.clearStoredDraft key).stored other =
    if other = key then none else s.stored other := by
  unfold stored clearStoredDraft
  dsimp only
  rw [PMap.erase_apply]
  split_ifs <;> rfl

/-- What is loaded is what is stored. -/
theorem written_loadDraft : written (s.loadDraft key).text = s.stored key := by
  unfold loadDraft stored
  dsimp only
  cases s.draftMap key with
  | none => exact written_empty
  | some t => rw [Option.getD_some, Option.bind_some]

end Composer

theorem DraftKey.ofCwd_ne_unfocused (cwd : String) : ofCwd cwd ≠ unfocused := DraftKey.noConfusion

theorem DraftKey.ofSession_ne_project (id : Option SessionId) (dir : String) :
    ofSession id ≠ project dir := by
  unfold ofSession
  split
  · exact DraftKey.noConfusion
  · exact DraftKey.noConfusion

namespace Composer

variable {s : Composer}

theorem composerDraftKey_of_some {cwd : String} (h : s.draft = some cwd) :
    s.composerDraftKey = .ofCwd cwd := by
  rw [composerDraftKey, h]

theorem composerDraftKey_of_none (h : s.draft = none) :
    s.composerDraftKey = .ofSession (s.ref.or s.activeSessionId) := by
  rw [composerDraftKey, h]

end Composer

namespace Desk

open Composer

-- no step depends on what white space is
attribute [local irreducible] written DraftKey.ofCwd DraftKey.ofSession

variable {d : Desk} {s : Composer}

/-! ### One step -/

/-- The invariant: no text is lost or misplaced, and while there is a draft the user is at
its key. -/
structure Sound (d : Desk) (s : Composer) : Prop where
  conserves : d.Conserves s
  drafting : s.draft ≠ none → d.focus = s.composerDraftKey
  reading : s.draft = none → ∀ dir, d.focus ≠ .project dir

/-- After the stash with which the composer is left everything is stored. -/
theorem Conserves.stored_stashDraft (h : d.Conserves s) (hleaves : d.Leaves s) {key : DraftKey}
    (hkey : key ≠ .unfocused) : s.stashDraft.stored key = d.texts key := by
  rw [Composer.stored_stashDraft]
  split_ifs with heq
  · subst heq
    exact hleaves.1 hkey
  · by_cases hfocus : key = d.focus
    · subst hfocus
      exact hleaves.2 heq hkey
    · exact h.others key hkey hfocus

/-- Where everything is stored, the user can go anywhere. -/
theorem conserves_loadDraft (hstored : ∀ key, key ≠ .unfocused → s.stored key = d.texts key)
    (key : DraftKey) : (d.go key).Conserves (s.loadDraft key) where
  others := fun key hkey _ => hstored key hkey
  shown := fun hkey => .inl ((written_loadDraft s key).trans (hstored key hkey))

/-- A step that leaves the texts, the key and the user where they are. -/
theorem Sound.congr (h : d.Sound s) {d' : Desk} {s' : Composer} (hfocus : d'.focus = d.focus)
    (htexts : d'.texts = d.texts) (htext : s'.text = s.text) (hmap : s'.draftMap = s.draftMap)
    (hdraft : s'.draft = s.draft)
    (hkey : s.draft ≠ none → s'.composerDraftKey = s.composerDraftKey) : d'.Sound s' := by
  have hstored : ∀ key, s'.stored key = s.stored key := stored_congr hmap
  refine ⟨⟨fun key hne hother => ?_, ?_⟩, fun hsome => ?_, ?_⟩
  · rw [hstored, htexts]
    exact h.conserves.others key hne (hfocus ▸ hother)
  · rw [hfocus, htexts, htext, hstored]
    exact h.conserves.shown
  · rw [hdraft] at hsome
    rw [hfocus, hkey hsome]
    exact h.drafting hsome
  · rw [hdraft, hfocus]
    exact h.reading

theorem Sound.type (h : d.Sound s) (text : String) (hkeep : d.Keeps s (.type text)) :
    (d.step s (.type text)).Sound (s.step (.type text)) := by
  unfold Desk.step edit
  dsimp only
  -- the user edits what is written there, or leaves blank what is not shown
  split_ifs with hshown
  · refine ⟨⟨fun key hkey hne => ?_, fun _ => .inl ?_⟩, h.drafting, h.reading⟩
    · dsimp only at hne ⊢
      rw [Function.update_of_ne hne]
      exact h.conserves.others key hkey hne
    · exact (Function.update_self d.focus _ d.texts).symm
  · refine ⟨⟨h.conserves.others, fun hfocus => .inr ?_⟩, h.drafting, h.reading⟩
    have hhidden : written s.text ≠ d.texts d.focus := fun heq => hshown ⟨hfocus, heq⟩
    exact ⟨(hkeep hfocus).resolve_left hhidden,
      ((h.conserves.shown hfocus).resolve_left hhidden).2⟩

theorem Sound.stash (h : d.Sound s) (hkeep : d.Stashes s) : d.Sound s.stashDraft := by
  refine ⟨⟨fun key hkey hne => ?_, ?_⟩, h.drafting, h.reading⟩
  · -- the key of the moment need not be where the user is
    rw [Composer.stored_stashDraft]
    split_ifs with heq
    · subst heq
      exact hkeep hkey
    · exact h.conserves.others key hkey hne
  · rw [Composer.stored_stashDraft, stashDraft_text]
    intro hfocus
    split_ifs with heq
    · rw [heq] at hfocus ⊢
      exact .inl (hkeep hfocus)
    · exact h.conserves.shown hfocus

/-- Going to a session or to a draft. -/
theorem Sound.leave (h : d.Sound s) (hkeep : d.Leaves s) (draft : Option String)
    {key : DraftKey} (hdrafting : ∀ cwd, draft = some cwd → key = .ofCwd cwd)
    (hreading : draft = none → ∀ dir, key ≠ .project dir) :
    (d.go key).Sound ({ s.stashDraft with draft := draft }.loadDraft key) := by
  refine ⟨conserves_loadDraft (fun key hkey => ?_) key, fun hdraft => ?_, hreading⟩
  · exact (stored_congr (s := s.stashDraft) rfl key).trans
      (h.conserves.stored_stashDraft hkeep hkey)
  · obtain ⟨cwd, hcwd⟩ := Option.ne_none_iff_exists'.mp hdraft
    rw [composerDraftKey_of_some hcwd]
    exact hdrafting cwd hcwd

theorem Sound.openSession (h : d.Sound s) (hkeep : d.Leaves s) (path : String) :
    (d.go (s.pathKey path)).Sound (s.openSession path) :=
  h.leave hkeep none nofun fun _ dir => DraftKey.ofSession_ne_project _ dir

theorem Sound.startDraft (h : d.Sound s) (hkeep : d.Leaves s) (cwd : String) :
    (d.go (.ofCwd cwd)).Sound (s.startDraft cwd) := by
  refine h.leave hkeep (some cwd) ?_ nofun
  rintro cwd' ⟨⟩
  rfl

theorem Sound.cancelDraft (h : d.Sound s) (hkeep : d.Leaves s) :
    (d.go s.cancelDraft.composerDraftKey).Sound s.cancelDraft :=
  h.leave hkeep none nofun fun _ dir => DraftKey.ofSession_ne_project _ dir

/-- The user is at the draft of a project exactly when it is the draft that is composed. -/
theorem Sound.focus_eq_project_iff (h : d.Sound s) (dir : String) :
    d.focus = .project dir ↔ s.draft.isSome ∧ s.composerDraftKey = .project dir := by
  cases hdraft : s.draft with
  | none => exact iff_of_false (h.reading hdraft dir) fun hactive => nomatch hactive.1
  | some cwd =>
    rw [h.drafting (by rw [hdraft]; exact Option.some_ne_none cwd)]
    exact (and_iff_right rfl).symm

theorem Sound.discardDraft (h : d.Sound s) (dir : String) :
    (d.step s (.discardDraft dir)).Sound (s.discardDraft dir) := by
  have hothers : ∀ key, key ≠ .unfocused → key ≠ d.focus →
      (s.clearStoredDraft (.project dir)).stored key = (d.discard (.project dir)).texts key := by
    intro key hkey hne
    unfold discard
    dsimp only
    rw [stored_clearStoredDraft, Function.update_apply]
    split_ifs
    · rfl
    · exact h.conserves.others key hkey hne
  unfold Desk.step
  dsimp only [Composer.step]
  by_cases hactive : d.focus = .project dir
  · -- the draft that is composed: its text is dropped with it
    have hcomposed := (h.focus_eq_project_iff dir).mp hactive
    unfold Composer.discardDraft
    rw [if_pos hactive]
    dsimp only
    rw [if_pos hcomposed]
    refine ⟨conserves_loadDraft (fun key hkey => ?_) _, fun hdraft => absurd rfl hdraft, ?_⟩
    · refine (stored_congr (s := s.clearStoredDraft (.project dir)) rfl key).trans ?_
      by_cases hne : key = d.focus
      · subst hne
        rw [hactive]
        refine (stored_clearStoredDraft s _ _).trans ((if_pos rfl).trans ?_)
        exact (Function.update_self (DraftKey.project dir) none d.texts).symm
      · exact hothers key hkey hne
    · exact fun _ dir => DraftKey.ofSession_ne_project _ dir
  · have hother : ¬(s.draft.isSome ∧ s.composerDraftKey = .project dir) :=
      fun hcomposed => hactive ((h.focus_eq_project_iff dir).mpr hcomposed)
    unfold Composer.discardDraft
    rw [if_neg hactive]
    dsimp only
    rw [if_neg hother]
    refine ⟨⟨hothers, fun hfocus => ?_⟩, h.drafting, h.reading⟩
    have htext : (d.discard (.project dir)).texts d.focus = d.texts d.focus :=
      Function.update_of_ne hactive _ _
    have hstored : (s.clearStoredDraft (.project dir)).stored d.focus = s.stored d.focus := by
      rw [stored_clearStoredDraft, if_neg hactive]
    rcases h.conserves.shown hfocus with hshown | ⟨hblank, hhidden⟩
    · exact .inl (hshown.trans htext.symm)
    · exact .inr ⟨hblank, (hstored.trans hhidden).trans htext.symm⟩

theorem Sound.setDraftCwd (h : d.Sound s) (cwd : String) (hkeep : d.Keeps s (.setDraftCwd cwd)) :
    (d.step s (.setDraftCwd cwd)).Sound (s.setDraftCwd cwd) := by
  unfold Desk.step Composer.setDraftCwd
  dsimp only
  cases hdraft : s.draft with
  | none => exact h
  | some cwd' =>
    have hfocus : d.focus = s.composerDraftKey :=
      h.drafting (by rw [hdraft]; exact Option.some_ne_none cwd')
    have hnew : Composer.composerDraftKey { s with draft := some cwd } = .ofCwd cwd := rfl
    rw [Option.isSome_some, if_pos rfl]
    dsimp only
    rw [hnew]
    unfold retarget
    by_cases hsame : .ofCwd cwd = d.focus
    · rw [if_pos hsame, if_neg (by rw [← hfocus, hsame]; exact not_not_intro rfl)]
      exact ⟨⟨h.conserves.others, h.conserves.shown⟩, fun _ => hsame.symm, nofun⟩
    · rw [if_neg hsame, if_pos (by rw [← hfocus]; exact fun heq => hsame heq.symm)]
      obtain ⟨hshown, hfree⟩ := hkeep (by rw [hdraft]; rfl) hsame
      refine ⟨⟨fun key hkey hne => ?_, fun _ => ?_⟩, fun _ => rfl, nofun⟩
      · dsimp only at hne ⊢
        rw [Function.update_of_ne hne, ← hfocus]
        refine (stored_clearStoredDraft _ _ _).trans ?_
        split_ifs with hold
        · rw [hold, Function.update_self]
        · rw [Function.update_of_ne hold]
          exact h.conserves.others key hkey hold
      · dsimp only
        rw [Function.update_self, ← hfocus]
        rcases hfree with hnone | hnone
        · -- nothing is taken along, and what the other project has is stored
          refine .inr ⟨hshown.trans hnone, ?_⟩
          refine (stored_clearStoredDraft _ _ _).trans ?_
          rw [if_neg hsame, hnone, Option.or_none]
          exact h.conserves.others _ (DraftKey.ofCwd_ne_unfocused cwd) hsame
        · rw [hnone, Option.none_or]
          exact .inl hshown

theorem Sound.restoreFailedDraft (h : d.Sound s) (cwd text : String)
    (hkeep : d.Keeps s (.restoreFailedDraft cwd text)) :
    (d.restore (.ofCwd cwd) text).Sound (s.restoreFailedDraft cwd text) := by
  obtain ⟨hleaves, hfree⟩ := hkeep
  have htext : (d.restore (.ofCwd cwd) text).texts (.ofCwd cwd) = written text := by
    refine (Function.update_self _ _ _).trans ?_
    rcases hfree with hnone | hsame
    · rw [hnone, Option.none_or]
    · rw [hsame, Option.or_self]
  -- the first stash is of where the user was, the second of the project
  refine ⟨⟨fun key hkey hne => ?_, fun _ => .inl htext.symm⟩, fun _ => rfl, nofun⟩
  refine (Composer.stored_stashDraft _ _).trans ((if_neg hne).trans ?_)
  refine (h.conserves.stored_stashDraft hleaves hkey).trans ?_
  exact (Function.update_of_ne hne _ _).symm

theorem Sound.bootRestore (h : d.Sound s) (hkeep : d.Keeps s .bootRestore) :
    (d.step s .bootRestore).Sound s.bootRestore := by
  unfold Desk.step Composer.bootRestore
  dsimp only
  cases hdraft : s.draft with
  | some cwd => exact h
  | none =>
    cases hactive : Ts.truthy s.activeSessionId with
    | none => exact h
    | some id =>
      dsimp only
      have hfocus : d.Stored s := hkeep hdraft (by rw [hactive]; exact Option.some_ne_none id)
      refine ⟨conserves_loadDraft (fun key hkey => ?_) _, ?_, fun _ => nofun⟩
      · by_cases hne : key = d.focus
        · subst hne
          exact hfocus hkey
        · exact h.conserves.others key hkey hne
      · exact fun hsome => absurd hdraft hsome

/-- Another session is shown, without a stash. -/
theorem Sound.land (h : d.Sound s) {s' : Composer} (htext : s'.text = s.text)
    (hmap : s'.draftMap = s.draftMap) (hdraft : s'.draft = none)
    (hkeep : d.Lands s s'.composerDraftKey) :
    (d.land s'.composerDraftKey s.text).Sound s' := by
  have hstored : ∀ key, s'.stored key = s.stored key := stored_congr hmap
  have hreading : ∀ dir, s'.composerDraftKey ≠ .project dir := by
    intro dir
    rw [composerDraftKey_of_none hdraft]
    exact DraftKey.ofSession_ne_project _ dir
  generalize s'.composerDraftKey = key at hkeep hreading
  refine ⟨?_, fun hsome => absurd hdraft hsome, fun _ => hreading⟩
  by_cases hsame : key = d.focus
  · -- where the user is already
    have hland : ∀ other, other ≠ .unfocused → (d.land key s.text).texts other = d.texts other := by
      intro other hother
      unfold Desk.land
      dsimp only
      split_ifs with hnone
      · exact Function.update_of_ne (fun heq => hother (heq.trans (hsame.trans hnone))) _ _
      · rfl
    refine ⟨fun other hother hne => ?_, fun hfocus => ?_⟩
    · rw [hstored, hland other hother]
      exact h.conserves.others other hother (hsame ▸ hne)
    · have hfocus' : key ≠ .unfocused := hfocus
      change written s'.text = (d.land key s.text).texts key ∨
        written s'.text = none ∧ s'.stored key = (d.land key s.text).texts key
      rw [htext, hstored, hland key hfocus', hsame]
      exact h.conserves.shown (hsame ▸ hfocus')
  · obtain ⟨hput, hshown⟩ := hkeep hsame
    refine ⟨fun other hother hne => ?_, fun hfocus => ?_⟩
    · have hne' : other ≠ key := hne
      have htexts : (d.land key s.text).texts other = d.texts other := by
        unfold Desk.land
        dsimp only
        split_ifs
        · exact Function.update_of_ne hne' _ _
        · rfl
      rw [hstored, htexts]
      by_cases hleft : other = d.focus
      · subst hleft
        exact hput hother
      · exact h.conserves.others other hother hleft
    · have hfocus' : key ≠ .unfocused := hfocus
      have hin : s.stored key = d.texts key := h.conserves.others key hfocus' hsame
      change written s'.text = (d.land key s.text).texts key ∨
        written s'.text = none ∧ s'.stored key = (d.land key s.text).texts key
      have htexts : (d.land key s.text).texts key =
          if d.focus = .unfocused then (d.texts key).or (written s.text) else d.texts key := by
        unfold Desk.land
        dsimp only
        split_ifs
        · exact Function.update_self _ _ _
        · rfl
      rw [htext, hstored, htexts, hin]
      rcases hshown hfocus' with hblank | hsame | ⟨hnowhere, hfree⟩
      · rw [hblank, Option.or_none, ite_self]
        exact .inr ⟨rfl, rfl⟩
      · rw [hsame, Option.or_self, ite_self]
        exact .inl rfl
      · rw [if_pos hnowhere, hfree, Option.none_or]
        exact .inl rfl

theorem sent_focus (d : Desk) (i : ℕ) : (d.sent i).focus = d.focus := by
  unfold sent
  split
  · rfl
  · rfl

/-- A send takes away at most the text of where the user is. -/
theorem sent_texts_of_ne (d : Desk) (i : ℕ) {key : DraftKey} (hne : key ≠ d.focus) :
    (d.sent i).texts key = d.texts key := by
  unfold sent
  split
  · rfl
  · dsimp only
    split_ifs with hhere
    · exact Function.update_of_ne (fun heq => hne (heq.trans hhere.1.symm)) _ _
    · rfl

theorem Sound.enqueued (h : d.Sound s) (i : ℕ) (ok : Bool) (hkeep : d.Keeps s (.enqueued i ok)) :
    (d.step s (.enqueued i ok)).Sound (s.enqueued i ok) := by
  unfold Composer.enqueued
  cases ok with
  | false =>
    cases hsend : s.sends[i]? with
    | none => exact h.congr rfl rfl rfl rfl rfl fun _ => rfl
    | some send => exact h.congr rfl rfl rfl rfl rfl fun _ => rfl
  | true =>
    unfold Desk.step
    dsimp only
    cases hsend : s.sends[i]? with
    | none => exact h
    | some send =>
      obtain ⟨hkey, hfocus⟩ := hkeep send hsend
      -- what is stored afterwards, except where the user is
      have hothers : ∀ key, key ≠ .unfocused → key ≠ d.focus →
          (s.clearStoredDraft s.composerDraftKey).stored key = (d.sent i).texts key := by
        intro key hne hother
        rw [stored_clearStoredDraft]
        split_ifs with heq
        · subst heq
          exact (hkey hne).symm
        · rw [sent_texts_of_ne d i hother]
          exact h.conserves.others key hne hother
      dsimp only [if_true]
      cases hkind : send.kind with
      | prompt =>
        refine ⟨⟨fun key hne hother => hothers key hne (sent_focus d i ▸ hother), ?_⟩, ?_, ?_⟩
        · rw [sent_focus]
          intro hne
          by_cases hhere : d.focus = s.composerDraftKey
          · rw [hhere] at hne ⊢
            exact .inl (written_empty.trans (hkey hne).symm)
          · rcases hfocus hhere with hstored | ⟨-, hnone⟩
            · have hin := hstored (by rwa [sent_focus])
              rw [sent_focus] at hin
              exact .inr ⟨written_empty,
                (stored_clearStoredDraft s _ _).trans ((if_neg hhere).trans hin)⟩
            · exact .inl (written_empty.trans hnone.symm)
        · rw [sent_focus]
          exact h.drafting
        · rw [sent_focus]
          exact h.reading
      | newSession =>
        refine ⟨⟨fun key hne _ => ?_, fun hnone => absurd rfl hnone⟩, fun hnone => absurd rfl hnone,
          fun _ => nofun⟩
        by_cases hother : key = d.focus
        · subst hother
          by_cases hhere : d.focus = s.composerDraftKey
          · refine (stored_clearStoredDraft s _ _).trans ((if_pos hhere).trans ?_)
            rw [hhere] at hne ⊢
            exact (hkey hne).symm
          · rcases hfocus hhere with hstored | ⟨hprompt, -⟩
            · have hin := hstored (by rwa [sent_focus])
              rw [sent_focus] at hin
              exact (stored_clearStoredDraft s _ _).trans ((if_neg hhere).trans hin)
            · rw [hkind] at hprompt
              cases hprompt
        · exact hothers key hne hother

/-- One step keeps the invariant. -/
theorem Sound.step (h : d.Sound s) {a : Action} (hkeep : d.Keeps s a) :
    (d.step s a).Sound (s.step a) := by
  cases a with
  | type text => exact h.type text hkeep
  | stash => exact h.stash hkeep
  | prompt text images turnActive =>
    exact h.congr rfl rfl rfl rfl rfl fun _ => rfl
  | submitDraft text images =>
    exact h.congr rfl rfl rfl rfl rfl fun _ => rfl
  | enqueued i ok => exact h.enqueued i ok hkeep
  | openSession path => exact h.openSession hkeep path
  | startDraft cwd => exact h.startDraft hkeep cwd
  | cancelDraft => exact h.cancelDraft hkeep
  | discardDraft dir => exact h.discardDraft dir
  | setDraftCwd cwd => exact h.setDraftCwd cwd hkeep
  | restoreFailedDraft cwd text => exact h.restoreFailedDraft cwd text hkeep
  | bootRestore => exact h.bootRestore hkeep
  | seed ref =>
    unfold Desk.step
    dsimp only
    cases hdraft : s.draft with
    | none => exact h.land rfl rfl hdraft (hkeep hdraft)
    | some cwd =>
      -- the key is that of the draft, before and after
      have hafter : (s.step (.seed ref)).draft = some cwd := hdraft
      refine h.congr rfl rfl rfl rfl rfl fun _ => ?_
      rw [composerDraftKey_of_some hafter, composerDraftKey_of_some hdraft]
  | sessionList sessions activeSessionId =>
    unfold Desk.step
    dsimp only
    split_ifs with hsame
    · exact h.congr rfl rfl rfl rfl rfl fun _ => hsame
    · refine h.land rfl rfl ?_ (hkeep hsame)
      by_contra hsome
      obtain ⟨cwd, hcwd⟩ := Option.ne_none_iff_exists'.mp hsome
      have hdraft : s.draft = some cwd := hcwd
      exact hsame ((composerDraftKey_of_some hcwd).trans (composerDraftKey_of_some hdraft).symm)

end Desk

/-! ### Runs -/

/-- A composer, with what the user has written. -/
structure Writing where
  composer : Composer
  desk : Desk

namespace Writing

open Composer

/-- One step. -/
def step (w : Writing) (a : Action) : Writing := ⟨w.composer.step a, w.desk.step w.composer a⟩

/-- A run. -/
def run (w : Writing) (acts : List Action) : Writing := acts.foldl step w

/-- The page has loaded, with the stored drafts. -/
def boot (draftMap : PMap DraftKey String) : Writing := ⟨.boot draftMap, .boot draftMap⟩

/-- A step loses no text. -/
def Keeps (w : Writing) (a : Action) : Prop := w.desk.Keeps w.composer a

theorem sound_boot (draftMap : PMap DraftKey String) :
    (boot draftMap).desk.Sound (boot draftMap).composer where
  conserves := ⟨fun _ _ _ => rfl, fun hnone => absurd rfl hnone⟩
  drafting := fun hnone => absurd rfl hnone
  reading := fun _ => nofun

/-- **In a run whose steps all keep what is written no text is lost or misplaced**, after
every part of the run. -/
theorem conserves_of_keeps (draftMap : PMap DraftKey String) (acts : List Action)
    (h : Along step Keeps (boot draftMap) acts) :
    ∀ pre, pre <+: acts →
      ((boot draftMap).run pre).desk.Conserves ((boot draftMap).run pre).composer := by
  rintro pre ⟨rest, rfl⟩
  have hsound := Along.foldl_invariant (I := fun w : Writing => w.desk.Sound w.composer)
    (fun w a hw hkeep => hw.step hkeep) (sound_boot draftMap) h.of_append
  exact hsound.conserves

/-- Two sessions are listed, and the first is shown. -/
def shown : List Action := [.sessionList [("pa", "a"), ("pb", "b")] (some "a"), .seed (some "a")]

/-- Notes are left in one session, and a prompt is sent in another. -/
theorem conserves_of_keeps_switched :
    let w := (boot .empty).run (shown ++ [.type "notes", .openSession "pb", .seed (some "b"),
      .type "hi", .prompt "hi" false false, .enqueued 0 true, .openSession "pa"])
    w.desk.Conserves w.composer := by
  refine conserves_of_keeps .empty _ ?_ _ (List.prefix_refl _)
  refine ⟨?_, ?_, ?_, ?_, ?_, ?_, trivial, ?_, ?_, trivial⟩
  · exact fun _ _ => ⟨fun hfocus => absurd rfl hfocus, fun _ => .inl written_empty⟩
  · exact fun _ hother => absurd rfl hother
  · exact fun _ => .inl written_empty
  · exact ⟨fun _ => rfl, fun hother => absurd rfl hother⟩
  · exact fun _ hother => absurd rfl hother
  · exact fun _ => .inl written_empty
  · rintro send -
    exact ⟨fun _ => rfl, fun hother => absurd rfl hother⟩
  · exact ⟨fun _ => rfl, fun hother => absurd rfl hother⟩

/-! ### The divergence -/

/-- **Text is lost.**  The notes of a session are erased by the stash that follows a pause,
when another session was opened and its seed has not come; what is typed after a prompt was
sent is cleared when its save is through; and the notes of a session are erased when it is
opened again after a new session was asked for. -/
theorem not_conserves :
    let opened := (boot .empty).run (shown ++ [.type "notes", .openSession "pb", .stash])
    let typed := (boot .empty).run (shown ++
      [.type "hi", .prompt "hi" false false, .type "hi, and", .enqueued 0 true])
    let submitted := (boot .empty).run (shown ++ [.type "notes", .startDraft "dir", .type "hi",
      .submitDraft "hi" false, .enqueued 0 true, .openSession "pa"])
    (opened.desk.texts (.session "a") = some "notes" ∧
        opened.composer.stored (.session "a") = none ∧ ¬opened.desk.Conserves opened.composer) ∧
      (typed.desk.texts (.session "a") = some "hi, and" ∧ typed.composer.text = "" ∧
        typed.composer.stored (.session "a") = none ∧ ¬typed.desk.Conserves typed.composer) ∧
      submitted.desk.texts (.session "a") = some "notes" ∧ submitted.composer.text = "" ∧
        submitted.composer.stored (.session "a") = none ∧
        ¬submitted.desk.Conserves submitted.composer := by
  intro opened typed submitted
  have hopened : opened.desk.texts (.session "a") = some "notes" ∧
      opened.composer.stored (.session "a") = none := by decide
  have htyped : typed.desk.texts (.session "a") = some "hi, and" ∧ typed.composer.text = "" ∧
      typed.composer.stored (.session "a") = none := by decide
  have hsubmitted : submitted.desk.texts (.session "a") = some "notes" ∧
      submitted.composer.text = "" ∧ submitted.composer.stored (.session "a") = none := by decide
  refine ⟨⟨hopened.1, hopened.2, fun h => ?_⟩, ⟨htyped.1, htyped.2.1, htyped.2.2, fun h => ?_⟩,
    hsubmitted.1, hsubmitted.2.1, hsubmitted.2.2, fun h => ?_⟩
  · have hkept := h.others (.session "a") (by decide) (by decide)
    rw [hopened.1, hopened.2] at hkept
    cases hkept
  · have hfocus : typed.desk.focus = .session "a" := by decide
    rcases h.shown (by rw [hfocus]; exact DraftKey.noConfusion) with hkept | ⟨-, hkept⟩
    · rw [hfocus, htyped.1, htyped.2.1, written_empty] at hkept
      cases hkept
    · rw [hfocus, htyped.1, htyped.2.2] at hkept
      cases hkept
  · have hfocus : submitted.desk.focus = .session "a" := by decide
    rcases h.shown (by rw [hfocus]; exact DraftKey.noConfusion) with hkept | ⟨-, hkept⟩
    · rw [hfocus, hsubmitted.1, hsubmitted.2.1, written_empty] at hkept
      cases hkept
    · rw [hfocus, hsubmitted.1, hsubmitted.2.2] at hkept
      cases hkept

end Writing

end Pantoken
