import Mathlib.Data.List.Perm.Basic
import Pantoken.Client.Outbox
import Pantoken.Lib.Run

/-!
# The outbox and its database

The prompts in memory and those in the browser's database are kept the same by operations
that each wait for a transaction between what they read and what they write.  Transactions
take effect in the order they were made, and each operation goes on when its own is through;
in between anything else can happen: a result, a hello of another server, a switch of the
host, a click.

## Main definitions

* `OutboxTask`, `OutboxTask.op` — an operation that waits, and its transaction.
* `Outbox`, `Outbox.step` — the prompts in memory, the database, and what is under way.
* `Recorded` — an outbox with what has happened to the prompts so far.
* `Recorded.Intact` — no prompt is doubled, misplaced, dropped or brought back.
* `Recorded.Keeps` — the condition under which a step keeps it so.

## Main results

* `intact_of_keeps` — **in a run whose steps all meet the condition the outbox is intact**,
  after every part of it.
* `not_intact` — a switch of the host, a retry and a flush at the wrong time.
-/

namespace Pantoken

/-! ### The database -/

/-- How entries are ordered by their times of creation, which depends on the locale. -/
structure CreationOrder where
  sort : List PendingPrompt → List PendingPrompt
  perm : ∀ l, (sort l).Perm l

instance : Inhabited CreationOrder := ⟨⟨id, .refl⟩⟩

/-- The prompt ids of some entries. -/
def promptIds (l : List PendingPrompt) : List String := l.map (·.promptId)

/-- `Map.set`, and the `put` of the object store: the entry with the key is replaced. -/
def setById (l : List PendingPrompt) (p : PendingPrompt) : List PendingPrompt :=
  if p.promptId ∈ promptIds l then l.map fun q => if q.promptId = p.promptId then p else q
  else l ++ [p]

/-- Take the entries with a prompt id away. -/
def removeById (l : List PendingPrompt) (promptId : String) : List PendingPrompt :=
  l.filter (·.promptId ≠ promptId)

/-- `toPlainPrompt`, which leaves out `midTurn`. -/
def toPlainPrompt (p : PendingPrompt) : PendingPrompt := { p with midTurn := none }

/-- `loadPendingPrompts`, of what the object store holds. -/
def loadPendingPrompts (order : CreationOrder) (idb : List PendingPrompt) (serverId : String) :
    List PendingPrompt :=
  order.sort ((idb.filter (·.serverId = serverId)).map fun p =>
    { p with state := if p.state = .sending then .queued else p.state })

/-- A transaction on the object store. -/
inductive StoreOp where
  | load (serverId : String)
  | save (p : PendingPrompt)
  | delete (promptId : String)

/-- How a transaction ended. -/
inductive Outcome where
  | failed
  | done
  | loaded (l : List PendingPrompt)

/-- What a transaction does that is not aborted. -/
def StoreOp.effect (order : CreationOrder) (idb : List PendingPrompt) :
    StoreOp → List PendingPrompt × Outcome
  | .load serverId => (idb, .loaded (loadPendingPrompts order idb serverId))
  | .save p => (setById idb (toPlainPrompt p), .done)
  | .delete promptId => (removeById idb promptId, .done)

/-! ### What waits -/

/-- An operation that waits for its transaction. -/
inductive OutboxTask where
  | hydrate (serverId : String)
  /-- The save of `sendPendingPrompt`, which nothing waits for. -/
  | update (p : PendingPrompt)
  /-- `enqueuePrompt`, on behalf of a retry or not. -/
  | enqueue (p : PendingPrompt) (retried : Option PendingPrompt)
  /-- The deletion of a prompt that was accepted. -/
  | accepted (promptId : String)
  | stranded (p : PendingPrompt)
  | rejected (p : PendingPrompt)
  /-- The deletion of `restoreFailedDraft`. -/
  | restored (promptId : String)
  | retry (old : PendingPrompt)
  /-- The old entry of a retry that could not be enqueued. -/
  | requeue (old : PendingPrompt)
  | edit (old : PendingPrompt)

/-- The transaction of an operation. -/
def OutboxTask.op : OutboxTask → StoreOp
  | .hydrate serverId => .load serverId
  | .update p | .enqueue p _ | .stranded p | .rejected p | .requeue p => .save p
  | .accepted promptId | .restored promptId => .delete promptId
  | .retry old | .edit old => .delete old.promptId

/-- The part of the client's store that keeps the outbox, with the database behind it. -/
structure Outbox where
  serverId : Option String
  /-- `loadLastServerId()` -/
  lastServerId : Option String
  /-- `hydratedOutboxServerId` -/
  hydrated : Option String
  connected : Bool
  socketOpen : Bool
  /-- `pendingPrompts` -/
  prompts : List PendingPrompt
  /-- The offers to restore a prompt that are on screen. -/
  offers : List PendingPrompt
  sent : List ClientMessage
  idb : List PendingPrompt
  /-- The operations whose transactions have not taken effect. -/
  issued : List OutboxTask
  /-- Those whose transactions have, and that have not gone on. -/
  settled : List (OutboxTask × Outcome)

/-- What a new entry gets: its id and time, and whether a turn is active. -/
structure Stamp where
  promptId : String
  createdAt : String
  midTurn : Bool

namespace Outbox

/-- Make a transaction and wait for it. -/
def issue (s : Outbox) (t : OutboxTask) : Outbox := { s with issued := s.issued ++ [t] }

/-- The entry in memory with a prompt id. -/
def entry (s : Outbox) (promptId : String) : Option PendingPrompt :=
  s.prompts.find? (·.promptId = promptId)

/-- Edit the entries with a prompt id. -/
def mapEntry (s : Outbox) (promptId : String) (f : PendingPrompt → PendingPrompt) : Outbox :=
  { s with prompts := s.prompts.map fun q => if q.promptId = promptId then f q else q }

/-- Whether a message that is sent leaves. -/
def sendState (s : Outbox) : PendingState := if s.socketOpen then .sending else .queued

/-- `sendPendingPrompt` -/
def sendPendingPrompt (s : Outbox) (promptId : String) : Outbox :=
  match s.entry promptId with
  | none => s
  | some p =>
    if p.state = .rejected then s
    else
      let s := { s with sent := if s.socketOpen then s.sent ++ [p.message] else s.sent }
      if p.state = s.sendState then s
      else
        (s.mapEntry promptId fun q => { q with state := s.sendState }).issue
          (.update { p with state := s.sendState })

/-- `flushOutbox`, over the entries there are when it begins. -/
def flushOutbox (s : Outbox) : Outbox :=
  if s.connected then
    s.prompts.foldl (fun s' p =>
      if p.state ≠ .rejected ∧ s'.serverId = some p.serverId then s'.sendPendingPrompt p.promptId
      else s') s
  else s

/-- `hydrateOutbox`, up to where it waits. -/
def hydrateOutbox (s : Outbox) (serverId : String) : Outbox :=
  if s.hydrated = some serverId then s.flushOutbox else s.issue (.hydrate serverId)

/-- The entries of a server in memory, and the stored ones that are not among them. -/
def mergeLive (serverId : String) (live stored : List PendingPrompt) : List PendingPrompt :=
  stored.foldl (fun m p => if p.promptId ∈ promptIds m then m else setById m p)
    ((live.filter (·.serverId = serverId)).foldl setById [])

/-- `hydrateOutbox`, with what was loaded. -/
def hydrateLoaded (order : CreationOrder) (s : Outbox) (serverId : String)
    (stored : List PendingPrompt) : Outbox :=
  flushOutbox
    { s with
      prompts := order.sort (mergeLive serverId s.prompts stored)
      hydrated := some serverId }

/-- A retry whose prompt could not be enqueued saves the old entry. -/
def enqueueFailed (s : Outbox) : Option PendingPrompt → Outbox
  | some old => s.issue (.requeue old)
  | none => s

/-- `enqueuePrompt`, up to where it waits. -/
def enqueuePrompt (s : Outbox) (p : PendingPrompt) (stamp : Stamp)
    (retried : Option PendingPrompt) : Outbox :=
  match Ts.truthy (s.serverId.or s.lastServerId) with
  | none => s.enqueueFailed retried
  | some serverId =>
    s.issue
      (.enqueue
        { p with
          promptId := stamp.promptId
          serverId := serverId
          midTurn := some (stamp.midTurn && p.kind = .prompt)
          createdAt := stamp.createdAt
          state := .queued
          error := none } retried)

/-- `restoreFailedDraft`, up to where it waits. -/
def restoreFailedDraft (s : Outbox) (promptId : String) : Outbox := s.issue (.restored promptId)

/-- `settlePrompt`, up to where it waits. -/
def settlePrompt (s : Outbox) (result : PromptResult) (competingDraft : Bool) : Outbox :=
  match s.entry result.promptId with
  | none => s
  | some p =>
    match Pantoken.settlePrompt none p result competingDraft with
    | .deleted => s.issue (.accepted result.promptId)
    | .restored _ p => s.restoreFailedDraft p.promptId
    | .stranded q => (s.mapEntry result.promptId fun _ => q).issue (.stranded q)
    | .rejected q => (s.mapEntry result.promptId fun _ => q).issue (.rejected q)

/-- The rejected entry in memory with a prompt id. -/
def rejectedEntry (s : Outbox) (promptId : String) : Option PendingPrompt :=
  (s.entry promptId).filter (·.state = .rejected)

/-- `retryPending`, up to where it waits. -/
def retryPending (s : Outbox) (promptId : String) : Outbox :=
  match s.rejectedEntry promptId with
  | some old => s.issue (.retry old)
  | none => s

/-- `editPending`, up to where it waits. -/
def editPending (s : Outbox) (promptId : String) : Outbox :=
  match s.rejectedEntry promptId with
  | some old => s.issue (.edit old)
  | none => s

/-- `switchHost` -/
def switchHost (s : Outbox) : Outbox :=
  { s with
    prompts := []
    hydrated := none
    serverId := none }

/-- The `hello` of a server. -/
def hello (s : Outbox) (serverId : String) : Outbox :=
  hydrateOutbox
    { s with
      serverId := some serverId
      lastServerId := some serverId } serverId

/-- The offer to restore a prompt is taken. -/
def takeOffer (s : Outbox) (i : ℕ) : Outbox :=
  match s.offers[i]? with
  | some p => { s with offers := s.offers.eraseIdx i }.restoreFailedDraft p.promptId
  | none => s

/-- The next transaction takes effect, or is aborted. -/
def commit (order : CreationOrder) (s : Outbox) (ok : Bool) : Outbox :=
  match s.issued with
  | [] => s
  | t :: issued =>
    let (idb, outcome) := if ok then t.op.effect order s.idb else (s.idb, .failed)
    { s with
      idb := idb
      issued := issued
      settled := s.settled ++ [(t, outcome)] }

/-- What an operation does when its transaction is through.  A retry goes on with a new
entry, under a new stamp. -/
def resume (order : CreationOrder) (s : Outbox) (stamp : Stamp) :
    OutboxTask → Outcome → Outbox
  | .hydrate serverId, .loaded stored => s.hydrateLoaded order serverId stored
  | .enqueue p _, .done =>
    { s with prompts := s.prompts ++ [p] }.sendPendingPrompt p.promptId
  | .enqueue _ retried, .failed => s.enqueueFailed retried
  | .accepted promptId, .done | .restored promptId, .done =>
    { s with prompts := removeById s.prompts promptId }
  -- the offer is made whether or not the entry could be saved
  | .stranded p, _ => { s with offers := s.offers ++ [p] }
  | .retry old, .done =>
    { s with prompts := removeById s.prompts old.promptId }.enqueuePrompt old stamp (some old)
  | .requeue old, .done => { s with prompts := s.prompts ++ [old] }
  | .edit old, .done => { s with prompts := removeById s.prompts old.promptId }
  | _, _ => s

/-- The next operation whose transaction is through goes on. -/
def complete (order : CreationOrder) (s : Outbox) (stamp : Stamp) : Outbox :=
  match s.settled with
  | [] => s
  | (t, outcome) :: settled => resume order { s with settled := settled } stamp t outcome

/-- What can happen. -/
inductive Action where
  | network (connected socketOpen : Bool)
  | hello (serverId : String)
  | switchHost
  /-- A prompt is sent from the composer, or a draft submitted. -/
  | enqueue (p : PendingPrompt) (stamp : Stamp)
  | result (result : PromptResult) (competingDraft : Bool)
  | takeOffer (i : ℕ)
  | retry (promptId : String)
  | edit (promptId : String)
  | commit (ok : Bool)
  /-- An operation goes on; the stamp is for the new entry of a retry. -/
  | complete (stamp : Stamp)

/-- One step. -/
def step (order : CreationOrder) (s : Outbox) : Action → Outbox
  | .network connected socketOpen =>
    { s with
      connected := connected
      socketOpen := socketOpen }
  | .hello serverId => s.hello serverId
  | .switchHost => s.switchHost
  | .enqueue p stamp => s.enqueuePrompt p stamp none
  | .result result competingDraft => s.settlePrompt result competingDraft
  | .takeOffer i => s.takeOffer i
  | .retry promptId => s.retryPending promptId
  | .edit promptId => s.editPending promptId
  | .commit ok => s.commit order ok
  | .complete stamp => s.complete order stamp

/-- The page has loaded: nothing is in memory. -/
def boot (lastServerId : Option String) (idb : List PendingPrompt) : Outbox where
  serverId := none
  lastServerId := lastServerId
  hydrated := none
  connected := false
  socketOpen := false
  prompts := []
  offers := []
  sent := []
  idb := idb
  issued := []
  settled := []

end Outbox

/-! ### What has happened to the prompts -/

/-- The prompt a task is about, and the one it saves. -/
def OutboxTask.subject (t : OutboxTask) : Option String :=
  match t.op with
  | .load _ => none
  | .save p => some p.promptId
  | .delete promptId => some promptId

def OutboxTask.saves (t : OutboxTask) : Option String :=
  match t.op with
  | .save p => some p.promptId
  | .load _ | .delete _ => none

/-- An outbox, with whether a hydration of the current server has finished, the prompt ids
that were given, those durably saved, those reported accepted, those edited or restored, and
the accepted ones whose deletion is completed. -/
structure Recorded where
  outbox : Outbox
  finished : Bool
  used : List String
  saved : List String
  accepted : List String
  taken : List String
  cleared : List String

namespace Recorded

open Outbox

/-- The id a step gives. -/
def usedBy (s : Outbox) : Action → Option String
  | .enqueue _ stamp => some stamp.promptId
  | .complete stamp =>
    match s.settled.head? with
    | some (.retry _, .done) => some stamp.promptId
    | _ => none
  | _ => none

/-- The prompt a step saves durably. -/
def savedBy (s : Outbox) : Action → Option String
  | .commit true => s.issued.head?.bind (·.saves)
  | _ => none

/-- The prompt a step reports accepted. -/
def acceptedBy : Action → Option String
  | .result result _ => if result.accepted then some result.promptId else none
  | _ => none

/-- The prompt a step edits or restores. -/
def takenBy (s : Outbox) : Action → Option String
  | .result result competingDraft =>
    (s.entry result.promptId).bind fun p =>
      match Pantoken.settlePrompt none p result competingDraft with
      | .restored _ q => some q.promptId
      | _ => none
  | .takeOffer i => s.offers[i]?.map (·.promptId)
  | .edit promptId => (s.rejectedEntry promptId).map (·.promptId)
  | _ => none

/-- The accepted prompt whose deletion a step completes. -/
def clearedBy (s : Outbox) : Action → Option String
  | .complete _ =>
    match s.settled.head? with
    | some (.accepted promptId, .done) => some promptId
    | _ => none
  | _ => none

/-- Whether a hydration of the server that is current after a step has finished. -/
def finishedBy (s : Outbox) (finished : Bool) : Action → Bool
  | .hello sid => s.hydrated = some sid || finished && s.serverId = some sid
  | .switchHost => false
  | .complete _ =>
    match s.settled.head? with
    | some (.hydrate sid, .loaded _) => finished || s.serverId = some sid
    | _ => finished
  | _ => finished

/-- One step. -/
def step (order : CreationOrder) (r : Recorded) (a : Action) : Recorded where
  outbox := r.outbox.step order a
  finished := finishedBy r.outbox r.finished a
  used := (usedBy r.outbox a).toList ++ r.used
  saved := (savedBy r.outbox a).toList ++ r.saved
  accepted := (acceptedBy a).toList ++ r.accepted
  taken := (takenBy r.outbox a).toList ++ r.taken
  cleared := (clearedBy r.outbox a).toList ++ r.cleared

/-- A run. -/
def run (order : CreationOrder) (r : Recorded) (acts : List Action) : Recorded :=
  acts.foldl (step order) r

/-- The page has loaded, with what was saved before. -/
def boot (lastServerId : Option String) (idb : List PendingPrompt) : Recorded where
  outbox := Outbox.boot lastServerId idb
  finished := false
  used := promptIds idb
  saved := promptIds idb
  accepted := []
  taken := []
  cleared := []

/-! ### What is claimed -/

/-- The prompts in memory are distinct, and of the current server once a hydration of it has
finished; a prompt that was saved and neither accepted, edited nor restored is in the database or in
memory; and an accepted one is in neither once its deletion is completed. -/
structure Intact (r : Recorded) : Prop where
  distinct : (promptIds r.outbox.prompts).Nodup
  current : r.finished = true → ∀ sid, r.outbox.serverId = some sid →
    ∀ p ∈ r.outbox.prompts, p.serverId = sid
  durable : ∀ promptId ∈ r.saved, promptId ∉ r.accepted → promptId ∉ r.taken →
    promptId ∈ promptIds r.outbox.idb ∨ promptId ∈ promptIds r.outbox.prompts
  settled : ∀ promptId ∈ r.cleared,
    promptId ∉ promptIds r.outbox.prompts ∧ promptId ∉ promptIds r.outbox.idb

end Recorded

namespace Outbox

/-- The deletion of an accepted prompt is under way. -/
def Deleting (s : Outbox) (promptId : String) : Prop :=
  .accepted promptId ∈ s.issued ∨ (.accepted promptId, .done) ∈ s.settled

/-- A flush of the entries saves none whose deletion is under way: the state of each is
that of its last send already. -/
def FlushKeeps (s : Outbox) (prompts : List PendingPrompt) : Prop :=
  s.connected = true → ∀ p ∈ prompts, p.state ≠ .rejected → s.serverId = some p.serverId →
    s.Deleting p.promptId → p.state = s.sendState

end Outbox

/-- A step keeps the outbox intact.  A new prompt has a new id, and is not saved late, when
another server is current and hydrated; nor does a hydration find anything when it is late;
a hello that names the hydrated server finds no prompt of another one in memory; a prompt
whose deletion is under way because it was accepted is not kept as rejected, nor saved by a
flush; and no deletion of a retry takes effect. -/
def Recorded.Keeps (r : Recorded) : Outbox.Action → Prop
  | .enqueue _ stamp => stamp.promptId ∉ r.used
  | .hello sid =>
    r.outbox.hydrated = some sid → (∀ p ∈ r.outbox.prompts, p.serverId = sid) ∧
      Outbox.FlushKeeps { r.outbox with serverId := some sid } r.outbox.prompts
  | .result result competingDraft =>
    result.accepted = false → ∀ p, r.outbox.entry result.promptId = some p →
      (competingDraft = true ∨ Ts.truthy result.sessionId ≠ none ∨ p.kind = .prompt) →
        ¬r.outbox.Deleting result.promptId
  | .commit true => ∀ old, r.outbox.issued.head? ≠ some (.retry old)
  | .complete _ =>
    match r.outbox.settled with
    | (.hydrate sid, .loaded stored) :: _ =>
      let live := r.outbox.prompts.filter (·.serverId = sid)
      (r.finished = true → r.outbox.serverId ≠ some sid → live = [] ∧ stored = []) ∧
        r.outbox.FlushKeeps live ∧
        r.outbox.FlushKeeps (stored.filter fun p => p.promptId ∉ promptIds live)
    | (.enqueue p _, .done) :: _ =>
      r.finished = true → ∀ sid, r.outbox.serverId = some sid → p.serverId = sid
    | _ => True
  | _ => True

/-! ### Lists of entries -/

section Entries

variable {l m : List PendingPrompt} {p q : PendingPrompt} {promptId : String}

theorem mem_promptIds : promptId ∈ promptIds l ↔ ∃ p ∈ l, p.promptId = promptId := List.mem_map

theorem promptIds_append : promptIds (l ++ m) = promptIds l ++ promptIds m := List.map_append

theorem promptIds_map {f : PendingPrompt → PendingPrompt} (hf : ∀ p, (f p).promptId = p.promptId)
    (l : List PendingPrompt) : promptIds (l.map f) = promptIds l := by
  rw [promptIds, promptIds, List.map_map]
  exact List.map_congr_left fun p _ => hf p

/-- Setting an entry adds its id, and no other. -/
theorem mem_promptIds_setById :
    promptId ∈ promptIds (setById l p) ↔ promptId ∈ promptIds l ∨ promptId = p.promptId := by
  unfold setById
  split_ifs with hp
  · rw [promptIds_map]
    · exact (or_iff_left_of_imp fun h => h ▸ hp).symm
    · intro q
      split_ifs with hq
      · exact hq.symm
      · rfl
  · rw [promptIds_append, List.mem_append, promptIds, promptIds, List.map_singleton,
      List.mem_singleton]

theorem promptIds_removeById_sublist : (promptIds (removeById l promptId)).Sublist (promptIds l) :=
  List.Sublist.map _ List.filter_sublist

theorem notMem_promptIds_removeById : promptId ∉ promptIds (removeById l promptId) := by
  rw [mem_promptIds]
  rintro ⟨p, hp, rfl⟩
  have hne := (List.mem_filter.mp hp).2
  simp at hne

theorem mem_promptIds_removeById_of_ne {other : String} (hne : other ≠ promptId)
    (h : other ∈ promptIds l) : other ∈ promptIds (removeById l promptId) := by
  obtain ⟨p, hp, rfl⟩ := mem_promptIds.mp h
  exact mem_promptIds.mpr ⟨p, List.mem_filter.mpr ⟨hp, by simpa using hne⟩, rfl⟩

/-- Entries with ids of their own are set one after the other. -/
theorem foldl_setById (hn : (promptIds (m ++ l)).Nodup) : l.foldl setById m = m ++ l := by
  induction l generalizing m with
  | nil => rw [List.foldl_nil, List.append_nil]
  | cons p l ih =>
    have hnew : p.promptId ∉ promptIds m := by
      rw [promptIds_append, List.nodup_append] at hn
      exact fun h => hn.2.2 _ h _ (List.mem_map_of_mem List.mem_cons_self) rfl
    have hset : setById m p = m ++ [p] := if_neg hnew
    rw [List.foldl_cons, hset, ih (by simpa using hn), List.append_assoc]
    rfl

/-- The merge keeps the live entries of the server, and takes the stored ones that are not
among them. -/
theorem mergeLive_spec (sid : String) {live : List PendingPrompt}
    (hlive : (promptIds live).Nodup) (stored : List PendingPrompt) :
    (promptIds (Outbox.mergeLive sid live stored)).Nodup ∧
      ∀ p ∈ Outbox.mergeLive sid live stored, p ∈ live.filter (·.serverId = sid) ∨
        p ∈ stored.filter fun p => p.promptId ∉ promptIds (live.filter (·.serverId = sid)) := by
  have hkept : (promptIds (live.filter (·.serverId = sid))).Nodup :=
    (List.Sublist.map _ List.filter_sublist).nodup hlive
  unfold Outbox.mergeLive
  rw [foldl_setById (by simpa using hkept), List.nil_append]
  -- over the stored entries: what is merged so far is distinct, and holds the live ones
  have hfold : ∀ (rest m : List PendingPrompt), (∀ p ∈ rest, p ∈ stored) →
      (promptIds m).Nodup → (∀ p ∈ live.filter (·.serverId = sid), p ∈ m) →
      (∀ p ∈ m, p ∈ live.filter (·.serverId = sid) ∨
        p ∈ stored.filter fun p => p.promptId ∉ promptIds (live.filter (·.serverId = sid))) →
      let merged := rest.foldl (fun m p => if p.promptId ∈ promptIds m then m else setById m p) m
      (promptIds merged).Nodup ∧ ∀ p ∈ merged, p ∈ live.filter (·.serverId = sid) ∨
        p ∈ stored.filter fun p => p.promptId ∉ promptIds (live.filter (·.serverId = sid)) := by
    intro rest
    induction rest with
    | nil => exact fun m _ hn _ hmem => ⟨hn, hmem⟩
    | cons p rest ih =>
      intro m hrest hn hin hmem
      rw [List.forall_mem_cons] at hrest
      rw [List.foldl_cons]
      split_ifs with hp
      · exact ih m hrest.2 hn hin hmem
      · have hset : setById m p = m ++ [p] := if_neg hp
        rw [hset]
        apply ih (m ++ [p]) hrest.2
        · rw [promptIds_append, List.nodup_append]
          refine ⟨hn, List.nodup_singleton _, ?_⟩
          intro a ha b hb hab
          obtain rfl : b = p.promptId := List.mem_singleton.mp hb
          exact hp (hab ▸ ha)
        · exact fun q hq => List.mem_append_left _ (hin q hq)
        · intro q hq
          rcases List.mem_append.mp hq with hq | hq
          · exact hmem q hq
          · obtain rfl := List.mem_singleton.mp hq
            refine .inr (List.mem_filter.mpr ⟨hrest.1, decide_eq_true fun h => hp ?_⟩)
            obtain ⟨q', hq', hid⟩ := mem_promptIds.mp h
            exact mem_promptIds.mpr ⟨q', hin q' hq', hid⟩
  exact hfold stored _ (fun _ h => h) hkept (fun _ h => h) fun _ h => .inl h

/-- What is loaded is of the server, and was stored. -/
theorem mem_loadPendingPrompts (order : CreationOrder) (idb : List PendingPrompt) (sid : String)
    (h : p ∈ loadPendingPrompts order idb sid) :
    p.serverId = sid ∧ p.promptId ∈ promptIds idb := by
  obtain ⟨q, hq, rfl⟩ := List.mem_map.mp ((order.perm _).mem_iff.mp h)
  obtain ⟨hq, hsid⟩ := List.mem_filter.mp hq
  exact ⟨of_decide_eq_true hsid, mem_promptIds.mpr ⟨q, hq, rfl⟩⟩

end Entries

namespace Outbox

section Entry

variable {s : Outbox} {p : PendingPrompt} {promptId : String}

theorem entry_some (h : s.entry promptId = some p) :
    p ∈ s.prompts ∧ p.promptId = promptId := by
  have hid := List.find?_some h
  exact ⟨List.mem_of_find?_eq_some h, of_decide_eq_true hid⟩

theorem mem_of_entry (h : s.entry promptId = some p) : promptId ∈ promptIds s.prompts := by
  obtain ⟨hp, rfl⟩ := entry_some h
  exact List.mem_map_of_mem hp

theorem rejectedEntry_some (h : s.rejectedEntry promptId = some p) :
    p ∈ s.prompts ∧ p.promptId = promptId ∧ p.state = .rejected := by
  obtain ⟨hentry, hstate⟩ := Option.filter_eq_some_iff.mp h
  obtain ⟨hp, hid⟩ := entry_some hentry
  exact ⟨hp, hid, of_decide_eq_true hstate⟩

/-- With distinct ids an entry is the one that is found. -/
theorem entry_of_mem (hn : (promptIds s.prompts).Nodup) (hp : p ∈ s.prompts) :
    s.entry p.promptId = some p := by
  unfold entry
  generalize s.prompts = l at hn hp
  induction l with
  | nil => cases hp
  | cons q l ih =>
    rw [promptIds, List.map_cons, List.nodup_cons] at hn
    rcases List.mem_cons.mp hp with rfl | hp
    · exact List.find?_cons_of_pos (by simp)
    · have hne : q.promptId ≠ p.promptId := fun h => hn.1 (h ▸ List.mem_map_of_mem hp)
      rw [List.find?_cons_of_neg (by simpa using hne)]
      exact ih hn.2 hp

end Entry

/-- A send leaves the entries as they are, or marks one and saves it. -/
theorem sendPendingPrompt_cases (s : Outbox) (promptId : String) :
    (∃ sent, s.sendPendingPrompt promptId = { s with sent := sent }) ∨
      ∃ p sent, s.entry promptId = some p ∧ p.state ≠ .rejected ∧ p.state ≠ s.sendState ∧
        s.sendPendingPrompt promptId =
          ({ s with sent := sent }.mapEntry promptId fun q => { q with state := s.sendState }).issue
            (.update { p with state := s.sendState }) := by
  cases hentry : s.entry promptId with
  | none => exact .inl ⟨s.sent, by simp only [sendPendingPrompt, hentry]⟩
  | some p =>
    by_cases hrejected : p.state = .rejected
    · exact .inl ⟨s.sent, by simp only [sendPendingPrompt, hentry, if_pos hrejected]⟩
    · by_cases hstate : p.state = s.sendState
      · refine .inl ⟨if s.socketOpen then s.sent ++ [p.message] else s.sent, ?_⟩
        simp only [sendPendingPrompt, hentry, if_neg hrejected]
        exact if_pos hstate
      · refine .inr ⟨p, if s.socketOpen then s.sent ++ [p.message] else s.sent, rfl, hrejected,
          hstate, ?_⟩
        simp only [sendPendingPrompt, hentry, if_neg hrejected]
        exact if_neg hstate

/-- A send leaves in place the server, the socket, the other entries and the deletions. -/
theorem sendPendingPrompt_frame (s : Outbox) (promptId : String) :
    (s.sendPendingPrompt promptId).serverId = s.serverId ∧
      (s.sendPendingPrompt promptId).socketOpen = s.socketOpen ∧
      (∀ q ∈ s.prompts, q.promptId ≠ promptId → q ∈ (s.sendPendingPrompt promptId).prompts) ∧
      ∀ other, (s.sendPendingPrompt promptId).Deleting other → s.Deleting other := by
  rcases sendPendingPrompt_cases s promptId with ⟨sent, hs⟩ | ⟨p, sent, -, -, -, hs⟩
  · rw [hs]
    exact ⟨rfl, rfl, fun _ hq _ => hq, fun _ hdeleting => hdeleting⟩
  · rw [hs]
    refine ⟨rfl, rfl, fun q hq hne => ?_, ?_⟩
    · exact List.mem_map.mpr ⟨q, hq, if_neg hne⟩
    · rintro other (hissued | hsettled)
      · rcases List.mem_append.mp hissued with hissued | hnew
        · exact .inl hissued
        · cases List.mem_singleton.mp hnew
      · exact .inr hsettled

/-! ### The queue -/

/-- What is under way, in order, with the outcome of its transaction if that is through. -/
def queue (s : Outbox) : List (OutboxTask × Option Outcome) :=
  s.settled.map (fun a => (a.1, some a.2)) ++ s.issued.map fun t => (t, none)

theorem queue_issue (s : Outbox) (t : OutboxTask) :
    (s.issue t).queue = s.queue ++ [(t, none)] := by
  simp only [queue, issue, List.map_append, List.append_assoc, List.map_cons, List.map_nil]

/-- A deletion of an accepted prompt that has not failed. -/
def Deletes (promptId : String) (e : OutboxTask × Option Outcome) : Prop :=
  e = (.accepted promptId, none) ∨ e = (.accepted promptId, some .done)

theorem deleting_iff {s : Outbox} {promptId : String} :
    s.Deleting promptId ↔ ∃ e ∈ s.queue, Deletes promptId e := by
  constructor
  · rintro (h | h)
    · exact ⟨_, List.mem_append_right _ (List.mem_map_of_mem h), .inl rfl⟩
    · refine ⟨_, List.mem_append_left _ (List.mem_map_of_mem h), .inr rfl⟩
  · rintro ⟨e, he, rfl | rfl⟩
    · rcases List.mem_append.mp he with he | he
      · obtain ⟨⟨t, o⟩, -, ha⟩ := List.mem_map.mp he
        cases ha
      · obtain ⟨t, ht, ha⟩ := List.mem_map.mp he
        cases ha
        exact .inl ht
    · rcases List.mem_append.mp he with he | he
      · obtain ⟨⟨t, o⟩, ht, ha⟩ := List.mem_map.mp he
        cases ha
        exact .inr ht
      · obtain ⟨t, -, ha⟩ := List.mem_map.mp he
        cases ha

/-- The save of a new entry with a prompt id. -/
def Enqueues (promptId : String) (e : OutboxTask × Option Outcome) : Prop :=
  ∃ p retried, e.1 = .enqueue p retried ∧ p.promptId = promptId

theorem saves_subject {t : OutboxTask} {promptId : String} (h : t.saves = some promptId) :
    t.subject = some promptId := by
  unfold OutboxTask.saves at h
  unfold OutboxTask.subject
  cases hop : t.op with
  | save p =>
    rw [hop] at h
    exact h
  | load sid | delete id =>
    rw [hop] at h
    cases h

theorem Enqueues.saves {promptId : String} {e : OutboxTask × Option Outcome}
    (h : Enqueues promptId e) : e.1.saves = some promptId := by
  obtain ⟨p, retried, he, rfl⟩ := h
  rw [he]
  rfl

theorem Enqueues.subject {promptId : String} {e : OutboxTask × Option Outcome}
    (h : Enqueues promptId e) : e.1.subject = some promptId :=
  saves_subject h.saves

theorem Deletes.subject {promptId : String} {e : OutboxTask × Option Outcome}
    (h : Deletes promptId e) : e.1.subject = some promptId := by
  rcases h with rfl | rfl <;> rfl

theorem Deletes.of_settled {promptId : String} {t : OutboxTask} {o : Outcome}
    (h : Deletes promptId (t, some o)) : t = .accepted promptId ∧ o = .done := by
  rcases h with h | h
  · cases h
  · cases h
    exact ⟨rfl, rfl⟩

/-- How what is under way follows each other: a new entry is in nothing else, and nothing
after the deletion of an accepted prompt saves it or has loaded it. -/
structure Follows (a b : OutboxTask × Option Outcome) : Prop where
  fresh : ∀ promptId, Enqueues promptId a → b.1.subject ≠ some promptId
  apart : ∀ promptId, Enqueues promptId b → a.1.subject ≠ some promptId
  unloaded : ∀ promptId l, Enqueues promptId b → a.2 = some (.loaded l) → promptId ∉ promptIds l
  silent : ∀ promptId, Deletes promptId a → b.1.saves ≠ some promptId
  gone : ∀ promptId l, Deletes promptId a → b.2 = some (.loaded l) → promptId ∉ promptIds l

/-- The later of two settles: what it has loaded lacks what the earlier deletes. -/
theorem Follows.settled_right {a : OutboxTask × Option Outcome} {t : OutboxTask} {o : Outcome}
    (h : Follows a (t, none))
    (hgone : ∀ promptId l, Deletes promptId a → o = .loaded l → promptId ∉ promptIds l) :
    Follows a (t, some o) :=
  ⟨h.fresh, h.apart, h.unloaded, h.silent,
    fun promptId l hid hl => hgone promptId l hid (Option.some.inj hl)⟩

/-- The earlier of two settles: what it has loaded lacks what the later enqueues. -/
theorem Follows.settled_left {b : OutboxTask × Option Outcome} {t : OutboxTask} {o : Outcome}
    (h : Follows (t, none) b)
    (hunloaded : ∀ promptId l, Enqueues promptId b → o = .loaded l → promptId ∉ promptIds l) :
    Follows (t, some o) b where
  fresh := h.fresh
  apart := h.apart
  unloaded := fun promptId l hid hl => hunloaded promptId l hid (Option.some.inj hl)
  silent := fun promptId hid => h.silent promptId (.inl (by rw [hid.of_settled.1]))
  gone := fun promptId l hid => h.gone promptId l (.inl (by rw [hid.of_settled.1]))

/-- What is through, in the queue. -/
def through (s : Outbox) : List (OutboxTask × Option Outcome) :=
  s.settled.map fun a => (a.1, some a.2)

/-- What is not through, in the queue. -/
def waiting (issued : List OutboxTask) : List (OutboxTask × Option Outcome) :=
  issued.map fun t => (t, none)

theorem queue_of_issued {s : Outbox} {t : OutboxTask} {issued : List OutboxTask}
    (h : s.issued = t :: issued) : s.queue = s.through ++ (t, none) :: waiting issued := by
  rw [queue, h]
  rfl

/-- A transaction that is through stays at its place in the queue. -/
theorem queue_settle (s : Outbox) (idb : List PendingPrompt) (t : OutboxTask) (o : Outcome)
    (issued : List OutboxTask) :
    Outbox.queue { s with
      idb := idb
      issued := issued
      settled := s.settled ++ [(t, o)] } = s.through ++ (t, some o) :: waiting issued := by
  rw [queue, List.map_append, List.append_assoc]
  rfl

end Outbox

namespace Recorded

open Outbox

/-! ### The invariant -/

/-- A part of the queue is in order. -/
structure EntryOk (r : Recorded) (e : OutboxTask × Option Outcome) : Prop where
  known : ∀ promptId, e.1.subject = some promptId → promptId ∈ r.used
  silent : ∀ promptId ∈ r.cleared, e.1.saves ≠ some promptId
  loads : ∀ l, e.2 = some (.loaded l) → ∃ sid, e.1 = .hydrate sid ∧ ∀ p ∈ l,
    p.serverId = sid ∧ p.promptId ∈ r.used ∧ p.promptId ∉ r.cleared
  fresh : ∀ promptId, Enqueues promptId e → promptId ∉ promptIds r.outbox.prompts ∧
    promptId ∉ promptIds r.outbox.offers ∧ (e.2 = none → promptId ∉ promptIds r.outbox.idb)
  deletes : ∀ promptId, e.1.op = .delete promptId →
    (∃ old, e.1 = .retry old) ∨ promptId ∈ r.accepted ∨ promptId ∈ r.taken
  gone : ∀ promptId, e = (.accepted promptId, some .done) → promptId ∉ promptIds r.outbox.idb
  -- no retry goes on, so none fails to enqueue its prompt
  kept : ∀ old, e ≠ (.retry old, some .done) ∧ e.1 ≠ .requeue old ∧
    ∀ p, e.1 ≠ .enqueue p (some old)

/-- The invariant: what was saved is in the database until its deletion, and what is under
way is in order. -/
structure Sound (r : Recorded) : Prop where
  distinct : (promptIds r.outbox.prompts).Nodup
  current : r.finished = true → ∀ sid, r.outbox.serverId = some sid →
    ∀ p ∈ r.outbox.prompts, p.serverId = sid
  stored : ∀ promptId ∈ r.saved, promptId ∉ r.accepted → promptId ∉ r.taken →
    promptId ∈ promptIds r.outbox.idb
  known : ∀ promptId, promptId ∈ promptIds r.outbox.prompts ∨
    promptId ∈ promptIds r.outbox.offers ∨ promptId ∈ promptIds r.outbox.idb → promptId ∈ r.used
  cleared : ∀ promptId ∈ r.cleared, promptId ∈ r.used ∧
    promptId ∉ promptIds r.outbox.prompts ∧ promptId ∉ promptIds r.outbox.idb
  entries : ∀ e ∈ r.outbox.queue, r.EntryOk e
  follows : r.outbox.queue.Pairwise Follows

theorem Sound.intact {r : Recorded} (h : r.Sound) : r.Intact where
  distinct := h.distinct
  current := h.current
  durable id hsaved haccepted htaken := .inl (h.stored id hsaved haccepted htaken)
  settled id hid := (h.cleared id hid).2

/-! ### Edits that keep the invariant -/

section Edits

variable {r : Recorded} {promptId : String}

/-- More may be known of the prompts. -/
theorem Sound.grow (h : r.Sound) (used accepted taken : List String) :
    Sound { r with
      used := used ++ r.used
      accepted := accepted ++ r.accepted
      taken := taken ++ r.taken } where
  distinct := h.distinct
  current := h.current
  stored id hsaved haccepted htaken := h.stored id hsaved
    (fun hin => haccepted (List.mem_append_right _ hin))
    (fun hin => htaken (List.mem_append_right _ hin))
  known id hid := List.mem_append_right _ (h.known id hid)
  cleared id hid := ⟨List.mem_append_right _ (h.cleared id hid).1, (h.cleared id hid).2⟩
  entries e he := by
    have hok := h.entries e he
    refine ⟨fun id hid => List.mem_append_right _ (hok.known id hid), hok.silent, ?_, hok.fresh,
      ?_, hok.gone, hok.kept⟩
    · intro l hl
      obtain ⟨sid, hsid, hall⟩ := hok.loads l hl
      refine ⟨sid, hsid, fun p hp => ?_⟩
      obtain ⟨hserver, hused, hcleared⟩ := hall p hp
      exact ⟨hserver, List.mem_append_right _ hused, hcleared⟩
    · intro id hid
      rcases hok.deletes id hid with hold | haccepted | htaken
      · exact .inl hold
      · exact .inr (.inl (List.mem_append_right _ haccepted))
      · exact .inr (.inr (List.mem_append_right _ htaken))
  follows := h.follows

/-- The entries and the offers change, to ones that are known and not new in the queue. -/
theorem Sound.change (h : r.Sound) {s : Outbox} {finished : Bool}
    (hqueue : s.queue = r.outbox.queue) (hidb : s.idb = r.outbox.idb)
    (hdistinct : (promptIds s.prompts).Nodup)
    (hcurrent : finished = true → ∀ sid, s.serverId = some sid →
      ∀ p ∈ s.prompts, p.serverId = sid)
    (hprompts : ∀ promptId ∈ promptIds s.prompts, promptId ∈ promptIds r.outbox.prompts ∨
      promptId ∈ r.used ∧ promptId ∉ r.cleared ∧ ∀ e ∈ r.outbox.queue, ¬Enqueues promptId e)
    (hoffers : ∀ promptId ∈ promptIds s.offers, promptId ∈ promptIds r.outbox.offers ∨
      promptId ∈ r.used ∧ ∀ e ∈ r.outbox.queue, ¬Enqueues promptId e) :
    Sound { r with
      outbox := s
      finished := finished } where
  distinct := hdistinct
  current := hcurrent
  stored := by rw [hidb]; exact h.stored
  known := by
    rintro id (hid | hid | hid)
    · rcases hprompts id hid with hid | hid
      · exact h.known id (.inl hid)
      · exact hid.1
    · rcases hoffers id hid with hid | hid
      · exact h.known id (.inr (.inl hid))
      · exact hid.1
    · rw [hidb] at hid
      exact h.known id (.inr (.inr hid))
  cleared := by
    intro id hid
    obtain ⟨hused, hprompt, hstored⟩ := h.cleared id hid
    refine ⟨hused, fun hin => ?_, by rwa [hidb]⟩
    rcases hprompts id hin with hin | hin
    · exact hprompt hin
    · exact hin.2.1 hid
  entries := by
    intro e he
    rw [hqueue] at he
    have hok := h.entries e he
    refine ⟨hok.known, hok.silent, hok.loads, ?_, hok.deletes, ?_, hok.kept⟩
    · intro id hid
      obtain ⟨hprompt, hoffer, hstored⟩ := hok.fresh id hid
      refine ⟨fun hin => ?_, fun hin => ?_, by rwa [hidb]⟩
      · rcases hprompts id hin with hin | hin
        · exact hprompt hin
        · exact hin.2.2 e he hid
      · rcases hoffers id hin with hin | hin
        · exact hoffer hin
        · exact hin.2 e he hid
    · intro id hid
      rw [hidb]
      exact hok.gone id hid
  follows := by rw [hqueue]; exact h.follows

/-- A part of the queue does not depend on what else is under way. -/
theorem EntryOk.of_outbox {e : OutboxTask × Option Outcome} (h : r.EntryOk e) {s : Outbox}
    (hprompts : s.prompts = r.outbox.prompts) (hoffers : s.offers = r.outbox.offers)
    (hidb : s.idb = r.outbox.idb) : EntryOk { r with outbox := s } e where
  known := h.known
  silent := h.silent
  loads := h.loads
  fresh := by
    rw [hprompts, hoffers, hidb]
    exact h.fresh
  deletes := h.deletes
  gone := by
    rw [hidb]
    exact h.gone
  kept := h.kept

/-- An operation on a prompt that is shown waits for its transaction. -/
theorem Sound.issue_live (h : r.Sound) {t : OutboxTask}
    (hlive : ∀ promptId, t.subject = some promptId →
      promptId ∈ promptIds r.outbox.prompts ∨ promptId ∈ promptIds r.outbox.offers)
    (hsaves : ∀ promptId, t.saves = some promptId →
      promptId ∈ promptIds r.outbox.prompts ∧ ¬r.outbox.Deleting promptId)
    (hdeletes : ∀ promptId, t.op = .delete promptId →
      (∃ old, t = .retry old) ∨ promptId ∈ r.accepted ∨ promptId ∈ r.taken)
    (henqueue : ∀ p retried, t ≠ .enqueue p retried) (hrequeue : ∀ old, t ≠ .requeue old) :
    Sound { r with outbox := r.outbox.issue t } where
  distinct := h.distinct
  current := h.current
  stored := h.stored
  known := h.known
  cleared := h.cleared
  entries := by
    intro e he
    rw [queue_issue, List.mem_append, List.mem_singleton] at he
    rcases he with he | rfl
    · exact (h.entries e he).of_outbox rfl rfl rfl
    · have hnew : ∀ id, ¬Enqueues id (t, none) := by
        rintro id ⟨p, retried, hp, -⟩
        exact henqueue p retried hp
      refine ⟨?_, ?_, nofun, fun id hid => absurd hid (hnew id), hdeletes, nofun, fun old => ?_⟩
      · intro id hid
        rcases hlive id hid with hid | hid
        · exact h.known id (.inl hid)
        · exact h.known id (.inr (.inl hid))
      · intro id hid hsave
        exact (h.cleared id hid).2.1 (hsaves id hsave).1
      · exact ⟨nofun, hrequeue old, fun p => henqueue p _⟩
  follows := by
    rw [queue_issue, List.pairwise_append]
    refine ⟨h.follows, List.pairwise_singleton _ _, fun a ha b hb => ?_⟩
    rw [List.mem_singleton] at hb
    subst hb
    refine ⟨fun id hid hsubject => ?_, ?_, ?_, fun id hid hsave => ?_, nofun⟩
    · obtain ⟨hprompt, hoffer, -⟩ := (h.entries a ha).fresh id hid
      rcases hlive id hsubject with hin | hin
      · exact hprompt hin
      · exact hoffer hin
    · rintro id ⟨p, retried, hp, -⟩
      exact absurd hp (henqueue p retried)
    · rintro id l ⟨p, retried, hp, -⟩
      exact absurd hp (henqueue p retried)
    · exact (hsaves id hsave).2 (deleting_iff.mpr ⟨a, ha, hid⟩)

/-- An entry in memory is edited and saved, and its deletion is not under way. -/
theorem Sound.mapEntry_issue (h : r.Sound) {f : PendingPrompt → PendingPrompt}
    {q : PendingPrompt} {t : OutboxTask} (hop : t.op = .save q) (hq : q.promptId = promptId)
    (hmem : promptId ∈ promptIds r.outbox.prompts)
    (hf : ∀ p ∈ r.outbox.prompts, p.promptId = promptId →
      (f p).promptId = promptId ∧ (f p).serverId = p.serverId)
    (hdeleting : ¬r.outbox.Deleting promptId) (henqueue : ∀ p retried, t ≠ .enqueue p retried)
    (hrequeue : ∀ old, t ≠ .requeue old) :
    Sound { r with outbox := (r.outbox.mapEntry promptId f).issue t } := by
  -- the ids stay, and with them all that is known of what is under way
  have hids : promptIds (r.outbox.mapEntry promptId f).prompts = promptIds r.outbox.prompts := by
    rw [promptIds, promptIds, mapEntry, List.map_map]
    apply List.map_congr_left
    intro p hp
    dsimp only [Function.comp]
    split_ifs with hid
    · rw [(hf p hp hid).1, hid]
    · rfl
  have hmapped : Sound { r with outbox := r.outbox.mapEntry promptId f } := by
    refine h.change rfl rfl ?_ ?_ ?_ fun _ hid => .inl hid
    · rw [hids]
      exact h.distinct
    · intro hfinished sid hsid p hp
      obtain ⟨p', hp', rfl⟩ := List.mem_map.mp hp
      have hcurrent := h.current hfinished sid hsid p' hp'
      split_ifs with hid
      · rw [(hf p' hp' hid).2]
        exact hcurrent
      · exact hcurrent
    · intro id hid
      rw [hids] at hid
      exact .inl hid
  apply hmapped.issue_live
  · intro id hid
    rw [OutboxTask.subject, hop] at hid
    cases hid
    rw [hids, hq]
    exact .inl hmem
  · intro id hid
    rw [OutboxTask.saves, hop] at hid
    cases hid
    rw [hids, hq]
    exact ⟨hmem, hdeleting⟩
  · intro id hid
    rw [hop] at hid
    cases hid
  · exact henqueue
  · exact hrequeue

/-- A new entry waits for its save. -/
theorem Sound.issue_enqueue (h : r.Sound) {p : PendingPrompt} (hnew : p.promptId ∉ r.used) :
    Sound { r with
      outbox := r.outbox.issue (.enqueue p none)
      used := p.promptId :: r.used } := by
  have hgrown := h.grow [p.promptId] [] []
  refine ⟨h.distinct, h.current, h.stored, hgrown.known, hgrown.cleared, ?_, ?_⟩
  · intro e he
    rw [queue_issue, List.mem_append, List.mem_singleton] at he
    rcases he with he | rfl
    · exact (hgrown.entries e he).of_outbox rfl rfl rfl
    · refine ⟨?_, ?_, nofun, ?_, nofun, nofun, fun old => ⟨nofun, nofun, fun q hq => ?_⟩⟩
      · rintro id ⟨⟩
        exact List.mem_cons_self
      · rintro id hid ⟨⟩
        exact hnew (h.cleared _ hid).1
      · rintro id ⟨q, retried, hq, rfl⟩
        obtain ⟨rfl, -⟩ := OutboxTask.enqueue.inj hq
        exact ⟨fun hin => hnew (h.known _ (.inl hin)),
          fun hin => hnew (h.known _ (.inr (.inl hin))),
          fun _ hin => hnew (h.known _ (.inr (.inr hin)))⟩
      · cases (OutboxTask.enqueue.inj hq).2
  · rw [queue_issue, List.pairwise_append]
    refine ⟨h.follows, List.pairwise_singleton _ _, fun a ha b hb => ?_⟩
    rw [List.mem_singleton] at hb
    subst hb
    have hok := h.entries a ha
    -- whatever is under way is about ids that were given before
    refine ⟨?_, ?_, ?_, ?_, nofun⟩
    · rintro id hid ⟨⟩
      exact hnew (hok.known _ hid.subject)
    · rintro id ⟨q, retried, hq, rfl⟩ hsubject
      obtain ⟨rfl, -⟩ := OutboxTask.enqueue.inj hq
      exact hnew (hok.known _ hsubject)
    · rintro id l ⟨q, retried, hq, rfl⟩ hl hin
      obtain ⟨rfl, -⟩ := OutboxTask.enqueue.inj hq
      obtain ⟨sid, -, hall⟩ := hok.loads l hl
      obtain ⟨q, hq, hid⟩ := mem_promptIds.mp hin
      exact hnew (hid ▸ (hall q hq).2.1)
    · rintro id hid ⟨⟩
      exact hnew (hok.known _ hid.subject)

end Edits

/-! ### Sends -/

section Sends

variable {r : Recorded} {promptId : String}

/-- A send of an entry whose deletion is not under way. -/
theorem Sound.sendPendingPrompt (h : r.Sound)
    (hkeep : ∀ p, r.outbox.entry promptId = some p → p.state ≠ .rejected →
      p.state ≠ r.outbox.sendState → ¬r.outbox.Deleting promptId) :
    Sound { r with outbox := r.outbox.sendPendingPrompt promptId } := by
  rcases sendPendingPrompt_cases r.outbox promptId with
    ⟨sent, hs⟩ | ⟨p, sent, hentry, hrejected, hstate, hs⟩
  · rw [hs]
    exact h.change rfl rfl h.distinct h.current (fun _ hid => .inl hid) fun _ hid => .inl hid
  · rw [hs]
    obtain ⟨hp, rfl⟩ := entry_some hentry
    have hsent : Sound { r with outbox := { r.outbox with sent := sent } } :=
      h.change rfl rfl h.distinct h.current (fun _ hid => .inl hid) fun _ hid => .inl hid
    have hop : (OutboxTask.update { p with state := r.outbox.sendState }).op =
        .save { p with state := r.outbox.sendState } := rfl
    apply hsent.mapEntry_issue hop rfl (mem_promptIds.mpr ⟨p, hp, rfl⟩)
    · exact fun q _ hq => ⟨hq, rfl⟩
    · exact hkeep p hentry hrejected hstate
    · rintro q retried ⟨⟩
    · rintro old ⟨⟩

/-- A flush of some entries, one after the other. -/
theorem Sound.flush (h : r.Sound) (rest : List PendingPrompt) (hn : (promptIds rest).Nodup)
    (hin : ∀ p ∈ rest, p ∈ r.outbox.prompts)
    (hkeeps : ∀ p ∈ rest, p.state ≠ .rejected → r.outbox.serverId = some p.serverId →
      r.outbox.Deleting p.promptId → p.state = r.outbox.sendState) :
    Sound { r with
      outbox := rest.foldl (fun s p =>
        if p.state ≠ .rejected ∧ s.serverId = some p.serverId then s.sendPendingPrompt p.promptId
        else s) r.outbox } := by
  induction rest generalizing r with
  | nil => exact h
  | cons p rest ih =>
    rw [promptIds, List.map_cons, List.nodup_cons] at hn
    rw [List.forall_mem_cons] at hin hkeeps
    rw [List.foldl_cons]
    split_ifs with hp
    · -- the entries that are left are still there as they were when the flush began
      obtain ⟨hserver, hsocket, hothers, hdeleting⟩ :=
        sendPendingPrompt_frame r.outbox p.promptId
      have hsent : Sound { r with outbox := r.outbox.sendPendingPrompt p.promptId } := by
        apply h.sendPendingPrompt
        intro q hq hrejected hstate hdel
        rw [entry_of_mem h.distinct hin.1] at hq
        cases hq
        exact hstate (hkeeps.1 hrejected hp.2 hdel)
      refine ih hsent hn.2 ?_ ?_
      · intro q hq
        exact hothers q (hin.2 q hq) fun heq => hn.1 (heq ▸ List.mem_map_of_mem hq)
      · intro q hq hrejected hq' hdel
        dsimp only at hq' hdel
        rw [hserver] at hq'
        have hstate := hkeeps.2 q hq hrejected hq' (hdeleting _ hdel)
        rwa [sendState, hsocket]
    · exact ih h hn.2 hin.2 hkeeps.2

theorem Sound.flushOutbox (h : r.Sound) (hkeeps : r.outbox.FlushKeeps r.outbox.prompts) :
    Sound { r with outbox := r.outbox.flushOutbox } := by
  unfold Outbox.flushOutbox
  split_ifs with hconnected
  · exact h.flush _ h.distinct (fun _ hp => hp) (hkeeps hconnected)
  · exact h

end Sends

/-! ### The steps -/

section Steps

variable {r : Recorded} {promptId : String}

/-- A hydration begins. -/
theorem Sound.issue_hydrate (h : r.Sound) (sid : String) :
    Sound { r with outbox := r.outbox.issue (.hydrate sid) } := by
  apply h.issue_live
  · rintro id ⟨⟩
  · rintro id ⟨⟩
  · rintro id ⟨⟩
  · rintro p retried ⟨⟩
  · rintro old ⟨⟩

/-- A deletion begins, of an entry that is shown and was accepted, edited or restored. -/
theorem Sound.issue_delete (h : r.Sound) {t : OutboxTask} (hop : t.op = .delete promptId)
    (hlive : promptId ∈ promptIds r.outbox.prompts ∨ promptId ∈ promptIds r.outbox.offers)
    (hdeletes : (∃ old, t = .retry old) ∨ promptId ∈ r.accepted ∨ promptId ∈ r.taken) :
    Sound { r with outbox := r.outbox.issue t } := by
  apply h.issue_live
  · intro id hid
    rw [OutboxTask.subject, hop] at hid
    cases hid
    exact hlive
  · intro id hid
    rw [OutboxTask.saves, hop] at hid
    cases hid
  · intro id hid
    rw [hop] at hid
    cases hid
    exact hdeletes
  · rintro p retried rfl
    cases hop
  · rintro old rfl
    cases hop

theorem Sound.hello (h : r.Sound) {sid : String} (hkeep : r.Keeps (.hello sid)) :
    Sound { r with
      outbox := r.outbox.hello sid
      finished := finishedBy r.outbox r.finished (.hello sid) } := by
  have hserver : Sound { r with
      outbox := { r.outbox with
        serverId := some sid
        lastServerId := some sid }
      finished := finishedBy r.outbox r.finished (.hello sid) } := by
    refine h.change rfl rfl h.distinct ?_ (fun _ hid => .inl hid) fun _ hid => .inl hid
    rintro hfinished sid' ⟨⟩ p hp
    simp only [finishedBy, Bool.or_eq_true, Bool.and_eq_true, decide_eq_true_eq] at hfinished
    rcases hfinished with hhydrated | ⟨hfinished, hsid⟩
    · exact (hkeep hhydrated).1 p hp
    · exact h.current hfinished sid hsid p hp
  unfold Outbox.hello hydrateOutbox
  split_ifs with hhydrated
  · exact hserver.flushOutbox (hkeep hhydrated).2
  · exact hserver.issue_hydrate sid

theorem Sound.switchHost (h : r.Sound) :
    Sound { r with
      outbox := r.outbox.switchHost
      finished := false } := by
  refine h.change rfl rfl List.nodup_nil Bool.noConfusion ?_ fun _ hid => .inl hid
  intro id hid
  cases hid

theorem Sound.enqueuePrompt (h : r.Sound) (p : PendingPrompt) {stamp : Stamp}
    (hnew : stamp.promptId ∉ r.used) :
    Sound { r with
      outbox := r.outbox.enqueuePrompt p stamp none
      used := stamp.promptId :: r.used } := by
  unfold Outbox.enqueuePrompt
  split
  · exact h.grow [stamp.promptId] [] []
  · exact h.issue_enqueue hnew

theorem Sound.takeOffer (h : r.Sound) (i : ℕ) :
    Sound { r with
      outbox := r.outbox.takeOffer i
      taken := (r.outbox.offers[i]?.map (·.promptId)).toList ++ r.taken } := by
  unfold Outbox.takeOffer restoreFailedDraft
  cases hi : r.outbox.offers[i]? with
  | none => exact h
  | some p =>
    have hp : p.promptId ∈ promptIds r.outbox.offers :=
      mem_promptIds.mpr ⟨p, List.mem_of_getElem? hi, rfl⟩
    have hissued : Sound { r with
        outbox := r.outbox.issue (.restored p.promptId)
        taken := p.promptId :: r.taken } :=
      (h.grow [] [] [p.promptId]).issue_delete rfl (.inr hp) (.inr (.inr List.mem_cons_self))
    refine hissued.change rfl rfl h.distinct h.current (fun _ hid => .inl hid) ?_
    intro id hid
    exact .inl ((List.Sublist.map _ (List.eraseIdx_sublist _ _)).subset hid)

theorem Sound.result (h : r.Sound) (result : PromptResult) (competingDraft : Bool)
    (hkeep : r.Keeps (.result result competingDraft)) :
    Sound { r with
      outbox := r.outbox.settlePrompt result competingDraft
      accepted := (acceptedBy (.result result competingDraft)).toList ++ r.accepted
      taken := (takenBy r.outbox (.result result competingDraft)).toList ++ r.taken } := by
  unfold Outbox.settlePrompt takenBy
  dsimp only
  cases hentry : r.outbox.entry result.promptId with
  | none => exact h.grow [] (acceptedBy (.result result competingDraft)).toList []
  | some p =>
    obtain ⟨hp, hid⟩ := entry_some hentry
    have hmem := mem_of_entry hentry
    -- an entry with the id is the one that was found
    have hfound : ∀ q ∈ r.outbox.prompts, q.promptId = result.promptId → p = q := by
      intro q hq hqid
      rw [← hqid, entry_of_mem h.distinct hq] at hentry
      exact (Option.some.inj hentry).symm
    dsimp only [Option.bind_some]
    unfold Pantoken.settlePrompt acceptedBy
    dsimp only
    split_ifs with haccepted hnone hcompeting
    · exact (h.grow [] [result.promptId] []).issue_delete (t := .accepted result.promptId) rfl
        (.inl hmem) (.inr (.inl List.mem_cons_self))
    · refine h.mapEntry_issue (t := .stranded (strandedPrompt p result)) rfl hid hmem ?_ ?_
        (fun _ _ => OutboxTask.noConfusion) fun _ => OutboxTask.noConfusion
      · exact fun q hq hqid => ⟨hid, hfound q hq hqid ▸ rfl⟩
      · exact hkeep (by simpa using haccepted) p hentry (.inl hcompeting)
    · refine (h.grow [] [] [p.promptId]).issue_delete (t := .restored p.promptId) rfl (.inl ?_)
        (.inr (.inr List.mem_cons_self))
      rw [hid]
      exact hmem
    · refine h.mapEntry_issue (t := .rejected (rejectedPrompt p result)) rfl hid hmem ?_ ?_
        (fun _ _ => OutboxTask.noConfusion) fun _ => OutboxTask.noConfusion
      · exact fun q hq hqid => ⟨hid, hfound q hq hqid ▸ rfl⟩
      · apply hkeep (by simpa using haccepted) p hentry
        cases hkind : p.kind with
        | prompt => exact .inr (.inr rfl)
        | newSession => exact .inr (.inl fun hsession => hnone ⟨hsession, hkind⟩)

theorem Sound.retryPending (h : r.Sound) (promptId : String) :
    Sound { r with outbox := r.outbox.retryPending promptId } := by
  unfold Outbox.retryPending
  cases hold : r.outbox.rejectedEntry promptId with
  | none => exact h
  | some old =>
    obtain ⟨hp, hid, -⟩ := rejectedEntry_some hold
    exact h.issue_delete rfl (.inl (mem_promptIds.mpr ⟨old, hp, rfl⟩)) (.inl ⟨old, rfl⟩)

theorem Sound.editPending (h : r.Sound) (promptId : String) :
    Sound { r with
      outbox := r.outbox.editPending promptId
      taken := ((r.outbox.rejectedEntry promptId).map (·.promptId)).toList ++ r.taken } := by
  unfold Outbox.editPending
  cases hold : r.outbox.rejectedEntry promptId with
  | none => exact h
  | some old =>
    obtain ⟨hp, hid, -⟩ := rejectedEntry_some hold
    exact (h.grow [] [] [old.promptId]).issue_delete rfl
      (.inl (mem_promptIds.mpr ⟨old, hp, rfl⟩)) (.inr (.inr List.mem_cons_self))

/-- A transaction is through: what it leaves in the database was there or is what it saves,
and what it loads was there. -/
theorem Sound.settle (h : r.Sound) {t : OutboxTask} {issued : List OutboxTask}
    (hissued : r.outbox.issued = t :: issued) {idb : List PendingPrompt} {o : Outcome}
    {saved : List String}
    (hstored : ∀ promptId ∈ saved, promptId ∉ r.accepted → promptId ∉ r.taken →
      promptId ∈ promptIds idb)
    (hidb : ∀ promptId ∈ promptIds idb,
      promptId ∈ promptIds r.outbox.idb ∨ t.saves = some promptId)
    (hloads : ∀ l, o = .loaded l → ∃ sid, t = .hydrate sid ∧ ∀ p ∈ l,
      p.serverId = sid ∧ p.promptId ∈ promptIds r.outbox.idb)
    (hgone : ∀ promptId, t = .accepted promptId → o = .done → promptId ∉ promptIds idb)
    (hretry : ∀ old, t = .retry old → o ≠ .done) :
    Sound { r with
      outbox := { r.outbox with
        idb := idb
        issued := issued
        settled := r.outbox.settled ++ [(t, o)] }
      saved := saved } := by
  have hqueue := queue_of_issued hissued
  have hqueue' := queue_settle r.outbox idb t o issued
  have hfollows := h.follows
  rw [hqueue, List.pairwise_append, List.pairwise_cons] at hfollows
  obtain ⟨hbefore, ⟨hafter, hrest⟩, hacross⟩ := hfollows
  have hentries := h.entries
  rw [hqueue, List.forall_mem_append, List.forall_mem_cons] at hentries
  obtain ⟨hearlier, ht, hlater⟩ := hentries
  -- the transaction saves nothing that an earlier deletion has taken away
  have hgone' : ∀ e ∈ r.outbox.through, ∀ promptId,
      e = (.accepted promptId, some .done) → promptId ∉ promptIds idb := by
    intro e he id heq hin
    rcases hidb id hin with hin | hsave
    · exact (hearlier e he).gone id heq hin
    · exact (hacross e he _ List.mem_cons_self).silent id (.inr heq) hsave
  refine ⟨h.distinct, h.current, hstored, ?_, ?_, ?_, ?_⟩
  · rintro id (hid | hid | hid)
    · exact h.known id (.inl hid)
    · exact h.known id (.inr (.inl hid))
    · rcases hidb id hid with hid | hsave
      · exact h.known id (.inr (.inr hid))
      · exact ht.known id (saves_subject hsave)
  · intro id hid
    obtain ⟨hused, hprompt, hin⟩ := h.cleared id hid
    refine ⟨hused, hprompt, fun hnew => ?_⟩
    rcases hidb id hnew with hnew | hsave
    · exact hin hnew
    · exact ht.silent id hid hsave
  · rw [hqueue', List.forall_mem_append, List.forall_mem_cons]
    refine ⟨fun e he => ?_, ?_, fun e he => ?_⟩
    · -- what was through before
      have hok := hearlier e he
      refine ⟨hok.known, hok.silent, hok.loads, ?_, hok.deletes, hgone' e he, hok.kept⟩
      intro id hid
      refine ⟨(hok.fresh id hid).1, (hok.fresh id hid).2.1, fun hnone => ?_⟩
      obtain ⟨a, -, rfl⟩ := List.mem_map.mp he
      cases hnone
    · refine ⟨ht.known, ht.silent, ?_, ?_, ht.deletes, ?_, ?_⟩
      · rintro l ⟨⟩
        obtain ⟨sid, hsid, hall⟩ := hloads l rfl
        refine ⟨sid, hsid, fun p hp => ?_⟩
        obtain ⟨hserver, hin⟩ := hall p hp
        exact ⟨hserver, h.known _ (.inr (.inr hin)), fun hcleared => (h.cleared _ hcleared).2.2 hin⟩
      · intro id hid
        have hfresh := ht.fresh id hid
        exact ⟨hfresh.1, hfresh.2.1, nofun⟩
      · rintro id heq
        cases heq
        exact hgone id rfl rfl
      · intro old
        refine ⟨fun heq => ?_, (ht.kept old).2⟩
        cases heq
        exact hretry old rfl rfl
    · -- what waits behind it
      have hok := hlater e he
      refine ⟨hok.known, hok.silent, hok.loads, ?_, hok.deletes, ?_, hok.kept⟩
      · intro id hid
        have hfresh := hok.fresh id hid
        refine ⟨hfresh.1, hfresh.2.1, fun hnone hin => ?_⟩
        rcases hidb id hin with hin | hsave
        · exact hfresh.2.2 hnone hin
        · exact (hafter e he).apart id hid (saves_subject hsave)
      · rintro id rfl
        obtain ⟨a, -, ha⟩ := List.mem_map.mp he
        cases ha
  · rw [hqueue', List.pairwise_append, List.pairwise_cons]
    refine ⟨hbefore, ⟨fun b hb => (hafter b hb).settled_left ?_, hrest⟩, fun a ha b hb => ?_⟩
    · intro id l hid hl hin
      obtain ⟨sid, -, hall⟩ := hloads l hl
      obtain ⟨p, hp, rfl⟩ := mem_promptIds.mp hin
      obtain ⟨b, -, rfl⟩ := List.mem_map.mp hb
      exact ((hlater _ hb).fresh _ hid).2.2 rfl (hall p hp).2
    · rcases List.mem_cons.mp hb with rfl | hb
      · apply (hacross a ha _ List.mem_cons_self).settled_right
        intro id l hid hl hin
        obtain ⟨sid, -, hall⟩ := hloads l hl
        obtain ⟨p, hp, rfl⟩ := mem_promptIds.mp hin
        obtain ⟨a, -, rfl⟩ := List.mem_map.mp ha
        obtain ⟨haccepted, hdone⟩ := hid.of_settled
        exact (hearlier _ ha).gone _ (by rw [haccepted, hdone]) (hall p hp).2
      · exact hacross a ha b (List.mem_cons_of_mem _ hb)

theorem Sound.commit (h : r.Sound) (order : CreationOrder) (ok : Bool)
    (hkeep : r.Keeps (.commit ok)) :
    Sound { r with
      outbox := r.outbox.commit order ok
      saved := (savedBy r.outbox (.commit ok)).toList ++ r.saved } := by
  unfold Outbox.commit
  cases hissued : r.outbox.issued with
  | nil =>
    cases ok with
    | false => exact h
    | true =>
      simp only [savedBy, hissued]
      exact h
  | cons t issued =>
    cases ok with
    | false =>
      -- an aborted transaction leaves the database as it was
      refine h.settle hissued h.stored (fun _ hid => .inl hid) ?_ ?_ ?_
      · rintro l ⟨⟩
      · rintro id - ⟨⟩
      · rintro old - ⟨⟩
    | true =>
      have hsaved : savedBy r.outbox (.commit true) = t.saves := by
        simp only [savedBy, hissued, List.head?_cons, Option.bind_some]
      have ht : r.EntryOk (t, none) := by
        apply h.entries
        rw [queue, hissued]
        exact List.mem_append_right _ List.mem_cons_self
      rw [hsaved]
      dsimp only [if_true]
      cases hop : t.op with
      | load sid =>
        have hsaves : t.saves = none := by rw [OutboxTask.saves, hop]
        rw [hsaves]
        refine h.settle hissued h.stored (fun _ hid => .inl hid) ?_ ?_ ?_
        · rintro l ⟨⟩
          -- only a hydration loads
          cases t with
          | hydrate sid' =>
            cases hop
            exact ⟨sid, rfl, fun p hp => mem_loadPendingPrompts order _ sid hp⟩
          | update | enqueue | accepted | stranded | rejected | restored | retry | requeue | edit =>
            cases hop
        · rintro id rfl
          cases hop
        · rintro old rfl
          cases hop
      | save p =>
        have hsaves : t.saves = some p.promptId := by rw [OutboxTask.saves, hop]
        rw [hsaves]
        have hids : ∀ id, id ∈ promptIds (setById r.outbox.idb (toPlainPrompt p)) ↔
            id ∈ promptIds r.outbox.idb ∨ id = p.promptId := fun _ => mem_promptIds_setById
        refine h.settle hissued ?_ ?_ ?_ ?_ ?_
        · intro id hid haccepted htaken
          refine (hids id).mpr ?_
          rcases List.mem_cons.mp hid with rfl | hid
          · exact .inr rfl
          · exact .inl (h.stored id hid haccepted htaken)
        · intro id hid
          rcases (hids id).mp hid with hid | rfl
          · exact .inl hid
          · exact .inr hsaves
        · rintro l ⟨⟩
        · rintro id rfl
          cases hop
        · rintro old rfl
          cases hop
      | delete promptId =>
        have hsaves : t.saves = none := by rw [OutboxTask.saves, hop]
        rw [hsaves]
        have hnotRetry : ∀ old, t ≠ .retry old := by
          rintro old rfl
          exact hkeep old (by rw [hissued, List.head?_cons])
        refine h.settle hissued ?_ ?_ ?_ ?_ ?_
        · -- what is deleted was accepted, edited or restored
          intro id hid haccepted htaken
          have hin := h.stored id hid haccepted htaken
          apply mem_promptIds_removeById_of_ne _ hin
          rintro rfl
          rcases ht.deletes id hop with ⟨old, hold⟩ | hin | hin
          · exact hnotRetry old hold
          · exact haccepted hin
          · exact htaken hin
        · exact fun id hid => .inl (promptIds_removeById_sublist.subset hid)
        · rintro l ⟨⟩
        · rintro id rfl -
          cases hop
          exact notMem_promptIds_removeById
        · intro old hold
          exact absurd hold (hnotRetry old)

/-- The first of what is through goes on, and leaves the queue. -/
theorem Sound.pop (h : r.Sound) {t : OutboxTask} {o : Outcome}
    {settled : List (OutboxTask × Outcome)} (hsettled : r.outbox.settled = (t, o) :: settled) :
    Sound { r with outbox := { r.outbox with settled := settled } } ∧ r.EntryOk (t, some o) ∧
      ∀ e ∈ Outbox.queue { r.outbox with settled := settled }, Follows (t, some o) e := by
  have hqueue : r.outbox.queue =
      (t, some o) :: Outbox.queue { r.outbox with settled := settled } := by
    rw [queue, hsettled]
    rfl
  have hfollows := h.follows
  rw [hqueue, List.pairwise_cons] at hfollows
  refine ⟨⟨h.distinct, h.current, h.stored, h.known, h.cleared, ?_, hfollows.2⟩, ?_, hfollows.1⟩
  · intro e he
    have hok : r.EntryOk e := by
      apply h.entries
      rw [hqueue]
      exact List.mem_cons_of_mem _ he
    exact hok.of_outbox rfl rfl rfl
  · apply h.entries
    rw [hqueue]
    exact List.mem_cons_self

theorem Sound.removeById (h : r.Sound) (promptId : String) :
    Sound { r with
      outbox := { r.outbox with prompts := removeById r.outbox.prompts promptId } } := by
  refine h.change rfl rfl ?_ ?_ ?_ fun _ hid => .inl hid
  · exact promptIds_removeById_sublist.nodup h.distinct
  · intro hfinished sid hsid p hp
    exact h.current hfinished sid hsid p (List.mem_of_mem_filter hp)
  · exact fun id hid => .inl (promptIds_removeById_sublist.subset hid)

/-- The deletion of an accepted prompt is completed. -/
theorem Sound.clear (h : r.Sound) (hused : promptId ∈ r.used)
    (hgone : promptId ∉ promptIds r.outbox.idb)
    (hafter : ∀ e ∈ r.outbox.queue, e.1.saves ≠ some promptId ∧
      ∀ l, e.2 = some (.loaded l) → promptId ∉ promptIds l) :
    Sound { r with
      outbox := { r.outbox with prompts := Pantoken.removeById r.outbox.prompts promptId }
      cleared := promptId :: r.cleared } := by
  have hremoved := h.removeById promptId
  refine ⟨hremoved.distinct, hremoved.current, h.stored, hremoved.known, ?_, ?_, h.follows⟩
  · intro id hid
    rcases List.mem_cons.mp hid with rfl | hid
    · exact ⟨hused, notMem_promptIds_removeById, hgone⟩
    · exact hremoved.cleared id hid
  · intro e he
    have hok := hremoved.entries e he
    refine ⟨hok.known, ?_, ?_, hok.fresh, hok.deletes, hok.gone, hok.kept⟩
    · -- nothing that is under way saves it again, or has loaded it
      intro id hid
      rcases List.mem_cons.mp hid with rfl | hid
      · exact (hafter e he).1
      · exact hok.silent id hid
    · intro l hl
      obtain ⟨sid, hsid, hall⟩ := hok.loads l hl
      refine ⟨sid, hsid, fun p hp => ?_⟩
      obtain ⟨hserver, hin, hcleared⟩ := hall p hp
      refine ⟨hserver, hin, fun hmem => ?_⟩
      rcases List.mem_cons.mp hmem with rfl | hmem
      · exact (hafter e he).2 l hl (mem_promptIds.mpr ⟨p, hp, rfl⟩)
      · exact hcleared hmem

/-- A new entry was saved: it is shown and sent. -/
theorem Sound.push (h : r.Sound) {p : PendingPrompt}
    (hnew : p.promptId ∉ promptIds r.outbox.prompts) (hused : p.promptId ∈ r.used)
    (hcleared : p.promptId ∉ r.cleared) (hserver : r.finished = true →
      ∀ sid, r.outbox.serverId = some sid → p.serverId = sid)
    (hafter : ∀ e ∈ r.outbox.queue, e.1.subject ≠ some p.promptId) :
    Sound { r with
      outbox := Outbox.sendPendingPrompt { r.outbox with prompts := r.outbox.prompts ++ [p] }
        p.promptId } := by
  have hpushed : Sound { r with
      outbox := { r.outbox with prompts := r.outbox.prompts ++ [p] } } := by
    refine h.change rfl rfl ?_ ?_ ?_ fun _ hid => .inl hid
    · rw [promptIds_append, List.nodup_append]
      refine ⟨h.distinct, List.nodup_singleton _, ?_⟩
      intro a ha b hb hab
      obtain rfl : b = p.promptId := List.mem_singleton.mp hb
      exact hnew (hab ▸ ha)
    · intro hfinished sid hsid q hq
      rcases List.mem_append.mp hq with hq | hq
      · exact h.current hfinished sid hsid q hq
      · rw [List.mem_singleton.mp hq]
        exact hserver hfinished sid hsid
    · intro id hid
      rw [promptIds_append] at hid
      rcases List.mem_append.mp hid with hid | hid
      · exact .inl hid
      · obtain rfl : id = p.promptId := List.mem_singleton.mp hid
        exact .inr ⟨hused, hcleared, fun e he henqueues => hafter e he henqueues.subject⟩
  apply hpushed.sendPendingPrompt
  intro q _ _ _ hdeleting
  obtain ⟨e, he, hdeletes⟩ := deleting_iff.mp hdeleting
  exact hafter e he hdeletes.subject

/-- What was loaded joins the entries of the server in memory. -/
theorem Sound.hydrateLoaded (h : r.Sound) (order : CreationOrder) (sid : String)
    {stored : List PendingPrompt}
    (hstored : ∀ p ∈ stored, p.serverId = sid ∧ p.promptId ∈ r.used ∧ p.promptId ∉ r.cleared ∧
      ∀ e ∈ r.outbox.queue, ¬Enqueues p.promptId e)
    (hother : r.finished = true → r.outbox.serverId ≠ some sid →
      r.outbox.prompts.filter (·.serverId = sid) = [] ∧ stored = [])
    (hlive : r.outbox.FlushKeeps (r.outbox.prompts.filter (·.serverId = sid)))
    (hloaded : r.outbox.FlushKeeps (stored.filter fun p =>
      p.promptId ∉ promptIds (r.outbox.prompts.filter (·.serverId = sid)))) :
    Sound { r with
      outbox := r.outbox.hydrateLoaded order sid stored
      finished := r.finished || r.outbox.serverId = some sid } := by
  obtain ⟨hn, hmem⟩ := mergeLive_spec sid h.distinct stored
  have hmem' : ∀ p ∈ order.sort (Outbox.mergeLive sid r.outbox.prompts stored),
      p ∈ r.outbox.prompts.filter (·.serverId = sid) ∨ p ∈ stored.filter fun p =>
        p.promptId ∉ promptIds (r.outbox.prompts.filter (·.serverId = sid)) :=
    fun p hp => hmem p ((order.perm _).mem_iff.mp hp)
  have hmerged : Sound { r with
      outbox := { r.outbox with
        prompts := order.sort (Outbox.mergeLive sid r.outbox.prompts stored)
        hydrated := some sid }
      finished := r.finished || r.outbox.serverId = some sid } := by
    refine h.change rfl rfl ?_ ?_ ?_ fun _ hid => .inl hid
    · exact ((order.perm _).map _).nodup_iff.mpr hn
    · intro hfinished sid' hsid' p hp
      by_cases hsid : r.outbox.serverId = some sid
      · obtain rfl : sid = sid' := Option.some.inj (hsid.symm.trans hsid')
        rcases hmem' p hp with hp | hp
        · exact of_decide_eq_true (List.mem_filter.mp hp).2
        · exact (hstored p (List.mem_of_mem_filter hp)).1
      · -- late for a server that is not the current one any more
        rw [decide_eq_false hsid, Bool.or_false] at hfinished
        obtain ⟨hnone, hnone'⟩ := hother hfinished hsid
        rcases hmem' p hp with hp | hp
        · rw [hnone] at hp
          cases hp
        · rw [hnone'] at hp
          cases hp
    · intro id hid
      obtain ⟨p, hp, rfl⟩ := mem_promptIds.mp hid
      rcases hmem' p hp with hp | hp
      · exact .inl (mem_promptIds.mpr ⟨p, List.mem_of_mem_filter hp, rfl⟩)
      · exact .inr (hstored p (List.mem_of_mem_filter hp)).2
  apply hmerged.flushOutbox
  intro hconnected p hp hrejected hserver hdeleting
  rcases hmem' p hp with hp | hp
  · exact hlive hconnected p hp hrejected hserver hdeleting
  · exact hloaded hconnected p hp hrejected hserver hdeleting

/-- A hydration goes on with what it has loaded. -/
theorem Sound.complete_hydrate (h : r.Sound) (order : CreationOrder) {sid : String}
    {stored : List PendingPrompt} {settled : List (OutboxTask × Outcome)}
    (hsettled : r.outbox.settled = (.hydrate sid, .loaded stored) :: settled)
    (hother : r.finished = true → r.outbox.serverId ≠ some sid →
      r.outbox.prompts.filter (·.serverId = sid) = [] ∧ stored = [])
    (hlive : r.outbox.FlushKeeps (r.outbox.prompts.filter (·.serverId = sid)))
    (hloaded : r.outbox.FlushKeeps (stored.filter fun p =>
      p.promptId ∉ promptIds (r.outbox.prompts.filter (·.serverId = sid)))) :
    Sound { r with
      outbox := Outbox.hydrateLoaded order { r.outbox with settled := settled } sid stored
      finished := r.finished || r.outbox.serverId = some sid } := by
  obtain ⟨hpopped, hok, hafter⟩ := h.pop hsettled
  have hdeleting : ∀ id, Outbox.Deleting { r.outbox with settled := settled } id →
      r.outbox.Deleting id := by
    rintro id (hissued | hin)
    · exact .inl hissued
    · refine .inr ?_
      rw [hsettled]
      exact List.mem_cons_of_mem _ hin
  apply hpopped.hydrateLoaded order sid
  · -- what was loaded is not being enqueued, and nothing has cleared it since
    intro p hp
    obtain ⟨sid', hsid', hall⟩ := hok.loads stored rfl
    cases hsid'
    obtain ⟨hserver, hused, hcleared⟩ := hall p hp
    refine ⟨hserver, hused, hcleared, fun e he henqueues => ?_⟩
    exact (hafter e he).unloaded _ stored henqueues rfl (mem_promptIds.mpr ⟨p, hp, rfl⟩)
  · exact hother
  · exact fun hconnected p hp hrejected hserver hdel =>
      hlive hconnected p hp hrejected hserver (hdeleting _ hdel)
  · exact fun hconnected p hp hrejected hserver hdel =>
      hloaded hconnected p hp hrejected hserver (hdeleting _ hdel)

/-- A new entry is saved, and goes on to be shown and sent. -/
theorem Sound.complete_enqueue (h : r.Sound) {p : PendingPrompt}
    {retried : Option PendingPrompt} {settled : List (OutboxTask × Outcome)}
    (hsettled : r.outbox.settled = (.enqueue p retried, .done) :: settled)
    (hserver : r.finished = true → ∀ sid, r.outbox.serverId = some sid → p.serverId = sid) :
    Sound { r with
      outbox := Outbox.sendPendingPrompt { r.outbox with
        settled := settled
        prompts := r.outbox.prompts ++ [p] } p.promptId } := by
  obtain ⟨hpopped, hok, hafter⟩ := h.pop hsettled
  have henqueues : Enqueues p.promptId (.enqueue p retried, some .done) := ⟨p, retried, rfl, rfl⟩
  apply hpopped.push
  · exact (hok.fresh _ henqueues).1
  · exact hok.known _ henqueues.subject
  · exact fun hin => hok.silent _ hin henqueues.saves
  · exact hserver
  · exact fun e he => (hafter e he).fresh _ henqueues

theorem Sound.complete (h : r.Sound) (order : CreationOrder) (stamp : Stamp)
    (hkeep : r.Keeps (.complete stamp)) :
    Sound { r with
      outbox := r.outbox.complete order stamp
      finished := finishedBy r.outbox r.finished (.complete stamp)
      used := (usedBy r.outbox (.complete stamp)).toList ++ r.used
      cleared := (clearedBy r.outbox (.complete stamp)).toList ++ r.cleared } := by
  cases hsettled : r.outbox.settled with
  | nil =>
    simp only [Outbox.complete, finishedBy, usedBy, clearedBy, hsettled]
    exact h
  | cons a settled =>
    obtain ⟨t, o⟩ := a
    obtain ⟨hpopped, hok, hafter⟩ := h.pop hsettled
    simp only [Outbox.complete, finishedBy, usedBy, clearedBy, hsettled, List.head?_cons]
    -- with nothing to go on with, the operation leaves the queue and that is all
    cases t with
    | hydrate sid =>
      cases o with
      | loaded stored =>
        simp only [Keeps, hsettled] at hkeep
        exact h.complete_hydrate order hsettled hkeep.1 hkeep.2.1 hkeep.2.2
      | failed | done => exact hpopped
    | update p => exact hpopped
    | enqueue p retried =>
      have hnone : retried = none := by
        cases retried with
        | none => rfl
        | some old => exact absurd rfl ((hok.kept old).2.2 p)
      subst hnone
      cases o with
      | done =>
        simp only [Keeps, hsettled] at hkeep
        exact h.complete_enqueue hsettled hkeep
      | failed | loaded => exact hpopped
    | accepted promptId =>
      cases o with
      | done =>
        apply hpopped.clear
        · exact hok.known _ rfl
        · exact hok.gone _ rfl
        · exact fun e he => ⟨(hafter e he).silent _ (.inr rfl),
            fun l hl => (hafter e he).gone _ l (.inr rfl) hl⟩
      | failed | loaded => exact hpopped
    | stranded p =>
      have hoffered : Sound { r with
          outbox := { r.outbox with
            settled := settled
            offers := r.outbox.offers ++ [p] } } := by
        refine hpopped.change rfl rfl h.distinct h.current (fun _ hid => .inl hid) ?_
        intro id hid
        rw [promptIds_append] at hid
        rcases List.mem_append.mp hid with hid | hid
        · exact .inl hid
        · obtain rfl : id = p.promptId := List.mem_singleton.mp hid
          exact .inr ⟨hok.known _ rfl, fun e he henqueues => (hafter e he).apart _ henqueues rfl⟩
      exact hoffered
    | rejected p => exact hpopped
    | restored promptId =>
      cases o with
      | done => exact hpopped.removeById promptId
      | failed | loaded => exact hpopped
    | retry old =>
      cases o with
      | done => exact absurd rfl (hok.kept old).1
      | failed | loaded => exact hpopped
    | requeue old => exact absurd rfl (hok.kept old).2.1
    | edit old =>
      cases o with
      | done => exact hpopped.removeById old.promptId
      | failed | loaded => exact hpopped

/-- One step keeps the invariant. -/
theorem Sound.step (h : r.Sound) (order : CreationOrder) {a : Action} (hkeep : r.Keeps a) :
    (r.step order a).Sound := by
  cases a with
  | network connected socketOpen =>
    exact h.change rfl rfl h.distinct h.current (fun _ hid => .inl hid) fun _ hid => .inl hid
  | hello sid => exact h.hello hkeep
  | switchHost => exact h.switchHost
  | enqueue p stamp => exact h.enqueuePrompt p hkeep
  | result result competingDraft => exact h.result result competingDraft hkeep
  | takeOffer i => exact h.takeOffer i
  | retry promptId => exact h.retryPending promptId
  | edit promptId => exact h.editPending promptId
  | commit ok => exact h.commit order ok hkeep
  | complete stamp => exact h.complete order stamp hkeep

end Steps

/-! ### Runs -/

theorem sound_boot (lastServerId : Option String) (idb : List PendingPrompt) :
    (boot lastServerId idb).Sound where
  distinct := List.nodup_nil
  current := Bool.noConfusion
  stored := fun _ hid _ _ => hid
  known := by
    rintro id (hid | hid | hid)
    · cases hid
    · cases hid
    · exact hid
  cleared := by
    intro id hid
    cases hid
  entries := by
    intro e he
    cases he
  follows := List.Pairwise.nil

/-- **In a run whose steps all keep the outbox intact it is intact**, after every part of
the run. -/
theorem intact_of_keeps (order : CreationOrder) (lastServerId : Option String)
    (idb : List PendingPrompt) (acts : List Action)
    (h : Along (step order) Keeps (boot lastServerId idb) acts) :
    ∀ pre, pre <+: acts → ((boot lastServerId idb).run order pre).Intact := by
  rintro pre ⟨rest, rfl⟩
  have hsound := Along.foldl_invariant (I := Sound) (fun r a hr hkeep => Sound.step hr order hkeep)
    (sound_boot lastServerId idb) h.of_append
  exact hsound.intact

/-- A prompt for the composer's session, as it is enqueued. -/
def typed (text : String) : PendingPrompt where
  promptId := ""
  serverId := ""
  kind := .prompt
  text := text
  images := none
  deliverAs := none
  midTurn := none
  sessionId := some "s"
  newSession := none
  createdAt := ""
  state := .queued
  error := none

/-- A prompt is sent, and the server answers for it; what is saved on the way is through
before the answer. -/
def sendAndAnswer (promptId : String) (accepted : Bool) : List Action :=
  [.enqueue (typed "hi") ⟨promptId, "t", false⟩, .commit true, .complete ⟨"", "", false⟩,
    .commit true, .complete ⟨"", "", false⟩, .result ⟨promptId, accepted, some "s", none⟩ false,
    .commit true, .complete ⟨"", "", false⟩]

/-- The first server says hello, with nothing stored for it. -/
def greeted : List Action :=
  [.network true true, .hello "a", .commit true, .complete ⟨"", "", false⟩]

/-- A prompt is sent and accepted, and its deletion completed. -/
theorem intact_of_keeps_accepted :
    ((boot none []).run default (greeted ++ sendAndAnswer "p" true)).Intact := by
  refine intact_of_keeps default none [] (greeted ++ sendAndAnswer "p" true) ?_ _
    (List.prefix_refl _)
  refine ⟨trivial, ?_, ?_, ?_, ?_, ?_, ?_, ?_, ?_, ?_, ?_, ?_, trivial⟩
  · intro hhydrated
    cases hhydrated
  · intro old hold
    cases hold
  · refine And.intro (fun hfinished => ?_) (And.intro ?_ ?_)
    · cases hfinished
    · intro _ p hp
      cases hp
    · intro _ p hp
      cases hp
  · show "p" ∉ _
    decide
  · intro old hold
    cases hold
  · intro _ sid hsid
    cases hsid
    rfl
  · intro old hold
    cases hold
  · trivial
  · intro haccepted
    cases haccepted
  · intro old hold
    cases hold
  · trivial

/-! ### The divergence -/

/-- **The outbox is not kept.**  The host is switched to another server and back before the
hydrations are through, and the one of the other server puts its prompt in memory last.  A
rejected prompt is retried, and while its new entry is being saved it is neither in the
database nor in memory.  A prompt is accepted, and the hydration that was under way marks
and saves it once more after its deletion. -/
theorem not_intact :
    let switched := (boot none [{ typed "hi" with promptId := "q", serverId := "b" }]).run default
      [.network true true, .hello "a", .switchHost, .hello "b", .switchHost, .hello "a",
        .commit true, .commit true, .complete ⟨"", "", false⟩, .complete ⟨"", "", false⟩]
    let retried := (boot none []).run default (greeted ++ sendAndAnswer "p" false ++
      [.retry "p", .commit true, .complete ⟨"p'", "t", false⟩])
    let accepted := (boot (some "a") []).run default
      [.network true true, .enqueue (typed "hi") ⟨"p", "t", false⟩, .hello "a", .commit true,
        .commit true, .complete ⟨"", "", false⟩, .result ⟨"p", true, some "s", none⟩ false,
        .network true false, .complete ⟨"", "", false⟩, .commit true, .commit true, .commit true,
        .complete ⟨"", "", false⟩, .complete ⟨"", "", false⟩]
    ¬switched.Intact ∧ ¬retried.Intact ∧ ¬accepted.Intact := by
  intro switched retried accepted
  refine ⟨fun h => ?_, fun h => ?_, fun h => ?_⟩
  · have hshown : switched.outbox.prompts.map (·.serverId) = ["b"] := by decide
    obtain ⟨p, hp, hserver⟩ : ∃ p ∈ switched.outbox.prompts, p.serverId = "b" := by
      apply List.mem_map.mp
      rw [hshown]
      exact List.mem_singleton_self _
    have ha := h.current rfl "a" rfl p hp
    rw [hserver] at ha
    revert ha
    decide
  · have hstored : promptIds retried.outbox.idb = [] := by decide
    have hshown : promptIds retried.outbox.prompts = [] := by decide
    have hkept := h.durable "p" (by decide) (by decide) (by decide)
    rw [hstored, hshown] at hkept
    rcases hkept with hkept | hkept
    · cases hkept
    · cases hkept
  · have hstored : "p" ∈ promptIds accepted.outbox.idb := by decide
    exact (h.settled "p" (by decide)).2 hstored

end Recorded

end Pantoken
