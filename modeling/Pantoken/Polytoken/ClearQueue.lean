import Mathlib.Data.List.Perm.Basic

/-!
# Clearing the queue

The daemon removes a queued message only from the end of its queue, one a request.  So
`clear_queue` reads the queue, asks for as many removals as it has items, and returns the
texts it read; the turn may drain items in between, and other clients may add some.

## Main definitions

* `InputQueue` — the daemon's queue, and what became of the messages.
* `Round` — what happens before a request, and how the request goes.
* `clearQueue` — the operation.
* `Returned.Exact` — the texts returned are those of the messages removed.

## Main results

* `clearQueue_returns` — **when the requests succeed and nothing is added meanwhile, what was
  read is split in what was drained and what was removed, and the queue is left empty.**
* `not_exact` — a message that is drained after it was read is delivered and returned.
-/

namespace Pantoken

structure QueuedInput where
  itemId : String
  content : String
  deriving DecidableEq

/-- The daemon's queue, with the messages the turn has drained and those `clear_queue` has
removed since it read the queue. -/
structure InputQueue where
  queue : List QueuedInput
  drained : List QueuedInput
  removed : List QueuedInput

/-- What others do to the queue between two requests. -/
inductive Meanwhile where
  /-- The turn takes these items. -/
  | drain (itemIds : List String)
  | enqueue (item : QueuedInput)

/-- How `DELETE /turn/input/newest` goes. -/
inductive Dequeue where
  /-- 200, or 409 when the queue is empty -/
  | ok
  /-- another status; nothing is removed -/
  | refused
  /-- no answer; the daemon may have removed the item -/
  | lost (performed : Bool)

/-- A request, and what happens before it. -/
structure Round where
  before : List Meanwhile
  dequeue : Dequeue

/-- `ClearQueueResult` -/
structure ClearQueueResult where
  steering : List String
  followUp : List String

namespace InputQueue

def meanwhile (q : InputQueue) : Meanwhile → InputQueue
  | .drain itemIds =>
    { q with
      queue := q.queue.filter fun item => !itemIds.contains item.itemId
      drained := q.drained ++ q.queue.filter fun item => itemIds.contains item.itemId }
  | .enqueue item => { q with queue := q.queue ++ [item] }

/-- The daemon takes off the newest item. -/
def removeNewest (q : InputQueue) : InputQueue :=
  { q with queue := q.queue.dropLast, removed := q.queue.getLast?.toList ++ q.removed }

/-- `dequeue_newest_input`, and whether it returns `Ok`. -/
def dequeueNewestInput (q : InputQueue) : Dequeue → InputQueue × Bool
  | .ok => (q.removeNewest, true)
  | .refused => (q, false)
  | .lost performed => (if performed then q.removeNewest else q, false)

/-- The loop of `clear_queue`, from request `i` on; it stops at the first failure. -/
def dequeueAll (rounds : ℕ → Round) : ℕ → ℕ → InputQueue → InputQueue
  | 0, _, q => q
  | n + 1, i, q =>
    match ((rounds i).before.foldl meanwhile q).dequeueNewestInput (rounds i).dequeue with
    | (q, true) => dequeueAll rounds n (i + 1) q
    | (q, false) => q

/-- `clear_queue`; `answered` tells whether the session is connected and its queue was read. -/
def clearQueue (rounds : ℕ → Round) (answered : Bool) (q : InputQueue) :
    InputQueue × ClearQueueResult :=
  let items := if answered then q.queue else []
  (dequeueAll rounds items.length 0 q, ⟨items.map (·.content), []⟩)

end InputQueue

/-- The texts returned are those of the messages removed. -/
def ClearQueueResult.Exact (r : ClearQueueResult) (q : InputQueue) : Prop :=
  (r.steering ++ r.followUp).Perm (q.removed.map (·.content))

/-- Nothing is added before the request, which succeeds. -/
def Round.Calm (r : Round) : Prop :=
  r.dequeue = .ok ∧ ∀ m ∈ r.before, ∃ itemIds, m = .drain itemIds

namespace InputQueue

/-- Every item that was read is still queued, drained or removed, and those not drained are in
order. -/
structure Accounts (items : List QueuedInput) (q : InputQueue) : Prop where
  perm : (q.drained ++ (q.queue ++ q.removed)).Perm items
  sublist : (q.queue ++ q.removed).Sublist items

theorem Accounts.drain {items : List QueuedInput} {q : InputQueue} (h : q.Accounts items)
    (itemIds : List String) : (q.meanwhile (.drain itemIds)).Accounts items where
  perm := by
    refine List.Perm.trans ?_ h.perm
    have hsplit := List.filter_append_perm (fun item => itemIds.contains item.itemId) q.queue
    simp only [meanwhile, List.append_assoc]
    rw [← List.append_assoc (q.queue.filter _)]
    exact (hsplit.append_right _).append_left _
  sublist := (List.filter_sublist.append_right _).trans h.sublist

theorem dropLast_append_removed (q : InputQueue) :
    q.removeNewest.queue ++ q.removeNewest.removed = q.queue ++ q.removed := by
  unfold removeNewest
  rcases List.eq_nil_or_concat q.queue with h | ⟨front, last, h⟩ <;> simp [h]

theorem Accounts.removeNewest {items : List QueuedInput} {q : InputQueue} (h : q.Accounts items) :
    q.removeNewest.Accounts items where
  perm := by
    rw [dropLast_append_removed]
    exact h.perm
  sublist := by
    rw [dropLast_append_removed]
    exact h.sublist

/-- **A calm request keeps the account, and takes an item off the queue when there is one.** -/
theorem Accounts.round {items : List QueuedInput} {q : InputQueue} (h : q.Accounts items)
    {before : List Meanwhile} (hbefore : ∀ m ∈ before, ∃ itemIds, m = .drain itemIds) :
    (before.foldl meanwhile q).removeNewest.Accounts items ∧
      (before.foldl meanwhile q).removeNewest.queue.length ≤ q.queue.length - 1 := by
  induction before generalizing q with
  | nil => exact ⟨h.removeNewest, by simp [InputQueue.removeNewest]⟩
  | cons m before ih =>
    obtain ⟨itemIds, rfl⟩ := hbefore m (List.mem_cons_self ..)
    obtain ⟨hacc, hlen⟩ := ih (h.drain itemIds) fun m hm => hbefore m (List.mem_cons_of_mem _ hm)
    refine ⟨hacc, Nat.le_trans hlen (Nat.sub_le_sub_right ?_ 1)⟩
    exact List.length_filter_le _ _

/-- As many calm requests as there are items leave the queue empty. -/
theorem Accounts.dequeueAll {items : List QueuedInput} {rounds : ℕ → Round} (n : ℕ) :
    ∀ {i : ℕ} {q : InputQueue}, q.Accounts items → q.queue.length ≤ n →
      (∀ k < n, (rounds (i + k)).Calm) →
      (q.dequeueAll rounds n i).Accounts items ∧ (q.dequeueAll rounds n i).queue = [] := by
  induction n with
  | zero => exact fun h hlen _ => ⟨h, List.length_eq_zero_iff.mp (Nat.le_zero.mp hlen)⟩
  | succ n ih =>
    -- a round that drains more than the request takes makes the later requests idle
    intro i q h hlen hcalm
    obtain ⟨hok, hbefore⟩ := hcalm 0 (Nat.succ_pos n)
    obtain ⟨hacc, hlen'⟩ := h.round hbefore
    unfold InputQueue.dequeueAll
    rw [Nat.add_zero] at hok
    rw [hok]
    refine ih hacc (by rw [Nat.add_zero] at hlen'; omega) fun k hk => ?_
    rw [Nat.add_assoc, Nat.add_comm 1]
    exact hcalm (k + 1) (Nat.succ_lt_succ hk)

end InputQueue

open InputQueue in
/-- **When every request succeeds and nothing is added meanwhile, the queue is left empty, the
texts returned are those that were read, each message was either drained or removed, and the
texts returned are exactly those removed when nothing was drained.** -/
theorem clearQueue_returns (rounds : ℕ → Round) (queue : List QueuedInput)
    (hcalm : ∀ i < queue.length, (rounds i).Calm) :
    let (q, r) := clearQueue rounds true ⟨queue, [], []⟩
    q.queue = [] ∧ r.steering = queue.map (·.content) ∧ r.followUp = [] ∧
      (q.drained ++ q.removed).Perm queue ∧ q.removed.Sublist queue ∧
      (r.Exact q ↔ q.drained = []) := by
  have hstart : Accounts queue ⟨queue, [], []⟩ := ⟨by simp, by simp⟩
  have hcalm' : ∀ k < queue.length, (rounds (0 + k)).Calm := fun k hk => by
    rw [Nat.zero_add]
    exact hcalm k hk
  obtain ⟨hacc, hempty⟩ := hstart.dequeueAll queue.length (Nat.le_refl _) hcalm'
  have hperm := hacc.perm
  have hsub := hacc.sublist
  rw [hempty, List.nil_append] at hperm hsub
  have hclear : clearQueue rounds true ⟨queue, [], []⟩ =
      (dequeueAll rounds queue.length 0 ⟨queue, [], []⟩, ⟨queue.map (·.content), []⟩) := rfl
  rw [hclear]
  refine ⟨hempty, rfl, rfl, hperm, hsub, ?_⟩
  unfold ClearQueueResult.Exact
  rw [List.append_nil]
  constructor
  · -- as many were removed as were read, which leaves none that was drained
    intro hexact
    have hlen := hexact.length_eq
    have hlen' := hperm.length_eq
    rw [List.length_map, List.length_map] at hlen
    rw [List.length_append] at hlen'
    exact List.length_eq_zero_iff.mp (by omega)
  · intro hdrained
    rw [hdrained, List.nil_append] at hperm
    exact (hperm.map _).symm

/-- Two messages and no interference. -/
theorem clearQueue_returns_two :
    let (q, r) := InputQueue.clearQueue (fun _ => ⟨[], .ok⟩) true
      ⟨[⟨"1", "first"⟩, ⟨"2", "second"⟩], [], []⟩
    q.queue = [] ∧ r.steering = ["first", "second"] ∧ r.followUp = [] ∧
      (q.drained ++ q.removed).Perm [⟨"1", "first"⟩, ⟨"2", "second"⟩] ∧
      q.removed.Sublist [⟨"1", "first"⟩, ⟨"2", "second"⟩] ∧ (r.Exact q ↔ q.drained = []) :=
  clearQueue_returns (fun _ => ⟨[], .ok⟩) [⟨"1", "first"⟩, ⟨"2", "second"⟩]
    fun _ _ => ⟨rfl, by simp⟩

/-- The turn drains the first of two messages before the first removal. -/
def drainedFirst : ℕ → Round
  | 0 => ⟨[.drain ["1"]], .ok⟩
  | _ => ⟨[], .ok⟩

/-- **The drained message is delivered, and returned.** -/
theorem not_exact :
    let (q, r) := InputQueue.clearQueue drainedFirst true
      ⟨[⟨"1", "first"⟩, ⟨"2", "second"⟩], [], []⟩
    ¬ r.Exact q ∧ q.drained = [⟨"1", "first"⟩] ∧ r.steering = ["first", "second"] := by
  refine ⟨fun h => ?_, rfl, rfl⟩
  have hlen := h.length_eq
  cases hlen

end Pantoken
