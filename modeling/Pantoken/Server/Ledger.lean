import Mathlib.Data.List.Nodup
import Pantoken.Lib.PMap

/-!
# The prompt ledger

The hub remembers the results of the prompts it ran, so that a client that sends a
prompt again is answered instead of running it twice.  The map from prompt ids to
results is bounded: a queue holds the ids in the order they were recorded, and the
oldest are evicted past the cap.

## Main definitions

* `PromptLedger`, `checkPromptIdempotency`, `cachePromptResult` — the ledger.
* `PromptLedger.WellFormed` — the map and the queue hold the same ids, at most the cap.

## Main results

* `wellFormed_cachePromptResult` — **recording keeps the ledger well formed.**
-/

namespace Pantoken

/-- `PROMPT_RESULT_CAP` -/
def promptResultCap : Nat := 2048

/-- `ServerMessage::PromptResult` -/
structure PromptResult where
  promptId : String
  accepted : Bool
  sessionId : Option String
  error : Option String
  deriving DecidableEq

/-- `prompt_results` and `prompt_result_order` -/
structure PromptLedger where
  results : PMap String PromptResult
  order : List String

/-- The ledger of a new hub. -/
def PromptLedger.empty : PromptLedger := ⟨.empty, []⟩

/-- `check_prompt_idempotency` -/
def checkPromptIdempotency (ledger : PromptLedger) (promptId : Option String) :
    Option PromptResult :=
  promptId.bind ledger.results

/-- The eviction loop of `cache_prompt_result`: past the cap the oldest id goes. -/
def evictOldest (results : PMap String PromptResult) : List String → PromptLedger
  | [] => ⟨results, []⟩
  | oldest :: order =>
    if (oldest :: order).length > promptResultCap then evictOldest (results.erase oldest) order
    else ⟨results, oldest :: order⟩

/-- `cache_prompt_result` -/
def cachePromptResult (ledger : PromptLedger) (promptId : String) (msg : PromptResult) :
    PromptLedger :=
  let order :=
    if (ledger.results promptId).isSome then ledger.order.filter (· ≠ promptId) else ledger.order
  evictOldest (ledger.results.insert promptId msg) (order ++ [promptId])

/-- The map and the queue hold the same ids, each once, and no more than the cap. -/
structure PromptLedger.WellFormed (ledger : PromptLedger) : Prop where
  mem_iff : ∀ p, p ∈ ledger.order ↔ (ledger.results p).isSome
  nodup : ledger.order.Nodup
  length_le : ledger.order.length ≤ promptResultCap

theorem wellFormed_empty : PromptLedger.empty.WellFormed where
  mem_iff := by simp [PromptLedger.empty]
  nodup := List.nodup_nil
  length_le := Nat.zero_le _

/-- Evicting an id removes it from the map and from the queue. -/
theorem wellFormed_evictOldest {results : PMap String PromptResult} {order : List String}
    (hmem : ∀ p, p ∈ order ↔ (results p).isSome) (hnd : order.Nodup) :
    (evictOldest results order).WellFormed := by
  induction order generalizing results with
  | nil => exact ⟨hmem, List.nodup_nil, Nat.zero_le _⟩
  | cons oldest order ih =>
    obtain ⟨hnot, hnd'⟩ := List.nodup_cons.mp hnd
    unfold evictOldest
    split
    · -- past the cap: the id leaves map and queue together
      refine ih (fun p => ?_) hnd'
      rw [PMap.erase_apply]
      by_cases hp : p = oldest
      · subst hp
        simpa using hnot
      · simpa [hp] using hmem p
    · next hlen => exact ⟨hmem, hnd, Nat.le_of_not_gt hlen⟩

/-- **Recording a result keeps the ledger well formed.** -/
theorem wellFormed_cachePromptResult {ledger : PromptLedger} (h : ledger.WellFormed)
    (promptId : String) (msg : PromptResult) :
    (cachePromptResult ledger promptId msg).WellFormed := by
  have hnew : ∀ p, p ∈ (if (ledger.results promptId).isSome then
        ledger.order.filter (· ≠ promptId) else ledger.order) ↔
      p ≠ promptId ∧ (ledger.results p).isSome := by
    intro p
    split
    · rw [List.mem_filter, h.mem_iff]
      simp [and_comm]
    · next hno =>
      rw [h.mem_iff]
      refine ⟨fun hp => ⟨fun heq => hno (heq ▸ hp), hp⟩, And.right⟩
  refine wellFormed_evictOldest (fun p => ?_) ?_
  · rw [List.mem_append, hnew, List.mem_singleton, PMap.insert_apply]
    by_cases hp : p = promptId <;> simp [hp]
  · rw [List.nodup_append]
    refine ⟨?_, List.nodup_singleton _, fun p hp q hq => ?_⟩
    · split
      · exact h.nodup.filter _
      · exact h.nodup
    · rw [List.mem_singleton.mp hq]
      exact ((hnew p).mp hp).1

end Pantoken
