import Mathlib.Data.List.Nodup
import Pantoken.Lib.Run

/-!
# The listing caches

Models, facets and commands are listed by subprocesses, and the results are kept until the
configuration changes.  Of the callers that find no models one is elected to run the
subprocess, and the others wait for its end; a wake-up goes from waiter to waiter, and one
that finds nobody is stored.  Facets and commands are kept by working directory, and every
caller that finds none runs a subprocess of its own.

Nothing ties a subprocess to the invalidations that come while it runs, the elected caller
may be dropped while it waits for its subprocess, and a stored wake-up is spent by a waiter
that stores it again.

## Main definitions

* `Caller`, `Caches`, `Caches.step` — the calls in progress, the caches, and one step of them;
  other calls go on between any two steps of a call.
* `Caches.Kept` — what is claimed: no stale result is kept, the flag is set only while a fetch
  goes on, and a waiter meets a fetch at most once.
* `Caches.Keeps` — the condition on a step.

## Main results

* `sound_step` — what a step under the condition keeps.
* `kept_of_keeps` — **in every run whose steps meet the condition, what is claimed holds in
  every state.**
* `not_kept` — an invalidation while the subprocess runs, an elected caller that is dropped,
  and a waiter that goes round and round while a fetch goes on.
-/

namespace Pantoken

/-- What is listed, and where. -/
inductive CacheKey where
  | models
  | facets (cwd : String)
  | commands (cwd : String)
  deriving DecidableEq

/-- A kept result, and when its subprocess was started. -/
structure CacheEntry (R : Type*) where
  result : R
  started : ℕ

/-- Where a call is. -/
inductive Caller (R : Type*) where
  /-- not begun, or dropped -/
  | idle
  /-- It looks at the cache. -/
  | check (key : CacheKey)
  /-- It tries to become the fetcher. -/
  | elect
  /-- It starts the subprocess. -/
  | spawn (key : CacheKey)
  | running (key : CacheKey) (started : ℕ)
  | store (key : CacheKey) (started : ℕ) (result : R)
  /-- It clears the fetching flag. -/
  | clear (result : R)
  /-- It wakes a waiter. -/
  | notify (result : R)
  /-- It asks for a notification. -/
  | await
  /-- It is queued for one. -/
  | parked
  /-- It has one, and passes it on. -/
  | woken
  | done (result : R)

namespace Caller

variable {R : Type*}

/-- The call fetches the models, with the flag set. -/
def Fetches : Caller R → Prop
  | .spawn key | .running key _ | .store key _ _ => key = .models
  | .clear _ => True
  | _ => False

/-- The call has a wake-up to give. -/
def holdsWake : Caller R → Bool
  | .notify _ | .woken => true
  | _ => false

/-- The call is in its loop, and not in the queue. -/
def Loops : Caller R → Prop
  | .check key => key = .models
  | .elect | .woken => True
  | _ => False

end Caller

/-- `invalidate_model_cache`, `invalidate_all_config_caches`, `invalidate_cwd_config_caches` -/
inductive Invalidation where
  | models
  | all
  | cwd (dir : String)

def Invalidation.covers : Invalidation → CacheKey → Bool
  | .models, .models => true
  | .all, _ => true
  | .cwd dir, .facets dir' | .cwd dir, .commands dir' => dir = dir'
  | _, _ => false

/-- The caches, the flag and the notification of the models, and the calls. -/
structure Caches (R : Type*) where
  cache : CacheKey → Option (CacheEntry R)
  /-- `model_cache_fetching` -/
  fetching : Bool
  /-- the permit that `model_cache_notify` stores -/
  permit : Bool
  /-- the calls queued at `model_cache_notify` -/
  waiting : List ℕ
  callers : ℕ → Caller R
  /-- the calls begun so far -/
  calls : ℕ
  /-- the invalidations so far -/
  now : ℕ
  /-- the last invalidation of a cache -/
  invalidated : CacheKey → ℕ
  /-- the fetches of the models begun so far -/
  fetches : ℕ
  /-- the fetch a call has met last, and how often -/
  met : ℕ → ℕ × ℕ

namespace Caches

variable {R : Type*}

/-- What can happen. -/
inductive Action (R : Type*) where
  | call (key : CacheKey)
  /-- A call takes its next step. -/
  | advance (c : ℕ)
  /-- A call's subprocess ends, with something to keep or without. -/
  | finish (c : ℕ) (result : Option R)
  /-- A call's future is dropped while it waits. -/
  | drop (c : ℕ)
  | invalidate (which : Invalidation)

def setCaller (s : Caches R) (c : ℕ) (a : Caller R) : Caches R :=
  { s with callers := fun c' => if c' = c then a else s.callers c' }

/-- `Notify::notify_one` -/
def notifyOne (s : Caches R) : Caches R :=
  match s.waiting with
  | [] => { s with permit := true }
  | c :: rest => { s with waiting := rest }.setCaller c .woken

/-- The next step of a call. -/
def advance (s : Caches R) (c : ℕ) : Caches R :=
  match s.callers c with
  | .check key =>
    match s.cache key with
    | some e => s.setCaller c (.done e.result)
    | none => s.setCaller c (if key = CacheKey.models then .elect else .spawn key)
  | .elect =>
    if s.fetching then
      { s with
        met := fun c' => if c' = c then
          (s.fetches, if (s.met c).1 = s.fetches then (s.met c).2 + 1 else 1) else s.met c'
        }.setCaller c .await
    else { s with fetching := true, fetches := s.fetches + 1 }.setCaller c (.spawn .models)
  | .spawn key => s.setCaller c (.running key s.now)
  | .store key started result =>
    { s with cache := fun k => if k = key then some ⟨result, started⟩ else s.cache k }.setCaller c
      (if key = CacheKey.models then .clear result else .done result)
  | .clear result => { s with fetching := false }.setCaller c (.notify result)
  | .notify result => (s.setCaller c (.done result)).notifyOne
  | .await =>
    if s.permit then { s with permit := false }.setCaller c .woken
    else { s with waiting := s.waiting ++ [c] }.setCaller c .parked
  | .woken => (s.setCaller c (.check .models)).notifyOne
  | .idle | .running .. | .parked | .done _ => s

/-- A subprocess ends; `fallback` is what a call returns when there is nothing to keep. -/
def finish (fallback : CacheKey → R) (s : Caches R) (c : ℕ) (result : Option R) : Caches R :=
  match s.callers c, result with
  | .running key started, some result => s.setCaller c (.store key started result)
  | .running key _, none =>
    s.setCaller c (if key = CacheKey.models then .clear (fallback key) else .done (fallback key))
  | _, _ => s

/-- A future is dropped; one that was woken passes the notification on. -/
def drop (s : Caches R) (c : ℕ) : Caches R :=
  match s.callers c with
  | .running .. => s.setCaller c .idle
  | .parked => { s with waiting := s.waiting.erase c }.setCaller c .idle
  | .woken => (s.setCaller c .idle).notifyOne
  | _ => s

def invalidate (s : Caches R) (which : Invalidation) : Caches R :=
  { s with
    cache := fun key => if which.covers key then none else s.cache key
    now := s.now + 1
    invalidated := fun key => if which.covers key then s.now + 1 else s.invalidated key }

/-- One step. -/
def step (fallback : CacheKey → R) (s : Caches R) : Action R → Caches R
  | .call key => { s with calls := s.calls + 1 }.setCaller s.calls (.check key)
  | .advance c => s.advance c
  | .finish c result => s.finish fallback c result
  | .drop c => s.drop c
  | .invalidate which => s.invalidate which

/-- Nothing is kept and nobody calls. -/
def empty : Caches R :=
  ⟨fun _ => none, false, false, [], fun _ => .idle, 0, 0, fun _ => 0, 0, fun _ => (0, 0)⟩

/-! ### What is claimed -/

/-- No kept result is of a subprocess that was started before the last invalidation, the
fetching flag is set only while a fetch goes on, and a waiter meets each fetch at most once. -/
structure Kept (s : Caches R) : Prop where
  fresh : ∀ key e, s.cache key = some e → s.invalidated key ≤ e.started
  flag : s.fetching = true → ∃ c, (s.callers c).Fetches
  bounded : ∀ c, (s.met c).2 ≤ 1

/-- No wake-up is stored or about to be given. -/
def Quiet (s : Caches R) : Prop :=
  s.permit = false ∧ ∀ c < s.calls, (s.callers c).holdsWake = false

instance (s : Caches R) : Decidable s.Quiet := inferInstanceAs (Decidable (_ ∧ _))

/-- What is stored was started after the last invalidation, and a call asks for a notification
only while none is about. -/
def MayAdvance (s : Caches R) : Caller R → Prop
  | .store key started _ => s.invalidated key ≤ started
  | .await => s.Quiet
  | _ => True

/-- The elected caller is not dropped. -/
def MayDrop : Caller R → Prop
  | .running key _ => key ≠ .models
  | _ => True

instance (s : Caches R) : DecidablePred s.MayAdvance
  | .store key started _ => inferInstanceAs (Decidable (s.invalidated key ≤ started))
  | .await => inferInstanceAs (Decidable s.Quiet)
  | .idle | .check _ | .elect | .spawn _ | .running .. | .clear _ | .notify _ | .parked | .woken
  | .done _ => isTrue trivial

instance : DecidablePred (MayDrop (R := R))
  | .running key _ => inferInstanceAs (Decidable (key ≠ .models))
  | .idle | .check _ | .elect | .spawn _ | .store .. | .clear _ | .notify _ | .await | .parked
  | .woken | .done _ => isTrue trivial

/-- The condition on a step. -/
def Keeps (s : Caches R) : Action R → Prop
  | .advance c => s.MayAdvance (s.callers c)
  | .drop c => MayDrop (s.callers c)
  | _ => True

instance (s : Caches R) : DecidablePred s.Keeps
  | .advance c => inferInstanceAs (Decidable (s.MayAdvance (s.callers c)))
  | .drop c => inferInstanceAs (Decidable (MayDrop (s.callers c)))
  | .call _ | .finish .. | .invalidate _ => isTrue trivial

/-! ### What a step keeps -/

/-- The callers of the loop, and what they have met. -/
structure Sound (s : Caches R) : Prop extends s.Kept where
  unbegun : ∀ c, s.calls ≤ c → s.callers c = .idle ∧ (s.met c).2 = 0
  parked : ∀ c ∈ s.waiting, s.callers c = .parked
  nodup : s.waiting.Nodup
  seen : ∀ c, (s.met c).1 ≤ s.fetches
  /-- While the fetch a call is queued for goes on, no wake-up is about. -/
  quiet : ∀ c ∈ s.waiting, (s.met c).1 = s.fetches → s.fetching = true → s.Quiet
  /-- A call that goes round has not met the fetch that goes on. -/
  unmet : ∀ c, (s.callers c).Loops → s.fetching = true → (s.met c).1 = s.fetches →
    (s.met c).2 = 0

theorem sound_empty : (empty : Caches R).Sound where
  fresh := fun _ _ h => by cases h
  flag := fun h => by cases h
  bounded := fun _ => Nat.zero_le _
  unbegun := fun _ _ => ⟨rfl, rfl⟩
  parked := fun _ h => by cases h
  nodup := List.nodup_nil
  seen := fun _ => Nat.le_refl _
  quiet := fun _ h => by cases h
  unmet := fun _ h => h.elim

section Step

variable {s : Caches R} {c : ℕ}

@[simp] theorem callers_setCaller_self (s : Caches R) (c : ℕ) (a : Caller R) :
    (s.setCaller c a).callers c = a := if_pos rfl

@[simp] theorem callers_setCaller_of_ne (s : Caches R) {c c' : ℕ} (a : Caller R) (h : c' ≠ c) :
    (s.setCaller c a).callers c' = s.callers c' := if_neg h

theorem Sound.lt_calls (hs : s.Sound) (h : s.callers c ≠ .idle) : c < s.calls := by
  by_contra hge
  exact h (hs.unbegun c (Nat.le_of_not_lt hge)).1

theorem Sound.notMem_waiting (hs : s.Sound) (h : s.callers c ≠ .parked) : c ∉ s.waiting :=
  fun hmem => h (hs.parked c hmem)

/-- Where a wake-up is about, the calls in the queue wait for an earlier fetch. -/
theorem Sound.loud (hs : s.Sound) (h : (s.callers c).holdsWake = true) :
    ∀ t ∈ s.waiting, ¬ ((s.met t).1 = s.fetches ∧ s.fetching = true) := by
  rintro t ht ⟨hseen, hfetching⟩
  have hlt : c < s.calls := hs.lt_calls fun hidle => by rw [hidle] at h; cases h
  rw [(hs.quiet t ht hseen hfetching).2 c hlt] at h
  cases h

/-! What the change of one call leaves of the invariant. -/

theorem Sound.unbegun_setCaller (hs : s.Sound) (hc : s.callers c ≠ .idle) (a : Caller R) :
    ∀ c', s.calls ≤ c' → (s.setCaller c a).callers c' = .idle ∧ (s.met c').2 = 0 := by
  intro c' hle
  have hne : c' ≠ c := fun h => absurd (hs.lt_calls hc) (by rw [← h]; exact Nat.not_lt.mpr hle)
  rw [callers_setCaller_of_ne _ _ hne]
  exact hs.unbegun c' hle

theorem Sound.parked_setCaller (hs : s.Sound) (hc : s.callers c ≠ .parked) (a : Caller R) :
    ∀ c' ∈ s.waiting, (s.setCaller c a).callers c' = .parked := by
  intro c' hmem
  have hne : c' ≠ c := fun h => hs.notMem_waiting hc (h ▸ hmem)
  rw [callers_setCaller_of_ne _ _ hne]
  exact hs.parked c' hmem

theorem Sound.flag_setCaller (hs : s.Sound) {a : Caller R}
    (hflag : (s.callers c).Fetches → a.Fetches) (h : s.fetching = true) :
    ∃ c', ((s.setCaller c a).callers c').Fetches := by
  obtain ⟨c', hc'⟩ := hs.flag h
  rcases eq_or_ne c' c with rfl | hne
  · exact ⟨c', by rw [callers_setCaller_self]; exact hflag hc'⟩
  · exact ⟨c', by rwa [callers_setCaller_of_ne _ _ hne]⟩

theorem Quiet.setCaller (h : s.Quiet) (c : ℕ) {a : Caller R} (ha : a.holdsWake = false) :
    (s.setCaller c a).Quiet := by
  refine ⟨h.1, fun c' hlt => ?_⟩
  rcases eq_or_ne c' c with rfl | hne
  · rw [callers_setCaller_self]
    exact ha
  · rw [callers_setCaller_of_ne _ _ hne]
    exact h.2 c' hlt

theorem Sound.unmet_setCaller (hs : s.Sound) {a : Caller R}
    (hloops : a.Loops → (s.callers c).Loops) :
    ∀ c', ((s.setCaller c a).callers c').Loops → s.fetching = true → (s.met c').1 = s.fetches →
      (s.met c').2 = 0 := by
  intro c' hc'
  rcases eq_or_ne c' c with rfl | hne
  · rw [callers_setCaller_self] at hc'
    exact hs.unmet c' (hloops hc')
  · rw [callers_setCaller_of_ne _ _ hne] at hc'
    exact hs.unmet c' hc'

/-- A call outside the queue goes on; it keeps its fetch, comes by no wake-up, and is in the
loop only when it was. -/
theorem Sound.setCaller (hs : s.Sound) {a : Caller R} (hc : s.callers c ≠ .idle)
    (hpark : s.callers c ≠ .parked) (hflag : (s.callers c).Fetches → a.Fetches)
    (hwake : a.holdsWake = false) (hloops : a.Loops → (s.callers c).Loops) :
    (s.setCaller c a).Sound where
  fresh := hs.fresh
  flag := hs.flag_setCaller hflag
  bounded := hs.bounded
  unbegun := hs.unbegun_setCaller hc a
  parked := hs.parked_setCaller hpark a
  nodup := hs.nodup
  seen := hs.seen
  quiet := fun t ht hseen hfetching => (hs.quiet t ht hseen hfetching).setCaller c hwake
  unmet := hs.unmet_setCaller hloops

/-- A wake-up reaches a call that waits for an earlier fetch, or is stored. -/
theorem Sound.notifyOne (hs : s.Sound)
    (hloud : ∀ t ∈ s.waiting, ¬ ((s.met t).1 = s.fetches ∧ s.fetching = true)) :
    s.notifyOne.Sound := by
  unfold Caches.notifyOne
  cases hwaiting : s.waiting with
  | nil =>
    -- the wake-up is stored, and no call is in the queue to be loud
    exact
      { hs with
        parked := fun c hc => by cases hc
        nodup := List.nodup_nil
        quiet := fun t ht => by cases ht }
  | cons t rest =>
    rw [hwaiting] at hloud
    have hnodup := hs.nodup
    rw [hwaiting, List.nodup_cons] at hnodup
    have hmem : t ∈ s.waiting := by
      rw [hwaiting]
      exact List.mem_cons_self
    have hparked : s.callers t = .parked := hs.parked t hmem
    have hidle : s.callers t ≠ .idle := fun h => by rw [h] at hparked; cases hparked
    refine ⟨⟨hs.fresh, hs.flag_setCaller fun h => ?_, hs.bounded⟩, hs.unbegun_setCaller hidle _,
      fun c hc => ?_, hnodup.2, hs.seen,
      fun c hc hseen hf => absurd ⟨hseen, hf⟩ (hloud c (List.mem_cons_of_mem _ hc)),
      fun c hloops hf hseen => ?_⟩
    · rw [hparked] at h
      exact h.elim
    · have hne : c ≠ t := fun h => hnodup.1 (h ▸ hc)
      rw [callers_setCaller_of_ne _ _ hne]
      exact hs.parked c (by rw [hwaiting]; exact List.mem_cons_of_mem _ hc)
    · rcases eq_or_ne c t with rfl | hne
      · exact absurd ⟨hseen, hf⟩ (hloud c (List.mem_cons_self ..))
      · rw [callers_setCaller_of_ne _ _ hne] at hloops
        exact hs.unmet c hloops hf hseen

/-- A caller that gives its wake-up away and goes on without it. -/
theorem Sound.passOn (hs : s.Sound) {a : Caller R} (hc : (s.callers c).holdsWake = true)
    (hwake : a.holdsWake = false) (hloops : a.Loops → (s.callers c).Loops) :
    (s.setCaller c a).notifyOne.Sound := by
  have hne : s.callers c ≠ .idle ∧ s.callers c ≠ .parked ∧ ¬ (s.callers c).Fetches := by
    cases h : s.callers c <;> simp_all [Caller.holdsWake, Caller.Fetches]
  have hset : (s.setCaller c a).Sound :=
    hs.setCaller hne.1 hne.2.1 (fun h => absurd h hne.2.2) hwake hloops
  exact hset.notifyOne (hs.loud hc)

theorem Sound.store (hs : s.Sound) {key : CacheKey} {e : CacheEntry R}
    (hfresh : s.invalidated key ≤ e.started) :
    { s with cache := fun k => if k = key then some e else s.cache k }.Sound :=
  { hs with
    fresh := fun k e' h => by
      dsimp only at h
      split at h
      · next heq =>
        cases h
        rw [heq]
        exact hfresh
      · exact hs.fresh k e' h }

/-- A call that finds the flag set meets the fetch that goes on for the first time. -/
theorem Sound.meet (hs : s.Sound) (hc : s.callers c = .elect) (hfetching : s.fetching = true) :
    ({ s with met := fun c' => if c' = c then
        (s.fetches, if (s.met c).1 = s.fetches then (s.met c).2 + 1 else 1) else s.met c'
      }.setCaller c .await).Sound := by
  have hidle : s.callers c ≠ .idle := fun h => by rw [h] at hc; cases hc
  have hpark : s.callers c ≠ .parked := fun h => by rw [h] at hc; cases hc
  -- a call in the loop has not met this fetch, so that the count goes to one at most
  have hone : (if (s.met c).1 = s.fetches then (s.met c).2 + 1 else 1) ≤ 1 := by
    split
    · next hseen => rw [hs.unmet c (by rw [hc]; trivial) hfetching hseen]
    · exact Nat.le_refl 1
  have hmet : ∀ c', c' ≠ c → (if c' = c then
      (s.fetches, if (s.met c).1 = s.fetches then (s.met c).2 + 1 else 1) else s.met c') =
        s.met c' := fun c' h => if_neg h
  refine ⟨⟨hs.fresh, hs.flag_setCaller fun h => ?_, fun c' => ?_⟩, fun c' hle => ?_,
    hs.parked_setCaller hpark _, hs.nodup, fun c' => ?_, fun t ht hseen _ => ?_,
    fun c' hloops hf hseen => ?_⟩
  · rw [hc] at h
    exact h.elim
  · change (ite _ _ _ : ℕ × ℕ).2 ≤ 1
    split
    · exact hone
    · exact hs.bounded c'
  · have hne : c' ≠ c := fun h =>
      absurd (hs.lt_calls hidle) (by rw [← h]; exact Nat.not_lt.mpr hle)
    refine ⟨(hs.unbegun_setCaller hidle _ c' hle).1, ?_⟩
    change (ite _ _ _ : ℕ × ℕ).2 = 0
    rw [hmet c' hne]
    exact (hs.unbegun c' hle).2
  · change (ite _ _ _ : ℕ × ℕ).1 ≤ _
    split
    · exact Nat.le_refl _
    · exact hs.seen c'
  · have hne : t ≠ c := fun h => hs.notMem_waiting hpark (h ▸ ht)
    change (ite _ _ _ : ℕ × ℕ).1 = _ at hseen
    rw [hmet t hne] at hseen
    exact (hs.quiet t ht hseen hfetching).setCaller c rfl
  · have hne : c' ≠ c := fun h => by rw [h, callers_setCaller_self] at hloops; exact hloops
    rw [callers_setCaller_of_ne _ _ hne] at hloops
    change (ite _ _ _ : ℕ × ℕ).1 = _ at hseen
    change (ite _ _ _ : ℕ × ℕ).2 = 0
    rw [hmet c' hne] at hseen ⊢
    exact hs.unmet c' hloops hf hseen

/-- A new fetch is one that nobody has met. -/
theorem Sound.elected (hs : s.Sound) (hc : s.callers c = .elect) :
    ({ s with fetching := true, fetches := s.fetches + 1 }.setCaller c (.spawn .models)).Sound := by
  -- the fetches are numbered, and those met so far have smaller numbers
  have hseen : ∀ c', (s.met c').1 ≠ s.fetches + 1 := fun c' =>
    Nat.ne_of_lt (Nat.lt_succ_of_le (hs.seen c'))
  refine ⟨⟨hs.fresh, fun _ => ⟨c, ?_⟩, hs.bounded⟩,
    hs.unbegun_setCaller (fun h => by rw [h] at hc; cases hc) _,
    hs.parked_setCaller (fun h => by rw [h] at hc; cases hc) _, hs.nodup,
    fun c' => Nat.le_succ_of_le (hs.seen c'), fun t _ h => absurd h (hseen t),
    fun c' _ _ h => absurd h (hseen c')⟩
  rw [callers_setCaller_self]
  rfl

/-- Once the flag is cleared there is no fetch to meet. -/
theorem Sound.clear (hs : s.Sound) {result : R} (hc : s.callers c = .clear result) :
    ({ s with fetching := false }.setCaller c (.notify result)).Sound :=
  ⟨⟨hs.fresh, fun h => (by cases h), hs.bounded⟩,
    hs.unbegun_setCaller (fun h => by rw [h] at hc; cases hc) _,
    hs.parked_setCaller (fun h => by rw [h] at hc; cases hc) _,
    hs.nodup, hs.seen, fun _ _ _ h => (by cases h), fun _ _ h => (by cases h)⟩

/-- A call joins the queue while no wake-up is about. -/
theorem Sound.park (hs : s.Sound) (hc : s.callers c = .await) (hquiet : s.Quiet) :
    ({ s with waiting := s.waiting ++ [c] }.setCaller c .parked).Sound := by
  have hidle : s.callers c ≠ .idle := fun h => by rw [h] at hc; cases hc
  have hpark : s.callers c ≠ .parked := fun h => by rw [h] at hc; cases hc
  refine ⟨⟨hs.fresh, hs.flag_setCaller fun h => ?_, hs.bounded⟩, hs.unbegun_setCaller hidle _,
    fun c' hmem => ?_, ?_, hs.seen, fun _ _ _ _ => hquiet.setCaller c rfl,
    hs.unmet_setCaller fun h => h.elim⟩
  · rw [hc] at h
    exact h.elim
  · rcases List.mem_append.mp hmem with hmem | hmem
    · exact hs.parked_setCaller hpark _ c' hmem
    · rw [List.mem_singleton.mp hmem, callers_setCaller_self]
  · exact List.nodup_append_comm.mp (List.nodup_cons.mpr ⟨hs.notMem_waiting hpark, hs.nodup⟩)

/-- A queued call that is dropped leaves the queue. -/
theorem Sound.leave (hs : s.Sound) (hc : s.callers c = .parked) :
    ({ s with waiting := s.waiting.erase c }.setCaller c .idle).Sound := by
  refine ⟨⟨hs.fresh, hs.flag_setCaller fun h => ?_, hs.bounded⟩,
    hs.unbegun_setCaller (fun h => by rw [h] at hc; cases hc) _, fun c' hmem => ?_,
    hs.nodup.erase c, hs.seen,
    fun t ht hseen hf => (hs.quiet t (List.mem_of_mem_erase ht) hseen hf).setCaller c rfl,
    hs.unmet_setCaller fun h => h.elim⟩
  · rw [hc] at h
    exact h.elim
  · obtain ⟨hne, hmem⟩ := hs.nodup.mem_erase_iff.mp hmem
    rw [callers_setCaller_of_ne _ _ hne]
    exact hs.parked c' hmem

theorem Sound.invalidate (hs : s.Sound) (which : Invalidation) : (s.invalidate which).Sound :=
  { hs with
    fresh := fun key e h => by
      unfold Caches.invalidate at h ⊢
      dsimp only at h ⊢
      split at h
      · cases h
      · next hcovers =>
        rw [if_neg hcovers]
        exact hs.fresh key e h }

theorem Sound.call (hs : s.Sound) (key : CacheKey) :
    ({ s with calls := s.calls + 1 }.setCaller s.calls (.check key)).Sound := by
  obtain ⟨hidle, hmet⟩ := hs.unbegun s.calls (Nat.le_refl _)
  refine ⟨⟨hs.fresh, hs.flag_setCaller fun h => ?_, hs.bounded⟩, fun c' hle => ?_,
    hs.parked_setCaller (fun h => by rw [h] at hidle; cases hidle) _, hs.nodup, hs.seen,
    fun t ht hseen hf => ?_, fun c' hloops hf hseen => ?_⟩
  · rw [hidle] at h
    exact h.elim
  · rw [callers_setCaller_of_ne _ _ (Nat.ne_of_gt hle)]
    exact hs.unbegun c' (Nat.le_of_succ_le hle)
  · obtain ⟨hpermit, hcalls⟩ := hs.quiet t ht hseen hf
    refine ⟨hpermit, fun c' hlt => ?_⟩
    rcases eq_or_ne c' s.calls with rfl | hne
    · rw [callers_setCaller_self]
      rfl
    · rw [callers_setCaller_of_ne _ _ hne]
      exact hcalls c' (Nat.lt_of_le_of_ne (Nat.le_of_lt_succ hlt) hne)
  · rcases eq_or_ne c' s.calls with rfl | hne
    · exact hmet
    · rw [callers_setCaller_of_ne _ _ hne] at hloops
      exact hs.unmet c' hloops hf hseen

theorem Sound.advance (hs : s.Sound) (hk : s.Keeps (.advance c)) : (s.advance c).Sound := by
  change s.MayAdvance (s.callers c) at hk
  unfold Caches.advance
  cases hc : s.callers c with
  | check key =>
    dsimp only
    split
    · exact hs.setCaller (c := c) (by simp [hc]) (by simp [hc]) (by simp [hc, Caller.Fetches]) rfl
        (by simp [Caller.Loops])
    · split
      · next hkey =>
        exact hs.setCaller (c := c) (by simp [hc]) (by simp [hc]) (by simp [hc, Caller.Fetches])
          rfl fun _ => by rw [hc]; exact hkey
      · next hkey =>
        exact hs.setCaller (c := c) (by simp [hc]) (by simp [hc]) (by simp [hc, Caller.Fetches])
          rfl (by simp [Caller.Loops])
  | elect =>
    dsimp only
    split
    · next hf => exact hs.meet hc hf
    · exact hs.elected hc
  | spawn key =>
    exact hs.setCaller (c := c) (by simp [hc]) (by simp [hc]) (by simp [hc, Caller.Fetches]) rfl
      (by simp [Caller.Loops])
  | store key started result =>
    rw [hc] at hk
    have hstored := hs.store (e := ⟨result, started⟩) hk
    dsimp only
    split
    · exact hstored.setCaller (c := c) (by simp [hc]) (by simp [hc]) (by simp [Caller.Fetches]) rfl
        (by simp [Caller.Loops])
    · next hkey =>
      exact hstored.setCaller (c := c) (by simp [hc]) (by simp [hc])
        (by simp [hc, Caller.Fetches, hkey]) rfl (by simp [Caller.Loops])
  | clear result => exact hs.clear hc
  | notify result => exact hs.passOn (by rw [hc]; rfl) rfl (by simp [Caller.Loops])
  | await =>
    -- under the condition no permit is stored, and the call joins the queue
    rw [hc] at hk
    dsimp only
    rw [if_neg (by rw [hk.1]; exact Bool.false_ne_true)]
    exact hs.park hc hk
  | woken => exact hs.passOn (by rw [hc]; rfl) rfl fun _ => by rw [hc]; trivial
  | idle | running | parked | done => exact hs

theorem Sound.finish (fallback : CacheKey → R) (hs : s.Sound) (result : Option R) :
    (s.finish fallback c result).Sound := by
  unfold Caches.finish
  split
  · next hc =>
    exact hs.setCaller (c := c) (by simp [hc]) (by simp [hc]) (by simp [hc, Caller.Fetches]) rfl
      (by simp [Caller.Loops])
  · next hc =>
    split
    · exact hs.setCaller (c := c) (by simp [hc]) (by simp [hc]) (by simp [Caller.Fetches]) rfl
        (by simp [Caller.Loops])
    · next hkey =>
      exact hs.setCaller (c := c) (by simp [hc]) (by simp [hc])
        (by simp [hc, Caller.Fetches, hkey]) rfl (by simp [Caller.Loops])
  · exact hs

theorem Sound.drop (hs : s.Sound) (hk : s.Keeps (.drop c)) : (s.drop c).Sound := by
  change MayDrop (s.callers c) at hk
  unfold Caches.drop
  cases hc : s.callers c with
  | running key started =>
    rw [hc] at hk
    exact hs.setCaller (c := c) (by simp [hc]) (by simp [hc])
      (fun h => by rw [hc] at h; exact absurd h hk) rfl (by simp [Caller.Loops])
  | parked => exact hs.leave hc
  | woken => exact hs.passOn (by rw [hc]; rfl) rfl (by simp [Caller.Loops])
  | _ => exact hs

end Step

/-- **What a step under the condition keeps.** -/
theorem sound_step (fallback : CacheKey → R) (s : Caches R) (a : Action R) (hs : s.Sound)
    (hk : s.Keeps a) : (s.step fallback a).Sound := by
  cases a with
  | call key => exact hs.call key
  | advance c => exact hs.advance hk
  | finish c result => exact hs.finish fallback result
  | drop c => exact hs.drop hk
  | invalidate which => exact hs.invalidate which

/-- **In every run whose steps meet the condition, no stale result is kept, the flag is set
only while a fetch goes on, and a waiter meets a fetch at most once.** -/
theorem kept_of_keeps (fallback : CacheKey → R) (acts : List (Action R))
    (hk : Along (step fallback) Keeps empty acts) {pre : List (Action R)} (hpre : pre <+: acts) :
    (pre.foldl (step fallback) empty).Kept := by
  obtain ⟨rest, rfl⟩ := hpre
  exact (hk.of_append.foldl_invariant (sound_step fallback) sound_empty).toKept

/-- The elected call fetches while another one waits for it. -/
def sharedFetch : List (Action String) :=
  [.call .models, .advance 0, .advance 0, .advance 0, .call .models, .advance 1, .advance 1,
    .advance 1, .finish 0 (some "m"), .advance 0, .advance 0, .advance 0, .advance 1, .advance 1]

theorem kept_sharedFetch : (sharedFetch.foldl (step fun _ => "") empty).Kept :=
  kept_of_keeps (fun _ => "") sharedFetch (by decide) (List.prefix_refl _)

/-- The models are invalidated while their subprocess runs. -/
def overtaken : List (Action String) :=
  [.call .models, .advance 0, .advance 0, .advance 0, .invalidate .models, .finish 0 (some "m"),
    .advance 0]

/-- The elected call is dropped while its subprocess runs. -/
def abandoned : List (Action String) :=
  [.call .models, .advance 0, .advance 0, .advance 0, .drop 0]

/-- A fetch ends with nobody waiting, and a call waits for the next one. -/
def strayPermit : List (Action String) :=
  [.call .models, .advance 0, .advance 0, .advance 0, .finish 0 none, .advance 0, .advance 0,
    .call .models, .advance 1, .advance 1, .advance 1,
    .call .models, .advance 2, .advance 2, .advance 2, .advance 2, .advance 2]

/-- A call goes round: it has met the fetch `n` times, and the wake-up it stored is there. -/
structure GoesRound (s : Caches R) (c n : ℕ) : Prop where
  elect : s.callers c = .elect
  fetching : s.fetching = true
  permit : s.permit = true
  waiting : s.waiting = []
  cold : s.cache .models = none
  met : s.met c = (s.fetches, n)

theorem GoesRound.again {s : Caches R} {c n : ℕ} (h : s.GoesRound c n) :
    ((((s.advance c).advance c).advance c).advance c).GoesRound c (n + 1) := by
  obtain ⟨helect, hfetching, hpermit, hwaiting, hcold, hmet⟩ := h
  constructor <;> simp [Caches.advance, Caches.notifyOne, Caches.setCaller, helect, hfetching,
    hpermit, hwaiting, hcold, hmet]

/-- Nothing bounds how often it meets the same fetch. -/
theorem exists_goesRound (n : ℕ) :
    ∃ acts : List (Action String), (acts.foldl (step fun _ => "") empty).GoesRound 2 (n + 1) := by
  induction n with
  | zero => exact ⟨strayPermit, rfl, rfl, rfl, rfl, rfl, rfl⟩
  | succ n ih =>
    obtain ⟨acts, h⟩ := ih
    refine ⟨acts ++ List.replicate 4 (.advance 2), ?_⟩
    rw [List.foldl_append]
    exact h.again

/-- **The stale result is kept, the flag stays set, and a waiter meets one fetch any number of
times.** -/
theorem not_kept :
    ¬ (overtaken.foldl (step fun _ => "") empty).Kept ∧
      ¬ (abandoned.foldl (step fun _ => "") empty).Kept ∧
      ∀ n, ∃ acts : List (Action String),
        n < ((acts.foldl (step fun _ => "") empty).met 2).2 := by
  refine ⟨fun h => ?_, fun h => ?_, fun n => ?_⟩
  · have hfresh := h.fresh .models ⟨"m", 0⟩ rfl
    exact absurd hfresh (by decide)
  · obtain ⟨c, hc⟩ := h.flag rfl
    have hidle : (abandoned.foldl (step fun _ => "") empty).callers c = .idle := by
      rcases c with _ | c <;> rfl
    rw [hidle] at hc
    exact hc
  · obtain ⟨acts, h⟩ := exists_goesRound n
    refine ⟨acts, ?_⟩
    rw [h.met]
    exact Nat.lt_succ_self n

end Caches
end Pantoken
