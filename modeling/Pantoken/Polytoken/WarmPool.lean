import Mathlib.Data.Finset.Card
import Pantoken.Lib.Run
import Pantoken.Protocol.SessionDriver

/-!
# The warm pool

The driver keeps a client for each of its warm sessions, keyed by the session's id, and
beside that map a list of ids from the least to the most recently focused.  Warming a
session inserts it, focuses it, and then evicts the least recently focused sessions until
the pool fits the cap, which is computed from the list.  The map and the list are two
collections, and what removes a session from the one has to remove it from the other.

The pool is modelled by the ids alone.  What the daemons and the disk answer, and which
sessions have a turn in flight, are inputs of the operations.

## Main definitions

* `evictionPlan` — `eviction_plan` of `shared/warm_cap.rs`.
* `WarmPool`, `WarmPool.focus`, `WarmPool.installWarm` — the pool, and the eviction.
* `DriverOp`, `WarmPool.step` — the operations of the driver that touch the pool.
* `WarmPool.InSync` — the list is duplicate-free and holds exactly the warm sessions.
* `WarmPool.Ok` — the pool is in sync, and so every eviction plan computed from it is sound.
* `WarmPool.KeepsInSync` — the condition under which an operation keeps the two in sync.

## Main results

* `evictionPlan_eq` — the plan is a prefix of the candidates for eviction.
* `planSound_of_inSync` — the plans computed from a pool in sync are sound.
* `inSync_step_iff` — what one operation keeps, exactly.
* `warmPool_ok_iff` — **the pool is in sync, and its plans are sound, in every state of a
  run exactly when no operation of it removes a warm session for good other than by
  eviction.**
* `not_warmPool_ok` — detaching leaves the session in the list; the next warming then
  evicts a session although the pool fits the cap.
-/

namespace Pantoken

/-! ### The eviction plan -/

section EvictionPlan

variable {α : Type*} [DecidableEq α]

/-- The loop of `eviction_plan`: the plan so far, and the ids still to look at. -/
def evictionLoop (protectedId : Option α) (evictable : α → Bool) (need : Int) :
    List α → List α → List α
  | evict, [] => evict
  | evict, id :: order =>
    if need ≤ (evict.length : Int) then evict
    else if some id = protectedId then evictionLoop protectedId evictable need evict order
    else if !evictable id then evictionLoop protectedId evictable need evict order
    else evictionLoop protectedId evictable need (evict ++ [id]) order

/-- `eviction_plan`: the ids to evict so that the sessions of `order`, from the least to
the most recently focused, fit `cap`.  A cap of zero or less is no cap. -/
def evictionPlan (order : List α) (protectedId : Option α) (cap : Int)
    (evictable : α → Bool) : List α :=
  if cap ≤ 0 ∨ (order.length : Int) ≤ cap then []
  else evictionLoop protectedId evictable (order.length - cap) [] order

/-- The ids of `order` that may be evicted. -/
def candidates (order : List α) (protectedId : Option α) (evictable : α → Bool) : List α :=
  order.filter fun id => decide (some id ≠ protectedId) && evictable id

theorem evictionLoop_eq (protectedId : Option α) (evictable : α → Bool) (need : Int)
    (order evict : List α) :
    evictionLoop protectedId evictable need evict order =
      evict ++ (candidates order protectedId evictable).take (need - evict.length).toNat := by
  induction order generalizing evict with
  | nil => simp [evictionLoop, candidates]
  | cons id order ih =>
    rw [evictionLoop]
    split_ifs with hdone hprot hbusy
    · have : (need - (evict.length : Int)).toNat = 0 := by omega
      rw [this, List.take_zero, List.append_nil]
    · rw [ih]
      simp [candidates, hprot]
    · rw [ih]
      simp only [Bool.not_eq_true'] at hbusy
      simp [candidates, hbusy]
    · rw [ih]
      have hcand : candidates (id :: order) protectedId evictable =
          id :: candidates order protectedId evictable := by
        simp only [Bool.not_eq_true', Bool.not_eq_false] at hbusy
        simp [candidates, hprot, hbusy]
      have hneed : (need - (evict.length : Int)).toNat =
          (need - ((evict ++ [id]).length : Int)).toNat + 1 := by
        simp only [List.length_append, List.length_cons, List.length_nil]
        omega
      rw [hcand, hneed, List.take_succ_cons, List.append_assoc, List.singleton_append]

/-- **The plan is the longest prefix of the candidates that the cap asks for.** -/
theorem evictionPlan_eq (order : List α) (protectedId : Option α) (cap : Int)
    (evictable : α → Bool) :
    evictionPlan order protectedId cap evictable =
      (candidates order protectedId evictable).take
        (if cap ≤ 0 then 0 else (order.length - cap).toNat) := by
  unfold evictionPlan
  split_ifs with hfits hcap hcap
  · rw [List.take_zero]
  · have : ((order.length : Int) - cap).toNat = 0 := by omega
    rw [this, List.take_zero]
  · exact absurd (Or.inl hcap) hfits
  · rw [evictionLoop_eq]
    simp

theorem mem_of_mem_evictionPlan {order : List α} {protectedId : Option α} {cap : Int}
    {evictable : α → Bool} {id : α}
    (h : id ∈ evictionPlan order protectedId cap evictable) :
    id ∈ order ∧ some id ≠ protectedId ∧ evictable id = true := by
  rw [evictionPlan_eq] at h
  simpa [candidates] using List.mem_of_mem_take h

theorem nodup_evictionPlan {order : List α} (h : order.Nodup) (protectedId : Option α)
    (cap : Int) (evictable : α → Bool) :
    (evictionPlan order protectedId cap evictable).Nodup := by
  rw [evictionPlan_eq]
  exact (h.filter _).sublist (List.take_sublist _ _)

/-- Under a cap, what the plan leaves fits it, or the plan has every candidate. -/
theorem evictionPlan_bounded (order : List α) (protectedId : Option α) {cap : Int}
    (hcap : 0 < cap) (evictable : α → Bool) :
    (order.length : Int) ≤ cap + (evictionPlan order protectedId cap evictable).length ∨
      ∀ id ∈ candidates order protectedId evictable,
        id ∈ evictionPlan order protectedId cap evictable := by
  rw [evictionPlan_eq, if_neg (by omega)]
  by_cases hfew : (candidates order protectedId evictable).length ≤ (order.length - cap).toNat
  · right
    rw [List.take_of_length_le hfew]
    intro id hid
    exact hid
  · left
    rw [List.length_take]
    omega

end EvictionPlan

/-! ### The pool -/

/-- The warm sessions of the driver: the keys of the map, and the ids from the least to
the most recently focused. -/
structure WarmPool where
  warm : Finset SessionId
  order : List SessionId
  deriving DecidableEq

namespace WarmPool

/-- The pool of a driver that has warmed nothing. -/
def empty : WarmPool := ⟨∅, []⟩

/-- `focus`: move a session to the back of the recency order. -/
def focus (s : WarmPool) (id : SessionId) : WarmPool :=
  { s with order := s.order.filter (· ≠ id) ++ [id] }

/-- `turn_in_flight`: a session that is not warm has none. -/
def turnInFlight (s : WarmPool) (turn : SessionId → Bool) (id : SessionId) : Bool :=
  decide (id ∈ s.warm) && turn id

/-- One round of the eviction loop of `install_warm`: a victim that is not warm is
passed over, and stays in the recency order. -/
def evict (s : WarmPool) (victim : SessionId) : WarmPool :=
  if victim ∈ s.warm then ⟨s.warm.erase victim, s.order.filter (· ≠ victim)⟩ else s

/-- The pool with `id` inserted and focused, from which the eviction is planned. -/
def warmed (s : WarmPool) (id : SessionId) : WarmPool :=
  ({ s with warm := insert id s.warm } : WarmPool).focus id

/-- The eviction plan of `install_warm`. -/
def victims (cap : Int) (turn : SessionId → Bool) (s : WarmPool) (id : SessionId) :
    List SessionId :=
  evictionPlan (s.warmed id).order (some id) cap fun v => !(s.warmed id).turnInFlight turn v

/-- `install_warm`, from the insertion on: insert, focus, evict. -/
def installWarm (cap : Int) (turn : SessionId → Bool) (s : WarmPool) (id : SessionId) :
    WarmPool :=
  (s.victims cap turn id).foldl evict (s.warmed id)

end WarmPool

/-! ### The operations of the driver -/

/-- What opening a session that is not warm meets: whether `startup.json` names a port, and
then whether attaching to it got as far as the insertion; whether `GET /history` of the
daemon attached to has data; whether the session's directory exists; and whether the daemon
spawned to resume the session got as far as the insertion. -/
structure Reopening where
  attaches : Option Bool
  hasHistory : Bool
  cwdIsDir : Bool
  resumes : Bool
  deriving DecidableEq

/-- Opening a session that is not warm warms it. -/
def Reopening.Reopens (d : Reopening) : Prop :=
  d.attaches = some true ∨ (d.cwdIsDir = true ∧ d.resumes = true)

instance (d : Reopening) : Decidable d.Reopens :=
  inferInstanceAs (Decidable (_ ∨ _))

/-- The operations of the driver that touch the warm pool.  A path is given by the id that
`session_id_from_path` finds in it, if it does; `turn` says which sessions have a turn in
flight when the operation asks. -/
inductive DriverOp
  /-- `new_session`: the id of the daemon it spawned, if it got as far as the insertion. -/
  | newSession (spawned : Option SessionId) (turn : SessionId → Bool)
  | openSession (path : Option SessionId) (d : Reopening) (turn : SessionId → Bool)
  | reloadSession (path : Option SessionId) (d : Reopening) (turn : SessionId → Bool)
  | detachSession (path : Option SessionId)
  | prompt (sessionId : Option SessionId)
  | disposeIdleWarm (turn : SessionId → Bool)

namespace WarmPool

/-- `warm_session`, `warm_session_attach` and `warm_session_resume`, which differ in how
they get the daemon that `installed` names: nothing is done for a key that is warm. -/
def warmSession (cap : Int) (turn : SessionId → Bool) (key : SessionId)
    (installed : Option SessionId) (s : WarmPool) : Option WarmPool :=
  if key ∈ s.warm then some s else installed.map (s.installWarm cap turn)

/-- The cold start of `open_session`. -/
def coldStart (cap : Int) (turn : SessionId → Bool) (id : SessionId) (d : Reopening)
    (s : WarmPool) : WarmPool :=
  if d.cwdIsDir then
    match s.warmSession cap turn id (if d.resumes then some id else none) with
    | some s => s.focus id
    | none => s
  else s

/-- `open_session`, of a session that is not warm. -/
def openCold (cap : Int) (turn : SessionId → Bool) (id : SessionId) (d : Reopening)
    (s : WarmPool) : WarmPool :=
  match d.attaches with
  | none => s.coldStart cap turn id d
  | some attaches =>
    match s.warmSession cap turn id (if attaches then some id else none) with
    | none => s.coldStart cap turn id d
    | some s =>
      -- the daemon is attached; without a history the cold start still follows
      if d.hasHistory then s.focus id else (s.focus id).coldStart cap turn id d

/-- `open_session`. -/
def openSession (cap : Int) (turn : SessionId → Bool) (path : Option SessionId)
    (d : Reopening) (s : WarmPool) : WarmPool :=
  match path with
  | none => s
  | some id => if id ∈ s.warm then s.focus id else s.openCold cap turn id d

/-- What removes a session from the map alone. -/
def unwarm (s : WarmPool) (id : SessionId) : WarmPool :=
  { s with warm := s.warm.erase id }

/-- One operation of the driver. -/
def step (cap : Int) (s : WarmPool) : DriverOp → WarmPool
  | .newSession spawned turn => (s.warmSession cap turn "__new__" spawned).getD s
  | .openSession path d turn => s.openSession cap turn path d
  | .reloadSession path d turn =>
    match path with
    | none => s
    | some id => (s.unwarm id).openSession cap turn (some id) d
  | .detachSession path =>
    match path with
    | none => s
    | some id => s.unwarm id
  | .prompt sessionId =>
    match sessionId with
    | none => s
    | some id => if id ∈ s.warm then s.focus id else s
  | .disposeIdleWarm turn => { s with warm := s.warm.filter fun id => turn id = true }

/-- The pool after the operations, from the start of the driver. -/
def run (cap : Int) (ops : List DriverOp) : WarmPool :=
  ops.foldl (step cap) empty

/-! ### What is claimed of the pool -/

/-- The recency order is duplicate-free and holds exactly the warm sessions. -/
structure InSync (s : WarmPool) : Prop where
  nodup : s.order.Nodup
  mem : ∀ id, id ∈ s.order ↔ id ∈ s.warm

/-- The sessions that warming `id` must not evict: `id` itself, and those with a turn in
flight. -/
def spared (turn : SessionId → Bool) (s : WarmPool) (id : SessionId) : Finset SessionId :=
  (s.warmed id).warm.filter fun v => v = id ∨ turn v = true

/-- The eviction plan of warming `id` counts warm sessions only, never evicts `id`, and
leaves at most the cap, or at most the sessions it must not evict. -/
structure PlanSound (cap : Int) (turn : SessionId → Bool) (s : WarmPool) (id : SessionId) :
    Prop where
  counts : ∀ v ∈ (s.warmed id).order, v ∈ (s.warmed id).warm
  protects : id ∈ (s.installWarm cap turn id).warm
  bounded : 0 < cap → ((s.installWarm cap turn id).warm.card : Int) ≤ cap ∨
    (s.installWarm cap turn id).warm.card ≤ (s.spared turn id).card

/-- The pool is in sync, and every eviction plan that could be computed from it is sound. -/
def Ok (cap : Int) (s : WarmPool) : Prop :=
  s.InSync ∧ ∀ turn id, s.PlanSound cap turn id

/-- The operation removes no warm session for good other than by eviction: no detaching of
a warm session, no reload of a warm session that then fails to open it, and no disposal of
an idle session. -/
def KeepsInSync (s : WarmPool) : DriverOp → Prop
  | .reloadSession path d _ => ∀ id ∈ path, id ∈ s.warm → d.Reopens
  | .detachSession path => ∀ id ∈ path, id ∉ s.warm
  | .disposeIdleWarm turn => ∀ id ∈ s.warm, turn id = true
  | _ => True

/-! ### Focusing and evicting -/

theorem mem_order_focus (s : WarmPool) (id v : SessionId) :
    v ∈ (s.focus id).order ↔ v = id ∨ v ∈ s.order := by
  by_cases hv : v = id <;> simp [focus, hv]

theorem nodup_focus {s : WarmPool} (h : s.order.Nodup) (id : SessionId) :
    (s.focus id).order.Nodup := by
  apply List.Nodup.append (h.filter _) (List.nodup_singleton id)
  intro v hv hid
  simp only [List.mem_singleton] at hid
  simp [hid] at hv

@[simp] theorem warm_focus (s : WarmPool) (id : SessionId) : (s.focus id).warm = s.warm := rfl

@[simp] theorem warm_warmed (s : WarmPool) (id : SessionId) :
    (s.warmed id).warm = insert id s.warm := rfl

theorem mem_warm_evict (s : WarmPool) (victim v : SessionId) :
    v ∈ (s.evict victim).warm ↔ v ∈ s.warm ∧ v ≠ victim := by
  unfold evict
  split_ifs with hwarm
  · simp [and_comm]
  · constructor
    · intro hv
      refine ⟨hv, ?_⟩
      rintro rfl
      exact hwarm hv
    · exact And.left

/-- The eviction loop removes the victims from the map, and nothing else. -/
theorem mem_warm_foldl_evict (s : WarmPool) (vs : List SessionId) (v : SessionId) :
    v ∈ (vs.foldl evict s).warm ↔ v ∈ s.warm ∧ v ∉ vs := by
  induction vs generalizing s with
  | nil => simp
  | cons w vs ih =>
    rw [List.foldl_cons, ih, mem_warm_evict, List.mem_cons]
    tauto

/-- The session that is being warmed is warm afterwards, in sync or not. -/
theorem mem_warm_installWarm (cap : Int) (turn : SessionId → Bool) (s : WarmPool)
    (id : SessionId) : id ∈ (s.installWarm cap turn id).warm := by
  refine (mem_warm_foldl_evict _ _ _).mpr ⟨by simp, ?_⟩
  intro hid
  exact (mem_of_mem_evictionPlan hid).2.1 rfl

/-! ### Pools in sync -/

theorem inSync_empty : InSync empty := ⟨List.nodup_nil, by simp [empty]⟩

theorem InSync.focus {s : WarmPool} (h : s.InSync) {id : SessionId} (hid : id ∈ s.warm) :
    (s.focus id).InSync := by
  refine ⟨nodup_focus h.nodup id, ?_⟩
  intro v
  rw [mem_order_focus, warm_focus, h.mem v]
  constructor
  · rintro (rfl | hv)
    · exact hid
    · exact hv
  · exact Or.inr

theorem InSync.evict {s : WarmPool} (h : s.InSync) (victim : SessionId) :
    (s.evict victim).InSync := by
  unfold WarmPool.evict
  split_ifs with hwarm
  · refine ⟨h.nodup.filter _, ?_⟩
    intro v
    simp [h.mem v, and_comm]
  · exact h

/-- The pool is in sync but for `id`, which one of the two may hold and not the other. -/
structure InSyncBut (s : WarmPool) (id : SessionId) : Prop where
  nodup : s.order.Nodup
  mem : ∀ v, v ≠ id → (v ∈ s.order ↔ v ∈ s.warm)

theorem InSync.but {s : WarmPool} (h : s.InSync) (id : SessionId) : s.InSyncBut id :=
  ⟨h.nodup, fun v _ => h.mem v⟩

theorem InSync.unwarm {s : WarmPool} (h : s.InSync) (id : SessionId) :
    (s.unwarm id).InSyncBut id := by
  refine ⟨h.nodup, ?_⟩
  intro v hv
  simp [WarmPool.unwarm, h.mem v, hv]

/-- Warming a session brings the pool in sync as far as that session goes. -/
theorem InSyncBut.warmed {s : WarmPool} {id : SessionId} (h : s.InSyncBut id) :
    (s.warmed id).InSync := by
  refine ⟨nodup_focus h.nodup id, ?_⟩
  intro v
  rw [WarmPool.warmed, mem_order_focus, warm_focus, Finset.mem_insert]
  by_cases hv : v = id
  · simp [hv]
  · simp [hv, h.mem v hv]

theorem InSyncBut.installWarm {s : WarmPool} {id : SessionId} (h : s.InSyncBut id)
    (cap : Int) (turn : SessionId → Bool) : (s.installWarm cap turn id).InSync :=
  foldl_invariant (fun _ victim hs => hs.evict victim) h.warmed _

/-- Taking a warm session out of the map alone puts the pool out of sync. -/
theorem inSync_unwarm_iff {s : WarmPool} (h : s.InSync) (id : SessionId) :
    (s.unwarm id).InSync ↔ id ∉ s.warm := by
  constructor
  · intro hu hid
    have hmem : id ∈ (s.unwarm id).warm := (hu.mem id).mp ((h.mem id).mpr hid)
    simp [WarmPool.unwarm] at hmem
  · intro hid
    rwa [show s.unwarm id = s by simp [WarmPool.unwarm, Finset.erase_eq_of_notMem hid]]

/-! ### The plans of a pool in sync -/

theorem InSync.card_warm {s : WarmPool} (h : s.InSync) : s.warm.card = s.order.length := by
  have hwarm : s.warm = s.order.toFinset := by
    ext v
    simp [h.mem v]
  rw [hwarm, List.toFinset_card_of_nodup h.nodup]

theorem victims_subset (cap : Int) (turn : SessionId → Bool) {s : WarmPool} {id : SessionId}
    (h : (s.warmed id).InSync) :
    (s.victims cap turn id).toFinset ⊆ (s.warmed id).warm := by
  intro v hv
  exact (h.mem v).mp (mem_of_mem_evictionPlan (List.mem_toFinset.mp hv)).1

theorem warm_installWarm (cap : Int) (turn : SessionId → Bool) (s : WarmPool)
    (id : SessionId) : (s.installWarm cap turn id).warm =
      (s.warmed id).warm \ (s.victims cap turn id).toFinset := by
  ext v
  simp [installWarm, mem_warm_foldl_evict]

/-- **The plans computed from a pool in sync are sound.** -/
theorem planSound_of_inSync {s : WarmPool} (h : s.InSync) (cap : Int)
    (turn : SessionId → Bool) (id : SessionId) : s.PlanSound cap turn id := by
  have hw : (s.warmed id).InSync := (h.but id).warmed
  refine ⟨fun v hv => (hw.mem v).mp hv, mem_warm_installWarm cap turn s id, ?_⟩
  intro hcap
  rcases evictionPlan_bounded (s.warmed id).order (some id) hcap
    (fun v => !(s.warmed id).turnInFlight turn v) with hfits | hall
  · left
    have hplan : (s.victims cap turn id).toFinset.card = (s.victims cap turn id).length :=
      List.toFinset_card_of_nodup (nodup_evictionPlan hw.nodup _ _ _)
    have hle := Finset.card_le_card (victims_subset cap turn hw)
    rw [warm_installWarm, Finset.card_sdiff_of_subset (victims_subset cap turn hw)]
    have := hw.card_warm
    change ((s.warmed id).order.length : Int) ≤ cap + (s.victims cap turn id).length at hfits
    omega
  · right
    -- every candidate is evicted, so what is left are the sessions that are no candidates
    apply Finset.card_le_card
    intro v hv
    rw [warm_installWarm, Finset.mem_sdiff, List.mem_toFinset] at hv
    refine Finset.mem_filter.mpr ⟨hv.1, ?_⟩
    by_contra hspare
    apply hv.2
    apply hall v
    simp only [not_or, Bool.not_eq_true] at hspare
    simp [candidates, turnInFlight, (hw.mem v).mpr hv.1, hspare.1, hspare.2]

theorem ok_iff_inSync (cap : Int) (s : WarmPool) : s.Ok cap ↔ s.InSync :=
  ⟨And.left, fun h => ⟨h, fun turn id => planSound_of_inSync h cap turn id⟩⟩

/-! ### What an operation keeps -/

section Step

variable {cap : Int} {turn : SessionId → Bool} {id : SessionId} {d : Reopening} {s : WarmPool}

theorem InSyncBut.installWarm_focus (h : s.InSyncBut id) :
    ((s.installWarm cap turn id).focus id).InSync :=
  (h.installWarm cap turn).focus (mem_warm_installWarm cap turn s id)

theorem coldStart_of_mem (hid : id ∈ s.warm) :
    s.coldStart cap turn id d = if d.cwdIsDir then s.focus id else s := by
  simp [coldStart, warmSession, hid]

theorem InSync.coldStart (h : s.InSync) (hid : id ∈ s.warm) :
    (s.coldStart cap turn id d).InSync := by
  rw [coldStart_of_mem hid]
  split_ifs
  · exact h.focus hid
  · exact h

/-- Opening a session that is not warm, and that reopens, brings the pool in sync. -/
theorem inSync_openCold_of_reopens (h : s.InSyncBut id) (hid : id ∉ s.warm)
    (hd : d.Reopens) : (s.openCold cap turn id d).InSync := by
  have hmem : id ∈ ((s.installWarm cap turn id).focus id).warm :=
    mem_warm_installWarm cap turn s id
  have hcold : d.attaches ≠ some true → (s.coldStart cap turn id d).InSync := by
    intro hattach
    obtain ⟨hcwd, hresumes⟩ := hd.resolve_left hattach
    simpa [WarmPool.coldStart, warmSession, hid, hcwd, hresumes] using h.installWarm_focus
  unfold openCold
  rcases hattaches : d.attaches with _ | _ | _
  · exact hcold (by simp [hattaches])
  · simpa [warmSession, hid] using hcold (by simp [hattaches])
  · simp only [warmSession, hid, if_false, if_true, Option.map_some]
    split_ifs
    · exact h.installWarm_focus
    · exact h.installWarm_focus.coldStart hmem

/-- Opening a session that is not warm, and that does not reopen, changes nothing. -/
theorem openCold_of_not_reopens (hid : id ∉ s.warm) (hd : ¬d.Reopens) :
    s.openCold cap turn id d = s := by
  rw [Reopening.Reopens, not_or, not_and] at hd
  obtain ⟨hattach, hresumes⟩ := hd
  have hcold : s.coldStart cap turn id d = s := by
    unfold WarmPool.coldStart
    by_cases hcwd : d.cwdIsDir = true
    · simp [warmSession, hid, hcwd, hresumes hcwd]
    · rw [if_neg hcwd]
  unfold openCold
  rcases hattaches : d.attaches with _ | _ | _
  · exact hcold
  · simpa [warmSession, hid] using hcold
  · exact absurd hattaches hattach

theorem InSync.openCold (h : s.InSync) (hid : id ∉ s.warm) :
    (s.openCold cap turn id d).InSync := by
  by_cases hd : d.Reopens
  · exact inSync_openCold_of_reopens (h.but id) hid hd
  · rwa [openCold_of_not_reopens hid hd]

theorem InSync.openSession (h : s.InSync) (path : Option SessionId) :
    (s.openSession cap turn path d).InSync := by
  unfold WarmPool.openSession
  split
  · exact h
  · split_ifs with hid
    · exact h.focus hid
    · exact h.openCold hid

/-- Reloading a warm session keeps the pool in sync exactly when it reopens; what is not
warm is opened. -/
theorem inSync_reload_iff (h : s.InSync) :
    ((s.unwarm id).openSession cap turn (some id) d).InSync ↔ (id ∈ s.warm → d.Reopens) := by
  have hnot : id ∉ (s.unwarm id).warm := by simp [WarmPool.unwarm]
  simp only [WarmPool.openSession, if_neg hnot]
  by_cases hd : d.Reopens
  · exact iff_of_true (inSync_openCold_of_reopens (h.unwarm id) hnot hd) fun _ => hd
  · rw [openCold_of_not_reopens hnot hd, inSync_unwarm_iff h]
    constructor
    · intro hid hwarm
      exact absurd hwarm hid
    · intro hreopens hwarm
      exact hd (hreopens hwarm)

theorem InSync.newSession (h : s.InSync) (spawned : Option SessionId) :
    ((s.warmSession cap turn "__new__" spawned).getD s).InSync := by
  unfold warmSession
  split_ifs
  · exact h
  · cases spawned with
    | none => exact h
    | some id => exact (h.but id).installWarm cap turn

/-- Disposing the idle sessions keeps the pool in sync exactly when there are none. -/
theorem inSync_disposeIdleWarm_iff (h : s.InSync) :
    ({ s with warm := s.warm.filter fun id => turn id = true } : WarmPool).InSync ↔
      ∀ id ∈ s.warm, turn id = true := by
  constructor
  · intro hs id hid
    exact (Finset.mem_filter.mp ((hs.mem id).mp ((h.mem id).mpr hid))).2
  · intro hall
    rwa [Finset.filter_true_of_mem hall]

end Step

/-- **What one operation keeps**: of a pool in sync, it leaves a pool in sync exactly when
it removes no warm session for good other than by eviction. -/
theorem inSync_step_iff (cap : Int) {s : WarmPool} (h : s.InSync) (op : DriverOp) :
    s.KeepsInSync op ↔ (s.step cap op).InSync := by
  cases op with
  | newSession spawned turn => exact iff_of_true trivial (h.newSession spawned)
  | openSession path d turn => exact iff_of_true trivial (h.openSession path)
  | reloadSession path d turn =>
    cases path with
    | none => simpa [KeepsInSync, step] using h
    | some id => simpa [KeepsInSync, step] using (inSync_reload_iff h).symm
  | detachSession path =>
    cases path with
    | none => simpa [KeepsInSync, step] using h
    | some id => simpa [KeepsInSync, step] using (inSync_unwarm_iff h id).symm
  | prompt sessionId =>
    refine iff_of_true trivial ?_
    cases sessionId with
    | none => exact h
    | some id =>
      simp only [step]
      split_ifs with hid
      · exact h.focus hid
      · exact h
  | disposeIdleWarm turn => exact (inSync_disposeIdleWarm_iff h).symm

/-- **The pool is in sync, and its plans are sound, in every state of a run exactly when
no operation of it removes a warm session for good other than by eviction.** -/
theorem warmPool_ok_iff (cap : Int) (ops : List DriverOp) :
    (∀ pre, pre <+: ops → (run cap pre).Ok cap) ↔ Along (step cap) KeepsInSync empty ops := by
  rw [along_iff_forall_part (I := InSync) (fun _ op h => inSync_step_iff cap h op)
    inSync_empty ops]
  simp only [ok_iff_inSync, run]

/-! ### The divergence -/

/-- A session whose daemon is running. -/
private def running : Reopening := ⟨some true, true, true, true⟩

/-- Three sessions are opened and the third is detached. -/
private def detachedRun : List DriverOp :=
  [.openSession (some "a") running fun _ => false,
   .openSession (some "b") running fun _ => false,
   .openSession (some "c") running fun _ => false,
   .detachSession (some "c")]

/-- **Detaching leaves the session in the recency order.**  Under a cap of three sessions
two are warm and three are counted, so that opening one more evicts the oldest, although
the three would fit. -/
theorem not_warmPool_ok :
    ¬(∀ pre, pre <+: detachedRun → (run 3 pre).Ok 3) ∧
      (run 3 detachedRun).warm = {"a", "b"} ∧ (run 3 detachedRun).order = ["a", "b", "c"] ∧
      ((run 3 detachedRun).step 3
        (.openSession (some "d") running fun _ => false)).warm = {"b", "d"} := by
  have hwarm : (run 3 detachedRun).warm = {"a", "b"} := by decide
  have horder : (run 3 detachedRun).order = ["a", "b", "c"] := by decide
  refine ⟨?_, hwarm, horder, by decide⟩
  intro hok
  have hc := ((hok detachedRun (List.prefix_refl _)).1.mem "c").mp (by rw [horder]; decide)
  rw [hwarm] at hc
  revert hc
  decide

end WarmPool

end Pantoken
