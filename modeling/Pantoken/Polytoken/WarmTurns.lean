import Mathlib.Logic.Function.Basic
import Pantoken.Lib.PMap
import Pantoken.Lib.Run
import Pantoken.Polytoken.LiveEvents
import Pantoken.Polytoken.WarmPool

/-!
# Turns, evictions and sweeps

Disposing of a warm session kills the turn its daemon is in, so both the eviction under
the warm cap and the sweep of the idle sessions ask the cached state whether a turn is in
flight.  Both then wait for each session to be torn down, one after another, while the
streams, the prompts and the other installations go on.

A step runs from one wait of the driver to the next.

## Main definitions

* `WarmConn`, `WarmDriver` — the connections, the warm map, and the work in progress.
* `WarmAction`, `WarmDriver.step` — what happens between two waits.
* `WarmDriver.TurnSafe` — nothing inside a turn was evicted or disposed of, and each sweep
  removed exactly the connections it disposed of.
* `WarmDriver.Keeps` — the windows that have to stay closed.

## Main results

* `turnSafe_of_keeps` — **a run that keeps the windows closed is turn safe throughout**.
* `not_turnSafe` — the windows are open: a session is evicted inside a turn, and a sweep
  drops a session installed meanwhile.
-/

namespace Pantoken

/-! ### Connections and work in progress -/

/-- A connection is named by the order in which it was installed. -/
abbrev ConnId := Nat

/-- A warm session, and for the record whether it is inside a turn: one of its own started,
or a prompt was accepted, and it has not ended since. -/
structure WarmConn where
  sessionId : SessionId
  lastState : Option SessionStateSnapshot
  inTurn : Bool := false
  closed : Bool := false

/-- What the cached state says. -/
def WarmConn.turnInFlight (k : WarmConn) : Bool := (k.lastState.bind (·.turnInFlight)).getD false

/-- Where an `install_warm` that has inserted its session stands. -/
inductive InstallStage where
  | planning
  | evicting (victims : List SessionId)
  | disposing (c : ConnId) (victim : SessionId) (victims : List SessionId)

/-- The victims that are still to be looked up. -/
def InstallStage.victims : InstallStage → List SessionId
  | .planning => []
  | .evicting victims | .disposing _ _ victims => victims

/-- The connection that is being torn down. -/
def InstallStage.current : InstallStage → Option ConnId
  | .disposing c _ _ => some c
  | _ => none

structure Install where
  sessionId : SessionId
  stage : InstallStage

/-- Where a `dispose_idle_warm` stands: what it took on and has left, or which ids it found
active afterwards. -/
inductive SweepStage where
  | disposing (taken left : List ConnId)
  | retaining (taken : List ConnId) (active : List SessionId)

def SweepStage.taken : SweepStage → List ConnId
  | .disposing taken _ | .retaining taken _ => taken

/-- What is left to be torn down. -/
def SweepStage.left : SweepStage → List ConnId
  | .disposing _ left => left
  | .retaining _ _ => []

/-- What became of connections: evicted or disposed of, inside a turn or not, and what a
sweep disposed of and removed. -/
inductive Fate where
  | evicted (c : ConnId) (inTurn : Bool)
  | disposed (c : ConnId) (inTurn : Bool)
  | swept (taken removed : List ConnId)
  deriving DecidableEq

structure WarmDriver where
  conn : ConnId → WarmConn
  next : ConnId
  warm : PMap SessionId ConnId
  order : List SessionId
  installs : List Install
  sweep : Option SweepStage
  log : List Fate

/-- What happens between two waits. -/
inductive WarmAction where
  /-- `install_warm` inserts and focuses a session with the state it fetched. -/
  | install (id : SessionId) (state : Option SessionStateSnapshot)
  | plan (i : Nat)
  | evictNext (i : Nat)
  | evictDone (i : Nat)
  /-- Opening or prompting a warm session focuses it. -/
  | focus (id : SessionId)
  | promptAccepted (c : ConnId)
  | event (c : ConnId) (ev : DaemonEvent)
  /-- An answer of `GET /state` is cached. -/
  | refreshed (c : ConnId) (state : SessionStateSnapshot)
  /-- `reload_session` and `detach_session` take a session out of the map. -/
  | close (id : SessionId)
  | sweepStart
  | sweepDispose (c : ConnId)
  | sweepSelect
  | sweepRetain

/-- The event starts a turn of the session itself. -/
def DaemonEvent.startsTurn : DaemonEvent → Bool
  | .messageStart _ none => true
  | _ => false

/-- The event ends the turn of the session itself. -/
def DaemonEvent.endsTurn : DaemonEvent → Bool
  | .messageComplete _ none | .turnCancelled _ none => true
  | _ => false

namespace WarmDriver

/-- The driver before anything is warm. -/
def boot : WarmDriver where
  conn _ := { sessionId := "", lastState := none }
  next := 0
  warm := PMap.empty
  order := []
  installs := []
  sweep := none
  log := []

/-- The map holds this very connection. -/
def isWarm (s : WarmDriver) (c : ConnId) : Bool := s.warm (s.conn c).sessionId = some c

/-- The values of the map. -/
def values (s : WarmDriver) : List ConnId := (List.range s.next).filter fun c => s.isWarm c

/-- `focus` -/
def focusId (s : WarmDriver) (id : SessionId) : WarmDriver :=
  { s with order := s.order.filter (· ≠ id) ++ [id] }

/-- `turn_in_flight`: a session that is not warm has none. -/
def turnInFlight (s : WarmDriver) (id : SessionId) : Bool :=
  match s.warm id with
  | some c => (s.conn c).turnInFlight
  | none => false

def setConn (s : WarmDriver) (c : ConnId) (k : WarmConn) : WarmDriver :=
  { s with conn := Function.update s.conn c k }

def setStage (s : WarmDriver) (i : Nat) (t : Install) (stage : InstallStage) : WarmDriver :=
  { s with installs := s.installs.set i { t with stage } }

/-- `install_warm`, the insertion. -/
def install (s : WarmDriver) (id : SessionId) (state : Option SessionStateSnapshot) :
    WarmDriver :=
  { s with
    conn := Function.update s.conn s.next { sessionId := id, lastState := state }
    next := s.next + 1
    warm := s.warm.insert id s.next
    order := s.order.filter (· ≠ id) ++ [id]
    installs := s.installs ++ [⟨id, .planning⟩] }

/-- The eviction plan, from the cached states. -/
def planEviction (cap : Int) (s : WarmDriver) (i : Nat) (t : Install) : WarmDriver :=
  match t.stage with
  | .planning =>
    s.setStage i t (.evicting
      (evictionPlan s.order (some t.sessionId) cap fun id => !s.turnInFlight id))
  | _ => s

/-- The next victim leaves the map; one that is not there is passed over. -/
def evictNext (s : WarmDriver) (i : Nat) (t : Install) : WarmDriver :=
  match t.stage with
  | .evicting (victim :: victims) =>
    match s.warm victim with
    | some c =>
      { s.setStage i t (.disposing c victim victims) with
        warm := s.warm.erase victim
        log := s.log ++ [.evicted c (s.conn c).inTurn] }
    | none => s.setStage i t (.evicting victims)
  | _ => s

/-- `dispose_warm` closed the connection. -/
def dispose (s : WarmDriver) (c : ConnId) : WarmDriver :=
  { s.setConn c { s.conn c with closed := true } with
    log := s.log ++ [.disposed c (s.conn c).inTurn] }

/-- The victim is disposed of, and leaves the recency order. -/
def evictDone (s : WarmDriver) (i : Nat) (t : Install) : WarmDriver :=
  match t.stage with
  | .disposing c victim victims =>
    let s := s.dispose c
    { s.setStage i t (.evicting victims) with order := s.order.filter (· ≠ victim) }
  | _ => s

/-- The first half of `dispose_idle_warm`: the idle sessions, as the cached states tell. -/
def sweepStart (s : WarmDriver) : WarmDriver :=
  match s.sweep with
  | none =>
    let idle := s.values.filter fun c => !(s.conn c).turnInFlight
    { s with sweep := some (.disposing idle idle) }
  | some _ => s

/-- One of them is disposed of. -/
def sweepDispose (s : WarmDriver) (c : ConnId) : WarmDriver :=
  match s.sweep with
  | some (.disposing taken left) =>
    if c ∈ left then
      { s.dispose c with sweep := some (.disposing taken (left.filter (· ≠ c))) }
    else s
  | _ => s

/-- The ids that are active now. -/
def sweepSelect (s : WarmDriver) : WarmDriver :=
  match s.sweep with
  | some (.disposing taken []) =>
    let active := s.values.filter fun c => (s.conn c).turnInFlight
    { s with sweep := some (.retaining taken (active.map fun c => (s.conn c).sessionId)) }
  | _ => s

/-- The map keeps the active ids. -/
def sweepRetain (s : WarmDriver) : WarmDriver :=
  match s.sweep with
  | some (.retaining taken active) =>
    { s with
      warm := fun id => if id ∈ active then s.warm id else none
      sweep := none
      log := s.log ++ [.swept taken (s.values.filter fun c => (s.conn c).sessionId ∉ active)] }
  | _ => s

/-- The turn of a connection that is still open. -/
def setTurn (s : WarmDriver) (c : ConnId) (inTurn : Bool) : WarmDriver :=
  if (s.conn c).closed then s else s.setConn c { s.conn c with inTurn }

/-- The installation `i`, if there is one. -/
def withInstall (s : WarmDriver) (i : Nat) (f : Install → WarmDriver) : WarmDriver :=
  match s.installs[i]? with
  | some t => f t
  | none => s

def step (cap : Int) (s : WarmDriver) : WarmAction → WarmDriver
  | .install id state => s.install id state
  | .plan i => s.withInstall i (s.planEviction cap i)
  | .evictNext i => s.withInstall i (s.evictNext i)
  | .evictDone i => s.withInstall i (s.evictDone i)
  | .focus id => if (s.warm id).isSome then s.focusId id else s
  | .promptAccepted c => s.setTurn c true
  | .event c ev => s.setTurn c (ev.startsTurn || ((s.conn c).inTurn && !ev.endsTurn))
  | .refreshed c state => s.setConn c { s.conn c with lastState := some state }
  | .close id => { s with warm := s.warm.erase id }
  | .sweepStart => s.sweepStart
  | .sweepDispose c => s.sweepDispose c
  | .sweepSelect => s.sweepSelect
  | .sweepRetain => s.sweepRetain

end WarmDriver

/-! ### What is claimed, and the windows -/

/-- No turn was killed, and a sweep removed exactly what it disposed of. -/
def Fate.Good : Fate → Prop
  | .evicted _ inTurn | .disposed _ inTurn => inTurn = false
  | .swept taken removed => ∀ c, c ∈ removed ↔ c ∈ taken

namespace WarmDriver

/-- Nothing inside a turn was evicted or disposed of, and each sweep removed exactly the
connections it disposed of. -/
def TurnSafe (s : WarmDriver) : Prop := ∀ f ∈ s.log, f.Good

/-- The connection is about to be torn down. -/
def Condemned (s : WarmDriver) (c : ConnId) : Prop :=
  (∃ t ∈ s.installs, t.stage.current = some c ∨
    (s.isWarm c = true ∧ (s.conn c).sessionId ∈ t.stage.victims)) ∨
  ∃ w, s.sweep = some w ∧ c ∈ w.left

/-- What a sweep took on stays in the map. -/
def LeavesSwept (s : WarmDriver) (id : SessionId) : Prop :=
  ∀ w, s.sweep = some w → ∀ c, s.warm id = some c → c ∉ w.taken

/-- The windows stay closed: the cached states are true when they are asked, no turn starts on
a connection that is about to be torn down, and while a sweep is on nothing is installed,
nothing it took on leaves the map, and no warm session's cached state changes its answer. -/
def Keeps (cap : Int) (s : WarmDriver) : WarmAction → Prop
  | .install _ _ => s.sweep = none
  | .plan i => ∀ t, s.installs[i]? = some t → t.stage = .planning → 0 < cap →
      cap < s.order.length → ∀ c, s.isWarm c = true → (s.conn c).sessionId ∈ s.order →
        (s.conn c).sessionId ≠ t.sessionId → (s.conn c).turnInFlight = false →
          (s.conn c).inTurn = false
  | .evictNext i => ∀ t, s.installs[i]? = some t → ∀ victim victims,
      t.stage = .evicting (victim :: victims) → s.LeavesSwept victim
  | .promptAccepted c => ¬ s.Condemned c
  | .event c ev => ev.startsTurn = true → ¬ s.Condemned c
  | .refreshed c state => ∀ taken left, s.sweep = some (.disposing taken left) →
      s.isWarm c = true → state.turnInFlight.getD false = (s.conn c).turnInFlight
  | .close id => s.LeavesSwept id
  | .sweepStart => s.sweep = none → ∀ c, s.isWarm c = true → (s.conn c).turnInFlight = false →
      (s.conn c).inTurn = false
  | _ => True

/-! ### What the steps keep -/

/-- What a sweep took on is what it will remove. -/
def SweepSound (s : WarmDriver) : SweepStage → Prop
  | .disposing taken _ => ∀ c, c ∈ taken ↔ s.isWarm c = true ∧ (s.conn c).turnInFlight = false
  | .retaining taken active =>
    ∀ c, c ∈ taken ↔ s.isWarm c = true ∧ (s.conn c).sessionId ∉ active

/-- The invariant of the runs that keep the windows closed. -/
structure Inv (s : WarmDriver) : Prop where
  keyed : ∀ id c, s.warm id = some c → (s.conn c).sessionId = id ∧ c < s.next
  condemned : ∀ c, s.Condemned c → (s.conn c).inTurn = false
  swept : ∀ w, s.sweep = some w → s.SweepSound w
  safe : s.TurnSafe

section Steps

variable {cap : Int} {s : WarmDriver}

theorem isWarm_iff (s : WarmDriver) (c : ConnId) :
    s.isWarm c = true ↔ s.warm (s.conn c).sessionId = some c := by simp [isWarm]

theorem Inv.isWarm_of (h : s.Inv) {id : SessionId} {c : ConnId} (hc : s.warm id = some c) :
    s.isWarm c = true := by
  rw [isWarm_iff, (h.keyed id c hc).1, hc]

theorem Inv.mem_values (h : s.Inv) (c : ConnId) : c ∈ s.values ↔ s.isWarm c = true := by
  unfold values
  rw [List.mem_filter, List.mem_range, and_iff_right_iff_imp]
  intro hc
  exact (h.keyed _ c ((isWarm_iff s c).mp hc)).2

/-- Two warm connections of one session are one. -/
theorem eq_of_isWarm {c d : ConnId} (hc : s.isWarm c = true) (hd : s.isWarm d = true)
    (hid : (s.conn c).sessionId = (s.conn d).sessionId) : c = d := by
  rw [isWarm_iff] at hc hd
  rw [hid, hd] at hc
  exact (Option.some.inj hc).symm

theorem mem_setStage {i : Nat} {t u : Install} {stage : InstallStage}
    (h : u ∈ (s.setStage i t stage).installs) : u ∈ s.installs ∨ u = { t with stage } :=
  List.mem_or_eq_of_mem_set h

theorem turnSafe_log {s' : WarmDriver} {f : Fate} (h : s.TurnSafe)
    (hlog : s'.log = s.log ++ [f]) (hf : f.Good) : s'.TurnSafe := by
  unfold TurnSafe
  rw [hlog, List.forall_mem_append, List.forall_mem_singleton]
  exact ⟨h, hf⟩

/-! ### Installing and evicting -/

theorem Inv.install (h : s.Inv) (hsweep : s.sweep = none) (id : SessionId)
    (state : Option SessionStateSnapshot) : (s.install id state).Inv := by
  have hold : ∀ c, c ≠ s.next → (s.install id state).conn c = s.conn c := by
    intro c hc
    exact Function.update_of_ne hc _ _
  have hnew : (s.install id state).conn s.next = { sessionId := id, lastState := state } :=
    Function.update_self _ _ _
  refine ⟨?_, ?_, ?_, h.safe⟩
  · intro k c hc
    change s.warm.insert id s.next k = some c at hc
    rw [PMap.insert_apply] at hc
    split_ifs at hc with hk
    · obtain rfl := Option.some.inj hc
      rw [hnew]
      exact ⟨hk.symm, Nat.lt_succ_self _⟩
    · obtain ⟨hid, hlt⟩ := h.keyed k c hc
      rw [hold c (Nat.ne_of_lt hlt)]
      exact ⟨hid, Nat.lt_succ_of_lt hlt⟩
  · rintro c (⟨t, ht, hcause⟩ | ⟨w, hw, -⟩)
    · by_cases hc : c = s.next
      · rw [hc, hnew]
      · rw [hold c hc]
        rcases List.mem_append.mp ht with ht | ht
        · apply h.condemned c
          refine Or.inl ⟨t, ht, hcause.imp_right ?_⟩
          rintro ⟨hwarm, hvictim⟩
          rw [hold c hc] at hvictim
          refine ⟨?_, hvictim⟩
          rw [isWarm_iff, hold c hc] at hwarm
          change s.warm.insert id s.next _ = some c at hwarm
          rw [PMap.insert_apply] at hwarm
          split_ifs at hwarm with hk
          · exact absurd (Option.some.inj hwarm).symm hc
          · exact (isWarm_iff s c).mpr hwarm
        · -- the installation itself has planned nothing yet
          obtain rfl := List.mem_singleton.mp ht
          rcases hcause with hcur | ⟨-, hvictim⟩
          · cases hcur
          · cases hvictim
    · change s.sweep = some w at hw
      rw [hsweep] at hw
      cases hw
  · intro w hw
    change s.sweep = some w at hw
    rw [hsweep] at hw
    cases hw

theorem Inv.planEviction (h : s.Inv) {i : Nat} {t : Install} (ht : s.installs[i]? = some t)
    (hkeeps : s.Keeps cap (.plan i)) : (s.planEviction cap i t).Inv := by
  unfold WarmDriver.planEviction
  split
  · rename_i hstage
    refine ⟨h.keyed, ?_, h.swept, h.safe⟩
    rintro c (⟨u, hu, hcause⟩ | hsweep)
    · rcases mem_setStage hu with hu | rfl
      · exact h.condemned c (Or.inl ⟨u, hu, hcause⟩)
      · rcases hcause with hcur | ⟨hwarm, hvictim⟩
        · cases hcur
        · change s.isWarm c = true at hwarm
          change (s.conn c).sessionId ∈ evictionPlan s.order (some t.sessionId) cap
            (fun id => !s.turnInFlight id) at hvictim
          obtain ⟨horder, hother, hidle⟩ := mem_of_mem_evictionPlan hvictim
          obtain ⟨hcap, hlen⟩ : 0 < cap ∧ cap < s.order.length := by
            by_contra hfits
            have hnil : evictionPlan s.order (some t.sessionId) cap
                (fun id => !s.turnInFlight id) = [] := by
              unfold evictionPlan
              rw [if_pos (by omega)]
            rw [hnil] at hvictim
            cases hvictim
          have hflag : (s.conn c).turnInFlight = false := by
            have hlookup := (isWarm_iff s c).mp hwarm
            simpa [turnInFlight, hlookup] using hidle
          exact hkeeps t ht hstage hcap hlen c hwarm horder (fun heq => hother (by rw [heq]))
            hflag
    · exact h.condemned c (Or.inr hsweep)
  · exact h

theorem Inv.leaves {id : SessionId} {c : ConnId} (h : s.Inv) (hleaves : s.LeavesSwept id)
    (hc : s.warm id = some c) {d : ConnId} {w : SweepStage} (hw : s.sweep = some w)
    (hd : d ∈ w.taken) (hwarm : s.isWarm d = true) : (s.conn d).sessionId ≠ id := by
  intro hid
  have hdc : d = c := eq_of_isWarm hwarm (h.isWarm_of hc) (hid.trans (h.keyed id c hc).1.symm)
  exact hleaves w hw c hc (hdc ▸ hd)

/-- Taking out a session that no sweep took on. -/
theorem Inv.erase {s' : WarmDriver} {id : SessionId} (h : s.Inv) (hleaves : s.LeavesSwept id)
    (hconn : s'.conn = s.conn) (hnext : s'.next = s.next) (hwarm : s'.warm = s.warm.erase id)
    (hsweep : s'.sweep = s.sweep) (hcondemned : ∀ c, s'.Condemned c → s.Condemned c)
    (hsafe : s'.TurnSafe) : s'.Inv := by
  have hiff : ∀ c, s'.isWarm c = true ↔ s.isWarm c = true ∧ (s.conn c).sessionId ≠ id := by
    intro c
    rw [isWarm_iff, isWarm_iff, hconn, hwarm, PMap.erase_apply]
    split_ifs with hid
    · simp [hid]
    · simp [hid]
  refine ⟨?_, ?_, ?_, hsafe⟩
  · intro k c hc
    rw [hwarm, PMap.erase_apply] at hc
    rw [hconn, hnext]
    split_ifs at hc
    exact h.keyed k c hc
  · intro c hc
    rw [hconn]
    exact h.condemned c (hcondemned c hc)
  · intro w hw
    rw [hsweep] at hw
    have hsound := h.swept w hw
    -- what the sweep took on is warm under another id, or is not warm at all
    have hother : ∀ d, d ∈ w.taken → s.isWarm d = true → (s.conn d).sessionId ≠ id := by
      intro d hd hdw hid
      obtain ⟨c, hc⟩ : ∃ c, s.warm id = some c := ⟨d, by rw [← hid]; exact (isWarm_iff s d).mp hdw⟩
      exact h.leaves hleaves hc hw hd hdw hid
    cases w with
    | disposing taken left =>
      intro c
      rw [hiff, hconn, hsound c]
      constructor
      · rintro ⟨hcw, hidle⟩
        exact ⟨⟨hcw, hother c ((hsound c).mpr ⟨hcw, hidle⟩) hcw⟩, hidle⟩
      · rintro ⟨⟨hcw, -⟩, hidle⟩
        exact ⟨hcw, hidle⟩
    | retaining taken active =>
      intro c
      rw [hiff, hconn, hsound c]
      constructor
      · rintro ⟨hcw, hout⟩
        exact ⟨⟨hcw, hother c ((hsound c).mpr ⟨hcw, hout⟩) hcw⟩, hout⟩
      · rintro ⟨⟨hcw, -⟩, hout⟩
        exact ⟨hcw, hout⟩

/-- Fewer warm connections, fewer are about to be torn down. -/
theorem isWarm_of_erase {s' : WarmDriver} {id : SessionId} {c : ConnId}
    (hc : s'.isWarm c = true) (hconn : s'.conn = s.conn) (hwarm : s'.warm = s.warm.erase id) :
    s.isWarm c = true := by
  rw [isWarm_iff, hconn, hwarm, PMap.erase_apply] at hc
  rw [isWarm_iff]
  split_ifs at hc
  exact hc

theorem Inv.close (h : s.Inv) (id : SessionId) (hleaves : s.LeavesSwept id) :
    ({ s with warm := s.warm.erase id } : WarmDriver).Inv := by
  refine h.erase hleaves rfl rfl rfl rfl ?_ h.safe
  rintro c (⟨t, ht, hcause⟩ | hsweep)
  · refine Or.inl ⟨t, ht, hcause.imp_right ?_⟩
    rintro ⟨hwarm, hvictim⟩
    exact ⟨isWarm_of_erase hwarm rfl rfl, hvictim⟩
  · exact Or.inr hsweep

theorem Inv.evictNext (h : s.Inv) {i : Nat} {t : Install} (ht : s.installs[i]? = some t)
    (hkeeps : s.Keeps cap (.evictNext i)) : (s.evictNext i t).Inv := by
  have hmem : t ∈ s.installs := List.mem_of_getElem? ht
  unfold WarmDriver.evictNext
  split
  · rename_i victim victims hstage
    have hsub : ∀ id, id ∈ victims → id ∈ t.stage.victims := by
      intro id hid
      rw [hstage]
      exact List.mem_cons_of_mem _ hid
    split
    · rename_i c hc
      have hcc : s.Condemned c := by
        refine Or.inl ⟨t, hmem, Or.inr ⟨h.isWarm_of hc, ?_⟩⟩
        rw [(h.keyed victim c hc).1, hstage]
        exact List.mem_cons_self
      refine h.erase (hkeeps t ht victim victims hstage) rfl rfl rfl rfl ?_
        (turnSafe_log h.safe rfl (h.condemned c hcc))
      rintro d (⟨u, hu, hcause⟩ | hsweep)
      · rcases List.mem_or_eq_of_mem_set hu with hu | rfl
        · refine Or.inl ⟨u, hu, hcause.imp_right ?_⟩
          rintro ⟨hwarm, hvictim⟩
          exact ⟨isWarm_of_erase hwarm rfl rfl, hvictim⟩
        · rcases hcause with hcur | ⟨hwarm, hvictim⟩
          · obtain rfl : c = d := Option.some.inj hcur
            exact hcc
          · exact Or.inl ⟨t, hmem, Or.inr ⟨isWarm_of_erase hwarm rfl rfl, hsub _ hvictim⟩⟩
      · exact Or.inr hsweep
    · refine ⟨h.keyed, ?_, h.swept, h.safe⟩
      rintro d (⟨u, hu, hcause⟩ | hsweep)
      · rcases mem_setStage hu with hu | rfl
        · exact h.condemned d (Or.inl ⟨u, hu, hcause⟩)
        · rcases hcause with hcur | ⟨hwarm, hvictim⟩
          · cases hcur
          · exact h.condemned d (Or.inl ⟨t, hmem, Or.inr ⟨hwarm, hsub _ hvictim⟩⟩)
      · exact h.condemned d (Or.inr hsweep)
  · exact h

/-! ### One connection -/

theorem sessionId_setConn {c : ConnId} {k : WarmConn} (hid : k.sessionId = (s.conn c).sessionId)
    (d : ConnId) : ((s.setConn c k).conn d).sessionId = (s.conn d).sessionId := by
  unfold setConn
  by_cases hd : d = c
  · rw [hd]
    simpa using hid
  · simp [hd]

theorem isWarm_setConn {c : ConnId} {k : WarmConn} (hid : k.sessionId = (s.conn c).sessionId)
    (d : ConnId) : (s.setConn c k).isWarm d = s.isWarm d := by
  unfold isWarm
  rw [sessionId_setConn hid]
  rfl

theorem condemned_setConn {c : ConnId} {k : WarmConn} (hid : k.sessionId = (s.conn c).sessionId)
    (d : ConnId) : (s.setConn c k).Condemned d ↔ s.Condemned d := by
  unfold Condemned
  rw [isWarm_setConn hid, sessionId_setConn hid]
  rfl

/-- A change of one connection that starts no turn on one about to be torn down, and that does
not change the answer of one a sweep looked at. -/
theorem Inv.setConn (h : s.Inv) {c : ConnId} {k : WarmConn}
    (hid : k.sessionId = (s.conn c).sessionId) (hturn : s.Condemned c → k.inTurn = false)
    (hflag : ∀ taken left, s.sweep = some (.disposing taken left) → s.isWarm c = true →
      k.turnInFlight = (s.conn c).turnInFlight) : (s.setConn c k).Inv := by
  refine ⟨?_, ?_, ?_, h.safe⟩
  · intro id d hd
    rw [sessionId_setConn hid]
    exact h.keyed id d hd
  · intro d hd
    rw [condemned_setConn hid] at hd
    by_cases hdc : d = c
    · subst hdc
      simpa [WarmDriver.setConn] using hturn hd
    · simpa [WarmDriver.setConn, hdc] using h.condemned d hd
  · intro w hw
    have hsound := h.swept w hw
    cases w with
    | disposing taken left =>
      intro d
      rw [isWarm_setConn hid, hsound d]
      refine and_congr_right fun hd => ?_
      by_cases hdc : d = c
      · subst hdc
        rw [← hflag taken left hw hd]
        simp [WarmDriver.setConn]
      · simp [WarmDriver.setConn, hdc]
    | retaining taken active =>
      intro d
      rw [isWarm_setConn hid, sessionId_setConn hid]
      exact hsound d

theorem Inv.setTurn (h : s.Inv) {c : ConnId} {inTurn : Bool}
    (hturn : s.Condemned c → inTurn = false) : (s.setTurn c inTurn).Inv := by
  unfold WarmDriver.setTurn
  split
  · exact h
  · exact h.setConn rfl hturn fun _ _ _ _ => rfl

theorem Inv.event (h : s.Inv) {c : ConnId} {ev : DaemonEvent}
    (hkeeps : s.Keeps cap (.event c ev)) :
    (s.setTurn c (ev.startsTurn || ((s.conn c).inTurn && !ev.endsTurn))).Inv := by
  apply h.setTurn
  intro hc
  have hstart : ev.startsTurn = false := by
    by_contra hstart
    exact hkeeps (by simpa using hstart) hc
  simp [hstart, h.condemned c hc]

theorem Inv.refreshed (h : s.Inv) {c : ConnId} {state : SessionStateSnapshot}
    (hkeeps : s.Keeps cap (.refreshed c state)) :
    (s.setConn c { s.conn c with lastState := some state }).Inv :=
  h.setConn rfl (h.condemned c) hkeeps

/-- Tearing down a connection outside a turn. -/
theorem Inv.dispose (h : s.Inv) {c : ConnId} (hc : (s.conn c).inTurn = false) :
    (s.dispose c).Inv := by
  have hset : (s.setConn c { s.conn c with closed := true }).Inv :=
    h.setConn rfl (fun _ => hc) fun _ _ _ _ => rfl
  exact ⟨hset.keyed, hset.condemned, hset.swept, turnSafe_log hset.safe rfl hc⟩

theorem Inv.evictDone (h : s.Inv) {i : Nat} {t : Install} (ht : s.installs[i]? = some t) :
    (s.evictDone i t).Inv := by
  have hmem : t ∈ s.installs := List.mem_of_getElem? ht
  unfold WarmDriver.evictDone
  split
  · rename_i c victim victims hstage
    have hc : s.Condemned c := Or.inl ⟨t, hmem, Or.inl (by rw [hstage]; rfl)⟩
    have hdisposed := h.dispose (h.condemned c hc)
    refine ⟨hdisposed.keyed, ?_, hdisposed.swept, hdisposed.safe⟩
    rintro d (⟨u, hu, hcause⟩ | hsweep)
    · apply hdisposed.condemned d
      rcases List.mem_or_eq_of_mem_set hu with hu | rfl
      · exact Or.inl ⟨u, hu, hcause⟩
      · rcases hcause with hcur | ⟨hwarm, hvictim⟩
        · cases hcur
        · refine Or.inl ⟨t, hmem, Or.inr ⟨hwarm, ?_⟩⟩
          rw [hstage]
          exact hvictim
    · exact hdisposed.condemned d (Or.inr hsweep)
  · exact h

/-! ### The sweep -/

theorem Inv.sweepStart (h : s.Inv) (hkeeps : s.Keeps cap .sweepStart) : s.sweepStart.Inv := by
  unfold WarmDriver.sweepStart
  split
  · rename_i hnone
    have hidle : ∀ c, c ∈ s.values.filter (fun c => !(s.conn c).turnInFlight) ↔
        s.isWarm c = true ∧ (s.conn c).turnInFlight = false := by
      intro c
      rw [List.mem_filter, h.mem_values]
      simp
    refine ⟨h.keyed, ?_, ?_, h.safe⟩
    · rintro c (hinst | ⟨w, hw, hc⟩)
      · exact h.condemned c (Or.inl hinst)
      · obtain rfl := Option.some.inj hw
        obtain ⟨hwarm, hflag⟩ := (hidle c).mp hc
        exact hkeeps hnone c hwarm hflag
    · intro w hw
      obtain rfl := Option.some.inj hw
      exact hidle
  · exact h

theorem Inv.sweepDispose (h : s.Inv) (c : ConnId) : (s.sweepDispose c).Inv := by
  unfold WarmDriver.sweepDispose
  split
  · rename_i taken left hsweep
    split
    · rename_i hmem
      have hc : s.Condemned c := Or.inr ⟨_, hsweep, hmem⟩
      have hdisposed := h.dispose (h.condemned c hc)
      refine ⟨hdisposed.keyed, ?_, ?_, hdisposed.safe⟩
      · rintro d (hinst | ⟨w, hw, hd⟩)
        · exact hdisposed.condemned d (Or.inl hinst)
        · obtain rfl := Option.some.inj hw
          exact hdisposed.condemned d (Or.inr ⟨_, hsweep, List.mem_of_mem_filter hd⟩)
      · intro w hw
        obtain rfl := Option.some.inj hw
        exact hdisposed.swept _ hsweep
    · exact h
  · exact h

/-- The ids that are active now are those of the connections the sweep did not take on. -/
theorem Inv.sweepSelect (h : s.Inv) : s.sweepSelect.Inv := by
  unfold WarmDriver.sweepSelect
  split
  · rename_i taken hsweep
    have hsound : ∀ c, c ∈ taken ↔ s.isWarm c = true ∧ (s.conn c).turnInFlight = false :=
      h.swept _ hsweep
    refine ⟨h.keyed, ?_, ?_, h.safe⟩
    · rintro c (hinst | ⟨w, hw, hc⟩)
      · exact h.condemned c (Or.inl hinst)
      · obtain rfl := Option.some.inj hw
        cases hc
    · intro w hw
      obtain rfl := Option.some.inj hw
      intro c
      change _ ↔ s.isWarm c = true ∧ (s.conn c).sessionId ∉ _
      rw [hsound]
      refine and_congr_right fun hwarm => ?_
      rw [List.mem_map, not_exists]
      constructor
      · rintro hidle d ⟨hd, hid⟩
        obtain ⟨hvalue, hflag⟩ := List.mem_filter.mp hd
        obtain rfl := eq_of_isWarm ((h.mem_values d).mp hvalue) hwarm hid
        rw [hidle] at hflag
        cases hflag
      · intro hnone
        by_contra hflag
        refine hnone c ⟨List.mem_filter.mpr ⟨(h.mem_values c).mpr hwarm, ?_⟩, rfl⟩
        simpa using hflag
  · exact h

theorem Inv.sweepRetain (h : s.Inv) : s.sweepRetain.Inv := by
  unfold WarmDriver.sweepRetain
  split
  · rename_i taken active hsweep
    have hsound : ∀ c, c ∈ taken ↔ s.isWarm c = true ∧ (s.conn c).sessionId ∉ active :=
      h.swept _ hsweep
    have hkept : ∀ id c, (if id ∈ active then s.warm id else none) = some c →
        s.warm id = some c := by
      intro id c hc
      split_ifs at hc
      exact hc
    refine ⟨fun id c hc => h.keyed id c (hkept id c hc), ?_, ?_, ?_⟩
    · rintro c (⟨t, ht, hcause⟩ | ⟨w, hw, -⟩)
      · refine h.condemned c (Or.inl ⟨t, ht, hcause.imp_right ?_⟩)
        rintro ⟨hwarm, hvictim⟩
        rw [isWarm_iff] at hwarm
        exact ⟨(isWarm_iff s c).mpr (hkept _ c hwarm), hvictim⟩
      · cases hw
    · intro w hw
      cases hw
    · refine turnSafe_log h.safe rfl ?_
      intro c
      rw [List.mem_filter, h.mem_values, hsound]
      simp
  · exact h

end Steps

/-- Every step that keeps its window closed keeps the invariant. -/
theorem Inv.step {cap : Int} {s : WarmDriver} (h : s.Inv) (a : WarmAction)
    (hkeeps : s.Keeps cap a) : (step cap s a).Inv := by
  have hinstall : ∀ (i : Nat) (f : Install → WarmDriver),
      (∀ t, s.installs[i]? = some t → (f t).Inv) → (s.withInstall i f).Inv := by
    intro i f hf
    unfold withInstall
    split
    · rename_i t ht
      exact hf t ht
    · exact h
  cases a with
  | install id state => exact h.install hkeeps id state
  | plan i => exact hinstall i _ fun t ht => h.planEviction ht hkeeps
  | evictNext i => exact hinstall i _ fun t ht => h.evictNext ht hkeeps
  | evictDone i => exact hinstall i _ fun t ht => h.evictDone ht
  | focus id =>
    unfold WarmDriver.step
    dsimp only
    split
    · exact ⟨h.keyed, h.condemned, h.swept, h.safe⟩
    · exact h
  | promptAccepted c => exact h.setTurn fun hc => absurd hc hkeeps
  | event c ev => exact h.event hkeeps
  | refreshed c state => exact h.refreshed hkeeps
  | close id => exact h.close id hkeeps
  | sweepStart => exact h.sweepStart hkeeps
  | sweepDispose c => exact h.sweepDispose c
  | sweepSelect => exact h.sweepSelect
  | sweepRetain => exact h.sweepRetain

theorem inv_boot : boot.Inv := by
  refine ⟨?_, ?_, ?_, ?_⟩
  · rintro id c ⟨⟩
  · rintro c (⟨t, ht, -⟩ | ⟨w, hw, -⟩)
    · cases ht
    · cases hw
  · rintro w ⟨⟩
  · rintro f ⟨⟩

/-- **A run that keeps the windows closed is turn safe throughout**: nothing inside a turn is
evicted or disposed of, and each sweep removes exactly the connections it disposed of. -/
theorem turnSafe_of_keeps (cap : Int) (acts : List WarmAction)
    (hkeeps : Along (step cap) (Keeps cap) boot acts) :
    ∀ pre, pre <+: acts → (pre.foldl (step cap) boot).TurnSafe := by
  rintro pre ⟨rest, rfl⟩
  have hinv : (pre.foldl (step cap) boot).Inv :=
    Along.foldl_invariant (fun _ a h hC => h.step a hC) inv_boot hkeeps.of_append
  exact hinv.safe

/-- A prompt is answered, and the idle session is swept. -/
private def answeredThenSwept : List WarmAction :=
  [.install "a" none, .promptAccepted 0, .event 0 (.messageComplete "p1" none),
    .sweepStart, .sweepDispose 0, .sweepSelect, .sweepRetain]

theorem turnSafe_answeredThenSwept :
    (answeredThenSwept.foldl (step 8) boot).log = [.disposed 0 false, .swept [0] [0]] ∧
      ∀ pre, pre <+: answeredThenSwept → (pre.foldl (step 8) boot).TurnSafe := by
  refine ⟨by decide, turnSafe_of_keeps 8 answeredThenSwept ?_⟩
  refine ⟨rfl, ?_, ?_, ?_, trivial, trivial, trivial, trivial⟩
  · rintro (⟨t, ht, hcause⟩ | ⟨w, hw, -⟩)
    · obtain rfl := List.mem_singleton.mp ht
      rcases hcause with hcur | ⟨-, hvictim⟩
      · cases hcur
      · cases hvictim
    · cases hw
  · intro hstart
    cases hstart
  · rintro - c - -
    cases c with
    | zero => rfl
    | succ c => rfl

/-- Under a cap of one session, another one is opened while a turn streams. -/
private def openedInTurn : List WarmAction :=
  [.install "a" none, .plan 0, .event 0 (.messageStart "p1" none),
    .install "b" none, .plan 1, .evictNext 1]

/-- While an idle session is swept it is reloaded. -/
private def reloadedInSweep : List WarmAction :=
  [.install "a" none, .plan 0, .sweepStart, .close "a", .install "a" none, .sweepDispose 0,
    .sweepSelect, .sweepRetain]

/-- **The windows are open.**  The start of a turn does not reach the cached state, so the
session is evicted inside its turn; and the sweep goes by ids, so it drops a connection it
never disposed of. -/
theorem not_turnSafe :
    ¬ (openedInTurn.foldl (step 1) boot).TurnSafe ∧
      ¬ (reloadedInSweep.foldl (step 8) boot).TurnSafe := by
  constructor
  · intro hsafe
    have hlog : (openedInTurn.foldl (step 1) boot).log = [.evicted 0 true] := by decide
    have hgood : (Fate.evicted 0 true).Good :=
      hsafe _ (by rw [hlog]; exact List.mem_singleton_self _)
    cases hgood
  · intro hsafe
    have hlog : (reloadedInSweep.foldl (step 8) boot).log =
        [.disposed 0 false, .swept [0] [1]] := by decide
    have hgood : (Fate.swept [0] [1]).Good := hsafe _ (by rw [hlog]; simp)
    have hremoved := (hgood 1).mp (List.mem_singleton_self _)
    revert hremoved
    decide

end WarmDriver

end Pantoken
