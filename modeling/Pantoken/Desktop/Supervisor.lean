import Pantoken.Lib.Run

/-!
# The supervisor of the local server

The desktop application keeps a server process running: it probes the child until it is healthy
and every five seconds from then on, ends one that does not answer, and starts the next one, unless
children exit too quickly one after the other.

One round of the model is one round of a loop of the source, with the clock readings in it.

## Main definitions

* `superviseOne`, `Supervision.endChild`, `Supervision.step` — the loops, round by round.
* `Patient` — a bound for the probes that are missed in a row.
* `Watched` — a child that is started again is healthy by its deadline, and an exit within five
  seconds is noticed within five seconds.
* `Quick` — every child exits within five seconds.

## Main results

* `Inv.step` — what each round keeps of the missed probes.
* `patient_of_watched` — **never more than a constant of probes are missed in a row.**
* `supervises` — **that, and quick exits end in one report, as long as the rounds are watched.**
* `not_patient` — a child that is started again may miss any number of probes.
-/

namespace Pantoken.Desktop.Supervisor

/-! ### The code -/

/-- `MAX_RAPID_RESTARTS` -/
def maxRapidRestarts : ℕ := 5

/-- `BOOT_HEALTH_TIMEOUT`, in milliseconds as all times here -/
def bootHealthTimeout : ℕ := 30000

/-- `LIVENESS_STRIKES` -/
def livenessStrikes : ℕ := 6

structure PantokenConfig where
  hubBin : String
  dataDir : String

def PantokenConfig.logPath (config : PantokenConfig) : String := config.dataDir ++ "/pantoken.log"

/-- What the supervisor is seen to do. -/
inductive Mark
  /-- A probe that fails. -/
  | missed
  /-- A probe that succeeds. -/
  | answered
  | healthy (firstTime : Bool)
  | spawned
  | terminated
  | unrecoverable (text : String)
  deriving DecidableEq

/-- `try_wait` -/
inductive TryWait
  | exited
  | running
  | failed
  deriving DecidableEq

/-- The variables of `supervise_one`, and `spawn_time`. -/
structure Watch where
  spawnTime : ℕ
  bootDeadline : ℕ
  healthy : Bool
  livenessFailures : ℕ
  nextProbe : ℕ
  deriving DecidableEq

inductive Phase
  /-- At the top of the loop of `run_loop`. -/
  | top
  | watching (w : Watch)
  | returned
  deriving DecidableEq

/-- The run loop, its clock, and what it has done, the last first. -/
structure Supervision where
  now : ℕ
  started : Bool
  rapidRestarts : ℕ
  phase : Phase
  log : List Mark

/-- What a round meets: errors, answers, the time from one clock reading to the next, and, in the
round in which a child ends, when it exited. -/
structure Round where
  openLog : Option String
  cloneLog : Option String
  spawn : Option String
  launching : ℕ
  preparing : ℕ
  tryWait : TryWait
  waiting : ℕ
  healthOk : Bool
  probing : ℕ
  settling : ℕ
  oversleep : ℕ
  ending : ℕ
  resting : ℕ
  exitedAt : ℕ

namespace Supervision

/-- `on_event(SupervisorEvent::Unrecoverable(..))` -/
def report (s : Supervision) (text : String) : Supervision :=
  { s with log := .unrecoverable text :: s.log }

/-- Signals and waiting; the time is counted when the child has ended. -/
def terminate (s : Supervision) : Supervision := { s with log := .terminated :: s.log }

/-- The branch of `supervise_one` after a probe that succeeded at a time. -/
def probeAnswered (s : Supervision) (w : Watch) (r : Round) (now : ℕ) :
    Supervision × Option Watch :=
  let s' :=
    if w.healthy then { s with log := .answered :: s.log }
    else { s with started := true, log := .healthy (!s.started) :: .answered :: s.log }
  ({ s' with now := now + 50 + r.oversleep },
    some { w with healthy := true, livenessFailures := 0, nextProbe := now + 5000 })

/-- The branches after a probe that failed. -/
def probeMissed (s : Supervision) (w : Watch) (r : Round) (now : ℕ) :
    Supervision × Option Watch :=
  let s' := { s with log := .missed :: s.log }
  if w.healthy then
    if livenessStrikes ≤ w.livenessFailures + 1 then ({ s' with now := now }.terminate, none)
    else
      ({ s' with now := now + 50 + r.oversleep },
        some { w with livenessFailures := w.livenessFailures + 1, nextProbe := now + 5000 })
  else if s.started = false ∧ w.bootDeadline < now then
    (({ s' with now := now }.report
      "The pantoken server didn't become healthy within 30s.").terminate, none)
  else
    ({ s' with now := now + r.settling + 50 + r.oversleep },
      some { w with nextProbe := now + r.settling + 250 })

/-- One round of the loop of `supervise_one`: the variables after it, or none when it returns. -/
def superviseOne (s : Supervision) (w : Watch) (r : Round) : Supervision × Option Watch :=
  match r.tryWait with
  | .exited => (s, none)
  | .failed => (s, none)
  | .running =>
    let now := s.now + r.waiting
    if w.nextProbe ≤ now then
      if r.healthOk then s.probeAnswered w r (now + r.probing)
      else s.probeMissed w r (now + r.probing)
    else ({ s with now := now + 50 + r.oversleep }, some w)

/-- The uptime of a child that has ended. -/
def uptime (s : Supervision) (w : Watch) (r : Round) : ℕ := s.now + r.ending - w.spawnTime

/-- The rest of a round of `run_loop`, after `supervise_one`. -/
def endChild (config : PantokenConfig) (s : Supervision) (w : Watch) (r : Round) : Supervision :=
  let rapidRestarts := if s.uptime w r < 5000 then s.rapidRestarts + 1 else 0
  let s' := { s with now := s.now + r.ending, rapidRestarts := rapidRestarts }
  if maxRapidRestarts < rapidRestarts then
    { s'.report ("The pantoken server keeps exiting right after launch. Check the hub log at " ++
        config.logPath ++ " — the bundled hub may be refusing a locked data dir or crashing at " ++
        "startup.") with
      phase := .returned }
  else { s' with now := s'.now + min rapidRestarts 3 * 1000 + r.resting, phase := .top }

/-- The first part of a round of `run_loop`, up to `supervise_one`. -/
def startChild (config : PantokenConfig) (s : Supervision) (r : Round) : Supervision :=
  match r.openLog, r.cloneLog, r.spawn with
  | some e, _, _ =>
    { s.report ("Couldn't open the pantoken server log at " ++ config.logPath ++ ": " ++ e) with
      phase := .returned }
  | none, some e, _ =>
    { s.report ("Couldn't attach stderr to the pantoken server log at " ++ config.logPath ++
        ": " ++ e) with
      phase := .returned }
  | none, none, some e =>
    { s.report ("Couldn't launch the pantoken server at " ++ config.hubBin ++ ": " ++ e) with
      phase := .returned }
  | none, none, none =>
    let launched := s.now + r.launching
    { s with
      now := launched + r.preparing
      log := .spawned :: s.log
      phase := .watching
        { spawnTime := s.now
          bootDeadline := launched + bootHealthTimeout
          healthy := false
          livenessFailures := 0
          nextProbe := launched + r.preparing } }

def step (config : PantokenConfig) (s : Supervision) (r : Round) : Supervision :=
  match s.phase with
  | .returned => s
  | .top => s.startChild config r
  | .watching w =>
    match s.superviseOne w r with
    | (s', some w') => { s' with phase := .watching w' }
    | (s', none) => s'.endChild config w r

/-- Before the first round. -/
def boot : Supervision := ⟨0, false, 0, .top, []⟩

end Supervision

/-! ### What is asked -/

/-- The probes that were missed last, in a row. -/
def streak (log : List Mark) : ℕ := (log.takeWhile (· = .missed)).length

/-- No more than so many probes are missed in a row. -/
def Patient (bound : ℕ) (log : List Mark) : Prop :=
  ∀ n, List.replicate n Mark.missed <:+: log → n ≤ bound

/-- What the limits allow: the probes up to the deadline of a child, four in a second, and two at
its ends; six for a healthy one are fewer. -/
def bound : ℕ := max livenessStrikes (bootHealthTimeout / 250 + 2)

/-- A report. -/
def Mark.isReport : Mark → Bool
  | .unrecoverable _ => true
  | _ => false

def reports (log : List Mark) : ℕ := log.countP Mark.isReport

/-- The clock when `supervise_one` returns, in a round that begins at a time. -/
def Round.noticedAt (r : Round) (now : ℕ) : ℕ :=
  if r.tryWait = .running then now + r.waiting + r.probing else now

/-- A child of a supervisor that was healthy before is not past its deadline when it misses its
first probes; and the exit of a child within five seconds is noticed within five seconds. -/
def Watched (s : Supervision) (r : Round) : Prop :=
  ∀ w, s.phase = .watching w →
    (s.started = true → w.healthy = false → r.tryWait = .running → r.healthOk = false →
      w.nextProbe ≤ s.now + r.waiting → s.now + r.waiting + r.probing ≤ w.bootDeadline) ∧
    ((s.superviseOne w r).2 = none → r.exitedAt < w.spawnTime + 5000 →
      r.noticedAt s.now + r.ending < w.spawnTime + 5000)

/-- The child exits within five seconds: it is not running afterwards, and when it has ended it
exited before. -/
def Quick (s : Supervision) (r : Round) : Prop :=
  ∀ w, s.phase = .watching w →
    (r.tryWait = .running → s.now < w.spawnTime + 5000) ∧
    ((s.superviseOne w r).2 = none → r.exitedAt < w.spawnTime + 5000)

instance (p : Phase) (C : Watch → Prop) [DecidablePred C] :
    Decidable (∀ w, p = .watching w → C w) :=
  match p with
  | .watching w =>
    decidable_of_iff (C w) ⟨fun h _ hw => Phase.watching.inj hw ▸ h, fun h => h w rfl⟩
  | .top => isTrue nofun
  | .returned => isTrue nofun

instance (s : Supervision) (r : Round) : Decidable (Watched s r) :=
  inferInstanceAs (Decidable (∀ _, _ → _))

instance (s : Supervision) (r : Round) : Decidable (Quick s r) :=
  inferInstanceAs (Decidable (∀ _, _ → _))

/-! ### Streaks -/

@[simp]
theorem streak_missed (log : List Mark) : streak (.missed :: log) = streak log + 1 := by
  rw [streak, List.takeWhile_cons_of_pos (by decide), List.length_cons, streak]

theorem streak_cons {m : Mark} (h : m ≠ .missed) (log : List Mark) : streak (m :: log) = 0 := by
  rw [streak, List.takeWhile_cons_of_neg (by simpa using h), List.length_nil]

theorem le_streak {n : ℕ} {log : List Mark} (h : List.replicate n Mark.missed <+: log) :
    n ≤ streak log := by
  induction n generalizing log with
  | zero => exact Nat.zero_le _
  | succ n ih =>
    cases log with
    | nil => exact absurd (List.prefix_nil.mp h) (by simp)
    | cons m log =>
      rw [List.replicate_succ] at h
      obtain ⟨hm, htail⟩ := List.cons_prefix_cons.mp h
      rw [← hm, streak_missed]
      exact Nat.succ_le_succ (ih htail)

/-- A mark more. -/
theorem Patient.cons {b : ℕ} {m : Mark} {log : List Mark} (h : Patient b log)
    (hm : streak (m :: log) ≤ b) : Patient b (m :: log) := by
  intro n hn
  obtain hstart | hinfix := List.infix_cons_iff.mp hn
  · exact (le_streak hstart).trans hm
  · exact h n hinfix

theorem Patient.cons_event {b : ℕ} {m : Mark} {log : List Mark} (h : Patient b log)
    (hm : m ≠ .missed) : Patient b (m :: log) :=
  h.cons (by rw [streak_cons hm]; exact Nat.zero_le b)

/-! ### Missed probes -/

/-- How many probes a child may have missed. -/
def Watch.Calm (w : Watch) (log : List Mark) : Prop :=
  if w.healthy then streak log ≤ w.livenessFailures ∧ w.livenessFailures < livenessStrikes
  else streak log * 250 + w.bootDeadline ≤ w.nextProbe + bootHealthTimeout ∧
    streak log < bootHealthTimeout / 250 + 2

theorem Watch.Calm.streak_lt {w : Watch} {log : List Mark} (h : w.Calm log) :
    streak log < bootHealthTimeout / 250 + 2 := by
  unfold Calm at h
  have hstrikes : livenessStrikes < bootHealthTimeout / 250 + 2 := by decide
  split at h
  · omega
  · exact h.2

/-- What the missed probes keep to in a run. -/
structure Inv (s : Supervision) : Prop where
  patient : Patient bound s.log
  streak_lt : streak s.log < bootHealthTimeout / 250 + 2
  calm : ∀ w, s.phase = .watching w → w.Calm s.log

theorem bound_eq : bound = bootHealthTimeout / 250 + 2 := by decide

section Rounds

variable {s : Supervision} {r : Round} {w : Watch}

theorem probeAnswered_inv (h : Inv s) (now : ℕ) :
    Patient bound (s.probeAnswered w r now).1.log ∧
      streak (s.probeAnswered w r now).1.log = 0 ∧
      ∀ w' ∈ (s.probeAnswered w r now).2, w'.Calm (s.probeAnswered w r now).1.log := by
  have hanswered : Patient bound (.answered :: s.log) := h.patient.cons_event (by decide)
  have hzero : 0 < livenessStrikes := by decide
  unfold Supervision.probeAnswered
  cases w.healthy with
  | true =>
    refine ⟨hanswered, streak_cons (by decide) _, ?_⟩
    rintro w' ⟨⟩
    exact ⟨(streak_cons (by decide) _).le, hzero⟩
  | false =>
    refine ⟨hanswered.cons_event (by simp), streak_cons (by simp) _, ?_⟩
    rintro w' ⟨⟩
    exact ⟨(streak_cons (by simp) _).le, hzero⟩

/-- A child is ended after six misses when it was healthy, and after its deadline otherwise. -/
theorem probeMissed_inv (h : Inv s) (hcalm : w.Calm s.log) {now : ℕ} (hnow : w.nextProbe ≤ now)
    (hdeadline : s.started = true → w.healthy = false → now ≤ w.bootDeadline) :
    Patient bound (s.probeMissed w r now).1.log ∧
      streak (s.probeMissed w r now).1.log < bootHealthTimeout / 250 + 2 ∧
      ∀ w' ∈ (s.probeMissed w r now).2, w'.Calm (s.probeMissed w r now).1.log := by
  have hmissed : Patient bound (.missed :: s.log) := h.patient.cons (by
    rw [streak_missed, bound_eq]
    exact h.streak_lt)
  have hended : streak (.terminated :: .missed :: s.log) < bootHealthTimeout / 250 + 2 :=
    (streak_cons (by decide) _).trans_lt (by decide)
  unfold Supervision.probeMissed
  unfold Watch.Calm at hcalm
  by_cases hhealthy : w.healthy = true
  · rw [if_pos hhealthy] at hcalm ⊢
    by_cases hstrikes : livenessStrikes ≤ w.livenessFailures + 1
    · rw [if_pos hstrikes]
      exact ⟨hmissed.cons_event (by decide), hended, fun w' hw' => by cases hw'⟩
    · have hsix : livenessStrikes < bootHealthTimeout / 250 + 2 := by decide
      rw [if_neg hstrikes]
      refine ⟨hmissed, ?_, ?_⟩
      · dsimp only
        rw [streak_missed]
        omega
      · rintro w' ⟨⟩
        rw [Watch.Calm, if_pos hhealthy, streak_missed]
        exact ⟨Nat.succ_le_succ hcalm.1, Nat.lt_of_not_le hstrikes⟩
  · rw [if_neg hhealthy] at hcalm ⊢
    by_cases hboot : s.started = false ∧ w.bootDeadline < now
    · rw [if_pos hboot]
      exact ⟨(hmissed.cons_event (by simp)).cons_event (by decide),
        (streak_cons (by decide) _).trans_lt (by decide), fun w' hw' => by cases hw'⟩
    · -- the deadline is not over, and the probes are a quarter of a second apart
      have hle : now ≤ w.bootDeadline := by
        cases hstarted : s.started with
        | true => exact hdeadline hstarted (Bool.eq_false_iff.mpr hhealthy)
        | false => exact Nat.le_of_not_lt fun hlt => hboot ⟨hstarted, hlt⟩
      have htimeout : bootHealthTimeout = 30000 := rfl
      rw [htimeout] at hcalm
      rw [if_neg hboot]
      refine ⟨hmissed, ?_, ?_⟩
      · dsimp only
        rw [streak_missed]
        omega
      · rintro w' ⟨⟩
        rw [Watch.Calm, if_neg hhealthy, streak_missed, htimeout]
        dsimp only
        constructor <;> omega

/-- **What a round with a child keeps of the missed probes.** -/
theorem superviseOne_inv (h : Inv s) (hphase : s.phase = .watching w) (hw : Watched s r) :
    Patient bound (s.superviseOne w r).1.log ∧
      streak (s.superviseOne w r).1.log < bootHealthTimeout / 250 + 2 ∧
      ∀ w' ∈ (s.superviseOne w r).2, w'.Calm (s.superviseOne w r).1.log := by
  have hcalm := h.calm w hphase
  obtain ⟨hdeadline, -⟩ := hw w hphase
  unfold Supervision.superviseOne
  cases htry : r.tryWait with
  | exited => exact ⟨h.patient, h.streak_lt, fun w' hw' => by cases hw'⟩
  | failed => exact ⟨h.patient, h.streak_lt, fun w' hw' => by cases hw'⟩
  | running =>
    dsimp only
    by_cases hprobe : w.nextProbe ≤ s.now + r.waiting
    · rw [if_pos hprobe]
      by_cases hok : r.healthOk = true
      · rw [if_pos hok]
        obtain ⟨hpatient, hstreak, hcalm'⟩ := probeAnswered_inv (w := w) (r := r) h
          (s.now + r.waiting + r.probing)
        exact ⟨hpatient, hstreak.trans_lt (by decide), hcalm'⟩
      · rw [if_neg hok]
        exact probeMissed_inv h hcalm (hprobe.trans (Nat.le_add_right _ _))
          fun hstarted hhealthy =>
            hdeadline hstarted hhealthy htry (Bool.eq_false_iff.mpr hok) hprobe
    · rw [if_neg hprobe]
      refine ⟨h.patient, h.streak_lt, ?_⟩
      rintro w' ⟨⟩
      exact hcalm

/-- A mark that is no miss, in a round that leaves no child. -/
theorem Inv.report (h : Inv s) (text : String) : Inv { s.report text with phase := .returned } where
  patient := h.patient.cons_event (by simp)
  streak_lt := (streak_cons (by simp) _).trans_lt (by decide)
  calm w hw := by cases hw

theorem startChild_inv (config : PantokenConfig) (h : Inv s) : Inv (s.startChild config r) := by
  unfold Supervision.startChild
  split
  · exact h.report _
  · exact h.report _
  · exact h.report _
  · refine ⟨h.patient.cons_event (by decide), (streak_cons (by decide) _).trans_lt (by decide), ?_⟩
    rintro w ⟨⟩
    refine ⟨?_, (streak_cons (by decide) _).trans_lt (by decide)⟩
    rw [streak_cons (by decide)]
    dsimp only
    omega

theorem endChild_inv (config : PantokenConfig) (hpatient : Patient bound s.log)
    (hstreak : streak s.log < bootHealthTimeout / 250 + 2) : Inv (s.endChild config w r) := by
  unfold Supervision.endChild
  dsimp only
  generalize (if s.uptime w r < 5000 then s.rapidRestarts + 1 else 0) = rapidRestarts
  split
  · exact ⟨hpatient.cons_event (by simp), (streak_cons (by simp) _).trans_lt (by decide),
      fun w hw => by cases hw⟩
  · exact ⟨hpatient, hstreak, fun w hw => by cases hw⟩

/-- **What each round keeps of the missed probes.** -/
theorem Inv.step (config : PantokenConfig) (h : Inv s) (hw : Watched s r) :
    Inv (s.step config r) := by
  unfold Supervision.step
  cases hphase : s.phase with
  | returned => exact h
  | top => exact startChild_inv config h
  | watching w =>
    obtain ⟨hpatient, hstreak, hcalm⟩ := superviseOne_inv h hphase hw
    dsimp only
    split
    · next s' w' hone =>
      rw [hone] at hpatient hstreak hcalm
      refine ⟨hpatient, hstreak, ?_⟩
      rintro w'' ⟨⟩
      exact hcalm w' rfl
    · next s' hone =>
      rw [hone] at hpatient hstreak
      exact endChild_inv config hpatient hstreak

/-! ### Quick exits -/

theorem reports_cons_event {m : Mark} (h : m.isReport = false) (log : List Mark) :
    reports (m :: log) = reports log := List.countP_cons_of_neg (by rw [h]; decide)

theorem reports_unrecoverable (text : String) (log : List Mark) :
    reports (.unrecoverable text :: log) = reports log + 1 := List.countP_cons_of_pos rfl

theorem probeAnswered_frame (now : ℕ) :
    (s.probeAnswered w r now).1.now = now + 50 + r.oversleep ∧
      (s.probeAnswered w r now).1.rapidRestarts = s.rapidRestarts ∧
      reports (s.probeAnswered w r now).1.log = reports s.log := by
  have hanswered : reports (.answered :: s.log) = reports s.log := reports_cons_event rfl _
  unfold Supervision.probeAnswered
  cases w.healthy with
  | true => exact ⟨rfl, rfl, hanswered⟩
  | false => exact ⟨rfl, rfl, (reports_cons_event rfl _).trans hanswered⟩

/-- A child of which a missed probe is reported is past its deadline. -/
theorem probeMissed_frame (now : ℕ) :
    (s.probeMissed w r now).1.rapidRestarts = s.rapidRestarts ∧
      ((s.probeMissed w r now).2 = none → (s.probeMissed w r now).1.now = now) ∧
      (reports (s.probeMissed w r now).1.log = reports s.log ∨
        (s.probeMissed w r now).2 = none ∧ w.bootDeadline < now) := by
  have hmissed : reports (.missed :: s.log) = reports s.log := reports_cons_event rfl _
  unfold Supervision.probeMissed
  dsimp only
  split
  · split
    · exact ⟨rfl, fun _ => rfl, Or.inl ((reports_cons_event rfl _).trans hmissed)⟩
    · exact ⟨rfl, fun hnone => (by cases hnone), Or.inl hmissed⟩
  · split
    · next hboot => exact ⟨rfl, fun _ => rfl, Or.inr ⟨rfl, hboot.2⟩⟩
    · exact ⟨rfl, fun hnone => (by cases hnone), Or.inl hmissed⟩

/-- A child that goes on keeps its times. -/
theorem probeMissed_some {now : ℕ} {w' : Watch} (h : (s.probeMissed w r now).2 = some w') :
    w'.spawnTime = w.spawnTime ∧ w'.bootDeadline = w.bootDeadline ∧
      now < (s.probeMissed w r now).1.now := by
  unfold Supervision.probeMissed at h ⊢
  dsimp only at h ⊢
  split at h
  · next hhealthy =>
    rw [if_pos hhealthy]
    split at h
    · cases h
    · next hstrikes =>
      rw [if_neg hstrikes]
      cases h
      refine ⟨rfl, rfl, ?_⟩
      dsimp only
      omega
  · next hhealthy =>
    rw [if_neg hhealthy]
    split at h
    · cases h
    · next hboot =>
      rw [if_neg hboot]
      cases h
      refine ⟨rfl, rfl, ?_⟩
      dsimp only
      omega

/-- A round in which the child goes on. -/
theorem superviseOne_some {s' : Supervision} {w' : Watch}
    (h : s.superviseOne w r = (s', some w')) :
    r.tryWait = .running ∧ w'.spawnTime = w.spawnTime ∧ w'.bootDeadline = w.bootDeadline ∧
      s.now < s'.now ∧ s'.rapidRestarts = s.rapidRestarts ∧ reports s'.log = reports s.log := by
  unfold Supervision.superviseOne at h
  cases htry : r.tryWait with
  | exited => rw [htry] at h; cases h
  | failed => rw [htry] at h; cases h
  | running =>
    rw [htry] at h
    dsimp only at h
    split at h
    · split at h
      · -- the probe was answered
        obtain ⟨hnow, hrapid, hreports⟩ :=
          probeAnswered_frame (s := s) (w := w) (r := r) (s.now + r.waiting + r.probing)
        rw [h] at hnow hrapid hreports
        have hw' : w' = { w with
            healthy := true, livenessFailures := 0,
            nextProbe := s.now + r.waiting + r.probing + 5000 } :=
          (Option.some.inj (congrArg Prod.snd h)).symm
        subst hw'
        have hlt : s.now < s'.now := by
          dsimp only at hnow
          omega
        exact ⟨rfl, rfl, rfl, hlt, hrapid, hreports⟩
      · -- it was missed, and the child is kept
        obtain ⟨hrapid, -, hreports⟩ :=
          probeMissed_frame (s := s) (w := w) (r := r) (s.now + r.waiting + r.probing)
        obtain ⟨hspawn, hdeadline, hlt⟩ := probeMissed_some (congrArg Prod.snd h)
        rw [h] at hrapid hreports hlt
        have hlt' : s.now < s'.now := by
          dsimp only at hlt
          omega
        refine ⟨rfl, hspawn, hdeadline, hlt', hrapid, ?_⟩
        exact hreports.resolve_right fun hnone => nomatch hnone.1
    · cases h
      refine ⟨rfl, rfl, rfl, ?_, rfl, rfl⟩
      dsimp only
      omega

/-- A round in which it ends: what is reported is a missed deadline. -/
theorem superviseOne_none {s' : Supervision} (h : s.superviseOne w r = (s', none)) :
    s'.rapidRestarts = s.rapidRestarts ∧ s'.now = r.noticedAt s.now ∧
      (reports s'.log = reports s.log ∨ w.bootDeadline < s'.now) := by
  unfold Supervision.superviseOne at h
  unfold Round.noticedAt
  cases htry : r.tryWait with
  | exited => rw [htry] at h; cases h; exact ⟨rfl, rfl, Or.inl rfl⟩
  | failed => rw [htry] at h; cases h; exact ⟨rfl, rfl, Or.inl rfl⟩
  | running =>
    rw [htry] at h
    dsimp only at h
    rw [if_pos rfl]
    split at h
    · split at h
      · cases congrArg Prod.snd h
      · obtain ⟨hrapid, hnow, hreports⟩ :=
          probeMissed_frame (s := s) (w := w) (r := r) (s.now + r.waiting + r.probing)
        rw [h] at hrapid hnow hreports
        refine ⟨hrapid, hnow rfl, hreports.imp_right fun hlate => ?_⟩
        rw [hnow rfl]
        exact hlate.2
    · cases h

/-- How long a run of quick exits may still be in its phase. -/
def Phase.rest (now : ℕ) : Phase → ℕ
  | .top => 5002
  | .watching w => w.spawnTime + 5000 - now + 1
  | .returned => 0

/-- What each round of quick exits lowers. -/
def rank (s : Supervision) : ℕ :=
  (maxRapidRestarts + 1 - s.rapidRestarts) * 5003 + s.phase.rest s.now

/-- A run of quick exits that goes on. -/
structure Quiet (s : Supervision) : Prop where
  goesOn : s.phase ≠ .returned
  silent : reports s.log = 0
  rapid_le : s.rapidRestarts ≤ maxRapidRestarts
  deadline : ∀ w, s.phase = .watching w → w.spawnTime + bootHealthTimeout ≤ w.bootDeadline

/-- The end of a run with its one report. -/
def Reported (s : Supervision) : Prop := s.phase = .returned ∧ reports s.log = 1

theorem startChild_quick (config : PantokenConfig) (h : Quiet s) (hphase : s.phase = .top) :
    Reported (s.startChild config r) ∨
      Quiet (s.startChild config r) ∧ rank (s.startChild config r) < rank s := by
  have hone : ∀ text, reports (.unrecoverable text :: s.log) = 1 := by
    intro text
    rw [reports_unrecoverable, h.silent]
  unfold Supervision.startChild
  split
  · exact Or.inl ⟨rfl, hone _⟩
  · exact Or.inl ⟨rfl, hone _⟩
  · exact Or.inl ⟨rfl, hone _⟩
  · refine Or.inr ⟨⟨by simp, ?_, h.rapid_le, ?_⟩, ?_⟩
    · exact (reports_cons_event rfl _).trans h.silent
    · rintro w ⟨⟩
      dsimp only
      omega
    · rw [rank, rank, hphase]
      dsimp only [Phase.rest]
      omega

/-- The last exit of too many is reported, the ones before are counted. -/
theorem endChild_quick (config : PantokenConfig) {s' : Supervision} (hsilent : reports s'.log = 0)
    (hrapid : s'.rapidRestarts = s.rapidRestarts) (h : Quiet s) (hphase : s.phase = .watching w)
    (hup : s'.uptime w r < 5000) :
    Reported (s'.endChild config w r) ∨
      Quiet (s'.endChild config w r) ∧ rank (s'.endChild config w r) < rank s := by
  have hle := h.rapid_le
  have hmax : maxRapidRestarts = 5 := rfl
  rw [hmax] at hle
  unfold Supervision.endChild
  rw [if_pos hup, hrapid]
  dsimp only
  split
  · refine Or.inl ⟨rfl, ?_⟩
    exact (reports_unrecoverable _ _).trans (by rw [hsilent])
  · next hfew =>
    refine Or.inr ⟨⟨by simp, hsilent, Nat.le_of_not_lt hfew, fun w' hw' => by cases hw'⟩, ?_⟩
    rw [rank, rank, hphase, hmax]
    rw [hmax] at hfew
    dsimp only [Phase.rest]
    omega

/-- **A round of quick exits ends the run with its one report, or lowers the rank.** -/
theorem quick_step (config : PantokenConfig) (h : Quiet s) (hw : Watched s r) (hq : Quick s r) :
    Reported (s.step config r) ∨
      Quiet (s.step config r) ∧ rank (s.step config r) < rank s := by
  unfold Supervision.step
  cases hphase : s.phase with
  | returned => exact absurd hphase h.goesOn
  | top => exact startChild_quick config h hphase
  | watching w =>
    obtain ⟨-, hnoticed⟩ := hw w hphase
    obtain ⟨hrunning, hexit⟩ := hq w hphase
    dsimp only
    split
    · next s' w' hone =>
      obtain ⟨htry, hspawn, hdeadline, hlt, hrapid, hreports⟩ := superviseOne_some hone
      have hsoon := hrunning htry
      refine Or.inr ⟨⟨by simp, ?_, ?_, ?_⟩, ?_⟩
      · exact hreports.trans h.silent
      · exact hrapid.le.trans h.rapid_le
      · rintro w'' ⟨⟩
        rw [hspawn, hdeadline]
        exact h.deadline w hphase
      · rw [rank, rank, hphase]
        dsimp only [Phase.rest]
        rw [hrapid, hspawn]
        omega
    · next s' hone =>
      rw [hone] at hnoticed hexit
      obtain ⟨hrapid, hnow, hreports⟩ := superviseOne_none hone
      have hend : s'.now + r.ending < w.spawnTime + 5000 := by
        rw [hnow]
        exact hnoticed rfl (hexit rfl)
      have hup : s'.uptime w r < 5000 := by
        unfold Supervision.uptime
        omega
      -- the deadline is thirty seconds after the launch
      have hsilent : reports s'.log = 0 := by
        refine (hreports.resolve_right fun hlate => ?_).trans h.silent
        have hfar := h.deadline w hphase
        have htimeout : bootHealthTimeout = 30000 := rfl
        omega
      exact endChild_quick config hsilent hrapid h hphase hup

end Rounds

/-! ### Runs -/

/-- The run of the supervisor through some rounds. -/
def run (config : PantokenConfig) (rounds : ℕ → Round) : ℕ → Supervision :=
  trace (Supervision.step config) Supervision.boot rounds

theorem Inv.boot : Inv Supervision.boot where
  patient n hn := by
    obtain rfl : n = 0 := by simpa using List.infix_nil.mp hn
    exact Nat.zero_le _
  streak_lt := by decide
  calm w hw := by cases hw

/-- **Never more than a constant of probes are missed in a row**, when the rounds are watched. -/
theorem patient_of_watched (config : PantokenConfig) {rounds : ℕ → Round}
    (h : ∀ n, Watched (run config rounds n) (rounds n)) (n : ℕ) :
    Patient bound (run config rounds n).log :=
  (trace_invariant (C := Watched) (fun _ _ hs hw => hs.step config hw) Inv.boot h n).patient

theorem Quiet.boot : Quiet Supervision.boot where
  goesOn := by decide
  silent := rfl
  rapid_le := by decide
  deadline w hw := by cases hw

/-- A run that has ended stays as it is. -/
theorem run_of_returned (config : PantokenConfig) {rounds : ℕ → Round} {m n : ℕ} (hmn : m ≤ n)
    (h : (run config rounds m).phase = .returned) : run config rounds n = run config rounds m := by
  induction n, hmn using Nat.le_induction with
  | base => rfl
  | succ n hmn ih =>
    rw [run, trace_succ, ← run, ih, Supervision.step, h]

/-- **Quick exits end in one report**, when the rounds are watched. -/
theorem reported_of_quick (config : PantokenConfig) {rounds : ℕ → Round}
    (h : ∀ n, Watched (run config rounds n) (rounds n))
    (hq : ∀ n, Quick (run config rounds n) (rounds n)) :
    ∃ m, ∀ n, m ≤ n → Reported (run config rounds n) := by
  obtain ⟨m, -, -, hgoal⟩ :=
    @trace_eventually Supervision Round (Supervision.step config) ℕ _ _
      (fun s r => Watched s r ∧ Quick s r) (fun s r => Reported (s.step config r))
      (fun _ _ => True) Quiet rank
      (fun s r hK hP hgoal => by
        obtain ⟨hquiet, hlt⟩ := (quick_step config hP hK.1 hK.2).resolve_left hgoal
        exact ⟨hquiet, hlt.le, fun _ => hlt⟩)
      Supervision.boot rounds (fun n => ⟨h n, hq n⟩) (fun n => ⟨n, le_rfl, trivial⟩) 0 Quiet.boot
  have hm : Reported (run config rounds (m + 1)) := hgoal
  refine ⟨m + 1, fun n hn => ?_⟩
  rw [run_of_returned config hn hm.1]
  exact hm

/-- **The supervisor never waits on a dead server for ever, in watched rounds**: the probes missed
in a row are bounded, and a run of quick exits ends with one report. -/
theorem supervises (config : PantokenConfig) (rounds : ℕ → Round)
    (h : ∀ n, Watched (run config rounds n) (rounds n)) :
    (∀ n, Patient bound (run config rounds n).log) ∧
      ((∀ n, Quick (run config rounds n) (rounds n)) →
        ∃ m, ∀ n, m ≤ n → Reported (run config rounds n)) :=
  ⟨patient_of_watched config h, reported_of_quick config h⟩

/-! ### Two servers -/

/-- A server that exits at once, and clocks that do not move. -/
def exits (_ : ℕ) : Round where
  openLog := none
  cloneLog := none
  spawn := none
  launching := 0
  preparing := 0
  tryWait := .exited
  waiting := 0
  healthOk := false
  probing := 0
  settling := 0
  oversleep := 0
  ending := 0
  resting := 0
  exitedAt := 0

/-- A server that misses two probes, answers the third, and exits a second after its launch. -/
def boots (n : ℕ) : Round where
  openLog := none
  cloneLog := none
  spawn := none
  launching := 20
  preparing := 5
  tryWait := if n % 5 = 4 then .exited else .running
  waiting := 300
  healthOk := n % 5 == 3
  probing := 30
  settling := 5
  oversleep := 0
  ending := 10
  resting := 15
  exitedAt := [1150, 3350, 6550, 10750, 14950, 19150].getD (n / 5) 0

/-- The sixth exit is the last one. -/
theorem boots_returned (n : ℕ) : (run ⟨"server", "data"⟩ boots (n + 30)).phase = .returned := by
  induction n with
  | zero => decide +kernel
  | succ n ih =>
    rw [show n + 1 + 30 = n + 30 + 1 by omega]
    show ((run ⟨"server", "data"⟩ boots (n + 30)).step _ _).phase = _
    unfold Supervision.step
    rw [ih]
    exact ih

/-- What holds of the first thirty rounds holds of all, if it asks nothing of those behind. -/
theorem boots_of_lt {C : Supervision → Round → Prop}
    (hreturned : ∀ s r, s.phase = .returned → C s r)
    (h : ∀ n < 30, C (run ⟨"server", "data"⟩ boots n) (boots n)) (n : ℕ) :
    C (run ⟨"server", "data"⟩ boots n) (boots n) := by
  by_cases hn : n < 30
  · exact h n hn
  · obtain ⟨m, rfl⟩ := Nat.exists_eq_add_of_le' (Nat.le_of_not_lt hn)
    exact hreturned _ _ (boots_returned m)

theorem supervises_boots :
    (∀ n, Patient bound (run ⟨"server", "data"⟩ boots n).log) ∧
      ∃ m, ∀ n, m ≤ n → Reported (run ⟨"server", "data"⟩ boots n) := by
  have hwatched : ∀ n < 30, Watched (run ⟨"server", "data"⟩ boots n) (boots n) := by
    decide +kernel
  have hquick : ∀ n < 30, Quick (run ⟨"server", "data"⟩ boots n) (boots n) := by
    decide +kernel
  have hgone {C : Supervision → Round → Watch → Prop} (s : Supervision) (r : Round)
      (hreturned : s.phase = .returned) : ∀ w, s.phase = .watching w → C s r w := by
    intro w hw
    cases hreturned.symm.trans hw
  have h := supervises ⟨"server", "data"⟩ boots (boots_of_lt hgone hwatched)
  exact ⟨h.1, h.2 (boots_of_lt hgone hquick)⟩

/-- A server that answers once and exits, and hangs when it is started again. -/
def hangs (n : ℕ) : Round :=
  { exits n with
    tryWait := if n = 2 then .exited else .running
    waiting := 200
    healthOk := n == 1 }

/-- After the restart. -/
theorem hangs_restarted (config : PantokenConfig) :
    run config hangs 4 =
      ⟨1250, true, 1, .watching ⟨1250, 31250, false, 0, 1250⟩,
        [.spawned, .healthy true, .answered, .spawned]⟩ := by
  have hspawn : Supervision.boot.step config (hangs 0) =
      ⟨0, false, 0, .watching ⟨0, 30000, false, 0, 0⟩, [.spawned]⟩ := rfl
  have hprobe : Supervision.step config
      ⟨0, false, 0, .watching ⟨0, 30000, false, 0, 0⟩, [.spawned]⟩ (hangs 1) =
      ⟨250, true, 0, .watching ⟨0, 30000, true, 0, 5200⟩,
        [.healthy true, .answered, .spawned]⟩ := rfl
  have hexit : Supervision.step config
      ⟨250, true, 0, .watching ⟨0, 30000, true, 0, 5200⟩, [.healthy true, .answered, .spawned]⟩
        (hangs 2) =
      ⟨1250, true, 1, .top, [.healthy true, .answered, .spawned]⟩ := rfl
  show ((((Supervision.boot.step config (hangs 0)).step config (hangs 1)).step config
    (hangs 2)).step config (hangs 3)) = _
  rw [hspawn, hprobe, hexit]
  rfl

/-- Each round after the restart is a missed probe. -/
theorem hangs_missed (config : PantokenConfig) (n : ℕ) :
    ∃ w, (run config hangs (n + 4)).phase = .watching w ∧ w.healthy = false ∧
      w.nextProbe ≤ (run config hangs (n + 4)).now + 200 ∧
      (run config hangs (n + 4)).started = true ∧
      List.replicate n Mark.missed <+: (run config hangs (n + 4)).log := by
  induction n with
  | zero =>
    rw [hangs_restarted]
    exact ⟨⟨1250, 31250, false, 0, 1250⟩, rfl, rfl, Nat.le_add_right _ _, rfl, List.nil_prefix⟩
  | succ n ih =>
    obtain ⟨w, hphase, hhealthy, hprobe, hstarted, hlog⟩ := ih
    have hstep : run config hangs (n + 1 + 4) =
        (run config hangs (n + 4)).step config (hangs (n + 4)) := rfl
    have htry : (hangs (n + 4)).tryWait = .running := by
      show (if n + 4 = 2 then TryWait.exited else TryWait.running) = .running
      rw [if_neg (by omega)]
    have hok : (hangs (n + 4)).healthOk = false :=
      beq_false_of_ne (show n + 4 ≠ 1 by omega)
    have hwaiting : (hangs (n + 4)).waiting = 200 := rfl
    rw [hstep]
    generalize run config hangs (n + 4) = s at *
    generalize hangs (n + 4) = r at *
    -- one more round: the probe is due and is missed
    have hone : s.step config r =
        { s with
          now := s.now + 200 + r.probing + r.settling + 50 + r.oversleep
          log := .missed :: s.log
          phase := .watching
            { w with nextProbe := s.now + 200 + r.probing + r.settling + 250 } } := by
      unfold Supervision.step Supervision.superviseOne Supervision.probeMissed
      rw [hphase, htry, hwaiting, hok]
      dsimp only
      rw [if_pos hprobe, if_neg (by decide), if_neg (by rw [hhealthy]; decide),
        if_neg (by rw [hstarted]; exact fun h => nomatch h.1)]
    rw [hone]
    refine ⟨_, rfl, hhealthy, ?_, hstarted, ?_⟩
    · dsimp only
      omega
    · rw [List.replicate_succ]
      exact List.cons_prefix_cons.mpr ⟨rfl, hlog⟩

/-- No number bounds the probes that a server which hangs after a restart may miss. -/
theorem not_patient : ¬ ∃ b, ∀ n, Patient b (run ⟨"server", "data"⟩ hangs n).log := by
  rintro ⟨b, hpatient⟩
  obtain ⟨w, -, -, -, -, hlog⟩ := hangs_missed ⟨"server", "data"⟩ (b + 1)
  exact absurd (hpatient (b + 1 + 4) (b + 1) hlog.isInfix) (by omega)

end Pantoken.Desktop.Supervisor
