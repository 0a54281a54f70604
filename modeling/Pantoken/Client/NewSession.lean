import Pantoken.Client.Outbox
import Pantoken.Lib.Run
import Pantoken.Server.Transcripts

/-!
# The answer to a new session

A new session is created by the driver, switched to, and sent its first prompt.  Each of
these can fail, and the client gets one answer.  It tells from the session id of the answer
whether there is a session: without one the prompt goes back to where a session is asked for.

## Main definitions

* `Server.reported` — the answer a section sends.
* `Creating` — a server with the session the operation under way has created, and the
  answers to new sessions.
* `Creating.Answers` — every answer names the session that was created, if any, and no later
  gesture asks for a second one.
* `Creating.FirstAccepted` — the driver does not reject the first prompt of a session.

## Main results

* `tick_reported` — a section sends the answer it reports.
* `answers_step_iff` — what one step keeps, exactly.
* `answers_iff` — **when every answer names the session that was created.**
* `not_answers` — a first prompt is rejected.
-/

namespace Pantoken

/-! ### Answers -/

/-- The answer to a prompt the next section of the applier sends. -/
def Server.reported (s : Server) (answer : Answer) : Option PromptResult :=
  let failed (first : Option FirstPrompt) : Option PromptResult :=
    (first.filter (·.content.isSome)).map fun f =>
      ⟨f.promptId.getD "", false, none, some "Could not create the new session"⟩
  match s.phase with
  | .prompting _ call =>
    match answer with
    | .ok => some (promptResult call none)
    | .failed e => some (promptResult call (some e))
    | _ => none
  | .switching key _ .waiting first =>
    match s.hub.client key with
    | some _ => none
    | none => failed first
  | .switching _ _ (.finished none) first => failed first
  | _ => none

/-- A server with what the new session under way has created. -/
structure Creating where
  server : Server
  /-- Whether the operation under way is a new session. -/
  underWay : Bool
  /-- The session its call has created. -/
  created : Option SessionId
  /-- The answers to new sessions, each with the session that had been created. -/
  answers : List (PromptResult × Option SessionId)

namespace Creating

/-- The session a call of the driver creates. -/
def createdBy (s : Server) (answer : Answer) (created : Option SessionId) : Option SessionId :=
  match s.phase, answer with
  | .switching _ _ .fetching _, .seed seed => SessionHub.seedSid seed.events
  | _, _ => created

/-- One step. -/
def step (serde : Serde) (c : Creating) (a : Server.Action) : Creating :=
  let server := c.server.step serde a
  match a with
  | .input _ => { c with server := server }
  | .tick _ answer =>
    match c.server.phase, c.server.queue with
    | .idle, .newSession .. :: _ =>
      { c with
        server := server
        underWay := true
        created := none }
    | .idle, _ =>
      { c with
        server := server
        underWay := false
        created := none }
    | _, _ =>
      { c with
        server := server
        created := createdBy c.server answer c.created
        answers :=
          match c.server.reported answer with
          | some result => if c.underWay then c.answers ++ [(result, c.created)] else c.answers
          | none => c.answers }

/-- A run. -/
def run (serde : Serde) (c : Creating) (acts : List Server.Action) : Creating :=
  acts.foldl (step serde) c

/-- The server at boot. -/
def boot (deltaFlushMs nowMs : ℕ) (defaultSeed : Option SwapSeed) : Creating :=
  ⟨Server.boot deltaFlushMs nowMs defaultSeed, false, none, []⟩

/-! ### What is claimed -/

/-- The answer names the session that was created, if any, and when there is one no later
gesture of the client asks for another. -/
def Answered (result : PromptResult) (created : Option SessionId) : Prop :=
  result.sessionId = created ∧ (created.isSome = true → ¬AsksAnew result)

/-- Every answer to a new session does. -/
def Answers (c : Creating) : Prop := ∀ a ∈ c.answers, Answered a.1 a.2

/-- The driver does not reject the first prompt of a session it has created. -/
def FirstAccepted (c : Creating) : Server.Action → Prop
  | .input _ => True
  | .tick _ answer =>
    match c.server.phase, answer with
    | .prompting .., .failed _ => c.underWay = false
    | _, _ => True

/-! ### What is created -/

/-- The session a switch has been answered with, by its stage. -/
def createdAt : Stage → Option SessionId
  | .begin | .waiting | .entered | .fetching | .returned (.error _) | .landed (.error _) => none
  | .fetched seed | .returned (.ok seed) | .landed (.ok seed) => SessionHub.seedSid seed.events
  | .folded _ sid | .installed sid | .seedBuilt sid _ | .reseeding sid _ _ => some sid
  | .finished sid => sid

/-- What the phase of a new session says of the session it has created. -/
def Known (created : Option SessionId) : Phase → Prop
  | .idle => True
  | .prompting _ call => call.sessionId = created ∧ created.isSome = true
  | .switching _ _ stage _ => createdAt stage = created

section Step

variable {serde : Serde} {s : Server} {c : Creating}

theorem phase_input (i : Server.Input) : (s.input serde i).phase = s.phase := by
  cases i with
  | receive key msg => exact (sameStore_receive s key msg).2
  | _ => rfl

theorem known_afterSwitch (key : ℕ) (sid : Option SessionId) (first : Option FirstPrompt) :
    Known sid (s.afterSwitch key sid first).phase := by
  unfold Server.afterSwitch
  cases first with
  | none => trivial
  | some f =>
    dsimp only
    split
    · exact ⟨rfl, rfl⟩
    · trivial
    · trivial
    · trivial

/-- **A section of a switch keeps what is known** of the session its call has created. -/
theorem known_tickSwitch {key : ℕ} {sw : Switch} {stage : Stage} {first : Option FirstPrompt}
    (hphase : s.phase = .switching key sw stage first) (answer : Answer) :
    Known (createdBy s answer (createdAt stage))
      (s.tickSwitch key sw stage first answer).phase := by
  have hkept : (∀ seed, stage = .fetching → answer ≠ .seed seed) →
      createdBy s answer (createdAt stage) = createdAt stage := by
    intro hne
    unfold createdBy
    rw [hphase]
    split
    · next hseed => exact absurd rfl (hne _ (by injection hseed))
    · rfl
  cases stage with
  | fetching =>
    cases answer with
    | seed seed =>
      simp only [createdBy, hphase]
      rfl
    | failed raw | ok | usages nowIso usages =>
      rw [hkept (by rintro seed - ⟨⟩)]
      first | rfl | exact hphase ▸ rfl
    | panicked => trivial
  | begin =>
    rw [hkept (by rintro seed ⟨⟩)]
    simp only [Server.tickSwitch]
    split
    · split <;> rfl
    · rfl
  | waiting =>
    rw [hkept (by rintro seed ⟨⟩)]
    simp only [Server.tickSwitch]
    split
    · rw [hphase]
      rfl
    · exact known_afterSwitch key none first
  | landed result =>
    rw [hkept (by rintro seed ⟨⟩)]
    cases result with
    | error raw => rfl
    | ok seed =>
      simp only [Server.tickSwitch]
      split
      · next hsid => exact hsid.symm
      · next hsid => exact hsid.symm
  | folded seed sid =>
    rw [hkept (by rintro seed ⟨⟩)]
    simp only [Server.tickSwitch, Server.install]
    split <;> rfl
  | reseeding sid msg viewers =>
    rw [hkept (by rintro seed ⟨⟩)]
    cases viewers <;> rfl
  | finished sid =>
    rw [hkept (by rintro seed ⟨⟩)]
    exact known_afterSwitch key sid first
  | returned result =>
    rw [hkept (by rintro seed ⟨⟩)]
    cases result <;> rfl
  | entered | fetched | installed | seedBuilt =>
    rw [hkept (by rintro seed ⟨⟩)]
    rfl

theorem known_tickPrompting (key : ℕ) (call : PromptCall) (answer : Answer)
    {created : Option SessionId} (hknown : Known created s.phase) :
    Known created (s.tickPrompting key call answer).phase := by
  cases answer with
  | ok | failed | panicked => trivial
  | seed | usages => exact hknown

/-- The answer to a first prompt names its session when it is accepted. -/
theorem answered_promptResult {call : PromptCall} {created : Option SessionId}
    (hknown : call.sessionId = created ∧ created.isSome = true) :
    Answered (Server.promptResult call none) created ∧
      ∀ e, ¬Answered (Server.promptResult call (some e)) created := by
  refine ⟨⟨hknown.1, fun _ hanew => ?_⟩, ?_⟩
  · exact absurd ((asksAnew_iff _).mp hanew).1 (by simp [Server.promptResult])
  · rintro e ⟨hsid, -⟩
    rw [← hsid] at hknown
    cases hknown.2

/-- An answer that there is no session is right when none was created. -/
theorem answered_of_none {result : PromptResult} (hsid : result.sessionId = none) :
    Answered result none := ⟨hsid, nofun⟩

/-- **What a section answers**: outside a rejected first prompt, what it should. -/
theorem answered_reported_iff (hknown : Known c.created c.server.phase) {answer : Answer}
    {result : PromptResult} (hreported : c.server.reported answer = some result) :
    Answered result c.created ↔ ∀ key call e,
      c.server.phase = .prompting key call → answer ≠ .failed e := by
  unfold Server.reported at hreported
  have hfailed : ∀ first : Option FirstPrompt, ((first.filter (·.content.isSome)).map fun f =>
      (⟨f.promptId.getD "", false, none, some "Could not create the new session"⟩ :
        PromptResult)) = some result → result.sessionId = none := by
    intro first hsome
    obtain ⟨f, -, rfl⟩ := Option.map_eq_some_iff.mp hsome
    rfl
  dsimp only at hreported
  split at hreported
  · next key call hphase =>
    rw [hphase] at hknown
    obtain ⟨hok, hrejected⟩ := answered_promptResult hknown
    split at hreported
    · obtain rfl := Option.some.inj hreported
      exact iff_of_true hok fun _ _ _ _ => nofun
    · next e =>
      obtain rfl := Option.some.inj hreported
      exact iff_of_false (hrejected e) fun hnot => hnot key call e hphase rfl
    · cases hreported
  · next key sw first hphase =>
    rw [hphase] at hknown
    have hnone : c.created = none := Eq.symm hknown
    rw [hnone]
    split at hreported
    · cases hreported
    · refine iff_of_true (answered_of_none (hfailed _ hreported)) ?_
      intro key' call e hprompting
      rw [hphase] at hprompting
      cases hprompting
  · next key sw first hphase =>
    rw [hphase] at hknown
    have hnone : c.created = none := Eq.symm hknown
    rw [hnone]
    refine iff_of_true (answered_of_none (hfailed _ hreported)) ?_
    intro key' call e hprompting
    rw [hphase] at hprompting
    cases hprompting
  · cases hreported

/-- The invariant: what is known of the session a new session has created. -/
def Tracks (c : Creating) : Prop := c.underWay = true → Known c.created c.server.phase

/-- A section that begins no operation. -/
theorem step_of_busy (hbusy : c.server.phase ≠ .idle) (m : Moment) (answer : Answer) :
    c.step serde (.tick m answer) =
      { c with
        server := c.server.tick serde m answer
        created := createdBy c.server answer c.created
        answers :=
          match c.server.reported answer with
          | some result => if c.underWay then c.answers ++ [(result, c.created)] else c.answers
          | none => c.answers } := by
  unfold step
  dsimp only
  split
  · next hphase _ => exact absurd hphase hbusy
  · next hphase _ => exact absurd hphase hbusy
  · rfl

theorem known_tick (hbusy : c.server.phase ≠ .idle) (hknown : Known c.created c.server.phase)
    (m : Moment) (answer : Answer) :
    Known (createdBy c.server answer c.created) (c.server.tick serde m answer).phase := by
  cases hphase : c.server.phase with
  | idle => exact absurd hphase hbusy
  | prompting key call =>
    have hkept : createdBy c.server answer c.created = c.created := by
      simp only [createdBy, hphase]
    rw [hkept, Server.tick, hphase]
    exact known_tickPrompting key call answer hknown
  | switching key sw stage first =>
    rw [hphase] at hknown
    have hcreated : createdAt stage = c.created := hknown
    rw [Server.tick, hphase, ← hcreated]
    exact known_tickSwitch hphase answer

theorem answers_append {l : List (PromptResult × Option SessionId)} {result : PromptResult}
    {created : Option SessionId} (hl : ∀ a ∈ l, Answered a.1 a.2) :
    (∀ a ∈ l ++ [(result, created)], Answered a.1 a.2) ↔ Answered result created := by
  rw [List.forall_mem_append, and_iff_right hl, List.forall_mem_singleton]

theorem firstAccepted_tick_iff (m : Moment) (answer : Answer) :
    c.FirstAccepted (.tick m answer) ↔ (c.underWay = true → ∀ key call e,
      c.server.phase = .prompting key call → answer ≠ .failed e) := by
  simp only [FirstAccepted]
  split
  · next key call e hphase =>
    constructor
    · intro hnew hunder
      rw [hnew] at hunder
      cases hunder
    · intro hall
      rw [← Bool.not_eq_true]
      exact fun hunder => hall hunder key call e hphase rfl
  · next hne =>
    refine iff_of_true trivial fun _ key call e hphase hfailed => ?_
    exact hne key call e hphase hfailed

theorem tracks_step (hc : c.Tracks) (a : Server.Action) : (c.step serde a).Tracks := by
  cases a with
  | input i =>
    intro hunder
    have hkept : (c.step serde (.input i)).server.phase = c.server.phase := phase_input i
    rw [hkept]
    exact hc hunder
  | tick m answer =>
    by_cases hidle : c.server.phase = .idle
    · -- an operation begins, if any
      unfold step
      dsimp only
      rw [hidle]
      split
      · next hqueue =>
        intro _
        simp only [Server.step, Server.tick, hidle, hqueue]
        rfl
      · intro hunder
        cases hunder
      · next hbusy _ => exact (hbusy rfl).elim
    · rw [step_of_busy hidle]
      exact fun hunder => known_tick hidle (hc hunder) m answer

/-- **What one step keeps**: after a step every answer is right exactly when the step does
not reject the first prompt of a session. -/
theorem answers_step_iff (htracks : c.Tracks) (hanswers : c.Answers) (a : Server.Action) :
    c.FirstAccepted a ↔ (c.step serde a).Answers := by
  cases a with
  | input i => exact iff_of_true trivial hanswers
  | tick m answer =>
    by_cases hidle : c.server.phase = .idle
    · refine iff_of_true ?_ ?_
      · simp only [FirstAccepted, hidle]
      · unfold step
        dsimp only
        rw [hidle]
        split
        · exact hanswers
        · exact hanswers
        · next hbusy _ => exact (hbusy rfl).elim
    · rw [step_of_busy hidle, firstAccepted_tick_iff]
      cases hreported : c.server.reported answer with
      | none =>
        refine iff_of_true (fun hunder key call e hphase => ?_) hanswers
        rintro rfl
        simp only [Server.reported, hphase] at hreported
        cases hreported
      | some result =>
        dsimp only [Answers]
        cases hunder : c.underWay with
        | false =>
          rw [if_neg Bool.false_ne_true]
          exact iff_of_true (fun h => (nomatch h)) hanswers
        | true =>
          rw [if_pos rfl, answers_append hanswers,
            answered_reported_iff (htracks hunder) hreported]
          exact forall_prop_of_true rfl

/-- A section sends the answer it reports, and records it under the prompt's id. -/
theorem tick_reported {answer : Answer} {result : PromptResult}
    (hreported : s.reported answer = some result) (m : Moment) :
    ∃ s' key promptId, s.tick serde m answer = Server.recordResult s' key promptId result := by
  unfold Server.reported at hreported
  dsimp only at hreported
  have hfailed : ∀ (s : Server) (key : ℕ) (first : Option FirstPrompt),
      ((first.filter (·.content.isSome)).map fun f =>
        (⟨f.promptId.getD "", false, none, some "Could not create the new session"⟩ :
          PromptResult)) = some result →
      ∃ s' key' promptId, s.afterSwitch key none first =
        Server.recordResult s' key' promptId result := by
    intro s key first hsome
    obtain ⟨f, hf, rfl⟩ := Option.map_eq_some_iff.mp hsome
    obtain ⟨rfl, hcontent⟩ := Option.filter_eq_some_iff.mp hf
    obtain ⟨content, hcontent⟩ := Option.isSome_iff_exists.mp hcontent
    refine ⟨s, key, f.promptId, ?_⟩
    simp only [Server.afterSwitch, hcontent]
  unfold Server.tick
  split at hreported
  · next key call hphase =>
    rw [hphase]
    split at hreported
    · obtain rfl := Option.some.inj hreported
      exact ⟨s, key, call.promptId, rfl⟩
    · obtain rfl := Option.some.inj hreported
      exact ⟨s, key, call.promptId, rfl⟩
    · cases hreported
  · next key sw first hphase =>
    rw [hphase]
    cases hclient : s.hub.client key with
    | some c =>
      rw [hclient] at hreported
      cases hreported
    | none =>
      rw [hclient] at hreported
      simp only [Server.tickSwitch, hclient]
      exact hfailed s key first hreported
  · next key sw first hphase =>
    rw [hphase]
    exact hfailed _ key first hreported
  · cases hreported

end Step

/-! ### Runs -/

/-- **When every answer to a new session names the session that was created**, after every
part of a run, and no later gesture asks for a second one: exactly when the driver never
rejects the first prompt of a session it has created. -/
theorem answers_iff (serde : Serde) (deltaFlushMs nowMs : ℕ) (defaultSeed : Option SwapSeed)
    (acts : List Server.Action) :
    (∀ pre, pre <+: acts → ((boot deltaFlushMs nowMs defaultSeed).run serde pre).Answers) ↔
      Along (step serde) FirstAccepted (boot deltaFlushMs nowMs defaultSeed) acts := by
  have hboot : (boot deltaFlushMs nowMs defaultSeed).Tracks ∧
      (boot deltaFlushMs nowMs defaultSeed).Answers := by
    refine ⟨fun hunder => (nomatch hunder), ?_⟩
    intro a ha
    cases ha
  have hstep : ∀ (c : Creating) a, c.Tracks ∧ c.Answers →
      (c.FirstAccepted a ↔ (c.step serde a).Tracks ∧ (c.step serde a).Answers) := by
    rintro c a ⟨htracks, hanswers⟩
    rw [answers_step_iff htracks hanswers, and_iff_right (tracks_step htracks a)]
  rw [along_iff_forall_part hstep hboot]
  refine forall₂_congr fun pre _ => ?_
  exact (and_iff_right (foldl_invariant (I := Tracks) (fun c a hc => tracks_step hc a) hboot.1
    pre)).symm

/-! ### The divergence -/

/-- **A rejected first prompt is answered as if there were no session.**  A client asks for
a new session; the driver creates it and rejects its first prompt.  The answer names no
session, and the draft that is restored from it asks for another. -/
theorem not_answers :
    let serde : Serde := ⟨fun _ => 0, fun _ => none⟩
    let m : Moment := ⟨default, 0, true⟩
    let opts : NewSessionOpts := ⟨some "dir", some true, none, none, none, none, none⟩
    let c := (boot 0 0 none).run serde
      (connectAndSend m 0 (.newSession opts (some "hi") none (some "p")) ++
        .tick m (.seed (titledSeed "title")) :: ticks m 5 ++ [.tick m (.failed "no model")])
    c.answers = [(⟨"p", false, none, some "no model"⟩, some "s")] ∧ ¬c.Answers ∧
      AsksAnew ⟨"p", false, none, some "no model"⟩ := by
  intro serde m opts c
  have hanswers : c.answers = [(⟨"p", false, none, some "no model"⟩, some "s")] := by decide
  refine ⟨hanswers, ?_, (asksAnew_iff _).mpr ⟨rfl, rfl⟩⟩
  intro hall
  have hanswered := hall (⟨"p", false, none, some "no model"⟩, some "s") (by
    rw [hanswers]
    exact List.mem_singleton_self _)
  cases hanswered.1

end Creating

end Pantoken
