import Pantoken.Lib.StrSlice
import Pantoken.Polytoken.UiBridge
import Pantoken.Server.Attention

/-!
# Texts that are cut

Titles, messages, tool inputs and the bodies of the daemon's answers are cut to a number of
bytes before they are shown.  A slice `&s[..n]` panics unless `n` is a character boundary of
`s`, and some of the cuts take a fixed `n` without looking.

Here `none` is a panic.  The tracking of `Server.Attention`, in which a cut takes whole
characters, is what the code computes when it does not panic.

## Main definitions

* `Tracking.trackAttention?`, `maybeNotify?`, `permissionPreview?`, `postError?`,
  `getError?`, `respondError?` — the functions that cut.
* `Cut`, `TextOp.cuts` — the texts each of them cuts, and where.

## Main results

* `trackAttention_of_survives` — what `track_attention` does when it does not panic.
* `survives_iff` — **no call panics exactly when each text it cuts is short enough or has a
  character boundary at the cut.**
* `not_survives` — a failed run whose message has an accented letter at byte 71.
-/

namespace Pantoken

/-! ### Cuts -/

/-- A text that is cut at byte `pos` when it is longer than `max` bytes. -/
structure Cut where
  text : List Char
  max : ℕ
  pos : ℕ

namespace Cut

/-- The text is short enough, or has a character boundary at the cut. -/
def Clean (c : Cut) : Prop := byteLength c.text ≤ c.max ∨ IsCharBoundary c.text c.pos

end Cut

/-- White space runs become single spaces. -/
def oneLine (value : String) : List Char :=
  [' '].intercalate ((value.toList.splitOnP Cut.isWhitespace).filter (· ≠ []))

/-- The cut of `clipped(value, 72)`. -/
def clip (value : String) : Cut := ⟨oneLine value, 72, 72 - 1⟩

/-- The cut of `&text[..text.len().min(max)]`. -/
def firstBytes (max : ℕ) (text : String) : Cut := ⟨text.toList, max, max⟩

/-- `clipped(value, 72)` -/
def clipped? (value : String) : Option String :=
  if 72 < byteLength (oneLine value) then
    (sliceTo (oneLine value) (72 - 1)).map fun front => String.ofList (front ++ ['…'])
  else some (String.ofList (oneLine value))

/-- `text[..text.len().min(max)].to_string()` -/
def firstBytes? (max : ℕ) (text : String) : Option String :=
  (sliceTo text.toList (min (byteLength text.toList) max)).map String.ofList

theorem isSome_clipped? (value : String) : (clipped? value).isSome ↔ (clip value).Clean := by
  unfold clipped? Cut.Clean clip
  dsimp only
  split
  · next h => rw [Option.isSome_map, isSome_sliceTo_iff, or_iff_right (by omega)]
  · next h => exact iff_of_true rfl (Or.inl (by omega))

theorem clipped_of_survives {value text : String} (h : clipped? value = some text) :
    clipped value 72 = text := by
  unfold clipped? at h
  unfold clipped
  dsimp only
  rw [utf8ByteSize_ofList]
  change (if 72 < byteLength (oneLine value) then
    String.ofList (takeBytes (72 - 1) (oneLine value) ++ ['…']) else String.ofList (oneLine value))
      = text
  split at h
  · next hlt =>
    obtain ⟨front, hfront, rfl⟩ := Option.map_eq_some_iff.mp h
    rw [if_pos hlt, (sliceTo_eq_some hfront).2.2]
  · next hle =>
    cases h
    rw [if_neg hle]

theorem isSome_firstBytes? (max : ℕ) (text : String) :
    (firstBytes? max text).isSome ↔ (firstBytes max text).Clean := by
  rw [firstBytes?, Option.isSome_map, isSome_sliceTo_iff]
  unfold Cut.Clean firstBytes
  dsimp only
  rcases le_or_gt (byteLength text.toList) max with h | h
  · rw [min_eq_left h]
    exact iff_of_true ⟨_, List.prefix_refl _, rfl⟩ (Or.inl h)
  · rw [min_eq_right h.le, or_iff_right (by omega)]

/-! ### The activity of a tool, and the title of a request -/

/-- The text `input_string` finds. -/
def inputText (input : Option Json) (keys : List String) : Option String :=
  (input.bind Json.asObject).bind fun obj =>
    keys.findSome? fun key =>
      ((Json.getMember obj key).bind Json.asStr).bind fun s =>
        if Server.trim s = "" then none else some (Server.trim s)

/-- `input_string` -/
def inputString? (input : Option Json) (keys : List String) : Option (Option String) :=
  match inputText input keys with
  | some text => (clipped? text).map some
  | none => some none

/-- `tool_activity`, of a tool that has started; the path is cut whatever the tool is. -/
def toolActivity? (toolName : String) (input : Option Json) (label description : Option String) :
    Option String := do
  let name := toolName.toLower
  let path ← inputString? input ["path", "filePath", "file_path"]
  if containsStr name "read" then return (path.map ("Reading " ++ ·)).getD "Reading files"
  else if containsStr name "edit" ∨ containsStr name "write" then
    return (path.map ("Editing " ++ ·)).getD "Editing files"
  else if containsStr name "search" ∨ containsStr name "grep" ∨ name = "rg" then
    return "Searching the workspace"
  else if name = "bash" ∨ name = "shell" ∨ name = "exec" then
    let command ← inputString? input ["command", "cmd"]
    return (command.map ("Running " ++ ·)).getD "Running a command"
  else clipped? ((label.or description).getD toolName)

/-- The texts `tool_activity` cuts. -/
def toolCuts (toolName : String) (input : Option Json) (label description : Option String) :
    List Cut :=
  let name := toolName.toLower
  (inputText input ["path", "filePath", "file_path"]).toList.map clip ++
    if containsStr name "read" then []
    else if containsStr name "edit" ∨ containsStr name "write" then []
    else if containsStr name "search" ∨ containsStr name "grep" ∨ name = "rg" then []
    else if name = "bash" ∨ name = "shell" ∨ name = "exec" then
      (inputText input ["command", "cmd"]).toList.map clip
    else [clip ((label.or description).getD toolName)]

/-- The text a request is known by, when it has one. -/
def requestText (request : HostUiRequest) : Option String :=
  (request.titleText.filter (· ≠ "")).or (request.messageText.filter (· ≠ ""))

/-- `request_title` -/
def requestTitle? (request : HostUiRequest) : Option String :=
  match requestText request with
  | some text => clipped? text
  | none =>
    match request with
    | .qna .. => some "Questions need answers"
    | _ => some "Waiting on you"

theorem isSome_inputString? (input : Option Json) (keys : List String) :
    (inputString? input keys).isSome ↔
      ∀ cut ∈ (inputText input keys).toList.map clip, cut.Clean := by
  unfold inputString?
  cases inputText input keys with
  | none => simp
  | some text => simp [isSome_clipped?]

theorem inputString_of_survives {input : Option Json} {keys : List String} {r : Option String}
    (h : inputString? input keys = some r) : inputString input keys = r := by
  have hfind : inputString input keys = (inputText input keys).map (clipped · 72) := by
    unfold inputString inputText
    cases input.bind Json.asObject with
    | none => rfl
    | some obj =>
      rw [Option.bind_some, Option.bind_some, List.map_findSome?]
      congr 1
      funext key
      rw [Function.comp_apply, Option.map_bind]
      congr 1
      funext s
      dsimp only [Function.comp_apply]
      split <;> rfl
  rw [hfind]
  unfold inputString? at h
  cases htext : inputText input keys with
  | none =>
    rw [htext] at h
    cases h
    rfl
  | some text =>
    rw [htext] at h
    obtain ⟨cut, hcut, rfl⟩ := Option.map_eq_some_iff.mp h
    rw [Option.map_some, clipped_of_survives hcut]

theorem isSome_toolActivity? (toolName : String) (input : Option Json)
    (label description : Option String) :
    (toolActivity? toolName input label description).isSome ↔
      ∀ cut ∈ toolCuts toolName input label description, cut.Clean := by
  unfold toolActivity? toolCuts
  simp only [List.forall_mem_append]
  -- the path is cut first, whether or not the activity shows it
  rw [← isSome_inputString?]
  cases inputString? input ["path", "filePath", "file_path"] with
  | none => simp
  | some path =>
    simp only [Option.bind_eq_bind, Option.bind_some, Option.isSome_some, true_and]
    by_cases hread : containsStr toolName.toLower "read"
    · rw [if_pos hread, if_pos hread]
      simp
    rw [if_neg hread, if_neg hread]
    by_cases hwrite : containsStr toolName.toLower "edit" ∨ containsStr toolName.toLower "write"
    · rw [if_pos hwrite, if_pos hwrite]
      simp
    rw [if_neg hwrite, if_neg hwrite]
    by_cases hsearch : containsStr toolName.toLower "search" ∨
        containsStr toolName.toLower "grep" ∨ toolName.toLower = "rg"
    · rw [if_pos hsearch, if_pos hsearch]
      simp
    rw [if_neg hsearch, if_neg hsearch]
    by_cases hbash : toolName.toLower = "bash" ∨ toolName.toLower = "shell" ∨
        toolName.toLower = "exec"
    · rw [if_pos hbash, if_pos hbash, ← isSome_inputString?]
      cases inputString? input ["command", "cmd"] <;> simp
    · rw [if_neg hbash, if_neg hbash, isSome_clipped?]
      simp

theorem toolActivity_of_survives {toolName activity : String} {input : Option Json}
    {label description : Option String}
    (h : toolActivity? toolName input label description = some activity) :
    toolActivity toolName input label description = activity := by
  unfold toolActivity? at h
  obtain ⟨path, hpath, h⟩ := Option.bind_eq_some_iff.mp h
  unfold toolActivity
  dsimp only
  rw [inputString_of_survives hpath]
  split at h
  · next hread => rw [if_pos hread]; exact Option.some.inj h
  · next hread =>
    rw [if_neg hread]
    split at h
    · next hwrite => rw [if_pos hwrite]; exact Option.some.inj h
    · next hwrite =>
      rw [if_neg hwrite]
      split at h
      · next hsearch => rw [if_pos hsearch]; exact Option.some.inj h
      · next hsearch =>
        rw [if_neg hsearch]
        split at h
        · next hbash =>
          obtain ⟨command, hcommand, h⟩ := Option.bind_eq_some_iff.mp h
          rw [if_pos hbash, inputString_of_survives hcommand]
          exact Option.some.inj h
        · next hbash => rw [if_neg hbash, clipped_of_survives h]

theorem isSome_requestTitle? (request : HostUiRequest) :
    (requestTitle? request).isSome ↔
      ∀ cut ∈ (requestText request).toList.map clip, cut.Clean := by
  unfold requestTitle?
  cases requestText request with
  | some text => simp [isSome_clipped?]
  | none => cases request <;> simp

theorem requestTitle_of_survives {request : HostUiRequest} {title : String}
    (h : requestTitle? request = some title) : requestTitle request = title := by
  unfold requestTitle? requestText at h
  unfold requestTitle
  cases htitle : request.titleText.filter (· ≠ "") with
  | some text =>
    rw [htitle] at h
    exact clipped_of_survives h
  | none =>
    rw [htitle, Option.none_or] at h
    cases hmessage : request.messageText.filter (· ≠ "") with
    | some text =>
      rw [hmessage] at h
      exact clipped_of_survives h
    | none =>
      rw [hmessage] at h
      cases request <;> exact Option.some.inj h

/-! ### The functions that cut -/

namespace Tracking

/-- The `hostUiRequest` case of `track_attention`. -/
def trackRequest? (tr : Tracking) (sid : SessionId) (timestamp : Timestamp)
    (request : HostUiRequest) : Option Tracking :=
  if isDialogRequest request then
    (requestTitle? request).map fun title =>
      (tr.ensureAttention sid timestamp).updateAttention sid fun r =>
        { r with
          pending := insertPending r.pending request.requestId title
          updatedAt := timestamp }
  else
    match request with
    | .status _ _ (some t) =>
      if tr.isRunningPhase sid then
        (clipped? t).map fun text => tr.setAttentionBase sid .running (some text) timestamp
      else some tr
    | _ => some tr

/-- `track_attention`; the events that are not listed cut nothing. -/
def trackAttention? (tr : Tracking) (ev : SessionDriverEvent) : Option Tracking :=
  let sid := ev.sid
  let timestamp := ev.timestamp
  match ev with
  | .toolStarted _ toolName _ input label description =>
    (toolActivity? toolName input label description).map fun activity =>
      tr.setAttentionBase sid .running (some activity) timestamp
  | .runFailed _ error =>
    let tr := (tr.ensureAttention sid timestamp).updateAttention sid fun r =>
      { r with pending := [] }
    (clipped? error.message).map fun msg => tr.setAttentionBase sid .failed (some msg) timestamp
  | .hostUiRequest _ request => tr.trackRequest? sid timestamp request
  | ev => some (tr.trackAttention ev)

/-- The texts `track_attention` cuts. -/
def attentionCuts (tr : Tracking) (ev : SessionDriverEvent) : List Cut :=
  match ev with
  | .toolStarted _ toolName _ input label description => toolCuts toolName input label description
  | .runFailed _ error => [clip error.message]
  | .hostUiRequest _ request =>
    if isDialogRequest request then (requestText request).toList.map clip
    else
      match request with
      | .status _ _ (some t) => if tr.isRunningPhase ev.sid then [clip t] else []
      | _ => []
  | _ => []

/-- **What `track_attention` does when it does not panic.** -/
theorem trackAttention_of_survives {tr tr' : Tracking} {ev : SessionDriverEvent}
    (h : tr.trackAttention? ev = some tr') : tr.trackAttention ev = tr' := by
  cases ev with
  | toolStarted base toolName callId input label description =>
    obtain ⟨activity, hactivity, rfl⟩ := Option.map_eq_some_iff.mp h
    rw [trackAttention, toolActivity_of_survives hactivity]
  | runFailed base error =>
    obtain ⟨msg, hmsg, rfl⟩ := Option.map_eq_some_iff.mp h
    rw [trackAttention, clipped_of_survives hmsg]
  | hostUiRequest base request =>
    change tr.trackRequest _ _ request = tr'
    change tr.trackRequest? _ _ request = some tr' at h
    unfold trackRequest? at h
    unfold trackRequest
    split at h
    · next hdialog =>
      obtain ⟨title, htitle, rfl⟩ := Option.map_eq_some_iff.mp h
      rw [if_pos hdialog, requestTitle_of_survives htitle]
    · next hdialog =>
      rw [if_neg hdialog]
      cases request with
      | status id key text =>
        cases text with
        | none => exact Option.some.inj h
        | some t =>
          dsimp only at h ⊢
          split at h
          · next hrunning =>
            obtain ⟨text, htext, rfl⟩ := Option.map_eq_some_iff.mp h
            rw [if_pos hrunning, clipped_of_survives htext]
          · next hrunning =>
            rw [if_neg hrunning]
            exact Option.some.inj h
      | _ => exact Option.some.inj h
  | _ => exact Option.some.inj h

theorem isSome_trackAttention? (tr : Tracking) (ev : SessionDriverEvent) :
    (tr.trackAttention? ev).isSome ↔ ∀ cut ∈ tr.attentionCuts ev, cut.Clean := by
  cases ev with
  | toolStarted base toolName callId input label description =>
    rw [trackAttention?, Option.isSome_map]
    exact isSome_toolActivity? ..
  | runFailed base error =>
    rw [trackAttention?, Option.isSome_map, isSome_clipped?]
    simp [attentionCuts]
  | hostUiRequest base request =>
    -- a status is cut only while the session runs
    change (tr.trackRequest? _ _ request).isSome ↔ _
    unfold trackRequest? attentionCuts
    dsimp only
    split
    · rw [Option.isSome_map]
      exact isSome_requestTitle? request
    · cases request with
      | status id key text =>
        cases text with
        | none => simp
        | some t =>
          dsimp only
          split
          · simp [isSome_clipped?]
          · simp
      | _ => simp
  | _ => simp [trackAttention?, attentionCuts]

end Tracking

/-- `HubNotification` -/
structure HubNotification where
  title : String
  body : String
  tag : Option String
  url : Option String
  badge : Option ℕ

/-- What `maybe_notify` reads of the hub. -/
structure Notifier where
  /-- A notifier is installed. -/
  notify : Bool
  everConnected : Bool
  clientCount : ℕ
  sessionTitles : PMap SessionId String
  attentionBadgeCount : ℕ

section Calls

-- `encode` is `urlencoding::encode`, `stringify` is `safe_stringify`, and `parse` reads JSON
variable (encode : String → String) (stringify : Json → String) (parse : String → Option Json)

/-- `maybe_notify`; `some none` pushes nothing. -/
def maybeNotify? (n : Notifier) (ev : SessionDriverEvent) : Option (Option HubNotification) :=
  if n.notify ∧ n.everConnected ∧ n.clientCount = 0 then
    let sid := ev.sid
    let session := (n.sessionTitles sid).getD sid
    let url := some ("/?session=" ++ encode sid)
    let badge := some n.attentionBadgeCount
    match ev with
    | .runCompleted .. =>
      some (some ⟨"pantoken", s!"{session} finished its turn", some s!"pantoken-run-{sid}", url,
        badge⟩)
    | .runFailed _ error =>
      (clipped? error.message).map fun msg =>
        some ⟨"pantoken", s!"{session} failed: {msg}", some s!"pantoken-run-{sid}", url, badge⟩
    | .hostUiRequest _ request =>
      if isDialogRequest request then
        let title := request.titleText.getD "Waiting on you"
        some (some ⟨"Approval needed", s!"{session}: {title}", some s!"pantoken-approval-{sid}",
          url, badge⟩)
      else some none
    | _ => some none
  else some none

/-- The input of a tool as `build_permission_request` shows it. -/
def permissionPreview? (input : Json) : Option String :=
  let json := (stringify input).toList
  if 500 < byteLength json then (sliceTo json 499).map fun front => String.ofList (front ++ ['…'])
  else some (String.ofList json)

/-- `build_interrogative_mapping`, with the preview of the tool's input. -/
def Interrogation.card? (i : Interrogation) : Option HostUiRequest :=
  match i.question with
  | .permission _ _ (some toolCall) =>
    (permissionPreview? stringify toolCall.input).map fun text => i.card fun _ => text
  | _ => some (i.card stringify)

/-- What `safe_fetch` brings: the status is 0 when there was no answer. -/
structure DaemonReply where
  status : ℕ
  text : Option String
  fetchErr : Option String

/-- The `message` of a body, when it parses. -/
def parsedMessage (text : String) : Option String :=
  ((parse text).bind (Json.get · "message")).bind Json.asStr

/-- The error of `post`. -/
def postError? (r : DaemonReply) : Option (Option String) :=
  if r.status = 0 then some r.fetchErr
  else if r.status < 400 then some none
  else
    let text := r.text.getD ""
    match parsedMessage parse text with
    | some msg => some (some msg)
    | none => (firstBytes? 200 text).map some

/-- The error of `get`. -/
def getError? (r : DaemonReply) : Option (Option String) :=
  if r.status = 0 then some r.fetchErr
  else if r.status < 400 then some none
  else
    let text := r.text.getD ""
    if text ≠ "" then (firstBytes? 500 text).map some else some none

/-- The error of the answer to an interrogative. -/
def respondError? (r : DaemonReply) : Option (Option String) :=
  if 200 ≤ r.status ∧ r.status < 300 then some none
  else
    let message := (r.fetchErr.or r.text).getD "empty response body"
    let status := r.status
    (firstBytes? 200 message).map fun front =>
      some s!"POST /interrogative/respond failed ({status}): {front}"

/-! ### All of them -/

/-- A call of one of the functions that cut texts. -/
inductive TextOp where
  | trackAttention (tr : Tracking) (ev : SessionDriverEvent)
  | maybeNotify (n : Notifier) (ev : SessionDriverEvent)
  | card (i : Interrogation)
  | post (r : DaemonReply)
  | get (r : DaemonReply)
  | respond (r : DaemonReply)

namespace TextOp

/-- The call does not panic. -/
def Survives : TextOp → Prop
  | .trackAttention tr ev => (tr.trackAttention? ev).isSome
  | .maybeNotify n ev => (maybeNotify? encode n ev).isSome
  | .card i => (i.card? stringify).isSome
  | .post r => (postError? parse r).isSome
  | .get r => (getError? r).isSome
  | .respond r => (respondError? r).isSome

/-- The texts a call cuts. -/
def cuts : TextOp → List Cut
  | .trackAttention tr ev => tr.attentionCuts ev
  | .maybeNotify n ev =>
    match ev with
    | .runFailed _ error =>
      if n.notify ∧ n.everConnected ∧ n.clientCount = 0 then [clip error.message] else []
    | _ => []
  | .card i =>
    match i.question with
    | .permission _ _ (some toolCall) => [⟨(stringify toolCall.input).toList, 500, 499⟩]
    | _ => []
  | .post r =>
    if 400 ≤ r.status ∧ (parsedMessage parse (r.text.getD "")).isNone then
      [firstBytes 200 (r.text.getD "")]
    else []
  | .get r => if 400 ≤ r.status then [firstBytes 500 (r.text.getD "")] else []
  | .respond r =>
    if 200 ≤ r.status ∧ r.status < 300 then []
    else [firstBytes 200 ((r.fetchErr.or r.text).getD "empty response body")]

theorem survives_maybeNotify_iff (n : Notifier) (ev : SessionDriverEvent) :
    (maybeNotify? encode n ev).isSome ↔
      ∀ cut ∈ (TextOp.maybeNotify n ev).cuts stringify parse, cut.Clean := by
  unfold maybeNotify? cuts
  by_cases hwatched : n.notify ∧ n.everConnected ∧ n.clientCount = 0
  · rw [if_pos hwatched]
    cases ev with
    | runFailed base error => simp [hwatched, isSome_clipped?]
    | hostUiRequest base request => dsimp only; split <;> simp
    | _ => simp
  · rw [if_neg hwatched]
    cases ev with
    | runFailed base error => dsimp only; rw [if_neg hwatched]; simp
    | _ => simp

theorem survives_card_iff (i : Interrogation) :
    (i.card? stringify).isSome ↔ ∀ cut ∈ (TextOp.card i).cuts stringify parse, cut.Clean := by
  obtain ⟨interrogativeId, question⟩ := i
  cases question with
  | permission question keepTargets toolCall =>
    cases toolCall with
    | none => simp [Interrogation.card?, cuts]
    | some toolCall =>
      rw [Interrogation.card?, Option.isSome_map]
      unfold permissionPreview? cuts
      simp only [List.forall_mem_singleton, Cut.Clean]
      split
      · next hlt => rw [Option.isSome_map, isSome_sliceTo_iff, or_iff_right (by omega)]
      · next hle => exact iff_of_true rfl (Or.inl (by omega))
  | _ => simp [Interrogation.card?, cuts]

theorem survives_post_iff (r : DaemonReply) :
    (postError? parse r).isSome ↔ ∀ cut ∈ (TextOp.post r).cuts stringify parse, cut.Clean := by
  unfold postError? cuts
  dsimp only
  rcases Nat.lt_or_ge r.status 400 with hlt | hge
  · rw [if_neg (show ¬ (400 ≤ r.status ∧ _) by omega)]
    split <;> simp
  · rw [if_neg (by omega), if_neg (by omega)]
    cases h : parsedMessage parse (r.text.getD "") with
    | some msg => simp
    | none => simp [hge, isSome_firstBytes?]

theorem survives_get_iff (r : DaemonReply) :
    (getError? r).isSome ↔ ∀ cut ∈ (TextOp.get r).cuts stringify parse, cut.Clean := by
  unfold getError? cuts
  dsimp only
  rcases Nat.lt_or_ge r.status 400 with hlt | hge
  · rw [if_neg (show ¬ 400 ≤ r.status by omega)]
    split <;> simp
  · rw [if_neg (by omega), if_neg (by omega), if_pos hge, List.forall_mem_singleton]
    by_cases htext : r.text.getD "" = ""
    · rw [htext]
      exact iff_of_true rfl (Or.inl (Nat.zero_le _))
    · rw [if_pos htext, Option.isSome_map]
      exact isSome_firstBytes? ..

theorem survives_respond_iff (r : DaemonReply) :
    (respondError? r).isSome ↔ ∀ cut ∈ (TextOp.respond r).cuts stringify parse, cut.Clean := by
  unfold respondError? cuts
  dsimp only
  split
  · simp
  · rw [Option.isSome_map, List.forall_mem_singleton]
    exact isSome_firstBytes? ..

end TextOp

/-- **No call panics exactly when each text it cuts is short enough or has a character
boundary at the cut.** -/
theorem survives_iff (op : TextOp) :
    op.Survives encode stringify parse ↔ ∀ cut ∈ op.cuts stringify parse, cut.Clean := by
  cases op with
  | trackAttention tr ev => exact tr.isSome_trackAttention? ev
  | maybeNotify n ev => exact TextOp.survives_maybeNotify_iff encode stringify parse n ev
  | card i => exact TextOp.survives_card_iff stringify parse i
  | post r => exact TextOp.survives_post_iff stringify parse r
  | get r => exact TextOp.survives_get_iff stringify parse r
  | respond r => exact TextOp.survives_respond_iff stringify parse r

end Calls

/-- Seventy letters, an accented one that takes bytes 70 and 71, and one more. -/
def longMessage : String := String.ofList (List.replicate 70 'a' ++ ['é', 'a'])

/-- **A run that fails with this message takes the tracking down.** -/
theorem not_survives :
    ¬ (TextOp.trackAttention .empty
      (.runFailed ⟨⟨"w", "s"⟩, "0", none⟩ ⟨longMessage, none, none⟩)).Survives id (fun _ => "")
        fun _ => none := by
  have hcut : clipped? longMessage = none := by decide
  intro h
  simp only [TextOp.Survives, Tracking.trackAttention?, hcut] at h
  cases h

end Pantoken
