import Pantoken.Lib.Pieces
import Pantoken.Polytoken.PromptEcho

/-!
# The ids of the rows

A row of the transcript is keyed by its id.  The daemon and the clients supply the ids of prompts,
calls and queued items; the mapper makes one of the kind of a notice and the time of the event, the
driver one of a kind and its milliseconds, and the fold one of the time and the place of a bubble.

## Main definitions

* `ClockStamp`, `RowKey`, `RowKey.text` — what an id is made of, and the id.
* `RowKey.Clashes` — two ids are the same by what they are made of.
* `LiveEvent.rowKey`, `RowAct.rowKey` — the key of the row that an event or a prompt adds.
* `KeyedSession`, `KeyedSession.step` — a session with the keys of its rows.
* `KeyedSession.Apart` — the keys that are there after a step do not clash.

## Main results

* `RowKey.text_eq_iff` — **two keys have one id exactly when they clash.**
* `rowKey_deliver` — the row of every event the stream makes the driver emit.
* `along_apart_iff` — **the ids of the rows are distinct in every state of a run exactly when no
  step adds a key that clashes.**
-/

namespace Pantoken

/-! ### Keys -/

/-- A time of the clock, as `to_rfc3339_opts` writes it in UTC. -/
@[ext] structure ClockStamp where
  text : Timestamp
  dashes : text.toList.count '-' = 2
  ends : text.toList.getLast? = some 'Z'

/-- The ids the driver makes of the milliseconds. -/
inductive MillisKind where
  | pt | imgUnsupported
  deriving DecidableEq

def MillisKind.text : MillisKind → String
  | .pt => "pt"
  | .imgUnsupported => "img-unsupported"

/-- What the id of a row is made of. -/
inductive RowKey where
  | supplied (id : String)
  | stamped (kind : String) (now : ClockStamp)
  | millis (kind : MillisKind) (m : Int)
  /-- A bubble, at its place. -/
  | bubble (ts : Timestamp) (index : ℕ)

namespace RowKey

/-- The id. -/
def text : RowKey → String
  | supplied id => id
  | stamped kind now => kind ++ "-" ++ now.text
  | millis kind m => kind.text ++ "-" ++ toString m
  | bubble ts index => s!"a-{ts}-{index}"

/-- A supplied id may be any; of the other keys only the same have the same id. -/
def Clashes : RowKey → RowKey → Prop
  | supplied id, b => id = b.text
  | a, supplied id => a.text = id
  | a, b => a = b

theorem toList_stamped (kind : String) (now : ClockStamp) :
    (stamped kind now).text.toList = kind.toList ++ '-' :: now.text.toList := by
  simp [text]

theorem toList_bubble (ts : Timestamp) (index : ℕ) : (bubble ts index).text.toList =
    ('a' :: '-' :: ts.toList) ++ '-' :: Nat.toDigits 10 index := by
  have hts : toString ts = ts := rfl
  have ha : (toString "a-").toList = ['a', '-'] := rfl
  have hdash : (toString "-").toList = ['-'] := rfl
  simp [text, hts, ha, hdash]

theorem toList_millis (kind : MillisKind) (m : Int) :
    (millis kind m).text.toList = kind.text.toList ++ '-' :: (toString m).toList := by
  simp [text]

theorem dash_notMem_toDigits (n : ℕ) : '-' ∉ Nat.toDigits 10 n := fun h =>
  absurd (Nat.isDigit_of_mem_toDigits (b := 10) (by decide) (by decide) h) (by decide)

theorem toDigits_injective : Function.Injective (Nat.toDigits 10) := by
  intro m n h
  rw [← Nat.ofDigitChars_ten_toDigits (n := m), h, Nat.ofDigitChars_ten_toDigits]

/-- An integer in decimal: the digits of a number, behind a sign if it is negative. -/
theorem toList_toString_int (m : Int) : ∃ n : ℕ, (toString m).toList = Nat.toDigits 10 n ∧ m = n ∨
    (toString m).toList = '-' :: Nat.toDigits 10 n ∧ m = -n := by
  rw [Int.toString_eq_repr, Int.repr_eq_if]
  split
  · exact ⟨m.toNat, .inl ⟨Nat.toList_repr, by omega⟩⟩
  · refine ⟨(-m).toNat, .inr ⟨?_, by omega⟩⟩
    rw [String.toList_append, Nat.toList_repr]
    rfl

theorem toString_int_injective {m m' : Int} (h : (toString m).toList = (toString m').toList) :
    m = m' := by
  have hhead : ∀ n n' : ℕ, Nat.toDigits 10 n ≠ '-' :: Nat.toDigits 10 n' := by
    intro n n' h
    exact dash_notMem_toDigits n (h ▸ List.mem_cons_self)
  obtain ⟨n, ⟨hn, rfl⟩ | ⟨hn, rfl⟩⟩ := toList_toString_int m <;>
    obtain ⟨n', ⟨hn', rfl⟩ | ⟨hn', rfl⟩⟩ := toList_toString_int m' <;> rw [hn, hn'] at h
  · rw [toDigits_injective h]
  · exact absurd h (hhead n n')
  · exact absurd h.symm (hhead n' n)
  · rw [toDigits_injective (List.cons.inj h).2]

theorem getLast_stamped (kind : String) (now : ClockStamp) :
    (stamped kind now).text.toList.getLast? = some 'Z' := by
  have hne : now.text.toList ≠ [] := List.ne_nil_of_mem (List.mem_of_getLast? now.ends)
  rw [toList_stamped, List.getLast?_append_of_ne_nil _ (List.cons_ne_nil _ _),
    List.getLast?_cons_of_ne_nil hne, now.ends]

/-- The other ids that are made end in a digit. -/
theorem getLast_append_toDigits_ne (front : List Char) (n : ℕ) :
    (front ++ Nat.toDigits 10 n).getLast? ≠ some 'Z' := by
  intro h
  rw [List.getLast?_append_of_ne_nil _ Nat.toDigits_ne_nil] at h
  have hdigit := Nat.isDigit_of_mem_toDigits (by decide) (by decide) (List.mem_of_getLast? h)
  exact absurd hdigit (by decide)

theorem getLast_bubble_ne (ts : Timestamp) (index : ℕ) :
    (bubble ts index).text.toList.getLast? ≠ some 'Z' := by
  rw [toList_bubble, List.append_cons]
  exact getLast_append_toDigits_ne _ _

theorem getLast_millis_ne (kind : MillisKind) (m : Int) :
    (millis kind m).text.toList.getLast? ≠ some 'Z' := by
  rw [toList_millis]
  obtain ⟨n, ⟨hn, -⟩ | ⟨hn, -⟩⟩ := toList_toString_int m
  · rw [hn, List.append_cons]
    exact getLast_append_toDigits_ne _ _
  · rw [hn, List.append_cons, List.append_cons]
    exact getLast_append_toDigits_ne _ _

theorem stamped_injective {kind kind' : String} {now now' : ClockStamp}
    (h : (stamped kind now).text = (stamped kind' now').text) : kind = kind' ∧ now = now' := by
  have hlists := congrArg String.toList h
  rw [toList_stamped, toList_stamped] at hlists
  obtain ⟨hkind, hnow⟩ :=
    Pieces.append_cons_inj_of_count (now.dashes.trans now'.dashes.symm) hlists
  exact ⟨String.toList_inj.mp hkind, ClockStamp.ext (String.toList_inj.mp hnow)⟩

theorem bubble_injective {ts ts' : Timestamp} {n n' : ℕ}
    (h : (bubble ts n).text = (bubble ts' n').text) : ts = ts' ∧ n = n' := by
  have hlists := congrArg String.toList h
  rw [toList_bubble, toList_bubble] at hlists
  have hnone : ∀ n, (Nat.toDigits 10 n).count '-' = 0 := fun n =>
    List.count_eq_zero.mpr (dash_notMem_toDigits n)
  obtain ⟨hts, hn⟩ :=
    Pieces.append_cons_inj_of_count ((hnone n).trans (hnone n').symm) hlists
  exact ⟨String.toList_inj.mp (List.cons.inj (List.cons.inj hts).2).2, toDigits_injective hn⟩

theorem millis_injective {kind kind' : MillisKind} {m m' : Int}
    (h : (millis kind m).text = (millis kind' m').text) : kind = kind' ∧ m = m' := by
  have hlists := congrArg String.toList h
  rw [toList_millis, toList_millis] at hlists
  have hkind : kind = kind' := by
    cases kind <;> cases kind' <;> first | rfl | exact absurd (List.cons.inj hlists).1 (by decide)
  subst hkind
  have hm := List.append_cancel_left hlists
  exact ⟨rfl, toString_int_injective (List.cons.inj hm).2⟩

theorem bubble_ne_millis (ts : Timestamp) (n : ℕ) (kind : MillisKind) (m : Int) :
    (bubble ts n).text ≠ (millis kind m).text := by
  intro h
  have hlists := congrArg String.toList h
  rw [toList_bubble, toList_millis] at hlists
  cases kind <;> exact absurd (List.cons.inj hlists).1 (by decide)

/-- **Two keys have one id exactly when they clash.** -/
theorem text_eq_iff {a b : RowKey} : a.text = b.text ↔ a.Clashes b := by
  have hstamped : ∀ {kind now} {c : RowKey}, c.text.toList.getLast? ≠ some 'Z' →
      (stamped kind now).text ≠ c.text := by
    intro kind now c hc h
    rw [← h] at hc
    exact hc (getLast_stamped kind now)
  cases a with
  | supplied id => exact Iff.rfl
  | stamped kind now =>
    cases b with
    | supplied id => exact Iff.rfl
    | stamped kind' now' =>
      refine ⟨fun h => ?_, congrArg text⟩
      obtain ⟨rfl, rfl⟩ := stamped_injective h
      exact rfl
    | millis kind' m => exact iff_of_false (hstamped (getLast_millis_ne kind' m)) (by rintro ⟨⟩)
    | bubble ts n => exact iff_of_false (hstamped (getLast_bubble_ne ts n)) (by rintro ⟨⟩)
  | millis kind m =>
    cases b with
    | supplied id => exact Iff.rfl
    | stamped kind' now' =>
      exact iff_of_false (hstamped (getLast_millis_ne kind m)).symm (by rintro ⟨⟩)
    | millis kind' m' =>
      refine ⟨fun h => ?_, congrArg text⟩
      obtain ⟨rfl, rfl⟩ := millis_injective h
      exact rfl
    | bubble ts n => exact iff_of_false (bubble_ne_millis ts n kind m).symm (by rintro ⟨⟩)
  | bubble ts n =>
    cases b with
    | supplied id => exact Iff.rfl
    | stamped kind' now' =>
      exact iff_of_false (hstamped (getLast_bubble_ne ts n)).symm (by rintro ⟨⟩)
    | millis kind' m' => exact iff_of_false (bubble_ne_millis ts n kind' m') (by rintro ⟨⟩)
    | bubble ts' n' =>
      refine ⟨fun h => ?_, congrArg text⟩
      obtain ⟨rfl, rfl⟩ := bubble_injective h
      exact rfl

instance (a b : RowKey) : Decidable (a.Clashes b) := decidable_of_iff _ text_eq_iff

end RowKey

/-! ### The fold -/

/-- The id of the row that an event adds, if it is no delta. -/
def SessionDriverEvent.row : SessionDriverEvent → Option String
  | .userMessage _ id _ _ _ _ | .customMessage _ id _ _ _ _ => some id
  | .queuedMessageStarted _ message => some message.id
  | .toolStarted _ _ callId _ _ _ => some callId
  | .runFailed base _ => some s!"err-{base.timestamp}"
  | .hostUiRequest _ (.notify requestId _ _) => some requestId
  | .extensionCompatibilityIssue base _ => some s!"compat-{base.timestamp}"
  | _ => none

/-- The keys after an event is folded; the key of the row it adds, where the id is not
supplied. -/
def keyStep (key : Option RowKey) (state : SessionState) (keys : List RowKey) :
    SessionDriverEvent → List RowKey
  | .sessionReset _ => []
  | .assistantDelta base _ _ _ =>
    if (openAssistant state.items).isSome then keys
    else keys ++ [.bubble base.timestamp state.items.length]
  | e =>
    match e.row with
    | some id => keys ++ [key.getD (.supplied id)]
    | none => keys

def foldKeys (key : SessionDriverEvent → Option RowKey) :
    SessionState → List RowKey → List SessionDriverEvent → List RowKey
  | _, keys, [] => keys
  | state, keys, e :: es => foldKeys key (foldEvent state e) (keyStep (key e) state keys e) es

/-- The keys are those of the rows. -/
def Keyed (items : List TranscriptItem) (keys : List RowKey) : Prop :=
  items.map TranscriptItem.id = keys.map RowKey.text

section Fold

variable {state : SessionState} {keys : List RowKey}

/-- A row is added with its key. -/
theorem Keyed.concat {items : List TranscriptItem} (h : Keyed items keys) {i : TranscriptItem}
    {k : RowKey} (hk : k.text = i.id) : Keyed (items ++ [i]) (keys ++ [k]) := by
  unfold Keyed at h ⊢
  rw [List.map_append, List.map_append, h, List.map_singleton, List.map_singleton, hk]

theorem Keyed.of_ids {items items' : List TranscriptItem} (h : Keyed items keys)
    (hids : items'.map TranscriptItem.id = items.map TranscriptItem.id) : Keyed items' keys :=
  hids.trans h

theorem Keyed.pushItem {items : List TranscriptItem} (h : Keyed items keys) {i : TranscriptItem}
    {k : RowKey} (hk : k.text = i.id) : Keyed (pushItem items i) (keys ++ [k]) :=
  (h.of_ids (ids_closeOpenAssistant none)).concat hk

theorem Keyed.foldDelta {items : List TranscriptItem} (h : Keyed items keys)
    (ts text : String) (channel : Option AssistantDeltaChannel) (entryId : Option String) :
    Keyed (foldDelta items ts text channel entryId)
      (if (openAssistant items).isSome then keys else keys ++ [.bubble ts items.length]) := by
  cases hopen : openAssistant items with
  | none =>
    have hid : ∀ a : AssistantItem, (a.append channel text).id = a.id := by
      intro a
      unfold AssistantItem.append
      split <;> rfl
    rw [foldDelta_of_closed hopen]
    exact h.concat (hid (newAssistant ts items.length entryId)).symm
  | some a =>
    have hid : (a.append channel text).id = a.id := by
      unfold AssistantItem.append
      split <;> rfl
    obtain ⟨hs, xs, rfl⟩ := exists_of_openAssistant hopen
    rw [foldDelta_of_open xs hs]
    refine h.of_ids ?_
    rw [List.map_append, List.map_append, List.map_singleton, List.map_singleton]
    exact congrArg (fun id => xs.map TranscriptItem.id ++ [id]) hid

theorem items_foldHostUiRequest {request : HostUiRequest}
    (h : ∀ requestId message level, request ≠ .notify requestId message level) :
    (foldHostUiRequest state request).items = state.items := by
  unfold foldHostUiRequest
  split
  · split <;> rfl
  · cases request with
    | notify requestId message level => exact absurd rfl (h requestId message level)
    | _ => rfl

/-- **An event adds the row of its key.** -/
theorem Keyed.foldEvent (h : Keyed state.items keys) {key : Option RowKey}
    {e : SessionDriverEvent} (hkey : ∀ id ∈ e.row, (key.getD (.supplied id)).text = id) :
    Keyed (foldEvent state e).items (keyStep key state keys e) := by
  cases e with
  | sessionReset base => exact rfl
  | assistantDelta base text channel entryId => exact h.foldDelta _ _ _ _
  | sessionOpened base snapshot => exact h.of_ids (ids_foldSnapshot state snapshot _)
  | sessionUpdated base snapshot => exact h.of_ids (ids_foldSnapshot state snapshot _)
  | runCompleted base snapshot userEntryId assistantEntryId =>
    refine h.of_ids ?_
    simp only [Pantoken.foldEvent, ids_stampEntryId, ids_interruptRunningTools]
    exact ids_foldSnapshot state snapshot _
  | toolUpdated base callId text progress => exact h.of_ids (ids_mapTools callId fun _ => rfl)
  | toolFinished base callId success output images interrupted =>
    exact h.of_ids (ids_mapTools callId fun _ => rfl)
  | sessionClosed base reason =>
    refine h.of_ids ?_
    simp [Pantoken.foldEvent]
  | runFailed base error =>
    refine (h.of_ids ?_).concat (hkey _ rfl)
    rw [ids_interruptRunningTools, ids_closeOpenAssistant]
  | hostUiRequest base request =>
    cases request with
    | notify requestId message level => exact h.pushItem (hkey _ rfl)
    | _ => exact h.of_ids (congrArg _ (items_foldHostUiRequest fun _ _ _ hnot => by cases hnot))
  | queueUpdated | usageUpdated | hostUiResolved => exact h
  | _ => exact h.pushItem (hkey _ rfl)

theorem Keyed.foldAllFrom (h : Keyed state.items keys) {key : SessionDriverEvent → Option RowKey}
    {es : List SessionDriverEvent}
    (hkey : ∀ e ∈ es, ∀ id ∈ e.row, ((key e).getD (.supplied id)).text = id) :
    Keyed (foldAllFrom state es).items (foldKeys key state keys es) := by
  induction es generalizing state keys with
  | nil => exact h
  | cons e es ih =>
    exact ih (h.foldEvent (hkey e List.mem_cons_self))
      fun e' he' => hkey e' (List.mem_cons_of_mem e he')

end Fold

/-! ### The stream -/

/-- The row of an event of a turn. -/
def DaemonEvent.rowKey (acc : FoldAccumulator) (now : ClockStamp) : DaemonEvent → Option RowKey
  | .messageComplete _ none => acc.turnError.map fun _ => .stamped "err" now
  | .toolCall callId _ _ _ none =>
    some (.supplied (if callId ≠ "" then callId else (acc.toolUseBlock.map (·.id)).getD ""))
  | .modelError _ _ none => some (.stamped "model-error" now)
  | _ => none

/-- The row of another event. -/
def AmbientEvent.rowKey (now : ClockStamp) : AmbientEvent → Option RowKey
  | .pendingTurnInputDiscarded (some (_ :: _)) => some (.stamped "discard-missing-refs" now)
  | .pendingTurnInputDrained _ itemIds _ =>
    some (itemIds.head?.elim (.stamped "drain" now) .supplied)
  | .retryWait .. => some (.stamped "retry" now)
  | .agentBlockViolation _ => some (.stamped "block-violation" now)
  | .toolExposureChanged true => some (.stamped "fallback" now)
  | .compactionStarted => some (.stamped "compact" now)
  | .compactionComplete => some (.stamped "compact-done" now)
  | .compactionCancelled => some (.stamped "compact-cancelled" now)
  | .compactionFailed => some (.stamped "compact-failed" now)
  | .subagentCompactionNotice _ => some (.stamped "subagent-compact" now)
  | .notificationQueued n => some (.supplied ("notif-" ++ n.id))
  | .systemReminder _ slug _ => some (.stamped ("reminder-" ++ slug) now)
  | .hookFired eventType outcome =>
    if eventType = "stop" ∧ outcome = .blocked then some (.stamped "stop-hook-redirect" now)
    else none
  | .mcpServerConnected _ => some (.stamped "mcp-conn" now)
  | .mcpServerDisconnected .. => some (.stamped "mcp-disc" now)
  | .mcpServerReconnecting .. => some (.stamped "mcp-reconn" now)
  | .mcpServerDisabled .. => some (.stamped "mcp-disabled" now)
  | _ => none

/-- The row of an event of the stream, but for the bubble of a delta. -/
def LiveEvent.rowKey (acc : FoldAccumulator) (now : ClockStamp) : LiveEvent → Option RowKey
  | .turn ev => ev.rowKey acc now
  | .ambient ev handle =>
    if (LiveEvent.ambient ev handle).subagentHandle.isSome then none else ev.rowKey now

section Stream

variable {fromStr : String → Option Json} {preview : Json → String} {ctx : MapCtx}
  {now : ClockStamp}
  {acc : FoldAccumulator} {k : RowKey}

/-- The rows of some events have one key. -/
def RowsOf (k : RowKey) (es : List SessionDriverEvent) : Prop := ∀ e ∈ es, ∀ id ∈ e.row, k.text = id

theorem rowsOf_nil (k : RowKey) : RowsOf k [] := fun _ h => absurd h List.not_mem_nil

theorem rowsOf_cons {e : SessionDriverEvent} {es : List SessionDriverEvent} :
    RowsOf k (e :: es) ↔ (∀ id ∈ e.row, k.text = id) ∧ RowsOf k es := List.forall_mem_cons

theorem rowsOf_notice (hnow : ctx.now = now.text) (kind message : String) (level : NotifyLevel)
    (effects : List LiveEffect) :
    RowsOf (.stamped kind now) (notice ctx kind message level effects).events := by
  refine rowsOf_cons.mpr ⟨?_, rowsOf_nil _⟩
  rintro _ ⟨rfl⟩
  rw [RowKey.text, hnow]

theorem rowsOf_mapDaemonEvent (hnow : ctx.now = now.text) {ev : DaemonEvent}
    (hk : ev.rowKey acc now = some k) :
    RowsOf k (mapDaemonEvent fromStr ev acc ctx).1.events := by
  cases ev with
  | messageComplete promptId handle =>
    cases handle with
    | some handle => cases hk
    | none =>
      obtain ⟨message, herror, rfl⟩ := Option.map_eq_some_iff.mp hk
      have hevents : (mapDaemonEvent fromStr (.messageComplete promptId none) acc ctx).1.events =
          [.runFailed ctx.eventBase ⟨message, none, none⟩] := by
        simp [mapDaemonEvent, DaemonEvent.subagentHandle, herror]
      rw [hevents]
      refine rowsOf_cons.mpr ⟨?_, rowsOf_nil _⟩
      rintro _ ⟨rfl⟩
      exact congrArg ("err-" ++ ·) hnow.symm
  | toolCall callId input name promptId handle =>
    cases handle with
    | some handle => cases hk
    | none =>
      cases hk
      refine rowsOf_cons.mpr ⟨?_, rowsOf_nil _⟩
      rintro _ ⟨rfl⟩
      rfl
  | modelError error promptId handle =>
    cases handle with
    | some handle => cases hk
    | none =>
      cases hk
      refine rowsOf_cons.mpr ⟨?_, rowsOf_nil _⟩
      rintro _ ⟨rfl⟩
      exact congrArg ("model-error-" ++ ·) hnow.symm
  | _ => cases hk

theorem rowsOf_mapAmbientEvent (hnow : ctx.now = now.text) {ev : AmbientEvent}
    (hk : ev.rowKey now = some k) : RowsOf k (mapAmbientEvent preview ctx ev).events ∧
      .reseed ∉ (mapAmbientEvent preview ctx ev).effects := by
  cases ev with
  | pendingTurnInputDiscarded refs =>
    rcases refs with _ | _ | ⟨ref, refs⟩
    · cases hk
    · cases hk
    · cases hk
      exact ⟨rowsOf_notice hnow _ _ _ _, by simp [mapAmbientEvent, notice]⟩
  | pendingTurnInputDrained content itemIds refs =>
    cases hk
    have hid : (itemIds.head?.elim (RowKey.stamped "drain" now) .supplied).text =
        itemIds.head?.getD ("drain-" ++ ctx.now) := by
      cases itemIds with
      | nil => exact congrArg ("drain-" ++ ·) hnow.symm
      | cons itemId itemIds => rfl
    have hrow : ∀ id ∈ (SessionDriverEvent.queuedMessageStarted ctx.eventBase
        (drainedQueueMessage content itemIds.head? ctx.now refs)).row,
        (itemIds.head?.elim (RowKey.stamped "drain" now) .supplied).text = id := by
      rintro _ ⟨rfl⟩
      exact hid
    simp only [mapAmbientEvent, mapDrained]
    split
    · refine ⟨rowsOf_cons.mpr ⟨hrow, rowsOf_cons.mpr ⟨?_, rowsOf_nil _⟩⟩, List.not_mem_nil⟩
      rintro _ ⟨⟩
    · exact ⟨rowsOf_cons.mpr ⟨hrow, rowsOf_nil _⟩, by simp⟩
  | retryWait | agentBlockViolation | compactionStarted | compactionComplete
  | compactionCancelled | compactionFailed | subagentCompactionNotice | mcpServerConnected
  | mcpServerDisconnected | mcpServerReconnecting | mcpServerDisabled =>
    cases hk
    exact ⟨rowsOf_notice hnow _ _ _ _, by simp [mapAmbientEvent, notice, fetchSessionUpdated]⟩
  | toolExposureChanged activated =>
    cases activated with
    | false => cases hk
    | true =>
      cases hk
      exact ⟨rowsOf_notice hnow _ _ _ _, by simp [mapAmbientEvent, notice]⟩
  | notificationQueued n =>
    cases hk
    refine ⟨rowsOf_cons.mpr ⟨?_, rowsOf_nil _⟩, List.not_mem_nil⟩
    rintro _ ⟨rfl⟩
    rfl
  | systemReminder reason slug body =>
    cases hk
    refine ⟨rowsOf_cons.mpr ⟨?_, rowsOf_nil _⟩, List.not_mem_nil⟩
    rintro _ ⟨rfl⟩
    rw [RowKey.text, hnow]
  | hookFired eventType outcome =>
    rw [AmbientEvent.rowKey] at hk
    rw [mapAmbientEvent]
    split at hk
    · rename_i hstop
      cases hk
      rw [if_pos hstop]
      refine ⟨rowsOf_cons.mpr ⟨?_, rowsOf_cons.mpr ⟨?_, rowsOf_nil _⟩⟩, List.not_mem_nil⟩
      · rintro _ ⟨⟩
      · rintro _ ⟨rfl⟩
        exact congrArg ("stop-hook-redirect-" ++ ·) hnow.symm
    · cases hk
  | _ => cases hk

/-- The effects add no rows, but for a reseed. -/
theorem rowsOf_runEffects (percent : Nat → Nat → F64) (s : LiveSession) (now : Timestamp)
    (fetched : Fetched) {effects : List LiveEffect} (hreseed : .reseed ∉ effects) (k : RowKey) :
    ∀ out ∈ (LiveSession.runEffects percent s now fetched effects).2, RowsOf k out.2 := by
  refine List.foldlRecOn
    (motive := fun r : LiveSession × List (LiveEffect × List SessionDriverEvent) =>
      ∀ out ∈ r.2, RowsOf k out.2)
    effects _ (by simp) fun r hr effect hmem => ?_
  intro out hout
  rcases List.mem_append.mp hout with hold | hnew
  · exact hr out hold
  · obtain rfl := List.mem_singleton.mp hnew
    cases effect with
    | reseed => exact absurd hmem hreseed
    | daemon effect =>
      cases effect with
      | fetchState emit promptId =>
        refine rowsOf_cons.mpr ⟨?_, rowsOf_nil k⟩
        cases emit <;> rintro _ ⟨⟩
    | refetchQueue =>
      intro e he
      obtain ⟨messages, -, rfl⟩ := Option.map_eq_some_iff.mp (Option.mem_toList.mp he)
      rintro _ ⟨⟩
    | setMonitorMode | setAutodrainEnabled | registerInterrogative => exact rowsOf_nil k

/-- **The row of every event the stream makes the driver emit.** -/
theorem rowKey_deliver (percent : Nat → Nat → F64) (s : LiveSession) (ev : LiveEvent)
    (fetched : Fetched) :
    ∀ e ∈ (s.deliver percent fromStr preview ev now.text fetched).emitted.drop s.emitted.length,
      ∀ id ∈ e.row, ((ev.rowKey s.acc now).getD (.supplied id)).text = id := by
  cases hk : ev.rowKey s.acc now with
  | none => exact fun _ _ _ _ => rfl
  | some k =>
    obtain ⟨mapped, outs, hmapped, houts, hemitted⟩ :=
      deliver_emitted percent fromStr preview s ev now.text fetched
    have hrows : RowsOf k mapped.1.events ∧ .reseed ∉ mapped.1.effects := by
      rw [hmapped]
      cases ev with
      | turn ev => exact ⟨rowsOf_mapDaemonEvent rfl hk, by simp [mapLiveEvent]⟩
      | ambient ev handle =>
        rw [LiveEvent.rowKey] at hk
        split at hk
        · cases hk
        · rename_i hnested
          rw [mapLiveEvent, if_neg hnested]
          exact rowsOf_mapAmbientEvent rfl hk
    intro e he
    rw [hemitted, houts] at he
    rcases List.mem_append.mp he with he | he
    · exact hrows.1 e he
    · obtain ⟨out, hout, he⟩ := List.mem_flatMap.mp he
      exact rowsOf_runEffects percent _ _ fetched hrows.2 k out hout e he

end Stream

/-! ### A session with the keys of its rows -/

/-- What happens to a session and its prompts, at times of the clock. -/
inductive RowAct where
  | deliver (ev : LiveEvent) (now : ClockStamp) (fetched : Fetched)
  | refreshed (state : SessionStateSnapshot)
  | accepted (p : PromptId) (prompt : SentPrompt)
  | answered (p : PromptId) (now : ClockStamp) (millis : Int)
      (references : Option (List ResolvedRef))
  | lost (p : PromptId)
  | queued (prompt : SentPrompt) (now : ClockStamp) (millis : Int)
      (messages : List SessionQueuedMessage)

def RowAct.action : RowAct → PromptedSession.Action
  | deliver ev now fetched => .deliver ev now.text fetched
  | refreshed state => .refreshed state
  | accepted p prompt => .accepted p prompt
  | answered p now millis references => .answered p now.text millis references
  | lost p => .lost p
  | queued prompt now millis messages => .queued prompt now.text millis messages

/-- The row of a prompt. -/
def SentPrompt.rowKey (prompt : SentPrompt) (millis : Int) : RowKey :=
  prompt.promptId.elim (.millis .pt millis) .supplied

/-- The rows that an action adds. -/
def RowAct.rowKey (s : PromptedSession) : RowAct → SessionDriverEvent → Option RowKey
  | deliver ev now _, _ => ev.rowKey s.live.acc now
  | answered p _ millis _, .userMessage .. =>
    (s.outstanding.find? (·.1 = p)).map (·.2.rowKey millis)
  | answered _ _ millis _, _ | queued _ _ millis _, _ => some (.millis .imgUnsupported millis)
  | _, _ => none

structure KeyedSession where
  session : PromptedSession
  keys : List RowKey

namespace KeyedSession

def start (live : LiveSession) : KeyedSession := ⟨{ live }, []⟩

section Step

variable (percent : Nat → Nat → F64) (fromStr : String → Option Json) (preview : Json → String)

/-- What the driver emits. -/
def events (s : PromptedSession) : RowAct → List SessionDriverEvent
  | .deliver ev now fetched =>
    (s.live.deliver percent fromStr preview ev now.text fetched).emitted.drop s.live.emitted.length
  | .answered p now millis references =>
    match s.outstanding.find? (·.1 = p) with
    | some (_, prompt) => (prompt.echo ⟨s.live.ref, now.text, none⟩ millis references p).map (·.2)
    | none => []
  | .queued prompt now millis messages =>
    (prompt.queuedEcho ⟨s.live.ref, now.text, none⟩ millis messages).map (·.2)
  | _ => []

/-- The keys of the rows that are there after an action. -/
def keysAfter (s : KeyedSession) (a : RowAct) : List RowKey :=
  foldKeys (a.rowKey s.session) s.session.transcript s.keys
    (events percent fromStr preview s.session a)

def step (s : KeyedSession) (a : RowAct) : KeyedSession :=
  ⟨s.session.step percent fromStr preview a.action, s.keysAfter percent fromStr preview a⟩

/-- The keys that are there after the action do not clash: it adds no key that clashes with one of
those that it leaves there. -/
def Apart (s : KeyedSession) (a : RowAct) : Prop :=
  (s.keysAfter percent fromStr preview a).Pairwise fun k k' => ¬ k.Clashes k'

instance (s : KeyedSession) (a : RowAct) : Decidable (s.Apart percent fromStr preview a) :=
  inferInstanceAs (Decidable (List.Pairwise _ _))

end Step

/-- The ids of the rows. -/
def rowIds (s : KeyedSession) : List String := s.session.transcript.items.map TranscriptItem.id

variable {percent : Nat → Nat → F64} {fromStr : String → Option Json} {preview : Json → String}
  {s : KeyedSession}

theorem transcript_emit (s : PromptedSession) (evs : List (Mark × SessionDriverEvent)) :
    (s.emit evs).transcript = foldAllFrom s.transcript (evs.map (·.2)) := by
  induction evs generalizing s with
  | nil => rfl
  | cons e evs ih => exact ih (s.emitOne e)

/-- An action folds what it makes the driver emit. -/
theorem transcript_step (s : PromptedSession) (a : RowAct) :
    (s.step percent fromStr preview a.action).transcript =
      foldAllFrom s.transcript (events percent fromStr preview s a) := by
  cases a with
  | deliver ev now fetched =>
    refine (transcript_emit _ _).trans ?_
    rw [List.map_map]
    exact congrArg _ (List.map_id _)
  | answered p now millis references =>
    simp only [RowAct.action, PromptedSession.step, events]
    cases hfind : s.outstanding.find? (·.1 = p) with
    | none => rfl
    | some q => exact transcript_emit _ _
  | queued prompt now millis messages => exact transcript_emit _ _
  | accepted p prompt =>
    simp only [RowAct.action, PromptedSession.step]
    split <;> rfl
  | refreshed | lost => rfl

/-- The warning about images has its key. -/
theorem row_imageWarning (prompt : SentPrompt) (base : SessionEventBase) (m : Int) :
    ∀ e ∈ prompt.imageWarning base m, (∀ id ∈ e.row, (RowKey.millis .imgUnsupported m).text = id) ∧
      ∀ b id text images entryId refs, e ≠ .userMessage b id text images entryId refs := by
  unfold SentPrompt.imageWarning
  split
  · simp
  · intro e he
    obtain rfl := List.mem_singleton.mp he
    refine ⟨?_, fun _ _ _ _ _ _ h => by cases h⟩
    rintro _ ⟨rfl⟩
    rfl

/-- **The rows that an action adds have their keys.** -/
theorem rowKey_events (s : PromptedSession) (a : RowAct) :
    ∀ e ∈ events percent fromStr preview s a, ∀ id ∈ e.row,
      ((a.rowKey s e).getD (.supplied id)).text = id := by
  cases a with
  | deliver ev now fetched => exact rowKey_deliver percent s.live ev fetched
  | answered p now millis references =>
    intro e he id hid
    cases hfind : s.outstanding.find? (·.1 = p) with
    | none => simp [events, hfind] at he
    | some q =>
      simp only [events, hfind, SentPrompt.echo, List.map_cons, List.map_map, List.mem_cons] at he
      rcases he with rfl | he
      · cases hid
        simp only [RowAct.rowKey, hfind, Option.map_some, Option.getD_some, SentPrompt.rowKey]
        cases q.2.promptId <;> rfl
      · obtain ⟨warning, hwarning, rfl⟩ := List.mem_map.mp he
        obtain ⟨hrow, hno⟩ := row_imageWarning q.2 _ millis warning hwarning
        cases warning with
        | userMessage b i text images entryId refs =>
          exact absurd rfl (hno b i text images entryId refs)
        | _ => exact hrow id hid
  | queued prompt now millis messages =>
    intro e he id hid
    simp only [events, SentPrompt.queuedEcho, List.map_cons, List.map_map, List.mem_cons] at he
    rcases he with rfl | he
    · cases hid
    · obtain ⟨warning, hwarning, rfl⟩ := List.mem_map.mp he
      exact (row_imageWarning prompt _ millis warning hwarning).1 id hid
  | refreshed | accepted | lost => exact fun _ h => absurd h List.not_mem_nil

theorem keyed_step (h : Keyed s.session.transcript.items s.keys) (a : RowAct) :
    Keyed (s.step percent fromStr preview a).session.transcript.items
      (s.step percent fromStr preview a).keys := by
  change Keyed (s.session.step percent fromStr preview a.action).transcript.items _
  rw [transcript_step]
  exact h.foldAllFrom (rowKey_events s.session a)

theorem nodup_rowIds_iff (h : Keyed s.session.transcript.items s.keys) :
    s.rowIds.Nodup ↔ s.keys.Pairwise fun k k' => ¬ k.Clashes k' := by
  rw [rowIds, h, List.Nodup, List.pairwise_map]
  simp only [ne_eq, RowKey.text_eq_iff]

/-- The invariant of a run whose steps keep the keys apart. -/
structure Sound (s : KeyedSession) : Prop where
  keyed : Keyed s.session.transcript.items s.keys
  apart : s.keys.Pairwise fun k k' => ¬ k.Clashes k'

theorem sound_start (live : LiveSession) : (start live).Sound := ⟨rfl, List.Pairwise.nil⟩

/-- **The ids of the rows are distinct in every state of a run exactly when no step adds a key that
clashes.** -/
theorem along_apart_iff (live : LiveSession) (acts : List RowAct) :
    Along (step percent fromStr preview) (Apart percent fromStr preview) (start live) acts ↔
      ∀ pre, pre <+: acts →
        (pre.foldl (step percent fromStr preview) (start live)).rowIds.Nodup := by
  have hstep : ∀ (s : KeyedSession) a, s.Sound → s.Apart percent fromStr preview a →
      (s.step percent fromStr preview a).Sound :=
    fun _ a hs hapart => ⟨keyed_step hs.keyed a, hapart⟩
  have hids : ∀ s : KeyedSession, s.Sound → s.rowIds.Nodup :=
    fun _ hs => (nodup_rowIds_iff hs.keyed).mpr hs.apart
  have hback : ∀ (s : KeyedSession) a, s.Sound → (s.step percent fromStr preview a).rowIds.Nodup →
      s.Apart percent fromStr preview a :=
    fun _ a hs hnodup => (nodup_rowIds_iff (keyed_step hs.keyed a)).mp hnodup
  exact along_iff_forall_part_of hstep hids hback (sound_start live) acts

end KeyedSession

end Pantoken
