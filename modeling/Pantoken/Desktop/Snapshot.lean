import Pantoken.Desktop.Preflight
import Pantoken.Lib.Pieces
import Pantoken.Lib.StrSlice

/-!
# Snapshots of a host

The client polls the state of each host.  A host that failed is shown with the detail of the
failure, which may be anything a remote command has printed: the lines that look like an `ssh`
command are taken away, and what is left is cut at a number of bytes.  The cut panics inside a
character; here `none` is a panic.

## Main definitions

* `redactDetail`, `remoteSnapshot` — the detail that is shown, and the snapshot.
* `Redacts` — what is shown of a detail: no `ssh` command, whole or cut, and fit to be shown.
* `Presentable` — the details that are shown so.

## Main results

* `invokesSsh_iff`, `invokesSsh_of_mem_lines` — what is shown has no `ssh` command.
* `redactDetail_eq_self_iff` — the texts that are left as they are.
* `presents_iff` — **a host is shown exactly when the detail of its failure is presentable.**
* `not_presents` — a detail with a character on the cut.
-/

namespace Pantoken.Desktop

/-! ### The snapshot -/

/-- A line that looks like an `ssh` command with options. -/
def invokesSsh (line : List Char) : Bool :=
  let trimmed := Cut.trim Cut.isWhitespace line
  decide ("ssh ".toList <+: trimmed) &&
    (decide ("-o".toList <:+: trimmed) || decide ("BatchMode".toList <:+: trimmed))

/-- The lines of a detail that are left, joined again. -/
def remaining (raw : List Char) : List Char :=
  ['\n'].intercalate ((lines raw).filter fun line => !invokesSsh line)

/-- `MAX_LEN` -/
def maxDetail : ℕ := 500

/-- `redact_detail` -/
def redactDetail (raw : List Char) : Option (List Char) :=
  let cleaned := remaining raw
  if maxDetail < byteLength cleaned then
    (sliceTo cleaned maxDetail).map fun front => front ++ ['…']
  else some cleaned

/-- `connection_state_to_host_string` -/
def connectionStateToHostString : ConnectionState → String
  | .disconnected => "disconnected"
  | .testingSsh => "testingSsh"
  | .preflight _ => "preflight"
  | .awaitingAcknowledgement _ _ => "awaitingAcknowledgement"
  | .connecting => "connecting"
  | .provisioning => "provisioning"
  | .starting => "starting"
  | .ready => "ready"
  | .reconnecting => "reconnecting"
  | .failed _ _ => "failed"

/-- `state_preflight_metadata` -/
def statePreflightMetadata :
    ConnectionState → Option PreflightPhase × Option (List PendingRisk)
  | .preflight phase => (some phase, none)
  | .awaitingAcknowledgement phase pendingRisks => (some phase, some pendingRisks)
  | _ => (none, none)

/-- `profile_target_context`: the host behind the last `@` of the destination. -/
def profileTargetContext (profile : RemoteProfile) : Option (List Char) × Option (List Char) :=
  match profile.executionTarget with
  | .host => (none, none)
  | .dockerContainer containerName _ _ _ =>
    (some (profile.sshDestination.rtakeWhile (· ≠ '@')), some containerName)

structure HostStateSnapshot where
  id : List Char
  kind : String
  label : List Char
  subtitle : List Char
  state : String
  wsUrl : Option String
  failureLabel : Option String
  failureAction : Option String
  failureDetail : Option (List Char)
  preflightPhase : Option PreflightPhase
  pendingRisks : Option (List PendingRisk)
  redactedSshHost : Option (List Char)
  containerName : Option (List Char)

/-- The states in which the bridge runs. -/
def ConnectionState.hasBridge : ConnectionState → Bool
  | .testingSsh | .connecting | .provisioning | .starting | .ready | .reconnecting => true
  | _ => false

/-- What is shown of a failure: its label, the suggested action and the detail. -/
def failureOf (state : ConnectionState) :
    Option (Option String × Option String × Option (List Char)) :=
  match state with
  | .failed kind detail =>
    (redactDetail detail.toList).map fun shown =>
      (some kind.label, some kind.suggestedAction, some shown)
  | _ => some (none, none, none)

namespace HostStateSnapshot

/-- `remote_snapshot` -/
def remote (id : List Char) (profile : RemoteProfile) (state : ConnectionState)
    (bridgePort : Option UInt16) : Option HostStateSnapshot :=
  (failureOf state).map fun failure =>
    { id
      kind := "remote"
      label := profile.label
      subtitle := profile.sshDestination
      state := connectionStateToHostString state
      wsUrl :=
        if state.hasBridge then bridgePort.map fun p => "ws://127.0.0.1:" ++ toString p else none
      failureLabel := failure.1
      failureAction := failure.2.1
      failureDetail := failure.2.2
      preflightPhase := (statePreflightMetadata state).1
      pendingRisks := (statePreflightMetadata state).2
      redactedSshHost := (profileTargetContext profile).1
      containerName := (profileTargetContext profile).2 }

end HostStateSnapshot

/-! ### What is asked -/

/-- What is shown of a detail. -/
structure Redacts (raw shown : List Char) : Prop where
  /-- No line that is shown is an `ssh` command of the detail. -/
  redacted : ∀ line ∈ lines raw, invokesSsh line = true → line ∉ lines shown
  /-- What remains is shown whole, or a front of it and an ellipsis. -/
  cut : ∃ front, front <+: remaining raw ∧ byteLength front ≤ maxDetail ∧
    shown = if front = remaining raw then front else front ++ ['…']
  /-- It can be shown again. -/
  again : redactDetail shown = some shown

/-- A host in the state is shown. -/
def Presents (id : List Char) (profile : RemoteProfile) (state : ConnectionState)
    (bridgePort : Option UInt16) : Prop :=
  ∃ snapshot, HostStateSnapshot.remote id profile state bridgePort = some snapshot ∧
    ∀ kind detail, state = .failed kind detail →
      ∃ shown, snapshot.failureDetail = some shown ∧ Redacts detail.toList shown

/-- What remains of the detail is short enough or has a character boundary at the cut, no return
ends a line of the part that is shown, and what is shown whole ends with no empty line. -/
def Presentable (raw : List Char) : Prop :=
  if maxDetail < byteLength (remaining raw) then
    IsCharBoundary (remaining raw) maxDetail ∧
      ¬ ['\r', '\n'] <:+: takeBytes maxDetail (remaining raw)
  else ¬ ['\r', '\n'] <:+: remaining raw ∧ (remaining raw).getLast? ≠ some '\n'

/-! ### Lines -/

/-- A line without the return at its end. -/
def stripReturn (line : List Char) : List Char :=
  if line.getLast? = some '\r' then line.dropLast else line

section Lines

variable {raw text line last : List Char} {init : List (List Char)}

theorem prefix_stripReturn (line : List Char) : stripReturn line <+: line := by
  unfold stripReturn
  split
  · exact List.dropLast_prefix line
  · exact List.prefix_refl line

theorem stripReturn_eq_self_iff : stripReturn line = line ↔ line.getLast? ≠ some '\r' := by
  unfold stripReturn
  split
  · next h =>
    refine iff_of_false (fun heq => ?_) (not_not.mpr h)
    have hne : line ≠ [] := by
      rintro rfl
      cases h
    have hlen := congrArg List.length heq
    have hpos := List.length_pos_of_ne_nil hne
    rw [List.length_dropLast] at hlen
    omega
  · next h => exact iff_of_true rfl h

theorem lines_of_splitOn (h : text.splitOn '\n' = init ++ [last]) :
    lines text = init.map stripReturn ++ if last = [] then [] else [last] := by
  have hlast : (init ++ [last]).getLast? = some last := by simp
  unfold lines
  dsimp only
  rw [h, List.dropLast_concat, hlast]
  rfl

/-- A line begins a piece between line feeds. -/
theorem exists_prefix_of_mem_lines (h : line ∈ lines text) :
    ∃ piece ∈ text.splitOn '\n', line <+: piece := by
  obtain ⟨init, last, hsplit, -⟩ := Pieces.exists_splitOn '\n' text
  rw [lines_of_splitOn hsplit] at h
  rw [hsplit]
  rcases List.mem_append.mp h with h | h
  · obtain ⟨piece, hpiece, rfl⟩ := List.mem_map.mp h
    exact ⟨piece, List.mem_append_left _ hpiece, prefix_stripReturn piece⟩
  · split_ifs at h
    · cases h
    · rw [List.mem_singleton.mp h]
      exact ⟨last, List.mem_append_right _ List.mem_cons_self, List.prefix_refl _⟩

/-- No line has a line feed in it. -/
theorem notMem_of_mem_lines (h : line ∈ lines text) : '\n' ∉ line := by
  obtain ⟨piece, hpiece, hpre⟩ := exists_prefix_of_mem_lines h
  exact fun hmem => Pieces.not_mem_of_mem_splitOn hpiece (hpre.subset hmem)

end Lines

/-! ### Commands -/

section Commands

variable {raw text line whole opt xs ys : List Char} {c : Char}

/-- A pattern whose first character is not in front begins behind it. -/
theorem infix_of_infix_append (hc : c ∉ xs) (h : c :: opt <:+: xs ++ ys) : c :: opt <:+: ys := by
  induction xs with
  | nil => exact h
  | cons x xs ih =>
    rw [List.mem_cons, not_or] at hc
    rcases List.infix_cons_iff.mp h with hpre | hinfix
    · exact absurd (List.cons_prefix_cons.mp hpre).1 hc.1
    · exact ih hc.2 hinfix

/-- A pattern without the last character of a text lies in front of it. -/
theorem infix_of_infix_concat (hc : c ∉ opt) (hopt : opt ≠ []) (h : opt <:+: xs ++ [c]) :
    opt <:+: xs := by
  obtain ⟨front, back, heq⟩ := h
  rcases List.eq_nil_or_concat' back with rfl | ⟨back, d, rfl⟩
  · obtain ⟨opt, d, rfl⟩ := (List.eq_nil_or_concat' opt).resolve_left hopt
    rw [List.append_nil, ← List.append_assoc] at heq
    obtain rfl : d = c := by simpa using (List.append_inj' heq rfl).2
    exact absurd (List.mem_append_right opt List.mem_cons_self) hc
  · rw [← List.append_assoc] at heq
    exact ⟨front, back, (List.append_inj' heq rfl).1⟩

/-- **What looks like an `ssh` command**: the word behind blanks, and an option behind it. -/
theorem invokesSsh_iff : invokesSsh line = true ↔ ∃ blanks rest,
    line = blanks ++ ("ssh ".toList ++ rest) ∧ (∀ c ∈ blanks, Cut.isWhitespace c = true) ∧
      ("-o".toList <:+: rest ∨ "BatchMode".toList <:+: rest) := by
  unfold invokesSsh
  dsimp only
  rw [Bool.and_eq_true, Bool.or_eq_true, decide_eq_true_iff, decide_eq_true_iff,
    decide_eq_true_iff]
  constructor
  · rintro ⟨hword, hopt⟩
    have hpre := Cut.trim_prefix_dropWhile Cut.isWhitespace line
    obtain ⟨rest, hrest⟩ := hword.trans hpre
    refine ⟨line.takeWhile Cut.isWhitespace, rest, ?_, ?_, ?_⟩
    · rw [hrest, List.takeWhile_append_dropWhile]
    · exact fun c hc => List.mem_takeWhile_imp hc
    · have hsub : ∀ opt : List Char, opt <:+: Cut.trim Cut.isWhitespace line →
          opt <:+: "ssh ".toList ++ rest := fun opt h => hrest ▸ h.trans hpre.isInfix
      exact hopt.imp (fun h => infix_of_infix_append (by decide) (hsub _ h))
        (fun h => infix_of_infix_append (by decide) (hsub _ h))
  · rintro ⟨blanks, rest, rfl, hblanks, hopt⟩
    have hkept : ∀ opt : List Char, opt ≠ [] →
        (∀ c ∈ opt.getLast?, Cut.isWhitespace c = false) → opt <:+: rest →
        "ssh ".toList <+: Cut.trim Cut.isWhitespace (blanks ++ ("ssh ".toList ++ rest)) ∧
          opt <:+: Cut.trim Cut.isWhitespace (blanks ++ ("ssh ".toList ++ rest)) := by
      rintro opt hne hlast ⟨front, back, rfl⟩
      have hsolid : Cut.Solid Cut.isWhitespace ("ssh ".toList ++ front ++ opt) := by
        refine ⟨by simp, ?_, ?_⟩
        · intro c hc
          obtain rfl : 's' = c := by simpa using hc
          decide
        · rw [List.getLast?_append_of_ne_nil _ hne]
          exact hlast
      have hpre := Cut.prefix_trim hsolid hblanks back
      simp only [List.append_assoc] at hpre ⊢
      refine ⟨(List.prefix_append _ _).trans hpre, ?_⟩
      exact List.IsInfix.trans ⟨"ssh ".toList ++ front, [], by simp⟩ hpre.isInfix
    rcases hopt with h | h
    · obtain ⟨hword, hinfix⟩ := hkept "-o".toList (by decide) (by rintro c ⟨⟩; decide) h
      exact ⟨hword, .inl hinfix⟩
    · obtain ⟨hword, hinfix⟩ := hkept "BatchMode".toList (by decide) (by rintro c ⟨⟩; decide) h
      exact ⟨hword, .inr hinfix⟩

/-- A line that begins with an `ssh` command is one. -/
theorem invokesSsh_of_prefix (h : line <+: whole) (hssh : invokesSsh line = true) :
    invokesSsh whole = true := by
  obtain ⟨blanks, rest, rfl, hblanks, hopt⟩ := invokesSsh_iff.mp hssh
  obtain ⟨ys, rfl⟩ := h
  refine invokesSsh_iff.mpr ⟨blanks, rest ++ ys, by simp, hblanks, ?_⟩
  exact hopt.imp (·.trans (List.prefix_append rest ys).isInfix)
    (·.trans (List.prefix_append rest ys).isInfix)

/-- An ellipsis makes no `ssh` command. -/
theorem invokesSsh_of_ellipsis (hssh : invokesSsh (line ++ ['…']) = true) :
    invokesSsh line = true := by
  obtain ⟨blanks, rest, heq, hblanks, hopt⟩ := invokesSsh_iff.mp hssh
  have hrest : rest ≠ [] := by
    rintro rfl
    rcases hopt with h | h <;> simp at h
  obtain ⟨rest, d, rfl⟩ := (List.eq_nil_or_concat' rest).resolve_left hrest
  rw [← List.append_assoc, ← List.append_assoc] at heq
  obtain ⟨hline, hd⟩ := List.append_inj' heq rfl
  obtain rfl : '…' = d := by simpa using hd
  rw [List.append_assoc] at hline
  refine invokesSsh_iff.mpr ⟨blanks, rest, hline, hblanks, ?_⟩
  exact hopt.imp (infix_of_infix_concat (by decide) (by decide))
    (infix_of_infix_concat (by decide) (by decide))

/-- **No line of what is shown is an `ssh` command**: each begins a line that remains, but for an
ellipsis. -/
theorem invokesSsh_of_mem_lines {front shown : List Char} (hfront : front <+: remaining raw)
    (hshown : shown = front ∨ shown = front ++ ['…']) (hline : line ∈ lines shown) :
    invokesSsh line = false := by
  obtain ⟨piece, hpiece, hpre⟩ := exists_prefix_of_mem_lines hline
  rw [Bool.eq_false_iff]
  intro hssh
  have hpieces : ∀ piece ∈ front.splitOn '\n', invokesSsh piece = false := by
    intro piece hpiece
    obtain ⟨whole, hwhole, hpre⟩ := Pieces.exists_prefix_of_mem_splitOn hfront hpiece
    rw [Bool.eq_false_iff]
    intro hssh
    have hwhole' := invokesSsh_of_prefix hpre hssh
    by_cases hnil : (lines raw).filter (fun line => !invokesSsh line) = []
    · rw [remaining, hnil] at hwhole
      rw [List.mem_singleton.mp hwhole] at hwhole'
      exact absurd hwhole' (by decide)
    · rw [remaining, List.splitOn_intercalate '\n'
        (fun l hl => notMem_of_mem_lines (List.mem_filter.mp hl).1) hnil] at hwhole
      have hkept := (List.mem_filter.mp hwhole).2
      rw [hwhole'] at hkept
      cases hkept
  have hpiece' := invokesSsh_of_prefix hpre hssh
  rcases hshown with rfl | rfl
  · rw [hpieces piece hpiece] at hpiece'
    cases hpiece'
  · obtain ⟨init, last, hsplit, -⟩ := Pieces.exists_splitOn '\n' front
    rw [Pieces.splitOn_concat (by decide) hsplit] at hpiece
    rw [hsplit] at hpieces
    rcases List.mem_append.mp hpiece with hinit | hlast
    · rw [hpieces piece (List.mem_append_left _ hinit)] at hpiece'
      cases hpiece'
    · rw [List.mem_singleton.mp hlast] at hpiece'
      have hfalse := hpieces last (List.mem_append_right _ List.mem_cons_self)
      rw [invokesSsh_of_ellipsis hpiece'] at hfalse
      cases hfalse

end Commands

/-! ### Texts that are left as they are -/

/-- The lines of a text, joined again. -/
def joined (text : List Char) : List Char := ['\n'].intercalate (lines text)

section Joined

variable {raw text front shown : List Char} {c : Char}

theorem stripReturn_sublist (line : List Char) : (stripReturn line).Sublist line :=
  (prefix_stripReturn line).sublist

/-- One more character that ends no line. -/
theorem exists_joined_concat (hc : c ≠ '\n') (text : List Char) :
    ∃ kept, kept.Sublist text ∧ joined (text ++ [c]) = kept ++ [c] := by
  obtain ⟨init, last, hsplit, htext⟩ := Pieces.exists_splitOn '\n' text
  refine ⟨['\n'].intercalate (init.map stripReturn ++ [last]), ?_, ?_⟩
  · rw [htext]
    rcases eq_or_ne init [] with rfl | hinit
    · exact List.Sublist.refl _
    · rw [Pieces.intercalate_append_singleton '\n' hinit,
        Pieces.intercalate_append_singleton '\n' (by simpa using hinit)]
      exact (Pieces.intercalate_map_sublist stripReturn_sublist '\n' init).append
        (List.Sublist.refl _)
  · rw [joined, lines_of_splitOn (Pieces.splitOn_concat hc hsplit), if_neg (by simp),
      Pieces.intercalate_last_append]

theorem joined_sublist (text : List Char) : (joined text).Sublist text := by
  rcases List.eq_nil_or_concat' text with rfl | ⟨text, c, rfl⟩
  · exact List.Sublist.refl _
  · by_cases hc : c = '\n'
    · -- the empty line at the end is no line
      subst hc
      obtain ⟨init, last, hsplit, htext⟩ := Pieces.exists_splitOn '\n' text
      have hend : (text ++ ['\n']).splitOn '\n' = (init ++ [last]) ++ [[]] := by
        rw [List.splitOn_append_cons_self, hsplit, List.splitOn_nil]
      rw [joined, lines_of_splitOn hend, if_pos rfl, List.append_nil]
      have hpieces := Pieces.intercalate_map_sublist stripReturn_sublist '\n' (init ++ [last])
      rw [← htext] at hpieces
      exact hpieces.trans (List.sublist_append_left text ['\n'])
    · obtain ⟨kept, hkept, heq⟩ := exists_joined_concat hc text
      rw [heq]
      exact hkept.append (List.Sublist.refl _)

/-- **What is left by the lines of a text**: it has no return before a line feed, and does not
end with a line feed. -/
theorem joined_eq_self_iff :
    joined text = text ↔ ¬ ['\r', '\n'] <:+: text ∧ text.getLast? ≠ some '\n' := by
  obtain ⟨init, last, hsplit, htext⟩ := Pieces.exists_splitOn '\n' text
  have hlines := lines_of_splitOn hsplit
  constructor
  · intro h
    by_cases hnil : text = []
    · subst hnil
      exact ⟨by decide, by decide⟩
    · have hne : lines text ≠ [] := by
        intro hne
        rw [joined, hne] at h
        exact hnil h.symm
      -- the lines are the pieces
      have hpieces : lines text = init ++ [last] := by
        rw [← hsplit, ← List.splitOn_intercalate '\n' (fun l hl => notMem_of_mem_lines hl) hne]
        exact congrArg _ h
      rw [hlines] at hpieces
      have hlast : last ≠ [] := by
        rintro rfl
        have hlen := congrArg List.length hpieces
        simp at hlen
      rw [if_neg hlast] at hpieces
      have hinit : init.map stripReturn = init := (List.append_inj' hpieces rfl).1
      refine ⟨?_, ?_⟩
      · rintro ⟨a, b, heq⟩
        have hsplit' : text.splitOn '\n' = (a ++ ['\r']).splitOn '\n' ++ b.splitOn '\n' := by
          rw [← heq, show a ++ ['\r', '\n'] ++ b = (a ++ ['\r']) ++ '\n' :: b by simp,
            List.splitOn_append_cons_self]
        obtain ⟨init', last', ha, -⟩ := Pieces.exists_splitOn '\n' a
        obtain ⟨binit, blast, hb, -⟩ := Pieces.exists_splitOn '\n' b
        rw [Pieces.splitOn_concat (by decide) ha, hb, hsplit, ← List.append_assoc] at hsplit'
        obtain ⟨rfl, -⟩ := List.append_inj' hsplit' rfl
        rw [List.map_append, List.map_append] at hinit
        have hend : stripReturn (last' ++ ['\r']) = last' ++ ['\r'] := by
          have hmid := (List.append_inj' hinit (by simp)).1
          simpa using (List.append_inj' hmid rfl).2
        exact stripReturn_eq_self_iff.mp hend List.getLast?_concat
      · rw [htext]
        have hmem : last ∈ text.splitOn '\n' := by
          rw [hsplit]
          exact List.mem_append_right _ List.mem_cons_self
        have hnot : '\n' ∉ last := Pieces.not_mem_of_mem_splitOn hmem
        intro hend
        rcases eq_or_ne init [] with rfl | hne'
        · simp only [List.nil_append, List.intercalate_singleton] at hend
          exact hnot (List.mem_of_getLast? hend)
        · rw [Pieces.intercalate_append_singleton '\n' hne', List.getLast?_append_of_ne_nil _
            (by simp), List.getLast?_cons_of_ne_nil hlast] at hend
          exact hnot (List.mem_of_getLast? hend)
  · rintro ⟨hreturn, hend⟩
    by_cases hnil : text = []
    · rw [hnil]
      rfl
    · have hlast : last ≠ [] := by
        rintro rfl
        rcases eq_or_ne init [] with rfl | hinit
        · exact hnil htext
        · rw [htext, Pieces.intercalate_append_singleton '\n' hinit] at hend
          exact hend List.getLast?_concat
      have hinit : init.map stripReturn = init := by
        refine (List.map_congr_left fun piece hpiece => ?_).trans (List.map_id init)
        refine stripReturn_eq_self_iff.mpr fun hend => ?_
        obtain ⟨front, back, rfl⟩ := List.append_of_mem hpiece
        obtain ⟨piece, rfl⟩ := List.getLast?_eq_some_iff.mp hend
        apply hreturn
        rw [htext, show front ++ (piece ++ ['\r']) :: back ++ [last] =
          (front ++ [piece ++ ['\r']]) ++ (back ++ [last]) by simp,
          Pieces.intercalate_append (by simp) (by simp), Pieces.intercalate_last_append]
        exact ⟨['\n'].intercalate (front ++ [piece]), ['\n'].intercalate (back ++ [last]), by simp⟩
      rw [joined, hlines, if_neg hlast, hinit, ← htext]

/-- Where no line is an `ssh` command, all lines remain. -/
theorem remaining_eq_joined (h : ∀ line ∈ lines text, invokesSsh line = false) :
    remaining text = joined text := by
  rw [remaining, List.filter_eq_self.mpr fun line hline => by rw [h line hline]; rfl, joined]

/-- A text that is shown whole is shown again exactly when its lines leave it as it is. -/
theorem redactDetail_whole_iff (h : ∀ line ∈ lines text, invokesSsh line = false)
    (hle : byteLength text ≤ maxDetail) :
    redactDetail text = some text ↔
      ¬ ['\r', '\n'] <:+: text ∧ text.getLast? ≠ some '\n' := by
  have hshort : byteLength (joined text) ≤ maxDetail :=
    (byteLength_le_of_sublist (joined_sublist text)).trans hle
  unfold redactDetail
  dsimp only
  rw [remaining_eq_joined h, if_neg (by omega), Option.some.injEq]
  exact joined_eq_self_iff

/-- So is one that is cut: a return that goes leaves too little for the ellipsis. -/
theorem redactDetail_cut_iff
    (h : ∀ line ∈ lines (front ++ ['…']), invokesSsh line = false)
    (hlen : byteLength front = maxDetail) :
    redactDetail (front ++ ['…']) = some (front ++ ['…']) ↔ ¬ ['\r', '\n'] <:+: front := by
  have hreturn : ['\r', '\n'] <:+: front ++ ['…'] ↔ ['\r', '\n'] <:+: front :=
    ⟨infix_of_infix_concat (by decide) (by decide), (·.trans (List.prefix_append _ _).isInfix)⟩
  have hfixed : joined (front ++ ['…']) = front ++ ['…'] ↔ ¬ ['\r', '\n'] <:+: front := by
    rw [joined_eq_self_iff, hreturn, List.getLast?_concat]
    exact and_iff_left (by decide)
  obtain ⟨kept, hkept, heq⟩ := exists_joined_concat (c := '…') (by decide) front
  have hle := byteLength_le_of_sublist hkept
  have hellipsis : byteLength ['…'] = 3 := rfl
  unfold redactDetail
  dsimp only
  rw [remaining_eq_joined h, ← hfixed]
  constructor
  · intro hredact
    split_ifs at hredact with hlong
    · obtain ⟨front', hfront', hshown⟩ := Option.map_eq_some_iff.mp hredact
      obtain ⟨hpre, hlen', -⟩ := sliceTo_eq_some hfront'
      obtain rfl : front' = front := List.append_cancel_right hshown
      rw [heq] at hpre hlong ⊢
      rw [byteLength_append, hellipsis] at hlong
      -- the front is cut off in front of the ellipsis
      rcases List.prefix_concat_iff.mp hpre with hwhole | hfront
      · have hbytes := congrArg byteLength hwhole
        rw [byteLength_append, hellipsis] at hbytes
        omega
      · rw [eq_of_prefix_of_byteLength_le hfront (by omega)]
    · exact Option.some.inj hredact
  · intro hself
    rw [hself, if_pos (by rw [byteLength_append, hellipsis]; omega), ← hlen, sliceTo_append]
    rfl

end Joined

/-! ### What is shown -/

section Shown

variable {raw : List Char}

/-- **A detail is shown exactly when it is presentable.** -/
theorem redacts_iff (raw : List Char) :
    (∃ shown, redactDetail raw = some shown ∧ Redacts raw shown) ↔ Presentable raw := by
  unfold Presentable
  split_ifs with hlong
  · have hredact : redactDetail raw =
        (sliceTo (remaining raw) maxDetail).map fun front => front ++ ['…'] := if_pos hlong
    constructor
    · rintro ⟨shown, hshown, hredacts⟩
      rw [hredact] at hshown
      obtain ⟨front, hfront, rfl⟩ := Option.map_eq_some_iff.mp hshown
      obtain ⟨hpre, hlen, htake⟩ := sliceTo_eq_some hfront
      refine ⟨⟨front, hpre, hlen⟩, ?_⟩
      rw [htake]
      refine (redactDetail_cut_iff (fun line hline => ?_) hlen).mp hredacts.again
      exact invokesSsh_of_mem_lines hpre (.inr rfl) hline
    · rintro ⟨hboundary, hreturn⟩
      obtain ⟨front, hfront⟩ := Option.isSome_iff_exists.mp (isSome_sliceTo_iff.mpr hboundary)
      obtain ⟨hpre, hlen, htake⟩ := sliceTo_eq_some hfront
      rw [htake] at hreturn
      have hssh : ∀ line ∈ lines (front ++ ['…']), invokesSsh line = false :=
        fun line hline => invokesSsh_of_mem_lines hpre (.inr rfl) hline
      refine ⟨front ++ ['…'], by rw [hredact, hfront]; rfl, ?_, ?_, ?_⟩
      · intro line _ hinvokes hmem
        rw [hssh line hmem] at hinvokes
        cases hinvokes
      · refine ⟨front, hpre, hlen.le, (if_neg ?_).symm⟩
        rintro rfl
        omega
      · exact (redactDetail_cut_iff hssh hlen).mpr hreturn
  · have hredact : redactDetail raw = some (remaining raw) := if_neg hlong
    have hssh : ∀ line ∈ lines (remaining raw), invokesSsh line = false :=
      fun line hline => invokesSsh_of_mem_lines (List.prefix_refl _) (.inl rfl) hline
    have hagain := redactDetail_whole_iff hssh (by omega)
    constructor
    · rintro ⟨shown, hshown, hredacts⟩
      rw [hredact] at hshown
      cases hshown
      exact hagain.mp hredacts.again
    · intro h
      refine ⟨remaining raw, hredact, ?_, ?_, hagain.mpr h⟩
      · intro line _ hinvokes hmem
        rw [hssh line hmem] at hinvokes
        cases hinvokes
      · exact ⟨remaining raw, List.prefix_refl _, by omega, (if_pos rfl).symm⟩

/-- **A host is shown exactly when the detail of its failure is presentable.**  Every other state
is shown, whatever the profile. -/
theorem presents_iff (id : List Char) (profile : RemoteProfile) (state : ConnectionState)
    (bridgePort : Option UInt16) :
    Presents id profile state bridgePort ↔
      ∀ kind detail, state = .failed kind detail → Presentable detail.toList := by
  unfold Presents HostStateSnapshot.remote
  constructor
  · rintro ⟨snapshot, hsnapshot, hshown⟩ kind detail rfl
    obtain ⟨failure, hfailure, rfl⟩ := Option.map_eq_some_iff.mp hsnapshot
    obtain ⟨shown, hredact, rfl⟩ := Option.map_eq_some_iff.mp hfailure
    obtain ⟨shown', heq, hredacts⟩ := hshown kind detail rfl
    cases heq
    exact (redacts_iff detail.toList).mp ⟨shown, hredact, hredacts⟩
  · intro h
    cases state with
    | failed kind detail =>
      obtain ⟨shown, hredact, hredacts⟩ := (redacts_iff detail.toList).mpr (h kind detail rfl)
      refine ⟨_, by rw [failureOf, hredact]; rfl, ?_⟩
      rintro kind' detail' ⟨rfl, rfl⟩
      exact ⟨shown, rfl, hredacts⟩
    | _ =>
      refine ⟨_, rfl, ?_⟩
      rintro kind detail ⟨⟩

end Shown

/-! ### Two details -/

/-- A profile of a host. -/
def boxProfile : RemoteProfile where
  id := "box".toList
  label := "Box".toList
  sshDestination := "me@box".toList
  port := none
  polytokenPolicy := .requireExisting
  remoteRootOverride := none
  serverPath := none
  xdgMode := .isolated
  executionTarget := .host
  riskAcknowledgements := ⟨none, none⟩

/-- 167 characters of three bytes. -/
def wideDetail : String := String.ofList (List.replicate 167 '日')

theorem redactDetail_wideDetail : redactDetail wideDetail.toList = none := by
  have htext : wideDetail.toList = List.replicate 167 '日' := String.toList_ofList
  rw [htext]
  decide +kernel

/-- **A detail with a character on the cut takes the snapshot down**, and one that ends with an
empty line is not shown again as it is. -/
theorem not_presents :
    HostStateSnapshot.remote "box".toList boxProfile (.failed .startupFailed wideDetail) none =
        none ∧
      redactDetail "exit status 1\n\n".toList = some "exit status 1\n".toList ∧
      redactDetail "exit status 1\n".toList = some "exit status 1".toList ∧
      ¬ ∀ id profile state bridgePort, Presents id profile state bridgePort := by
  have hnone : HostStateSnapshot.remote "box".toList boxProfile (.failed .startupFailed wideDetail)
      none = none := by
    rw [HostStateSnapshot.remote, Option.map_eq_none_iff, failureOf, Option.map_eq_none_iff]
    exact redactDetail_wideDetail
  refine ⟨hnone, by decide +kernel, by decide +kernel, fun h => ?_⟩
  obtain ⟨snapshot, hsnapshot, -⟩ := h _ _ _ _
  rw [hnone] at hsnapshot
  cases hsnapshot

end Pantoken.Desktop
