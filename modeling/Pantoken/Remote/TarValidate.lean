import Mathlib.Data.List.Infix
import Mathlib.Data.List.Nodup
import Mathlib.Data.Nat.Bitwise
import Pantoken.Desktop.DockerTarget

/-!
# Validating a release archive

A release is one `tar` archive, which is validated before it is unpacked: the paths of its
members are normalised, some kinds of member and some mode bits are rejected, a path must be
one of the release and may occur once, and some paths must be there.  The root of the archive
is passed over, and nothing is asked of a member that depends on the kind of another.

## Main definitions

* `EntryType`, `Entry` — what the `tar` crate reports of a member.
* `normalisePath`, `checkMember`, `validateTar` — the validation.
* `Sound` — an archive that may be unpacked.
* `Harmless` — the archive has no member of the kinds that are not looked for.

## Main results

* `normalisePath_eq_some_iff` — the paths that are not rejected, and what they become.
* `validateEntries_ok` — what the loop asks of the members.
* `sound_iff_harmless` — **an archive that is accepted may be unpacked exactly when it has
  none of these members.**
* `not_sound` — an archive that is accepted with a set-uid server.
-/

namespace Pantoken.TarValidate


/-! ### The archive -/

/-- `tar::EntryType` -/
inductive EntryType where
  | regular | link | symlink | char | block | directory | fifo | continuous
  | gnuLongName | gnuLongLink | gnuSparse | xGlobalHeader | xHeader
  | other (byte : UInt8)
  deriving DecidableEq

/-- A member as `tar` reports it: its path as `to_string_lossy` gives it, and its mode, where
they can be read. -/
structure Entry where
  path : Option (List Char)
  entryType : EntryType
  mode : Option ℕ
  deriving DecidableEq

inductive TarValidateError
  | malformed
  | unsafeMember (member : List Char)
  deriving DecidableEq

/-- `REQUIRED` -/
def required : List (List Char) :=
  ["VERSION".toList, "BUILD_SHA".toList, "bin/pantoken-server".toList,
    "bin/pantoken-tar-validate".toList, "run.sh".toList, "update.sh".toList,
    "client-dist/index.html".toList]

/-- `CANONICAL_PREFIXES` -/
def canonicalPrefixes : List (List Char) :=
  ["VERSION".toList, "BUILD_SHA".toList, "run.sh".toList, "update.sh".toList,
    "bin/pantoken-server".toList, "bin/pantoken-tar-validate".toList,
    "client-dist/index.html".toList]

/-- `ASSET_PREFIX` -/
def assetPrefix : List Char := "client-dist/assets/".toList

/-! ### The checks -/

/-- The loop of `normalise_path`, with the parts it has. -/
def normaliseParts (parts : List (List Char)) : List (List Char) → Option (List (List Char))
  | [] => some parts
  | component :: rest =>
    if component = [] ∨ component = ['.'] then normaliseParts parts rest
    else if component = "..".toList then none
    else normaliseParts (parts ++ [component]) rest

/-- `normalise_path` -/
def normalisePath (name : List Char) : Option (List Char) :=
  if name = [] then some []
  else if ['/'] <+: name then none
  else (normaliseParts [] (name.splitOn '/')).map ['/'].intercalate

/-- `is_member_safe` -/
def isMemberSafe : EntryType → Except (List Char) Unit
  | .symlink | .link => .error "symlink or hardlink".toList
  | .block | .char | .xGlobalHeader | .xHeader => .error "device file".toList
  | _ => .ok ()

/-- `check_owner_mode` -/
def checkOwnerMode (mode : Option ℕ) : Except (List Char) Unit :=
  let mode := mode.getD 0
  if mode &&& 0o022 ≠ 0 then
    .error ("unsafe mode ".toList ++ Nat.toDigits 8 mode ++
      ": group-write or other-write bits set".toList)
  else .ok ()

/-- The names at the root of `client-dist`, by what they start with. -/
def staticPrefixes : List (List Char) :=
  ["apple-touch-icon".toList, "icon".toList, "favicon".toList, "manifest".toList, "sw".toList,
    "registerSW".toList]

/-- `prefix_allowed` -/
def prefixAllowed (path : List Char) : Bool :=
  if path ∈ canonicalPrefixes then true
  else if path ∈ ["bin".toList, "client-dist".toList, "client-dist/assets".toList] then true
  else if assetPrefix <+: path then true
  else if "client-dist/".toList <+: path then
    let name := path.drop "client-dist/".length
    '/' ∉ name && (name = "index.html".toList || staticPrefixes.any (· <+: name))
  else false

/-- `check_no_forbidden` -/
def checkNoForbidden (path : List Char) : Except (List Char) Unit :=
  if "node_modules".toList <:+: path then .error "node_modules".toList
  else if "/.git/".toList <:+: path ∨ ".git/".toList <+: path ∨ path = ".git".toList then
    .error ".git".toList
  else if path = "Cargo.toml".toList ∨ path = "Cargo.lock".toList then
    .error "Cargo.toml/Cargo.lock".toList
  else .ok ()

/-- The checks that `validate_tar` makes on one member. -/
def checkMember (e : Entry) (norm : List Char) : Except (List Char) Unit := do
  isMemberSafe e.entryType
  checkOwnerMode e.mode
  checkNoForbidden norm
  if prefixAllowed norm then return () else throw "not in canonical schema".toList

/-- `check_required_members` -/
def checkRequiredMembers (found : List (List Char)) :
    Except TarValidateError (List (List Char)) :=
  match required.find? (· ∉ found) with
  | some missing => .error (.unsafeMember ("missing required member: ".toList ++ missing))
  | none => .ok found

/-- The loop of `validate_tar`, with the normalised names it has. -/
def validateEntries (names : List (List Char)) :
    List (Option Entry) → Except TarValidateError (List (List Char))
  | [] => checkRequiredMembers names
  | none :: _ => .error .malformed
  | some e :: rest =>
    match e.path with
    | none => .error .malformed
    | some raw =>
      match normalisePath raw with
      | none => .error (.unsafeMember raw)
      | some norm =>
        if norm = [] then validateEntries names rest
        else
          match checkMember e norm with
          | .error reason => .error (.unsafeMember (raw ++ ": ".toList ++ reason))
          | .ok () =>
            if norm ∈ names then
              .error (.unsafeMember (raw ++ ": duplicate normalised path".toList))
            else validateEntries (names ++ [norm]) rest

/-- `validate_tar`, of the members that `entries` walks, if the stream is one of `tar`. -/
def validateTar : Option (List (Option Entry)) → Except TarValidateError (List (List Char))
  | none => .error .malformed
  | some entries => validateEntries [] entries

/-! ### What the checks ask -/

theorem normaliseParts_eq_some_iff {rest out : List (List Char)} (parts : List (List Char)) :
    normaliseParts parts rest = some out ↔ "..".toList ∉ rest ∧
      out = parts ++ rest.filter fun name => name ≠ [] ∧ name ≠ ['.'] := by
  induction rest generalizing parts with
  | nil =>
    rw [List.filter_nil, List.append_nil, and_iff_right List.not_mem_nil]
    exact ⟨fun h => by cases h; rfl, fun h => by rw [h]; rfl⟩
  | cons component rest ih =>
    rw [normaliseParts, List.mem_cons]
    by_cases hskip : component = [] ∨ component = ['.']
    · have hdots : "..".toList ≠ component := by
        rintro rfl
        exact absurd hskip (by decide)
      have hdrop : ¬ (component ≠ [] ∧ component ≠ ['.']) := by
        rwa [← not_or, not_not]
      rw [if_pos hskip, ih, List.filter_cons_of_neg (by simpa using hdrop), or_iff_right hdots]
    · rw [if_neg hskip]
      rw [not_or] at hskip
      by_cases hdots : component = "..".toList
      · rw [if_pos hdots]
        exact iff_of_false (fun h => by cases h) fun h => h.1 (.inl hdots.symm)
      · rw [if_neg hdots, ih, List.filter_cons_of_pos (by simpa using hskip),
          or_iff_right (Ne.symm hdots), List.append_assoc]
        rfl

/-- **The paths that are not rejected, and what they become.** -/
theorem normalisePath_eq_some_iff {name norm : List Char} :
    normalisePath name = some norm ↔
      (¬ ['/'] <+: name ∧ "..".toList ∉ name.splitOn '/') ∧
        norm = ['/'].intercalate (components name) := by
  unfold normalisePath
  split_ifs with hnil habs
  · subst hnil
    have hroot : ¬ ['/'] <+: ([] : List Char) ∧ "..".toList ∉ ([] : List Char).splitOn '/' := by
      decide
    rw [Option.some.injEq, and_iff_right hroot]
    exact eq_comm
  · exact iff_of_false (fun h => by cases h) fun h => h.1.1 habs
  · rw [Option.map_eq_some_iff]
    simp only [normaliseParts_eq_some_iff, List.nil_append]
    constructor
    · rintro ⟨_, ⟨hdots, rfl⟩, rfl⟩
      exact ⟨⟨habs, hdots⟩, rfl⟩
    · rintro ⟨⟨-, hdots⟩, rfl⟩
      exact ⟨_, ⟨hdots, rfl⟩, rfl⟩

theorem checkMember_ok_iff {e : Entry} {norm : List Char} :
    checkMember e norm = .ok () ↔ isMemberSafe e.entryType = .ok () ∧
      checkOwnerMode e.mode = .ok () ∧ checkNoForbidden norm = .ok () ∧
      prefixAllowed norm = true := by
  unfold checkMember
  cases isMemberSafe e.entryType <;> cases checkOwnerMode e.mode <;>
    cases checkNoForbidden norm <;> cases prefixAllowed norm <;>
    simp [bind, Except.bind, pure, Except.pure, throw, throwThe, MonadExceptOf.throw]

theorem checkOwnerMode_ok_iff {mode : Option ℕ} :
    checkOwnerMode mode = .ok () ↔ mode.getD 0 &&& 0o022 = 0 := by
  unfold checkOwnerMode
  dsimp only
  split_ifs with h
  · exact iff_of_false (fun h => by cases h) h
  · exact iff_of_true rfl (not_not.mp h)

theorem checkRequiredMembers_ok_iff {found names : List (List Char)} :
    checkRequiredMembers found = .ok names ↔ (∀ r ∈ required, r ∈ found) ∧ names = found := by
  unfold checkRequiredMembers
  cases hfind : required.find? (· ∉ found) with
  | some missing =>
    refine iff_of_false (fun h => by cases h) fun h => ?_
    have hmissing := List.find?_some hfind
    exact absurd (h.1 missing (List.mem_of_find?_eq_some hfind)) (of_decide_eq_true hmissing)
  | none =>
    have hall : ∀ r ∈ required, r ∈ found := fun r hr => by
      simpa using List.find?_eq_none.mp hfind r hr
    rw [and_iff_right hall]
    exact ⟨fun h => by cases h; rfl, fun h => by rw [h]⟩

/-- The normalised path of a member. -/
def Entry.norm (e : Entry) : List Char := (e.path.bind normalisePath).getD []

/-- What the loop asks of one member. -/
structure Passes (e : Entry) : Prop where
  named : ∃ raw, e.path = some raw ∧ normalisePath raw = some e.norm
  checked : e.norm ≠ [] → checkMember e e.norm = .ok ()

/-- **What the loop asks of the members.** -/
theorem validateEntries_ok {entries : List (Option Entry)} {names found : List (List Char)}
    (h : validateEntries names entries = .ok found) :
    ∃ members : List Entry, entries = members.map some ∧ (∀ e ∈ members, Passes e) ∧
      found = names ++ (members.map Entry.norm).filter (· ≠ []) ∧
      (names.Nodup → found.Nodup) ∧ ∀ r ∈ required, r ∈ found := by
  induction entries generalizing names with
  | nil =>
    obtain ⟨hrequired, rfl⟩ := checkRequiredMembers_ok_iff.mp h
    exact ⟨[], rfl, fun _ he => absurd he List.not_mem_nil, (List.append_nil found).symm, id,
      hrequired⟩
  | cons entry rest ih =>
    cases entry with
    | none => cases h
    | some e =>
      rw [validateEntries] at h
      cases hpath : e.path with
      | none =>
        rw [hpath] at h
        cases h
      | some raw =>
        cases hnorm : normalisePath raw with
        | none =>
          rw [hpath] at h
          dsimp only at h
          rw [hnorm] at h
          cases h
        | some norm =>
          rw [hpath] at h
          dsimp only at h
          rw [hnorm] at h
          dsimp only at h
          have he : e.norm = norm := by rw [Entry.norm, hpath, Option.bind_some, hnorm]; rfl
          have hnamed : ∃ raw, e.path = some raw ∧ normalisePath raw = some e.norm :=
            ⟨raw, hpath, he ▸ hnorm⟩
          by_cases hroot : norm = []
          · -- the root is passed over
            rw [if_pos hroot] at h
            obtain ⟨members, rfl, hpasses, hfound, hrest⟩ := ih h
            refine ⟨e :: members, rfl, List.forall_mem_cons.mpr ⟨⟨hnamed, ?_⟩, hpasses⟩, ?_, hrest⟩
            · exact fun hne => absurd (he.trans hroot) hne
            · rw [hfound, List.map_cons, List.filter_cons_of_neg (by simpa [he] using hroot)]
          · rw [if_neg hroot] at h
            split at h
            · cases h
            · rename_i hchecked
              split at h
              · cases h
              · rename_i hnew
                obtain ⟨members, rfl, hpasses, hfound, hnodup, hrequired⟩ := ih h
                refine ⟨e :: members, rfl, List.forall_mem_cons.mpr ⟨⟨hnamed, ?_⟩, hpasses⟩, ?_,
                  fun hnd => hnodup ?_, hrequired⟩
                · exact fun _ => he ▸ hchecked
                · rw [hfound, List.map_cons, List.filter_cons_of_pos (by simpa [he] using hroot),
                    he, List.append_assoc]
                  rfl
                · exact List.nodup_append.mpr ⟨hnd, List.nodup_singleton norm, fun a ha b hb =>
                    fun hab => hnew (List.mem_singleton.mp hb ▸ hab ▸ ha)⟩

/-! ### What may be unpacked -/

/-- The first path is a directory over the second. -/
def Ancestor (p q : List Char) : Prop := p = [] ∧ q ≠ [] ∨ p ≠ [] ∧ p ++ ['/'] <+: q

/-- **An archive that may be unpacked.** -/
structure Sound (members : List Entry) : Prop where
  kinds : ∀ e ∈ members, e.entryType = .regular ∨ e.entryType = .directory
  /-- No path is absolute or has a parent component. -/
  relative : ∀ e ∈ members, ∃ raw, e.path = some raw ∧ ¬ ['/'] <+: raw ∧
    "..".toList ∉ raw.splitOn '/'
  normalised : ∀ e ∈ members, ∃ names : List (List Char), e.norm = ['/'].intercalate names ∧
    ∀ name ∈ names, name ≠ [] ∧ name ≠ ['.'] ∧ name ≠ "..".toList ∧ '/' ∉ name
  nodup : (members.map Entry.norm).Nodup
  ancestors : ∀ e ∈ members, e.entryType = .regular →
    ∀ e' ∈ members, ¬ Ancestor e.norm e'.norm
  /-- Every mode can be read, and has no set-id bit and no write bit of group or others. -/
  modes : ∀ e ∈ members, ∃ mode, e.mode = some mode ∧ mode &&& 0o6000 = 0 ∧ mode &&& 0o022 = 0
  required : ∀ r ∈ required, ∃ e ∈ members, e.norm = r ∧ e.entryType = .regular

/-- The kinds that `is_member_safe` lets through, apart from files and directories. -/
def EntryType.unlisted : EntryType → Bool
  | .fifo | .continuous | .gnuLongName | .gnuLongLink | .gnuSparse | .other _ => true
  | _ => false

/-- **The archive has no member of the kinds that are not looked for.** -/
structure Harmless (members : List Entry) : Prop where
  /-- No fifo, contiguous or sparse file, and no header of the format. -/
  listed : ∀ e ∈ members, e.entryType.unlisted = false
  /-- The root of the archive is a directory only its owner writes. -/
  root : ∀ e ∈ members, e.norm = [] →
    e.entryType = .directory ∧ ∀ mode, e.mode = some mode → mode &&& 0o022 = 0
  root_once : (members.map Entry.norm).count [] ≤ 1
  /-- Every mode can be read, and has no set-id bit. -/
  modes : ∀ e ∈ members, ∃ mode, e.mode = some mode ∧ mode &&& 0o6000 = 0
  /-- The directories over the required members are no files. -/
  directories : ∀ e ∈ members, e.norm = "bin".toList ∨ e.norm = "client-dist".toList →
    e.entryType ≠ .regular
  /-- No file among the assets is a directory over another. -/
  assets : ∀ e ∈ members, "client-dist/assets".toList <+: e.norm → e.entryType = .regular →
    ∀ e' ∈ members, ¬ e.norm ++ ['/'] <+: e'.norm
  /-- No required member is a directory. -/
  files : ∀ e ∈ members, e.norm ∈ TarValidate.required → e.entryType ≠ .directory

section Accepted

variable {members : List Entry} {e : Entry} {p q : List Char}

/-- The paths of a release lie under few directories. -/
theorem ancestor_of_allowed (hq : prefixAllowed q = true) (h : p ++ ['/'] <+: q) :
    p = "bin".toList ∨ p = "client-dist".toList ∨ "client-dist/assets".toList <+: p := by
  have hinit {s : List Char} (hs : p ++ ['/'] <+: s) : p ∈ s.inits :=
    (List.mem_inits p s).mpr ((List.prefix_append p _).trans hs)
  unfold prefixAllowed at hq
  split_ifs at hq with hcanonical hdirectory hasset hclient
  · have hall : ∀ s ∈ canonicalPrefixes, ∀ p ∈ s.inits, p ++ ['/'] <+: s →
        p = "bin".toList ∨ p = "client-dist".toList ∨ "client-dist/assets".toList <+: p := by
      decide +kernel
    exact hall q hcanonical p (hinit h) h
  · have hall : ∀ s ∈ ["bin".toList, "client-dist".toList, "client-dist/assets".toList],
        ∀ p ∈ s.inits, p ++ ['/'] <+: s →
          p = "bin".toList ∨ p = "client-dist".toList ∨ "client-dist/assets".toList <+: p := by
      decide +kernel
    exact hall q hdirectory p (hinit h) h
  · rcases List.prefix_or_prefix_of_prefix h hasset with hp | hp
    · have hall : ∀ p ∈ assetPrefix.inits, p ++ ['/'] <+: assetPrefix →
          p = "bin".toList ∨ p = "client-dist".toList ∨ "client-dist/assets".toList <+: p := by
        decide +kernel
      exact hall p (hinit hp) hp
    · have hassets : "client-dist/assets".toList ++ ['/'] <+: p ++ ['/'] := hp
      rcases List.prefix_concat_iff.mp hassets with heq | hle
      · exact .inr (.inr (List.append_cancel_right heq ▸ List.prefix_rfl))
      · exact .inr (.inr ((List.prefix_append _ _).trans hle))
  · rcases List.prefix_or_prefix_of_prefix h hclient with hp | hp
    · have hall : ∀ p ∈ "client-dist/".toList.inits, p ++ ['/'] <+: "client-dist/".toList →
          p = "bin".toList ∨ p = "client-dist".toList ∨ "client-dist/assets".toList <+: p := by
        decide +kernel
      exact hall p (hinit hp) hp
    · have hdir : "client-dist".toList ++ ['/'] <+: p ++ ['/'] := hp
      rcases List.prefix_concat_iff.mp hdir with heq | hle
      · exact .inr (.inl (List.append_cancel_right heq).symm)
      · -- the name after the directory has no slash
        obtain ⟨t, rfl⟩ := h
        have hlen : "client-dist/".length ≤ p.length := hle.length_le
        rw [List.append_assoc, List.drop_append_of_le_length hlen] at hq
        simp at hq

/-- The members of an archive that is accepted. -/
structure Accepted (members : List Entry) : Prop where
  passes : ∀ e ∈ members, Passes e
  nodup : ((members.map Entry.norm).filter (· ≠ [])).Nodup
  found : ∀ r ∈ TarValidate.required, ∃ e ∈ members, e.norm = r

theorem Passes.kind (h : Passes e) (hne : e.norm ≠ []) (hlisted : e.entryType.unlisted = false) :
    e.entryType = .regular ∨ e.entryType = .directory := by
  have hkind := (checkMember_ok_iff.mp (h.checked hne)).1
  cases ht : e.entryType with
  | regular => exact .inl rfl
  | directory => exact .inr rfl
  | fifo | continuous | gnuLongName | gnuLongLink | gnuSparse | other =>
    rw [ht] at hlisted
    cases hlisted
  | _ =>
    rw [ht] at hkind
    cases hkind

theorem Passes.writeBits (h : Passes e) (hne : e.norm ≠ []) {mode : ℕ}
    (hmode : e.mode = some mode) : mode &&& 0o022 = 0 := by
  have hbits := checkOwnerMode_ok_iff.mp (checkMember_ok_iff.mp (h.checked hne)).2.1
  rwa [hmode] at hbits

theorem Passes.allowed (h : Passes e) (hne : e.norm ≠ []) : prefixAllowed e.norm = true :=
  (checkMember_ok_iff.mp (h.checked hne)).2.2.2

theorem Passes.relative (h : Passes e) :
    ∃ raw, e.path = some raw ∧ ¬ ['/'] <+: raw ∧ "..".toList ∉ raw.splitOn '/' := by
  obtain ⟨raw, hpath, hnorm⟩ := h.named
  exact ⟨raw, hpath, (normalisePath_eq_some_iff.mp hnorm).1⟩

theorem Passes.normalised (h : Passes e) :
    ∃ names : List (List Char), e.norm = ['/'].intercalate names ∧
      ∀ name ∈ names, name ≠ [] ∧ name ≠ ['.'] ∧ name ≠ "..".toList ∧ '/' ∉ name := by
  obtain ⟨raw, -, hnorm⟩ := h.named
  obtain ⟨⟨-, hdots⟩, heq⟩ := normalisePath_eq_some_iff.mp hnorm
  refine ⟨components raw, heq, fun name hname => ?_⟩
  obtain ⟨hne, hdot, hslash⟩ := mem_components hname
  refine ⟨hne, hdot, ?_, hslash⟩
  rintro rfl
  exact hdots (List.mem_of_mem_filter hname)

/-- Some member is a file under a directory. -/
theorem Accepted.exists_under (h : Accepted members) {r : List Char}
    (hr : r ∈ TarValidate.required) (hunder : Ancestor p r) :
    ∃ e ∈ members, Ancestor p e.norm := by
  obtain ⟨e, he, rfl⟩ := h.found r hr
  exact ⟨e, he, hunder⟩

/-- **What is not looked for is what can be wrong.** -/
theorem Accepted.sound_iff (h : Accepted members) : Sound members ↔ Harmless members := by
  constructor
  · intro hs
    -- a file over a required member is an ancestor of it
    have hover {e} (he : e ∈ members) {r} (hr : r ∈ TarValidate.required)
        (hunder : Ancestor e.norm r) : e.entryType ≠ .regular := fun hreg => by
      obtain ⟨e', he', h'⟩ := h.exists_under hr hunder
      exact hs.ancestors e he hreg e' he' h'
    constructor
    case listed =>
      intro e he
      rcases hs.kinds e he with ht | ht <;> rw [ht] <;> rfl
    case root =>
      intro e he hroot
      have hne : e.entryType ≠ .regular :=
        hover he (r := "VERSION".toList) (by decide) (.inl ⟨hroot, by decide⟩)
      refine ⟨(hs.kinds e he).resolve_left hne, fun mode hmode => ?_⟩
      obtain ⟨mode', hmode', -, hbits⟩ := hs.modes e he
      rw [hmode] at hmode'
      cases hmode'
      exact hbits
    case root_once => exact List.nodup_iff_count_le_one.mp hs.nodup []
    case modes =>
      intro e he
      obtain ⟨mode, hmode, hbits, -⟩ := hs.modes e he
      exact ⟨mode, hmode, hbits⟩
    case directories =>
      rintro e he (hdir | hdir)
      · exact hover he (r := "bin/pantoken-server".toList) (by decide)
          (.inr ⟨by rw [hdir]; decide, by rw [hdir]; decide⟩)
      · exact hover he (r := "client-dist/index.html".toList) (by decide)
          (.inr ⟨by rw [hdir]; decide, by rw [hdir]; decide⟩)
    case assets =>
      intro e he hasset hreg e' he' hunder
      have hne : e.norm ≠ [] := by
        intro hnil
        rw [hnil] at hasset
        exact absurd hasset (by decide)
      exact hs.ancestors e he hreg e' he' (.inr ⟨hne, hunder⟩)
    case files =>
      intro e he hr hdir
      obtain ⟨e', he', hnorm, hreg⟩ := hs.required e.norm hr
      have heq : e' = e := List.inj_on_of_nodup_map hs.nodup he' he hnorm
      rw [heq, hdir] at hreg
      cases hreg
  · intro hc
    have hkinds : ∀ e ∈ members, e.entryType = .regular ∨ e.entryType = .directory := by
      intro e he
      by_cases hne : e.norm = []
      · exact .inr (hc.root e he hne).1
      · exact (h.passes e he).kind hne (hc.listed e he)
    constructor
    case kinds => exact hkinds
    case relative => exact fun e he => (h.passes e he).relative
    case normalised => exact fun e he => (h.passes e he).normalised
    case nodup =>
      -- the root is passed over where the paths are compared
      refine List.nodup_iff_count_le_one.mpr fun path => ?_
      by_cases hne : path = []
      · rw [hne]
        exact hc.root_once
      · rw [← List.count_filter (p := (· ≠ [])) (decide_eq_true hne)]
        exact List.nodup_iff_count_le_one.mp h.nodup path
    case ancestors =>
      rintro e he hreg e' he' (⟨hroot, -⟩ | ⟨-, hunder⟩)
      · rw [(hc.root e he hroot).1] at hreg
        cases hreg
      · have hne : e'.norm ≠ [] := by
          intro hnil
          rw [hnil, List.prefix_nil] at hunder
          exact absurd hunder (List.append_ne_nil_of_right_ne_nil _ (List.cons_ne_nil _ _))
        rcases ancestor_of_allowed ((h.passes e' he').allowed hne) hunder with hp | hp | hp
        · exact hc.directories e he (.inl hp) hreg
        · exact hc.directories e he (.inr hp) hreg
        · exact hc.assets e he hp hreg e' he' hunder
    case modes =>
      intro e he
      obtain ⟨mode, hmode, hbits⟩ := hc.modes e he
      refine ⟨mode, hmode, hbits, ?_⟩
      by_cases hne : e.norm = []
      · exact (hc.root e he hne).2 mode hmode
      · exact (h.passes e he).writeBits hne hmode
    case required =>
      -- a member is there by its path alone, and is a file since it is no directory
      intro r hr
      obtain ⟨e, he, rfl⟩ := h.found r hr
      exact ⟨e, he, rfl, (hkinds e he).resolve_right (hc.files e he hr)⟩

end Accepted

/-- **An archive that is accepted may be unpacked exactly when it has no member of the kinds
that are not looked for.** -/
theorem sound_iff_harmless {archive : Option (List (Option Entry))} {found : List (List Char)}
    (h : validateTar archive = .ok found) :
    ∃ members : List Entry, archive = some (members.map some) ∧
      found = (members.map Entry.norm).filter (· ≠ []) ∧ (Sound members ↔ Harmless members) := by
  cases archive with
  | none => cases h
  | some entries =>
    obtain ⟨members, rfl, hpasses, rfl, hnodup, hrequired⟩ := validateEntries_ok h
    refine ⟨members, rfl, rfl, Accepted.sound_iff ⟨hpasses, hnodup List.nodup_nil, fun r hr => ?_⟩⟩
    obtain ⟨e, he, hnorm⟩ := List.mem_map.mp (List.mem_of_mem_filter (hrequired r hr))
    exact ⟨e, he, hnorm⟩

/-- A release with a server of the given mode, as the build script packs it. -/
def release (mode : ℕ) : List Entry :=
  [⟨some "./".toList, .directory, some 0o755⟩, ⟨some "./bin/".toList, .directory, some 0o755⟩,
    ⟨some "./bin/pantoken-server".toList, .regular, some mode⟩,
    ⟨some "./bin/pantoken-tar-validate".toList, .regular, some 0o755⟩,
    ⟨some "./VERSION".toList, .regular, some 0o644⟩,
    ⟨some "./BUILD_SHA".toList, .regular, some 0o644⟩,
    ⟨some "./run.sh".toList, .regular, some 0o755⟩,
    ⟨some "./update.sh".toList, .regular, some 0o755⟩,
    ⟨some "./client-dist/index.html".toList, .regular, some 0o644⟩]

set_option maxRecDepth 20000 in
theorem sound_iff_harmless_release :
    ∃ members : List Entry, some ((release 0o755).map some) = some (members.map some) ∧
      ((release 0o755).map Entry.norm).filter (· ≠ [])
        = (members.map Entry.norm).filter (· ≠ []) ∧ (Sound members ↔ Harmless members) :=
  sound_iff_harmless (by decide +kernel)

set_option maxRecDepth 20000 in
/-- **An archive is accepted with a set-uid server.** -/
theorem not_sound :
    (validateTar (some ((release 0o4755).map some))).isOk = true ∧ ¬ Sound (release 0o4755) := by
  refine ⟨by decide +kernel, fun h => ?_⟩
  obtain ⟨mode, hmode, hbits, -⟩ :=
    h.modes ⟨some "./bin/pantoken-server".toList, .regular, some 0o4755⟩ (by decide)
  cases hmode
  exact absurd hbits (by decide)

end Pantoken.TarValidate
