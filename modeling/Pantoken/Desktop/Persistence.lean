import Mathlib.Algebra.GroupWithZero.Nat
import Mathlib.Data.List.DropRight
import Mathlib.Data.List.MinMax
import Pantoken.Desktop.DockerTarget
import Pantoken.Lib.Utf16

/-!
# Persistence of a container's paths

Whether data under a path of a container survives is read off the mount that covers the path.
The desktop application and the client each look for it, by the text of the destinations: one
takes the last of those that are longest as they are written, the other the first of those that
are longest without the slashes at their ends.

## Main definitions

* `pathCovers`, `deepestCoveringMount`, `persistenceFacts` — the desktop application.
* `findCoveringMount`, `formatBacking` — the client.
* `Covers`, `Deepest` — what covers a path by its names, and what does most deeply.

## Main results

* `List.argmax_filter_eq_some_iff`, `List.maxByKey_filter_eq_some_iff` — the first and the last of
  the greatest.
* `covers_of_pathCovers`, `covers_of_sees` — what covers by its text covers by its names.
* `judgedByDeepest_iff` — **when both judge a path by the mount that covers it most deeply.**
* `not_judgedByDeepest` — a shallow mount with many slashes at its end.
-/

namespace List

variable {α β : Type*} [LinearOrder β]

/-- Of the elements with `p` none before `m` is as great and none after it greater. -/
def IsFirstMax (f : α → β) (p : α → Bool) (l : List α) (m : α) : Prop :=
  ∃ front rest, l = front ++ m :: rest ∧ (∀ x ∈ front, p x = true → f x < f m) ∧
    ∀ x ∈ rest, p x = true → f x ≤ f m

/-- Of the elements with `p` none before `m` is greater and none after it as great. -/
def IsLastMax (f : α → β) (p : α → Bool) (l : List α) (m : α) : Prop :=
  ∃ front rest, l = front ++ m :: rest ∧ (∀ x ∈ front, p x = true → f x ≤ f m) ∧
    ∀ x ∈ rest, p x = true → f x < f m

/-- `max_by_key`, which keeps the last of the greatest. -/
def maxByKey (f : α → β) (l : List α) : Option α := l.reverse.argmax f

section

variable {f : α → β} {p : α → Bool} {l : List α} {m : α}

theorem argmax_eq_some_iff_append : l.argmax f = some m ↔
    ∃ front rest, l = front ++ m :: rest ∧ (∀ x ∈ front, f x < f m) ∧
      ∀ x ∈ rest, f x ≤ f m := by
  induction l generalizing m with
  | nil =>
    constructor
    · intro h
      cases h
    · rintro ⟨front, rest, h, -⟩
      exact absurd h.symm (append_ne_nil_of_right_ne_nil _ (cons_ne_nil _ _))
  | cons a l ih =>
    rw [argmax_cons]
    constructor
    · intro h
      cases hmax : l.argmax f with
      | none =>
        rw [hmax] at h
        cases h
        rw [argmax_eq_none.mp hmax]
        exact ⟨[], [], rfl, fun _ h => (not_mem_nil h).elim, fun _ h => (not_mem_nil h).elim⟩
      | some c =>
        rw [hmax] at h
        dsimp only at h
        split_ifs at h with hlt
        · -- the first of the rest is greater than what is in front of it
          cases h
          obtain ⟨front, rest, rfl, hfront, hrest⟩ := ih.mp hmax
          exact ⟨a :: front, rest, rfl, forall_mem_cons.mpr ⟨hlt, hfront⟩, hrest⟩
        · cases h
          refine ⟨[], l, rfl, fun _ h => (not_mem_nil h).elim, fun x hx => ?_⟩
          exact (le_of_mem_argmax hx hmax).trans (not_lt.mp hlt)
    · rintro ⟨front, rest, hl, hfront, hrest⟩
      cases front with
      | nil =>
        obtain ⟨rfl, rfl⟩ := cons.inj hl
        cases hmax : l.argmax f with
        | none => rfl
        | some c => exact if_neg (not_lt.mpr (hrest c (argmax_mem hmax)))
      | cons b front =>
        obtain ⟨rfl, rfl⟩ := cons.inj hl
        obtain ⟨hlt, hfront⟩ := forall_mem_cons.mp hfront
        rw [ih.mpr ⟨front, rest, rfl, hfront, hrest⟩]
        exact if_pos hlt

/-- **The first of the greatest.** -/
theorem argmax_filter_eq_some_iff :
    (l.filter p).argmax f = some m ↔ p m = true ∧ IsFirstMax f p l m := by
  rw [argmax_eq_some_iff_append]
  constructor
  · rintro ⟨front, rest, hfilter, hfront, hrest⟩
    obtain ⟨front', rest', rfl, hfront', hrest'⟩ := filter_eq_append_iff.mp hfilter
    -- what is skipped before the maximum does not pass the test
    obtain ⟨skip, rest', rfl, hskip, hm, hrest''⟩ := filter_eq_cons_iff.mp hrest'
    refine ⟨hm, front' ++ skip, rest', by simp, fun x hx hp => ?_, fun x hx hp => ?_⟩
    · obtain hx | hx := mem_append.mp hx
      · exact hfront x (hfront' ▸ mem_filter.mpr ⟨hx, hp⟩)
      · exact absurd hp (hskip x hx)
    · exact hrest x (hrest'' ▸ mem_filter.mpr ⟨hx, hp⟩)
  · rintro ⟨hm, front, rest, rfl, hfront, hrest⟩
    refine ⟨front.filter p, rest.filter p, ?_, fun x hx => ?_, fun x hx => ?_⟩
    · rw [filter_append, filter_cons_of_pos hm]
    · exact hfront x (mem_filter.mp hx).1 (mem_filter.mp hx).2
    · exact hrest x (mem_filter.mp hx).1 (mem_filter.mp hx).2

theorem isFirstMax_reverse : IsFirstMax f p l.reverse m ↔ IsLastMax f p l m := by
  constructor
  · rintro ⟨front, rest, h, hfront, hrest⟩
    refine ⟨rest.reverse, front.reverse, ?_, fun x hx => hrest x (mem_reverse.mp hx),
      fun x hx => hfront x (mem_reverse.mp hx)⟩
    rw [← l.reverse_reverse, h]
    simp
  · rintro ⟨front, rest, rfl, hfront, hrest⟩
    refine ⟨rest.reverse, front.reverse, by simp, fun x hx => hrest x (mem_reverse.mp hx),
      fun x hx => hfront x (mem_reverse.mp hx)⟩

/-- **The last of the greatest.** -/
theorem maxByKey_filter_eq_some_iff :
    (l.filter p).maxByKey f = some m ↔ p m = true ∧ IsLastMax f p l m := by
  rw [maxByKey, ← filter_reverse, argmax_filter_eq_some_iff, isFirstMax_reverse]

theorem maxByKey_eq_none : l.maxByKey f = none ↔ l = [] := by
  rw [maxByKey, argmax_eq_none, reverse_eq_nil_iff]

theorem argmax_map {γ : Type*} (g : γ → α) (l : List γ) :
    (l.map g).argmax f = (l.argmax fun c => f (g c)).map g := by
  induction l using List.reverseRecOn with
  | nil => rfl
  | append_singleton l c ih =>
    rw [map_append, map_singleton, argmax_concat, argmax_concat, ih]
    cases l.argmax fun c => f (g c) with
    | none => rfl
    | some b =>
      dsimp only [Option.map_some]
      split_ifs <;> rfl

end

end List

namespace Pantoken.Desktop

/-! ### The desktop application -/

structure DockerMount where
  mountType : String
  name : Option (List Char)
  source : List Char
  destination : List Char
  readWrite : Bool
  deriving DecidableEq

/-- Without the slashes at the end. -/
def trimEnd (p : List Char) : List Char := p.rdropWhile (· = '/')

/-- The bytes of a text. -/
def utf8Length (s : List Char) : ℕ := (s.map Char.utf8Size).sum

/-- `path_covers` -/
def pathCovers (destination path : List Char) : Bool :=
  destination = ['/'] ∨ path = destination ∨
    (destination <+: path ∧ (path.drop destination.length).head? = some '/')

/-- `deepest_covering_mount` -/
def deepestCoveringMount (path : List Char) (mounts : List DockerMount) : Option DockerMount :=
  (mounts.filter fun mount => pathCovers (trimEnd mount.destination) path).maxByKey
    fun mount => utf8Length mount.destination

inductive PersistenceClassification
  | persistentBind | persistentVolume | ephemeralTmpfs | ephemeralWritableLayer
  deriving DecidableEq

structure PersistenceFacts where
  classification : PersistenceClassification
  mountDestination : List Char
  mountType : String
  readWrite : String
  backingIdentityHash : List Char
  deriving DecidableEq

def classify (mountType : String) : PersistenceClassification :=
  if mountType = "bind" then .persistentBind
  else if mountType = "volume" then .persistentVolume
  else if mountType = "tmpfs" then .ephemeralTmpfs
  else .ephemeralWritableLayer

/-- What `persistence_facts` makes of the mount it uses, where `backingHash` is a digest. -/
def mountFacts (backingHash : List Char → List Char) :
    Option DockerMount → Except DockerTargetError PersistenceFacts
  | none =>
    .ok ⟨.ephemeralWritableLayer, "<no-covering-mount>".toList, "writableLayer", "readWrite",
      "<writable-layer>".toList⟩
  | some mount =>
    if !mount.readWrite then .error .readOnlyMount
    else do
      let classification := classify mount.mountType
      let backing := match classification with
        | .ephemeralTmpfs => "<tmpfs>".toList
        | .ephemeralWritableLayer => "<writable-layer>".toList
        | .persistentVolume => backingHash (mount.name.getD mount.source)
        | .persistentBind => backingHash mount.source
      let destination ← normalizeAbsolutePath mount.destination
      return ⟨classification, destination, mount.mountType, "readWrite", backing⟩

/-- `persistence_facts` -/
def persistenceFacts (backingHash : List Char → List Char) (root : List Char)
    (mounts : List DockerMount) : Except DockerTargetError PersistenceFacts := do
  let root ← normalizeAbsolutePath root
  mountFacts backingHash (deepestCoveringMount root mounts)

/-! ### The client -/

structure MountSummary where
  type : String
  source : Option (List Char)
  destination : List Char
  readOnly : Bool
  name : Option (List Char)
  deriving DecidableEq

/-- The same data for the client. -/
def DockerMount.summary (m : DockerMount) : MountSummary :=
  ⟨m.mountType, some m.source, m.destination, !m.readWrite, m.name⟩

/-- The tests of `findCoveringMount` for a mount. -/
def MountSummary.sees (path : List Char) (m : MountSummary) : Bool :=
  m.type ≠ "writableLayer" ∧
    (trimEnd m.destination ++ ['/'] <+: path ∨ path = trimEnd m.destination)

/-- A round of the loop of `findCoveringMount`, with `best` and `bestLen`. -/
def MountSummary.better (path : List Char) (best : Option MountSummary × ℤ) (m : MountSummary) :
    Option MountSummary × ℤ :=
  if m.sees path then
    if best.2 < utf16Length (trimEnd m.destination) then
      (some m, utf16Length (trimEnd m.destination))
    else best
  else best

def findCoveringMount (mounts : List MountSummary) (path : List Char) : Option MountSummary :=
  (mounts.foldl (MountSummary.better path) (none, -1)).1

/-- `formatBacking`, for the mounts and the `pantokenRootSuggestion` of an inspection. -/
def formatBacking (mounts : List MountSummary) (rootPath : List Char) : List Char :=
  match findCoveringMount mounts rootPath with
  | none => "Ephemeral · container writable layer".toList
  | some covering =>
    if covering.type = "volume" then
      "Persistent · volume ".toList ++ covering.name.getD covering.destination
    else if covering.type = "bind" then
      "Persistent · bind mount ".toList ++ covering.source.getD covering.destination
    else if covering.type = "tmpfs" then "Ephemeral · tmpfs ".toList ++ covering.destination
    else "Ephemeral · container writable layer".toList

/-! ### By the names -/

/-- The destination is absolute, or nothing but slashes, and its names are the first of the
path's. -/
def Covers (destination path : List Char) : Prop :=
  (trimEnd destination = [] ∨ ['/'] <+: destination) ∧ components destination <+: components path

/-- The mount covers the path, and no mount does more deeply. -/
def Deepest (mounts : List DockerMount) (path : List Char) (m : DockerMount) : Prop :=
  Covers m.destination path ∧ ∀ x ∈ mounts, Covers x.destination path →
    (components x.destination).length ≤ (components m.destination).length

/-- **Both use the mount that covers a root most deeply**, and none only where none covers it. -/
def JudgedByDeepest (backingHash : List Char → List Char) (root : List Char)
    (mounts : List DockerMount) : Prop :=
  ∀ path, normalizeAbsolutePath root = .ok path →
    ∃ pick, persistenceFacts backingHash root mounts = mountFacts backingHash pick ∧
      pick = deepestCoveringMount path mounts ∧
      (∀ m, pick = some m → Deepest mounts path m) ∧
      (pick = none → ∀ m ∈ mounts, ¬ Covers m.destination path) ∧
      findCoveringMount (mounts.map (·.summary)) root = pick.map (·.summary)

/-! ### What covers by its text -/

section Covers

variable {destination path root : List Char}

theorem components_trimEnd (p : List Char) : components (trimEnd p) = components p := by
  induction p using List.reverseRecOn with
  | nil => rfl
  | append_singleton p c ih =>
    by_cases hc : c = '/'
    · rw [trimEnd, List.rdropWhile_concat_pos (· = '/') p c (decide_eq_true hc), hc,
        components_append]
      exact ih.trans (List.append_nil _).symm
    · rw [trimEnd, List.rdropWhile_concat_neg (· = '/') p c (by rwa [decide_eq_true_iff])]

/-- What stands before a slash of an absolute path is absolute or empty. -/
theorem absolute_of_append {rest : List Char} (hroot : ['/'] <+: path)
    (h : path = trimEnd destination ++ rest) :
    trimEnd destination = [] ∨ ['/'] <+: destination := by
  cases htrim : trimEnd destination with
  | nil => exact .inl rfl
  | cons c t =>
    refine .inr (List.IsPrefix.trans ?_ (List.rdropWhile_prefix (· = '/') destination))
    change ['/'] <+: trimEnd destination
    rw [htrim, List.cons_append] at h
    rw [h] at hroot
    rw [htrim, (List.cons_prefix_cons.mp hroot).1]
    exact List.cons_prefix_cons.mpr ⟨rfl, List.nil_prefix⟩

theorem covers_of_append {rest : List Char} (hroot : ['/'] <+: path)
    (h : path = trimEnd destination ++ '/' :: rest) : Covers destination path := by
  refine ⟨absolute_of_append hroot h, ?_⟩
  rw [h, components_append, components_trimEnd]
  exact List.prefix_append _ _

theorem covers_of_eq (hroot : ['/'] <+: path) (h : path = trimEnd destination) :
    Covers destination path := by
  have hnames : components path = components destination := by rw [h, components_trimEnd]
  exact ⟨absolute_of_append hroot (h.trans (List.append_nil _).symm), hnames ▸ List.prefix_refl _⟩

/-- What covers a path by its text covers it by its names. -/
theorem covers_of_pathCovers (hroot : ['/'] <+: path)
    (h : pathCovers (trimEnd destination) path = true) : Covers destination path := by
  obtain hslash | heq | ⟨⟨rest, hrest⟩, hhead⟩ := of_decide_eq_true h
  · have hnames := components_trimEnd destination
    rw [hslash] at hnames
    refine ⟨.inr (hslash ▸ List.rdropWhile_prefix (· = '/') destination), ?_⟩
    rw [← hnames]
    exact List.nil_prefix
  · exact covers_of_eq hroot heq
  · rw [← hrest, List.drop_left] at hhead
    obtain ⟨rest, rfl⟩ := List.head?_eq_some_iff.mp hhead
    exact covers_of_append hroot hrest.symm

/-- So does what the client sees. -/
theorem covers_of_sees {m : MountSummary} (hroot : ['/'] <+: path) (h : m.sees path = true) :
    Covers m.destination path := by
  obtain ⟨-, ⟨rest, hrest⟩ | heq⟩ := of_decide_eq_true h
  · rw [List.append_assoc] at hrest
    exact covers_of_append hroot hrest.symm
  · exact covers_of_eq hroot heq

end Covers

/-! ### The loop of the client -/

theorem foldl_better (path : List Char) (mounts : List MountSummary) :
    mounts.foldl (MountSummary.better path) (none, -1) =
      let best := (mounts.filter (·.sees path)).argmax fun m => utf16Length (trimEnd m.destination)
      (best, (best.map fun m => (utf16Length (trimEnd m.destination) : ℤ)).getD (-1)) := by
  induction mounts using List.reverseRecOn with
  | nil => rfl
  | append_singleton mounts m ih =>
    -- one round: a later mount has to be longer, as for `argmax`
    rw [List.foldl_concat, ih, List.filter_append]
    by_cases hsees : m.sees path = true
    · rw [List.filter_cons_of_pos hsees, List.filter_nil, List.argmax_concat, MountSummary.better,
        if_pos hsees]
      cases (mounts.filter (·.sees path)).argmax fun m => utf16Length (trimEnd m.destination) with
      | none =>
        -- no length is below the first `bestLen`
        refine if_pos ?_
        dsimp only [Option.map_none, Option.getD_none]
        omega
      | some best =>
        dsimp only [Option.map_some, Option.getD_some]
        split_ifs with hlt hlt' hlt'
        · rfl
        · exact absurd (Int.ofNat_lt.mp hlt) hlt'
        · exact absurd (Int.ofNat_lt.mpr hlt') hlt
        · rfl
    · rw [List.filter_cons_of_neg hsees, List.filter_nil, List.append_nil, MountSummary.better,
        if_neg hsees]

theorem findCoveringMount_eq (mounts : List MountSummary) (path : List Char) :
    findCoveringMount mounts path =
      (mounts.filter (·.sees path)).argmax fun m => utf16Length (trimEnd m.destination) := by
  rw [findCoveringMount, foldl_better]

theorem summary_injective : Function.Injective DockerMount.summary := by
  rintro ⟨t, n, s, d, rw⟩ ⟨t', n', s', d', rw'⟩ h
  injection h with ht hs hd hrw hn
  cases ht
  cases Option.some.inj hs
  cases hd
  cases hn
  cases Bool.not_inj hrw
  rfl

/-- The mount that the client uses, among those of the desktop application. -/
theorem findCoveringMount_summary (mounts : List DockerMount) (root : List Char) :
    findCoveringMount (mounts.map (·.summary)) root =
      ((mounts.filter fun m => m.summary.sees root).argmax
        fun m => utf16Length (trimEnd m.destination)).map (·.summary) := by
  rw [findCoveringMount_eq, List.filter_map, List.argmax_map]
  rfl

/-! ### The mount that both use -/

section Judged

variable {backingHash : List Char → List Char} {root path : List Char}
  {mounts : List DockerMount} {m : DockerMount}

theorem deepestCoveringMount_eq_some_iff : deepestCoveringMount path mounts = some m ↔
    pathCovers (trimEnd m.destination) path = true ∧
      List.IsLastMax (fun m => utf8Length m.destination)
        (fun m => pathCovers (trimEnd m.destination) path) mounts m :=
  List.maxByKey_filter_eq_some_iff

/-- Nothing is used where nothing covers the root. -/
theorem picks_none (hroot : normalizeAbsolutePath root = .ok path)
    (hnone : ∀ m ∈ mounts, ¬ Covers m.destination path) :
    deepestCoveringMount path mounts = none ∧
      findCoveringMount (mounts.map (·.summary)) root = none := by
  have habs : ['/'] <+: root := (normalizeAbsolutePath_ok_iff.mp hroot).1.2.1
  have habs' := normalizeAbsolutePath_absolute hroot
  constructor
  · rw [deepestCoveringMount, List.maxByKey_eq_none, List.filter_eq_nil_iff]
    exact fun m hm h => hnone m hm (covers_of_pathCovers habs' h)
  · rw [findCoveringMount_summary, Option.map_eq_none_iff, List.argmax_eq_none,
      List.filter_eq_nil_iff]
    intro m hm h
    have hcovers : Covers m.destination root := covers_of_sees habs h
    refine hnone m hm ⟨hcovers.1, ?_⟩
    rw [components_normalizeAbsolutePath hroot]
    exact hcovers.2

/-- **Both use the mount that covers a root most deeply exactly when none covers it, or such a
mount covers it by its text for both, and is the last of those that are longest as they are
written and the first of those that are longest without the slashes at their ends.** -/
theorem judgedByDeepest_iff : JudgedByDeepest backingHash root mounts ↔
    ∀ path, normalizeAbsolutePath root = .ok path →
      (∀ m ∈ mounts, ¬ Covers m.destination path) ∨
      ∃ m, Deepest mounts path m ∧
        (pathCovers (trimEnd m.destination) path = true ∧
          List.IsLastMax (fun m => utf8Length m.destination)
            (fun m => pathCovers (trimEnd m.destination) path) mounts m) ∧
        m.summary.sees root = true ∧
          List.IsFirstMax (fun m => utf16Length (trimEnd m.destination))
            (fun m => m.summary.sees root) mounts m := by
  refine forall_congr' fun path => forall_congr' fun hroot => ?_
  have hfacts : persistenceFacts backingHash root mounts =
      mountFacts backingHash (deepestCoveringMount path mounts) := by
    rw [persistenceFacts, hroot]
    rfl
  constructor
  · rintro ⟨pick, -, hpick, hdeepest, hnone, hclient⟩
    cases pick with
    | none => exact .inl (hnone rfl)
    | some m =>
      -- what the client is sent of a mount tells it from all others
      refine .inr ⟨m, hdeepest m rfl, deepestCoveringMount_eq_some_iff.mp hpick.symm, ?_⟩
      rw [findCoveringMount_summary] at hclient
      exact List.argmax_filter_eq_some_iff.mp (Option.map_injective summary_injective hclient)
  · rintro (hnone | ⟨m, hdeepest, hdesktop, hclient⟩)
    · obtain ⟨hdesktop, hclient⟩ := picks_none hroot hnone
      rw [hdesktop] at hfacts
      refine ⟨none, hfacts, hdesktop.symm, fun m h => ?_, fun _ => hnone, hclient⟩
      cases h
    · have hpick := deepestCoveringMount_eq_some_iff.mpr hdesktop
      rw [hpick] at hfacts
      refine ⟨some m, hfacts, hpick.symm, ?_, fun h => ?_, ?_⟩
      · rintro m' ⟨⟩
        exact hdeepest
      · cases h
      · rw [findCoveringMount_summary, List.argmax_filter_eq_some_iff.mpr hclient]

end Judged

/-- A volume on the root, and a file system in memory that is mounted above it. -/
def mountedAbove : List DockerMount :=
  [⟨"volume", some "data".toList, "/volumes/data".toList, "/data/project".toList, true⟩,
    ⟨"tmpfs", none, [], "/data/////////".toList, true⟩]

/-- **The desktop application takes the mount above, with slashes at its end, for the deepest**,
and the client does not. -/
theorem not_judgedByDeepest :
    ¬ JudgedByDeepest id "/data/project/pantoken".toList mountedAbove := by
  intro h
  obtain ⟨pick, -, hpick, -, -, hclient⟩ := h "/data/project/pantoken".toList (by decide)
  rw [hpick] at hclient
  revert hclient
  decide

end Pantoken.Desktop
