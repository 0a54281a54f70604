import Pantoken.Desktop.RemoteRoot

/-!
# Paths below a remote root

Where a release and a tool are installed is derived from the root, a version and a target.
These are strings of a manifest or a host, and are joined to the directory as paths: what is
absolute replaces it, what has several components descends, and a parent is refused.

## Main definitions

* `validateLayout`, `sanitizeOrErr` — the checks of a root and of an input.
* `releaseArtifact`, `polytokenBinary` — the derived paths, both of them `derive`.
* `Inside` — a path that is strictly below a directory, component by component.

## Main results

* `derived_inside_iff` — **a derived path is inside exactly where no absolute input leads out of
  the directory, and names are told apart.**
-/

namespace Pantoken.Remote


inductive LayoutError
  | emptyRoot
  | relativeRoot
  | traversalInRoot
  | traversalInInput (input : List Char)
  deriving DecidableEq

/-- `validate_layout` -/
def validateLayout (root : List Char) : Except LayoutError Unit :=
  if root = [] then .error .emptyRoot
  else if ¬ ['/'] <+: root then .error .relativeRoot
  else if "..".toList ∈ components root then .error .traversalInRoot
  else .ok ()

/-- `sanitize_or_err` -/
def sanitizeOrErr (input : List Char) : Except LayoutError (List Char) :=
  if "..".toList ∈ components input then .error (.traversalInInput input) else .ok input

/-- `releases_dir` -/
def releasesDir (root : List Char) : List Char := joinPath root "releases".toList

/-- `tools_dir` -/
def toolsDir (root : List Char) : List Char := joinPath root "tools".toList

/-- A file in a directory, by version and target. -/
def derive (dir file version target : List Char) : Except LayoutError (List Char) := do
  let version ← sanitizeOrErr version
  let target ← sanitizeOrErr target
  return joinPath (joinPath (joinPath dir version) target) file

/-- `release_artifact` -/
def releaseArtifact (root version target : List Char) : Except LayoutError (List Char) :=
  derive (releasesDir root) "pantoken-server".toList version target

/-- `tools/polytoken`, where `polytoken_binary` starts. -/
def polytokenTools (root : List Char) : List Char := joinPath (toolsDir root) "polytoken".toList

/-- `polytoken_binary` -/
def polytokenBinary (root version target : List Char) : Except LayoutError (List Char) :=
  derive (polytokenTools root) "polytoken".toList version target

/-- The installs of a remote attempt are at these paths. -/
theorem releaseArtifact_triple (root : List Char) (target : Desktop.Target) :
    releaseArtifact root Desktop.releaseVersion target.triple =
      .ok (Desktop.releaseArtifact root target) := by
  cases target <;> rfl

theorem polytokenBinary_triple (root : List Char) (target : Desktop.Target) :
    polytokenBinary root Desktop.polytokenVersion target.triple =
      .ok (Desktop.polytokenBinary root target) := by
  cases target <;> rfl

/-! ### Components -/

/-- The path is absolute and strictly below the directory, and does not climb. -/
def Inside (dir p : List Char) : Prop :=
  ['/'] <+: p ∧ ∃ names, names ≠ [] ∧ "..".toList ∉ names ∧ components p = components dir ++ names

/-- One of the inputs climbs, and is refused. -/
def Climbs (version target : List Char) : Prop :=
  "..".toList ∈ components version ∨ "..".toList ∈ components target

/-- What is left of the directory under an absolute input: the last absolute one of them
replaces all before it, and has to name the directory itself. -/
def StaysIn (dir version target : List Char) : Prop :=
  if ['/'] <+: target then components dir <+: components target
  else ['/'] <+: version → components dir <+: components version ++ components target

section Components

variable {root dir file version target p q name : List Char}

theorem sanitizeOrErr_ok (h : "..".toList ∉ components p) : sanitizeOrErr p = .ok p := by
  rw [sanitizeOrErr, if_neg h]

theorem derive_ok_iff : derive dir file version target = .ok p ↔
    ¬ Climbs version target ∧ p = joinPath (joinPath (joinPath dir version) target) file := by
  unfold derive Climbs
  -- the version is checked first
  by_cases hversion : "..".toList ∈ components version
  · rw [sanitizeOrErr, if_pos hversion]
    exact ⟨(by rintro ⟨⟩), fun h => absurd (.inl hversion) h.1⟩
  · by_cases htarget : "..".toList ∈ components target
    · rw [sanitizeOrErr_ok hversion, sanitizeOrErr, if_pos htarget]
      exact ⟨(by rintro ⟨⟩), fun h => absurd (.inr htarget) h.1⟩
    · rw [sanitizeOrErr_ok hversion, sanitizeOrErr_ok htarget]
      constructor
      · rintro ⟨⟩
        exact ⟨not_or.mpr ⟨hversion, htarget⟩, rfl⟩
      · rintro ⟨-, rfl⟩
        rfl

/-- The names between the directory and the file. -/
def between (dir version target : List Char) : List (List Char) :=
  if ['/'] <+: target then components target
  else (if ['/'] <+: version then components version else components dir ++ components version) ++
    components target

theorem components_derived (hdir : ['/'] <+: dir) (hfile : components file = [file])
    (habs : ¬ ['/'] <+: file) :
    components (joinPath (joinPath (joinPath dir version) target) file) =
      between dir version target ++ [file] := by
  have hversion := absolute_joinPath hdir version
  rw [components_joinPath_eq (absolute_joinPath hversion target), if_neg habs, hfile,
    components_joinPath_eq hversion, components_joinPath_eq hdir]
  rfl

theorem prefix_between_iff :
    components dir <+: between dir version target ↔ StaysIn dir version target := by
  unfold between StaysIn
  by_cases htarget : ['/'] <+: target
  · rw [if_pos htarget, if_pos htarget]
  · rw [if_neg htarget, if_neg htarget]
    by_cases hversion : ['/'] <+: version
    · rw [if_pos hversion]
      exact ⟨fun h _ => h, fun h => h hversion⟩
    · rw [if_neg hversion, List.append_assoc]
      exact ⟨fun _ h => absurd h hversion, fun _ => List.prefix_append _ _⟩

theorem dots_between (hdir : "..".toList ∉ components dir) (h : ¬ Climbs version target) :
    "..".toList ∉ between dir version target := by
  obtain ⟨hversion, htarget⟩ := not_or.mp h
  unfold between
  split_ifs <;> simp only [List.mem_append, hdir, hversion, htarget, or_self, not_false_eq_true]

/-- A derived path is inside where the names before the file begin with the directory's. -/
theorem inside_derived_iff (hdir : ['/'] <+: dir) (hdots : "..".toList ∉ components dir)
    (hfile : components file = [file]) (habs : ¬ ['/'] <+: file) (hdot : file ≠ "..".toList)
    (h : ¬ Climbs version target) :
    Inside dir (joinPath (joinPath (joinPath dir version) target) file) ↔
      StaysIn dir version target := by
  rw [← prefix_between_iff, Inside, components_derived hdir hfile habs]
  constructor
  · -- the last of the names is the file
    rintro ⟨-, names, hne, -, heq⟩
    obtain ⟨front, last, rfl⟩ := List.eq_nil_or_concat names |>.resolve_left hne
    rw [List.concat_eq_append, ← List.append_assoc] at heq
    exact ⟨front, (List.append_inj_left' heq rfl).symm⟩
  · -- what is left of them, and the file, are names below the directory
    rintro ⟨rest, hrest⟩
    have hclimb := dots_between hdots h
    rw [← hrest, List.mem_append, not_or] at hclimb
    refine ⟨absolute_joinPath (absolute_joinPath (absolute_joinPath hdir version) target) file,
      rest ++ [file], by simp, ?_, by rw [← hrest, List.append_assoc]⟩
    rw [List.mem_append, not_or, List.mem_singleton]
    exact ⟨hclimb.2, hdot.symm⟩

/-- A name alone is not absolute. -/
theorem not_absolute_of_name (h : components name = [name]) : ¬ ['/'] <+: name := by
  rintro ⟨rest, rfl⟩
  have hmem : '/' :: rest ∈ components ('/' :: rest) := by
    rw [show ['/'] ++ rest = '/' :: rest from rfl] at h
    rw [h]
    exact List.mem_singleton_self _
  exact (mem_components hmem).2.2 List.mem_cons_self

theorem between_names (hversion : components version = [version])
    (htarget : components target = [target]) :
    between dir version target = components dir ++ [version, target] := by
  rw [between, if_neg (not_absolute_of_name htarget), if_neg (not_absolute_of_name hversion),
    hversion, htarget, List.append_assoc]
  rfl

end Components

/-! ### Derived paths -/

/-- Different pairs of names give different paths. -/
def TellsApart (f : List Char → List Char → Except LayoutError (List Char)) : Prop :=
  ∀ version target version' target' p p', components version = [version] →
    components target = [target] → components version' = [version'] →
    components target' = [target'] → (version, target) ≠ (version', target') →
    f version target = .ok p → f version' target' = .ok p' → components p ≠ components p'

section Derived

variable {root dir file version target : List Char}

theorem validateLayout_ok (h : validateLayout root = .ok ()) :
    ['/'] <+: root ∧ "..".toList ∉ components root := by
  unfold validateLayout at h
  split_ifs at h with hempty habs hdots
  exact ⟨habs, hdots⟩

/-- A directory of the layout is absolute and does not climb, as its root. -/
theorem joinPath_root (hroot : ['/'] <+: root ∧ "..".toList ∉ components root)
    (name : List Char) (hname : components name = [name]) (hdots : name ≠ "..".toList) :
    ['/'] <+: joinPath root name ∧ "..".toList ∉ components (joinPath root name) := by
  refine ⟨absolute_joinPath hroot.1 name, ?_⟩
  rw [components_joinPath_eq hroot.1, if_neg (not_absolute_of_name hname), hname, List.mem_append,
    not_or, List.mem_singleton]
  exact ⟨hroot.2, hdots.symm⟩

theorem derive_inside_iff (hdir : ['/'] <+: dir ∧ "..".toList ∉ components dir)
    (hfile : components file = [file]) (hdot : file ≠ "..".toList) (version target : List Char) :
    (∀ p, derive dir file version target = .ok p → Inside dir p) ↔
      Climbs version target ∨ StaysIn dir version target := by
  have habs := not_absolute_of_name hfile
  by_cases hclimbs : Climbs version target
  · exact iff_of_true (fun p hp => absurd hclimbs (derive_ok_iff.mp hp).1) (.inl hclimbs)
  · rw [or_iff_right hclimbs, ← inside_derived_iff hdir.1 hdir.2 hfile habs hdot hclimbs]
    constructor
    · exact fun h => h _ (derive_ok_iff.mpr ⟨hclimbs, rfl⟩)
    · intro h p hp
      rw [(derive_ok_iff.mp hp).2]
      exact h

theorem derive_tellsApart (hdir : ['/'] <+: dir) (hfile : components file = [file]) :
    TellsApart (derive dir file) := by
  intro version target version' target' p p' hv ht hv' ht' hne hp hp' heq
  have habs := not_absolute_of_name hfile
  rw [(derive_ok_iff.mp hp).2, (derive_ok_iff.mp hp').2, components_derived hdir hfile habs,
    components_derived hdir hfile habs, between_names hv ht, between_names hv' ht',
    List.append_left_inj, List.append_right_inj, List.cons.injEq, List.cons.injEq] at heq
  exact hne (Prod.ext heq.1 heq.2.1)

/-- **A derived path is inside its directory exactly where no absolute input leads out of it**,
and different pairs of names have different paths. -/
theorem derived_inside_iff (h : validateLayout root = .ok ()) :
    (∀ version target, (∀ p, releaseArtifact root version target = .ok p →
      Inside (releasesDir root) p) ↔
        Climbs version target ∨ StaysIn (releasesDir root) version target) ∧
    (∀ version target, (∀ p, polytokenBinary root version target = .ok p →
      Inside (polytokenTools root) p) ↔
        Climbs version target ∨ StaysIn (polytokenTools root) version target) ∧
    TellsApart (releaseArtifact root) ∧ TellsApart (polytokenBinary root) := by
  have hroot := validateLayout_ok h
  have hreleases := joinPath_root hroot "releases".toList (by decide) (by decide)
  have htools := joinPath_root hroot "tools".toList (by decide) (by decide)
  have hpolytoken := joinPath_root htools "polytoken".toList (by decide) (by decide)
  exact ⟨derive_inside_iff hreleases (by decide) (by decide),
    derive_inside_iff hpolytoken (by decide) (by decide),
    derive_tellsApart hreleases.1 (by decide), derive_tellsApart hpolytoken.1 (by decide)⟩

end Derived

/-- A version of the manifest stays inside. -/
theorem derived_inside_manifest :
    validateLayout "/opt/pantoken".toList = .ok () ∧
      ∀ p, releaseArtifact "/opt/pantoken".toList "0.2.88".toList "x86_64".toList = .ok p →
        Inside (releasesDir "/opt/pantoken".toList) p :=
  ⟨by decide, ((derived_inside_iff (by decide)).1 _ _).mpr
    (.inr (by rw [StaysIn, if_neg (by decide)]; exact fun h => absurd h (by decide)))⟩

/-- An absolute version is the path itself. -/
theorem not_derived_inside :
    validateLayout "/opt/pantoken".toList = .ok () ∧
      releaseArtifact "/opt/pantoken".toList "/etc".toList "x86_64".toList =
        .ok "/etc/x86_64/pantoken-server".toList ∧
      ¬ Inside (releasesDir "/opt/pantoken".toList) "/etc/x86_64/pantoken-server".toList := by
  refine ⟨by decide, by decide, ?_⟩
  rintro ⟨-, names, -, -, h⟩
  have hprefix : components (releasesDir "/opt/pantoken".toList) <+:
      components "/etc/x86_64/pantoken-server".toList := ⟨names, h.symm⟩
  exact absurd hprefix (by decide)

end Pantoken.Remote
