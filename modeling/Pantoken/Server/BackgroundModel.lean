import Mathlib.Data.Char
import Mathlib.Data.List.Lex
import Pantoken.Desktop.Persistence
import Pantoken.Polytoken.ModelListing
import Pantoken.Server.Slicing

/-!
# The background model

A setting names a model, perhaps with a thinking level after a colon.  The server looks for
the whole text among the models, first as an id and then inside ids and labels, and takes one
suffix after the other away until something is found.

## Main definitions

* `hasTrailingDate?`, `isAlias?`, `tryMatchModel?`, `parseSpec?`, `resolveBackgroundModel?` — the
  resolver; `none` is a panic.
* `reference` — the part of a setting that some model matches, and the suffixes behind it.
* `Sound` — what the result should be, under every order of the models.
* `Settled` — the reference decides, and without a panic.

## Main results

* `parseSpec?_of_reference` — what is resolved is the reference, and what is said of the rest.
* `resolvesSoundly_iff` — **a setting is resolved soundly exactly when its reference is settled
  and not two suffixes are taken away of which the last one is a level.**
* `not_resolvesSoundly` — an id that has a letter of two bytes nine bytes before its end.
-/

namespace Pantoken
namespace BackgroundModel

open Cut (isWhitespace)

/-! ### The resolver -/

structure ResolvedBackgroundModel where
  model : Option ModelOption := none
  thinkingLevel : Option (List Char) := none
  warning : Option (List Char) := none

def validThinkingLevels : List (List Char) :=
  ["off".toList, "minimal".toList, "low".toList, "medium".toList, "high".toList, "xhigh".toList]

def scriptPrefix : List Char := "script:".toList

def hasTrailingDate? (id : List Char) : Option Bool :=
  if byteLength id < 9 then some false
  else
    (sliceFrom id (byteLength id - 9)).map fun tail =>
      match tail with
      | '-' :: rest => rest.all Char.isDigit
      | _ => false

def isAlias? (id : List Char) : Option Bool :=
  if "-latest".toList <:+ id then some true else (hasTrailingDate? id).map (!·)

/-- `matches[0]`, when `matches.len() == 1` -/
def onlyOne {α : Type*} : List α → Option α
  | [a] => some a
  | _ => none

theorem onlyOne_eq_some {α : Type*} {l : List α} {a : α} : onlyOne l = some a ↔ l = [a] := by
  unfold onlyOne
  split
  · simp
  · next hnot => exact iff_of_false (fun h => by cases h) (hnot a)

theorem onlyOne_perm {α : Type*} {l l' : List α} (h : l.Perm l') : onlyOne l = onlyOne l' := by
  refine Option.ext fun a => ?_
  rw [onlyOne_eq_some, onlyOne_eq_some]
  constructor
  · rintro rfl
    exact (List.singleton_perm.mp h).symm
  · rintro rfl
    exact List.perm_singleton.mp h

def findExactModelReferenceMatch (u : Lowercase) (reference : List Char)
    (models : List ModelOption) : Option ModelOption :=
  let trimmed := Cut.trim isWhitespace reference
  if trimmed = [] then none
  else
    onlyOne (models.filter fun m => u.toLowercase m.modelId = u.toLowercase trimmed)

/-- The id or the label contains the pattern. -/
def Contains (u : Lowercase) (pattern : List Char) (m : ModelOption) : Prop :=
  u.toLowercase pattern <:+: u.toLowercase m.modelId ∨
    u.toLowercase pattern <:+: u.toLowercase m.label

instance (u : Lowercase) (pattern : List Char) (m : ModelOption) :
    Decidable (Contains u pattern m) :=
  inferInstanceAs (Decidable (_ ∨ _))

/-- A panic of `is_alias` at one of the matches is one of the whole. -/
def tryMatchModel? (u : Lowercase) (pattern : List Char) (models : List ModelOption) :
    Option (Option ModelOption) :=
  match findExactModelReferenceMatch u pattern models with
  | some exact => some (some exact)
  | none =>
    let found := models.filter fun m => Contains u pattern m
    if ∃ m ∈ found, isAlias? m.modelId = none then none
    else
      let aliases := found.filter fun m => isAlias? m.modelId = some true
      let dated := found.filter fun m => isAlias? m.modelId = some false
      some ((if aliases ≠ [] then aliases else dated).maxByKey (·.modelId))

/-- What is before the last colon and after it, when that colon is after the first slash. -/
def splitSuffix (spec : List Char) : Option (List Char × List Char) :=
  match spec.reverse.dropWhile (· ≠ ':') with
  | [] => none
  | _ :: front =>
    if '/' ∉ spec ∨ '/' ∈ front then
      some (front.reverse, (spec.reverse.takeWhile (· ≠ ':')).reverse)
    else none

theorem splitSuffix_eq_some {spec front suffix : List Char}
    (h : splitSuffix spec = some (front, suffix)) :
    spec = front ++ ':' :: suffix := by
  unfold splitSuffix at h
  split at h
  · cases h
  · next c rest hdrop =>
    have hc : c = ':' := by
      have := List.head?_dropWhile_not (· ≠ ':') spec.reverse
      rw [hdrop] at this
      simpa using this
    have hspec := List.takeWhile_append_dropWhile (p := (· ≠ ':')) (l := spec.reverse)
    rw [hdrop, hc] at hspec
    split at h
    · obtain ⟨rfl, rfl⟩ := Prod.mk.inj (Option.some.inj h)
      rw [← List.reverse_inj, List.reverse_append, List.reverse_cons, List.reverse_reverse,
        List.reverse_reverse, List.append_assoc, List.singleton_append]
      exact hspec.symm
    · cases h

theorem length_of_splitSuffix {spec front suffix : List Char}
    (h : splitSuffix spec = some (front, suffix)) : front.length < spec.length := by
  rw [splitSuffix_eq_some h, List.length_append, List.length_cons]
  omega

def validList : List Char := ", ".toList.intercalate validThinkingLevels

def notFound (spec : List Char) : List Char :=
  "No registered model matches \"".toList ++ spec ++
    "\". Check the model id, or connect the provider first.".toList

def invalidLevel (spec suffix : List Char) : List Char :=
  "Invalid thinking level \"".toList ++ suffix ++ "\" in spec \"".toList ++ spec ++
    "\" — dropped; valid: ".toList ++ validList ++ ".".toList

def notFoundInvalid (spec suffix : List Char) : List Char :=
  "No registered model matches \"".toList ++ spec ++ "\" (invalid thinking level \"".toList ++
    suffix ++ "\" dropped; valid: ".toList ++ validList ++ ").".toList

def parseSpec? (u : Lowercase) (models : List ModelOption) (spec : List Char) :
    Option ResolvedBackgroundModel :=
  match tryMatchModel? u spec models with
  | none => none
  | some (some exact) => some { model := some exact }
  | some none =>
    match h : splitSuffix spec with
    | none => some { warning := some (notFound spec) }
    | some (front, suffix) =>
      have := length_of_splitSuffix h
      (parseSpec? u models front).map fun inner =>
        if suffix ∈ validThinkingLevels then
          if inner.model.isSome then { model := inner.model, thinkingLevel := some suffix }
          else { warning := some (notFound spec) }
        else if inner.model.isSome then
          { model := inner.model, warning := some (invalidLevel spec suffix) }
        else { warning := some (notFoundInvalid spec suffix) }
termination_by spec.length

def resolveScriptSpec (scriptPath : List Char) : ResolvedBackgroundModel where
  warning := some ("Background-model script resolution (\"".toList ++ scriptPath ++
    "\") is not yet ported to the Rust server.".toList)

/-- The setting, when it is set. -/
def specOf (backgroundModel : Option (List Char)) : Option (List Char) :=
  (backgroundModel.map (Cut.trim isWhitespace)).filter (· ≠ [])

def resolveBackgroundModel? (u : Lowercase) (backgroundModel : Option (List Char))
    (models : List ModelOption) : Option ResolvedBackgroundModel :=
  match specOf backgroundModel with
  | none => some {}
  | some spec =>
    match Cut.stripPrefix scriptPrefix spec with
    | some path => some (resolveScriptSpec (Cut.trim isWhitespace path))
    | none => parseSpec? u models spec

/-! ### What is asked of it -/

/-- The reference is the id, but for case and blanks. -/
def Named (u : Lowercase) (p : List Char) (m : ModelOption) : Prop :=
  Cut.trim isWhitespace p ≠ [] ∧
    u.toLowercase m.modelId = u.toLowercase (Cut.trim isWhitespace p)

/-- Something is found for the whole text. -/
def Found (u : Lowercase) (models : List ModelOption) (p : List Char) : Prop :=
  (findExactModelReferenceMatch u p models).isSome = true ∨ ∃ m ∈ models, Contains u p m

instance (u : Lowercase) (models : List ModelOption) (p : List Char) :
    Decidable (Found u models p) :=
  inferInstanceAs (Decidable (_ ∨ _))

/-- The longest part of a setting for which something is found, and the suffixes behind it, the
last of them first. -/
def reference (u : Lowercase) (models : List ModelOption) (spec : List Char) :
    Option (List Char × List (List Char)) :=
  if Found u models spec then some (spec, [])
  else
    match h : splitSuffix spec with
    | none => none
    | some (front, suffix) =>
      have := length_of_splitSuffix h
      (reference u models front).map fun (p, cuts) => (p, suffix :: cuts)
termination_by spec.length

/-- What a result should be. -/
structure ResolvedBackgroundModel.Sound (u : Lowercase) (backgroundModel : Option (List Char))
    (models : List ModelOption) (r : ResolvedBackgroundModel) : Prop where
  model : ∀ m ∈ r.model, ∃ spec ∈ specOf backgroundModel, ∃ p cuts,
    reference u models spec = some (p, cuts) ∧ m ∈ models ∧ p ≠ [] ∧
      (Named u p m ∨ Contains u p m) ∧ ((∃ m' ∈ models, Named u p m') → Named u p m)
  level : ∀ l ∈ r.thinkingLevel, l ∈ validThinkingLevels ∧
    ∃ spec ∈ specOf backgroundModel, ∃ front, spec = front ++ ':' :: l
  dated : ∀ m ∈ r.model, isAlias? m.modelId = some false →
    ∀ spec ∈ specOf backgroundModel, ∀ p cuts, reference u models spec = some (p, cuts) →
      ∀ m' ∈ models, Contains u p m' → isAlias? m'.modelId ≠ some true
  warning : r.warning.isSome = true ↔ ∃ spec ∈ specOf backgroundModel, r.model = none ∨
    ∃ p cuts, reference u models spec = some (p, cuts) ∧ cuts ≠ r.thinkingLevel.toList

/-- The resolver does not panic, whatever the order of the models is, and its one result is
as it should be. -/
def Sound (u : Lowercase) (backgroundModel : Option (List Char)) (models : List ModelOption) :
    Prop :=
  ∃ r : ResolvedBackgroundModel, r.Sound u backgroundModel models ∧
    ∀ models', models'.Perm models →
      resolveBackgroundModel? u backgroundModel models' = some r

/-- The second model is an alias when the first one is, and its id is not below then. -/
def Below (m m' : ModelOption) : Prop :=
  (isAlias? m.modelId = some true → isAlias? m'.modelId = some true) ∧
    (isAlias? m.modelId = isAlias? m'.modelId → m.modelId ≤ m'.modelId)

/-- The reference decides: one id is the reference, and no alias contains it if it is dated; or
it is not empty, the dates of what contains it can be read, and the preferred one of these is
named by it if any model is. -/
def Settled (u : Lowercase) (models : List ModelOption) (p : List Char) : Prop :=
  match findExactModelReferenceMatch u p models with
  | some m => isAlias? m.modelId = some false →
      ∀ m' ∈ models, Contains u p m' → isAlias? m'.modelId ≠ some true
  | none => p ≠ [] ∧ (∀ m ∈ models, Contains u p m → isAlias? m.modelId ≠ none) ∧
      ((∃ m ∈ models, Named u p m) → ∃ m ∈ models, Named u p m ∧ Contains u p m ∧
        ∀ m' ∈ models, Contains u p m' → Below m' m)

/-- The condition. -/
def Holds (u : Lowercase) (backgroundModel : Option (List Char)) (models : List ModelOption) :
    Prop :=
  ∀ spec ∈ specOf backgroundModel, ¬ scriptPrefix <+: spec →
    ∀ p cuts, reference u models spec = some (p, cuts) →
      Settled u models p ∧ ∀ s s' rest, cuts = s :: s' :: rest → s ∉ validThinkingLevels

/-! ### Matching -/

section Matching

variable {u : Lowercase} {models : List ModelOption} {p spec : List Char} {m : ModelOption}

theorem findExact_eq_some (h : findExactModelReferenceMatch u p models = some m) :
    m ∈ models ∧ Named u p m ∧ ∀ m' ∈ models, Named u p m' → m' = m := by
  unfold findExactModelReferenceMatch at h
  dsimp only at h
  split at h
  · cases h
  · next htrim =>
    have hfilter := onlyOne_eq_some.mp h
    have hmem : ∀ m', m' ∈ [m] ↔ m' ∈ models ∧
        decide (u.toLowercase m'.modelId = u.toLowercase (Cut.trim isWhitespace p)) = true :=
      fun m' => by rw [← hfilter, List.mem_filter]
    obtain ⟨hm, hname⟩ := (hmem m).mp (List.mem_singleton_self m)
    refine ⟨hm, ⟨htrim, of_decide_eq_true hname⟩, fun m' hm' hnamed => ?_⟩
    exact List.mem_singleton.mp ((hmem m').mpr ⟨hm', decide_eq_true hnamed.2⟩)

theorem findExact_perm {models' : List ModelOption} (h : models'.Perm models) :
    findExactModelReferenceMatch u p models' = findExactModelReferenceMatch u p models := by
  unfold findExactModelReferenceMatch
  dsimp only
  rw [onlyOne_perm (h.filter _)]

/-- `max_by` finds one of the greatest. -/
theorem exists_maxByKey {α β : Type*} [LinearOrder β] (f : α → β) {l : List α} (hne : l ≠ []) :
    ∃ a, l.maxByKey f = some a ∧ a ∈ l ∧ ∀ b ∈ l, f b ≤ f a := by
  obtain ⟨a, ha⟩ := Option.ne_none_iff_exists'.mp (mt (List.maxByKey_eq_none (f := f)).mp hne)
  have hmax : a ∈ l.reverse.argmax f := ha
  exact ⟨a, ha, List.mem_reverse.mp (List.argmax_mem hmax), fun b hb =>
    List.le_of_mem_argmax (List.mem_reverse.mpr hb) hmax⟩

/-- The best of the models that contain the text. -/
structure Best (u : Lowercase) (models : List ModelOption) (p : List Char) (m : ModelOption) :
    Prop where
  mem : m ∈ models
  contains : Contains u p m
  below : ∀ m' ∈ models, Contains u p m' → Below m' m

theorem tryMatchModel?_of_exact (h : findExactModelReferenceMatch u p models = some m) :
    tryMatchModel? u p models = some (some m) := by
  rw [tryMatchModel?, h]

theorem tryMatchModel?_eq_none_iff (h : findExactModelReferenceMatch u p models = none) :
    tryMatchModel? u p models = none ↔
      ∃ m ∈ models, Contains u p m ∧ isAlias? m.modelId = none := by
  rw [tryMatchModel?, h]
  simp only [List.mem_filter, decide_eq_true_eq, and_assoc, ite_eq_left_iff, reduceCtorEq,
    imp_false, not_not]

/-- **What contains the text is searched for its best.** -/
theorem tryMatchModel?_of_contains (h : findExactModelReferenceMatch u p models = none)
    (hclean : ∀ m ∈ models, Contains u p m → isAlias? m.modelId ≠ none)
    (hfound : ∃ m ∈ models, Contains u p m) :
    ∃ m, tryMatchModel? u p models = some (some m) ∧ Best u models p m := by
  have hnone : ¬ ∃ m ∈ models.filter fun m => Contains u p m, isAlias? m.modelId = none := by
    rintro ⟨m, hm, halias⟩
    obtain ⟨hm, hcontains⟩ := List.mem_filter.mp hm
    exact hclean m hm (of_decide_eq_true hcontains) halias
  have hmem : ∀ {q : Option Bool} {m : ModelOption},
      m ∈ (models.filter fun m => Contains u p m).filter (fun m => isAlias? m.modelId = q) ↔
        m ∈ models ∧ Contains u p m ∧ isAlias? m.modelId = q := by
    simp only [List.mem_filter, decide_eq_true_eq, and_assoc, implies_true]
  rw [tryMatchModel?, h]
  dsimp only
  rw [if_neg hnone]
  by_cases haliases : ((models.filter fun m => Contains u p m).filter fun m =>
      isAlias? m.modelId = some true) = []
  · -- none of them is an alias
    have hdated : ∀ m ∈ models, Contains u p m → isAlias? m.modelId = some false := by
      intro m hm hcontains
      have htrue : isAlias? m.modelId ≠ some true := fun halias =>
        List.not_mem_nil (haliases ▸ hmem.mpr ⟨hm, hcontains, halias⟩)
      cases halias : isAlias? m.modelId with
      | none => exact absurd halias (hclean m hm hcontains)
      | some b =>
        cases b with
        | false => rfl
        | true => exact absurd halias htrue
    rw [if_neg (not_not.mpr haliases)]
    obtain ⟨m₀, hm₀, hcontains₀⟩ := hfound
    have hne := List.ne_nil_of_mem (hmem.mpr ⟨hm₀, hcontains₀, hdated m₀ hm₀ hcontains₀⟩)
    obtain ⟨m, hmax, hm, hle⟩ := exists_maxByKey (·.modelId) hne
    obtain ⟨hm, hcontains, halias⟩ := hmem.mp hm
    refine ⟨m, congrArg some hmax, hm, hcontains, fun m' hm' hcontains' => ⟨fun htrue => ?_, ?_⟩⟩
    · rw [hdated m' hm' hcontains'] at htrue
      cases htrue
    · exact fun _ => hle m' (hmem.mpr ⟨hm', hcontains', hdated m' hm' hcontains'⟩)
  · rw [if_pos haliases]
    obtain ⟨m, hmax, hm, hle⟩ := exists_maxByKey (·.modelId) haliases
    obtain ⟨hm, hcontains, halias⟩ := hmem.mp hm
    refine ⟨m, congrArg some hmax, hm, hcontains, fun m' hm' hcontains' => ⟨fun _ => halias, ?_⟩⟩
    exact fun heq => hle m' (hmem.mpr ⟨hm', hcontains', heq.trans halias⟩)

theorem tryMatchModel?_of_not_found (h : ¬ Found u models p) :
    tryMatchModel? u p models = some none := by
  obtain ⟨hexact, hcontains⟩ := not_or.mp h
  have hnil : (models.filter fun m => Contains u p m) = [] :=
    List.filter_eq_nil_iff.mpr fun m hm hm' => hcontains ⟨m, hm, of_decide_eq_true hm'⟩
  rw [tryMatchModel?, Option.not_isSome_iff_eq_none.mp hexact, hnil]
  rfl

theorem tryMatchModel?_of_found (h : Found u models p) : tryMatchModel? u p models ≠ some none := by
  cases hexact : findExactModelReferenceMatch u p models with
  | some m =>
    rw [tryMatchModel?_of_exact hexact]
    simp
  | none =>
    have hfound : ∃ m ∈ models, Contains u p m := h.resolve_left (by rw [hexact]; decide)
    by_cases hclean : ∀ m ∈ models, Contains u p m → isAlias? m.modelId ≠ none
    · obtain ⟨m, htry, -⟩ := tryMatchModel?_of_contains hexact hclean hfound
      rw [htry]
      simp
    · push Not at hclean
      rw [(tryMatchModel?_eq_none_iff hexact).mpr hclean]
      simp

/-- There is one best model, as the ids are different. -/
theorem Best.unique (hnodup : (models.map (·.modelId)).Nodup) {m' : ModelOption}
    (h : Best u models p m) (h' : Best u models p m') (hread : isAlias? m.modelId ≠ none)
    (hread' : isAlias? m'.modelId ≠ none) : m = m' := by
  have hb := h.below m' h'.mem h'.contains
  have hb' := h'.below m h.mem h.contains
  have halias : isAlias? m.modelId = isAlias? m'.modelId := by
    cases hm : isAlias? m.modelId with
    | none => exact absurd hm hread
    | some b =>
      cases hm' : isAlias? m'.modelId with
      | none => exact absurd hm' hread'
      | some b' =>
        cases b <;> cases b'
        · rfl
        · exact absurd (hb.1 hm') (by rw [hm]; decide)
        · exact absurd (hb'.1 hm) (by rw [hm']; decide)
        · rfl
  exact List.inj_on_of_nodup_map hnodup h.mem h'.mem
    (le_antisymm (hb'.2 halias) (hb.2 halias.symm))

theorem Best.perm {models' : List ModelOption} (hperm : models'.Perm models)
    (h : Best u models' p m) : Best u models p m where
  mem := hperm.mem_iff.mp h.mem
  contains := h.contains
  below m' hm' := h.below m' (hperm.mem_iff.mpr hm')

/-- **The order of the models does not matter.** -/
theorem tryMatchModel?_perm (hnodup : (models.map (·.modelId)).Nodup)
    {models' : List ModelOption} (hperm : models'.Perm models) :
    tryMatchModel? u p models' = tryMatchModel? u p models := by
  cases hexact : findExactModelReferenceMatch u p models with
  | some m =>
    rw [tryMatchModel?_of_exact hexact,
      tryMatchModel?_of_exact ((findExact_perm hperm).trans hexact)]
  | none =>
    have hexact' := (findExact_perm (u := u) (p := p) hperm).trans hexact
    by_cases hclean : ∀ m ∈ models, Contains u p m → isAlias? m.modelId ≠ none
    · have hclean' : ∀ m ∈ models', Contains u p m → isAlias? m.modelId ≠ none := fun m hm =>
        hclean m (hperm.mem_iff.mp hm)
      by_cases hfound : ∃ m ∈ models, Contains u p m
      · obtain ⟨m, htry, hbest⟩ := tryMatchModel?_of_contains hexact hclean hfound
        obtain ⟨m', htry', hbest'⟩ := tryMatchModel?_of_contains hexact' hclean'
          (hfound.imp fun m h => ⟨hperm.mem_iff.mpr h.1, h.2⟩)
        have hbest'' := hbest'.perm hperm
        rw [htry, htry', hbest''.unique hnodup hbest (hclean m' hbest''.mem hbest''.contains)
          (hclean m hbest.mem hbest.contains)]
      · have hnot : ¬ Found u models p := not_or.mpr ⟨by rw [hexact]; decide, hfound⟩
        have hnot' : ¬ Found u models' p := not_or.mpr ⟨by rw [hexact']; decide,
          fun h => hfound (h.imp fun m h => ⟨hperm.mem_iff.mp h.1, h.2⟩)⟩
        rw [tryMatchModel?_of_not_found hnot, tryMatchModel?_of_not_found hnot']
    · push Not at hclean
      rw [(tryMatchModel?_eq_none_iff hexact).mpr hclean, tryMatchModel?_eq_none_iff hexact']
      exact hclean.imp fun m h => ⟨hperm.mem_iff.mpr h.1, h.2⟩

/-! ### References -/

/-- What is said when something is found: the last suffix is the level, or it is dropped. -/
def resolved (spec : List Char) (cuts : List (List Char)) (m : Option ModelOption) :
    ResolvedBackgroundModel where
  model := m
  thinkingLevel := cuts.head?.filter (· ∈ validThinkingLevels)
  warning := (cuts.head?.filter (· ∉ validThinkingLevels)).map (invalidLevel spec)

theorem reference_of_found (h : Found u models spec) :
    reference u models spec = some (spec, []) := by
  rw [reference, if_pos h]

theorem parseSpec?_of_found (h : Found u models spec) :
    parseSpec? u models spec = (tryMatchModel? u spec models).map (resolved spec []) := by
  rw [parseSpec?]
  cases htry : tryMatchModel? u spec models with
  | none => rfl
  | some m =>
    cases m with
    | none => exact absurd htry (tryMatchModel?_of_found h)
    | some m => rfl

theorem reference_of_splitSuffix (h : ¬ Found u models spec) {front suffix : List Char}
    (hsplit : splitSuffix spec = some (front, suffix)) :
    reference u models spec =
      (reference u models front).map fun (p, cuts) => (p, suffix :: cuts) := by
  rw [reference, if_neg h]
  split
  · next hnone =>
    rw [hnone] at hsplit
    cases hsplit
  · next front' suffix' hsome =>
    rw [hsome] at hsplit
    cases hsplit
    rfl

theorem reference_of_no_suffix (h : ¬ Found u models spec) (hsplit : splitSuffix spec = none) :
    reference u models spec = none := by
  rw [reference, if_neg h]
  split
  · rfl
  · next hsome =>
    rw [hsplit] at hsome
    cases hsome

/-- The resolver takes a suffix away. -/
theorem parseSpec?_of_splitSuffix (h : ¬ Found u models spec) {front suffix : List Char}
    (hsplit : splitSuffix spec = some (front, suffix)) :
    parseSpec? u models spec = (parseSpec? u models front).map fun inner =>
      if suffix ∈ validThinkingLevels then
        if inner.model.isSome then { model := inner.model, thinkingLevel := some suffix }
        else { warning := some (notFound spec) }
      else if inner.model.isSome then
        { model := inner.model, warning := some (invalidLevel spec suffix) }
      else { warning := some (notFoundInvalid spec suffix) } := by
  rw [parseSpec?, tryMatchModel?_of_not_found h]
  dsimp only
  split
  · next hnone =>
    rw [hnone] at hsplit
    cases hsplit
  · next front' suffix' hsome =>
    rw [hsome] at hsplit
    cases hsplit
    rfl

theorem parseSpec?_of_no_suffix (h : ¬ Found u models spec) (hsplit : splitSuffix spec = none) :
    parseSpec? u models spec = some { warning := some (notFound spec) } := by
  rw [parseSpec?, tryMatchModel?_of_not_found h]
  dsimp only
  split
  · rfl
  · next hsome =>
    rw [hsplit] at hsome
    cases hsome

theorem found_of_reference {cuts : List (List Char)}
    (h : reference u models spec = some (p, cuts)) : Found u models p := by
  induction hn : spec.length using Nat.strong_induction_on generalizing spec cuts with
  | _ n ih =>
    by_cases hfound : Found u models spec
    · rw [reference_of_found hfound] at h
      cases h
      exact hfound
    · cases hsplit : splitSuffix spec with
      | none =>
        rw [reference_of_no_suffix hfound hsplit] at h
        cases h
      | some parts =>
        obtain ⟨front, suffix⟩ := parts
        rw [reference_of_splitSuffix hfound hsplit] at h
        obtain ⟨⟨p', cuts'⟩, href, heq⟩ := Option.map_eq_some_iff.mp h
        cases heq
        exact ih front.length (hn ▸ length_of_splitSuffix hsplit) href rfl

/-- **What is resolved is the reference, and what is said of the rest.** -/
theorem parseSpec?_of_reference {cuts : List (List Char)}
    (h : reference u models spec = some (p, cuts)) :
    parseSpec? u models spec = (tryMatchModel? u p models).map (resolved spec cuts) := by
  induction hn : spec.length using Nat.strong_induction_on generalizing spec cuts with
  | _ n ih =>
    by_cases hfound : Found u models spec
    · rw [reference_of_found hfound] at h
      cases h
      exact parseSpec?_of_found hfound
    · cases hsplit : splitSuffix spec with
      | none =>
        rw [reference_of_no_suffix hfound hsplit] at h
        cases h
      | some parts =>
        obtain ⟨front, suffix⟩ := parts
        rw [reference_of_splitSuffix hfound hsplit] at h
        obtain ⟨⟨p', cuts'⟩, href, heq⟩ := Option.map_eq_some_iff.mp h
        cases heq
        rw [parseSpec?_of_splitSuffix hfound hsplit,
          ih front.length (hn ▸ length_of_splitSuffix hsplit) href rfl, Option.map_map]
        cases htry : tryMatchModel? u p models with
        | none => rfl
        | some m =>
          cases m with
          | none => exact absurd htry (tryMatchModel?_of_found (found_of_reference href))
          | some m =>
            by_cases hvalid : suffix ∈ validThinkingLevels <;>
              simp [resolved, hvalid, Option.filter]

theorem parseSpec?_of_no_reference (h : reference u models spec = none) :
    ∃ text, parseSpec? u models spec = some { warning := some text } := by
  induction hn : spec.length using Nat.strong_induction_on generalizing spec with
  | _ n ih =>
    have hfound : ¬ Found u models spec := fun hfound => by
      rw [reference_of_found hfound] at h
      cases h
    cases hsplit : splitSuffix spec with
    | none => exact ⟨_, parseSpec?_of_no_suffix hfound hsplit⟩
    | some parts =>
      obtain ⟨front, suffix⟩ := parts
      rw [reference_of_splitSuffix hfound hsplit, Option.map_eq_none_iff] at h
      obtain ⟨text, htext⟩ := ih front.length (hn ▸ length_of_splitSuffix hsplit) h rfl
      rw [parseSpec?_of_splitSuffix hfound hsplit, htext, Option.map_some]
      by_cases hvalid : suffix ∈ validThinkingLevels
      · exact ⟨notFound spec, by rw [if_pos hvalid]; rfl⟩
      · exact ⟨notFoundInvalid spec suffix, by rw [if_neg hvalid]; rfl⟩

theorem found_perm {models' : List ModelOption} (hperm : models'.Perm models) :
    Found u models' p ↔ Found u models p := by
  unfold Found
  rw [findExact_perm hperm]
  simp only [hperm.mem_iff]

theorem parseSpec?_perm (hnodup : (models.map (·.modelId)).Nodup) {models' : List ModelOption}
    (hperm : models'.Perm models) : parseSpec? u models' spec = parseSpec? u models spec := by
  induction hn : spec.length using Nat.strong_induction_on generalizing spec with
  | _ n ih =>
    by_cases hfound : Found u models spec
    · rw [parseSpec?_of_found hfound, parseSpec?_of_found ((found_perm hperm).mpr hfound),
        tryMatchModel?_perm hnodup hperm]
    · have hfound' : ¬ Found u models' spec := mt (found_perm hperm).mp hfound
      cases hsplit : splitSuffix spec with
      | none =>
        rw [parseSpec?_of_no_suffix hfound hsplit, parseSpec?_of_no_suffix hfound' hsplit]
      | some parts =>
        rw [parseSpec?_of_splitSuffix hfound hsplit, parseSpec?_of_splitSuffix hfound' hsplit,
          ih parts.1.length (hn ▸ length_of_splitSuffix hsplit) rfl]

/-- **The result does not depend on the order of the models.** -/
theorem resolveBackgroundModel?_perm (hnodup : (models.map (·.modelId)).Nodup)
    {models' : List ModelOption} (hperm : models'.Perm models)
    (backgroundModel : Option (List Char)) :
    resolveBackgroundModel? u backgroundModel models' =
      resolveBackgroundModel? u backgroundModel models := by
  unfold resolveBackgroundModel?
  cases specOf backgroundModel with
  | none => rfl
  | some spec =>
    dsimp only
    rw [parseSpec?_perm hnodup hperm]

/-- The last suffix that is taken away is the last one of the setting. -/
theorem exists_of_reference_cons {s : List Char} {cuts : List (List Char)}
    (h : reference u models spec = some (p, s :: cuts)) : ∃ front, spec = front ++ ':' :: s := by
  have hfound : ¬ Found u models spec := fun hfound => by
    rw [reference_of_found hfound] at h
    cases h
  cases hsplit : splitSuffix spec with
  | none =>
    rw [reference_of_no_suffix hfound hsplit] at h
    cases h
  | some parts =>
    obtain ⟨front, suffix⟩ := parts
    rw [reference_of_splitSuffix hfound hsplit] at h
    obtain ⟨⟨p', cuts'⟩, -, heq⟩ := Option.map_eq_some_iff.mp h
    cases heq
    exact ⟨front, splitSuffix_eq_some hsplit⟩

/-! ### Soundness -/

/-- Suffixes are dropped with a warning: the last one is no level, or the only one. -/
theorem warning_iff (spec : List Char) (cuts : List (List Char)) :
    ((resolved spec cuts (some m)).warning.isSome = true ↔
      cuts ≠ (resolved spec cuts (some m)).thinkingLevel.toList) ↔
      ∀ s s' rest, cuts = s :: s' :: rest → s ∉ validThinkingLevels := by
  unfold resolved
  cases cuts with
  | nil => simp
  | cons s cuts =>
    cases cuts with
    | nil => by_cases hs : s ∈ validThinkingLevels <;> simp [hs, Option.filter]
    | cons s' cuts => by_cases hs : s ∈ validThinkingLevels <;> simp [hs, Option.filter]

/-- What is asked of the model that is found. -/
structure Right (u : Lowercase) (models : List ModelOption) (p : List Char) (m : ModelOption) :
    Prop where
  mem : m ∈ models
  ne_nil : p ≠ []
  found : Named u p m ∨ Contains u p m
  named : (∃ m' ∈ models, Named u p m') → Named u p m
  dated : isAlias? m.modelId = some false →
    ∀ m' ∈ models, Contains u p m' → isAlias? m'.modelId ≠ some true

theorem resolved_sound_iff {backgroundModel : Option (List Char)} {cuts : List (List Char)}
    (hspec : specOf backgroundModel = some spec)
    (href : reference u models spec = some (p, cuts)) :
    (resolved spec cuts (some m)).Sound u backgroundModel models ↔
      Right u models p m ∧ ∀ s s' rest, cuts = s :: s' :: rest → s ∉ validThinkingLevels := by
  -- there is something to warn of when what was cut off is not the level
  have hwarning : (∃ spec' ∈ specOf backgroundModel,
      (resolved spec cuts (some m)).model = none ∨ ∃ p' cuts',
        reference u models spec' = some (p', cuts') ∧
          cuts' ≠ (resolved spec cuts (some m)).thinkingLevel.toList) ↔
      cuts ≠ (resolved spec cuts (some m)).thinkingLevel.toList := by
    rw [hspec]
    constructor
    · rintro ⟨spec', hspec', hmodel | ⟨p', cuts', href', hne⟩⟩
      · cases hmodel
      · cases hspec'
        rw [href] at href'
        cases href'
        exact hne
    · exact fun hne => ⟨spec, rfl, Or.inr ⟨p, cuts, href, hne⟩⟩
  constructor
  · intro h
    obtain ⟨spec', hspec', p', cuts', href', hmem, hne, hfound, hnamed⟩ := h.model m rfl
    rw [hspec] at hspec'
    cases hspec'
    rw [href] at href'
    cases href'
    refine ⟨⟨hmem, hne, hfound, hnamed, fun hdated => ?_⟩, ?_⟩
    · exact h.dated m rfl hdated spec hspec p cuts href
    · exact (warning_iff spec cuts).mp (h.warning.trans hwarning)
  · rintro ⟨hright, hcuts⟩
    refine ⟨?_, ?_, ?_, ?_⟩
    · rintro m' ⟨⟩
      exact ⟨spec, hspec, p, cuts, href, hright.mem, hright.ne_nil, hright.found, hright.named⟩
    · intro l hl
      obtain ⟨hhead, hvalid⟩ := Option.filter_eq_some_iff.mp hl
      refine ⟨of_decide_eq_true hvalid, spec, hspec, ?_⟩
      obtain ⟨rest, rfl⟩ := List.head?_eq_some_iff.mp hhead
      exact exists_of_reference_cons href
    · rintro m' ⟨⟩ hdated spec' hspec' p' cuts' href'
      rw [hspec] at hspec'
      cases hspec'
      rw [href] at href'
      cases href'
      exact hright.dated hdated
    · exact ((warning_iff spec cuts).mpr hcuts).trans hwarning.symm

theorem sound_of_no_model {backgroundModel : Option (List Char)} {r : ResolvedBackgroundModel}
    (hmodel : r.model = none) (hlevel : r.thinkingLevel = none)
    (hwarning : r.warning.isSome = (specOf backgroundModel).isSome) :
    r.Sound u backgroundModel models where
  model m hm := by
    rw [hmodel] at hm
    cases hm
  level l hl := by
    rw [hlevel] at hl
    cases hl
  dated m hm := by
    rw [hmodel] at hm
    cases hm
  warning := by
    rw [hwarning, Option.isSome_iff_exists]
    exact exists_congr fun spec => ⟨fun h => ⟨h, Or.inl hmodel⟩, fun h => h.1⟩

/-- **The model that is found is the right one exactly when the reference is settled.** -/
theorem exists_right_iff (hnodup : (models.map (·.modelId)).Nodup) (hfound : Found u models p) :
    (∃ m, tryMatchModel? u p models = some (some m) ∧ Right u models p m) ↔
      Settled u models p := by
  unfold Settled
  cases hexact : findExactModelReferenceMatch u p models with
  | some m =>
    obtain ⟨hm, hnamed, -⟩ := findExact_eq_some hexact
    have hne : p ≠ [] := fun h => hnamed.1 (by rw [h]; rfl)
    rw [tryMatchModel?_of_exact hexact]
    constructor
    · rintro ⟨m', heq, hright⟩
      cases heq
      exact hright.dated
    · exact fun h => ⟨m, rfl, hm, hne, Or.inl hnamed, fun _ => hnamed, h⟩
  | none =>
    have hcontains : ∃ m ∈ models, Contains u p m :=
      hfound.resolve_left (by rw [hexact]; decide)
    constructor
    · rintro ⟨m, htry, hright⟩
      have hclean : ∀ m ∈ models, Contains u p m → isAlias? m.modelId ≠ none := by
        intro m' hm' hc halias
        rw [(tryMatchModel?_eq_none_iff hexact).mpr ⟨m', hm', hc, halias⟩] at htry
        cases htry
      obtain ⟨m', htry', hbest⟩ := tryMatchModel?_of_contains hexact hclean hcontains
      rw [htry] at htry'
      cases htry'
      exact ⟨hright.ne_nil, hclean, fun hnamed =>
        ⟨m, hbest.mem, hright.named hnamed, hbest.contains, hbest.below⟩⟩
    · rintro ⟨hne, hclean, hnamed⟩
      obtain ⟨m, htry, hbest⟩ := tryMatchModel?_of_contains hexact hclean hcontains
      refine ⟨m, htry, hbest.mem, hne, Or.inr hbest.contains, fun h => ?_,
        fun hdated m' hm' hc => ?_⟩
      · obtain ⟨e, he, hname, hce, hbelow⟩ := hnamed h
        have heq : e = m := Best.unique hnodup ⟨he, hce, hbelow⟩ hbest (hclean e he hce)
          (hclean m hbest.mem hbest.contains)
        exact heq ▸ hname
      · -- a dated model was taken, so no alias contains the pattern
        intro htrue
        have := (hbest.below m' hm' hc).1 htrue
        rw [hdated] at this
        cases this

/-- **A setting is resolved soundly exactly when its reference is settled and not two suffixes
are taken away of which the last one is a level.** -/
theorem resolvesSoundly_iff (hnodup : (models.map (·.modelId)).Nodup)
    (backgroundModel : Option (List Char)) :
    Sound u backgroundModel models ↔ Holds u backgroundModel models := by
  have hsound : Sound u backgroundModel models ↔
      ∃ r, resolveBackgroundModel? u backgroundModel models = some r ∧
        r.Sound u backgroundModel models := by
    constructor
    · rintro ⟨r, hr, hperm⟩
      exact ⟨r, hperm models (List.Perm.refl _), hr⟩
    · rintro ⟨r, hresolve, hr⟩
      exact ⟨r, hr, fun models' h => (resolveBackgroundModel?_perm hnodup h _).trans hresolve⟩
  rw [hsound]
  unfold resolveBackgroundModel? Holds
  cases hspec : specOf backgroundModel with
  | none =>
    refine iff_of_true ⟨{}, rfl, sound_of_no_model rfl rfl (by rw [hspec])⟩ ?_
    rintro spec ⟨⟩
  | some spec =>
    dsimp only
    cases hscript : Cut.stripPrefix scriptPrefix spec with
    | some path =>
      refine iff_of_true ⟨_, rfl, sound_of_no_model rfl rfl (by rw [hspec]; rfl)⟩ ?_
      rintro spec' ⟨⟩ hnot
      rw [Cut.stripPrefix_eq_none hnot] at hscript
      cases hscript
    | none =>
      have hnot : ¬ scriptPrefix <+: spec := fun h => by
        rw [Cut.stripPrefix, if_pos h] at hscript
        cases hscript
      dsimp only
      cases href : reference u models spec with
      | none =>
        obtain ⟨text, htext⟩ := parseSpec?_of_no_reference href
        refine iff_of_true ⟨_, htext, sound_of_no_model rfl rfl (by rw [hspec]; rfl)⟩ ?_
        rintro spec' ⟨⟩ - p cuts href'
        rw [href] at href'
        cases href'
      | some parts =>
        -- a setting with a reference is the one case that names a model
        obtain ⟨p, cuts⟩ := parts
        have hfound := found_of_reference href
        rw [parseSpec?_of_reference href]
        constructor
        · rintro ⟨r, hr, hsound⟩ spec' ⟨⟩ - p' cuts' href'
          rw [href] at href'
          cases href'
          obtain ⟨m, htry, rfl⟩ := Option.map_eq_some_iff.mp hr
          cases m with
          | none => exact absurd htry (tryMatchModel?_of_found hfound)
          | some m =>
            obtain ⟨hright, hcuts⟩ := (resolved_sound_iff hspec href).mp hsound
            exact ⟨(exists_right_iff hnodup hfound).mp ⟨m, htry, hright⟩, hcuts⟩
        · intro h
          obtain ⟨hsettled, hcuts⟩ := h spec rfl hnot p cuts href
          obtain ⟨m, htry, hright⟩ := (exists_right_iff hnodup hfound).mpr hsettled
          exact ⟨_, by rw [htry, Option.map_some],
            (resolved_sound_iff hspec href).mpr ⟨hright, hcuts⟩⟩

end Matching

/-! ### Settings that are not resolved soundly -/

/-- **The date of an id is not read when its last nine bytes begin inside a character.** -/
theorem isAlias?_eq_none_iff {id : List Char} : isAlias? id = none ↔
    ¬ "-latest".toList <:+ id ∧ 9 ≤ byteLength id ∧ ¬ IsCharBoundary id (byteLength id - 9) := by
  unfold isAlias? hasTrailingDate?
  rw [← isSome_sliceFrom_iff, Option.not_isSome_iff_eq_none]
  split
  · next h => exact iff_of_false (by simp) fun hnot => hnot.1 h
  · next h =>
    split
    · next hlt => exact iff_of_false (by simp) fun hnot => by omega
    · next hle =>
      rw [Option.map_eq_none_iff, Option.map_eq_none_iff]
      exact ⟨fun hslice => ⟨h, Nat.le_of_not_lt hle, hslice⟩, fun hslice => hslice.2.2⟩

theorem resolve_of_spec {u : Lowercase} {models : List ModelOption} (spec : List Char)
    {backgroundModel : Option (List Char)} (hspec : specOf backgroundModel = some spec)
    (hscript : Cut.stripPrefix scriptPrefix spec = none) :
    resolveBackgroundModel? u backgroundModel models = parseSpec? u models spec := by
  rw [resolveBackgroundModel?, hspec]
  dsimp only
  rw [hscript]

def named (id : String) : ModelOption := ⟨id.toList, id.toList, none, none⟩

/-- **An id with a letter of two bytes nine bytes before its end; and a suffix that is dropped
in silence.** -/
theorem not_resolvesSoundly :
    ¬ Sound ModelListing.asciiCase.tables (some "1234".toList) [named "é12345678"] ∧
      ¬ Sound ModelListing.asciiCase.tables (some "m:fast:low".toList) [named "m"] := by
  constructor
  · rintro ⟨r, -, hr⟩
    have hpanic : tryMatchModel? ModelListing.asciiCase.tables "1234".toList
        [named "é12345678"] = none := by decide
    have hresolve := hr _ (List.Perm.refl _)
    rw [resolve_of_spec "1234".toList (by decide) (by decide), parseSpec?, hpanic]
      at hresolve
    cases hresolve
  · rintro ⟨r, hsound, hr⟩
    have href : reference ModelListing.asciiCase.tables [named "m"] "m:fast:low".toList =
        some ("m".toList, ["low".toList, "fast".toList]) := by
      rw [reference_of_splitSuffix (by decide) (by decide : splitSuffix "m:fast:low".toList =
          some ("m:fast".toList, "low".toList)),
        reference_of_splitSuffix (by decide) (by decide : splitSuffix "m:fast".toList =
          some ("m".toList, "fast".toList)), reference_of_found (by decide)]
      rfl
    have htry : tryMatchModel? ModelListing.asciiCase.tables "m".toList [named "m"] =
        some (some (named "m")) := by decide
    have hresolve := hr _ (List.Perm.refl _)
    rw [resolve_of_spec "m:fast:low".toList (by decide) (by decide),
      parseSpec?_of_reference href, htry] at hresolve
    cases hresolve
    have hcuts := ((resolved_sound_iff (by decide) href).mp hsound).2
    exact hcuts _ _ _ rfl (by decide)

/-- A model that another id starts with, and a level behind it. -/
theorem resolvesSoundly_low :
    Sound ModelListing.asciiCase.tables (some "a/m:low".toList) [named "a/m", named "a/m-2"] := by
  have href : reference ModelListing.asciiCase.tables [named "a/m", named "a/m-2"]
      "a/m:low".toList = some ("a/m".toList, ["low".toList]) := by
    rw [reference_of_splitSuffix (by decide) (by decide : splitSuffix "a/m:low".toList =
        some ("a/m".toList, "low".toList)), reference_of_found (by decide)]
    rfl
  have hexact : findExactModelReferenceMatch ModelListing.asciiCase.tables "a/m".toList
      [named "a/m", named "a/m-2"] = some (named "a/m") := by decide
  refine (resolvesSoundly_iff (by decide) _).mpr fun spec hspec _ p cuts hparts => ?_
  obtain rfl : "a/m:low".toList = spec := Option.some.inj hspec
  rw [href] at hparts
  cases hparts
  refine ⟨?_, fun s s' rest h => by cases h⟩
  rw [Settled, hexact]
  intro hdated
  exact absurd hdated (by decide)

end BackgroundModel
end Pantoken
