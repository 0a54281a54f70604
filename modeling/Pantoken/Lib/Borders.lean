import Mathlib.Data.List.Basic

/-!
# Pieces of a stream and the borders of its chunks

A stream is a list of pieces, each of them a few elements, and arrives in chunks that know
nothing of the pieces.  A border of two chunks falls between two pieces or inside of one.

## Main definitions

* `EndsBetween`, `CutsBetween` — borders fall between pieces, or inside soft ones.
* `Parted` — chunks, with the pieces they cut marked.

## Main results

* `exists_parted` — any chunks of a stream mark its pieces.
* `Parted.cutsBetween_iff` — **borders fall between pieces or inside soft ones exactly when
  only soft pieces are marked.**
-/

namespace Pantoken
namespace Borders

variable {α β : Type*}

/-- Elements that end between two of the pieces, or inside a soft one. -/
def EndsBetween (spell : α → List β) (soft : α → Bool) (ps : List α) (bs : List β) : Prop :=
  ∃ pre post, ps = pre ++ post ∧ (bs = pre.flatMap spell ∨
    ∃ p rest part tail, post = p :: rest ∧ soft p = true ∧ spell p = part ++ tail ∧
      bs = pre.flatMap spell ++ part)

/-- Every border of the chunks falls between two pieces, or inside a soft one. -/
def CutsBetween (spell : α → List β) (soft : α → Bool) (ps : List α) (chunks : List (List β)) :
    Prop :=
  ∀ done, done <+: chunks → EndsBetween spell soft ps done.flatten

/-- Chunks of the pieces, which are marked where a border falls inside of them. -/
inductive Parted (spell : α → List β) : List (List β) → List (α × Bool) → Prop
  | nil : Parted spell [[]] []
  | border {cs ms} : Parted spell cs ms → Parted spell ([] :: cs) ms
  | whole {c cs ms} (p : α) : Parted spell (c :: cs) ms →
      Parted spell ((spell p ++ c) :: cs) ((p, false) :: ms)
  | cut {c cs ms} (p : α) {head : List β} {mid : List (List β)} {tail : List β} :
      spell p = head ++ (mid.flatten ++ tail) → head ≠ [] → tail ≠ [] → Parted spell (c :: cs) ms →
        Parted spell (head :: (mid ++ (tail ++ c) :: cs)) ((p, true) :: ms)

variable {spell : α → List β} {soft : α → Bool} {ps : List α} {p : α} {bs head tail : List β}
  {chunks : List (List β)} {ms : List (α × Bool)}

/-- The chunk in which the rest of a piece ends. -/
theorem exists_tail {rest : List β} (hne : tail ≠ []) (h : chunks.flatten = tail ++ rest) :
    ∃ mid last c cs, chunks = mid ++ (last ++ c) :: cs ∧ tail = mid.flatten ++ last ∧
      last ≠ [] ∧ (c :: cs).flatten = rest := by
  induction chunks generalizing tail with
  | nil => exact absurd (List.append_eq_nil_iff.mp h.symm).1 hne
  | cons chunk chunks ih =>
    rw [List.flatten_cons] at h
    rcases List.append_eq_append_iff.mp h with ⟨more, rfl, hflat⟩ | ⟨c, rfl, hrest⟩
    · by_cases hmore : more = []
      · subst hmore
        rw [List.append_nil] at hne ⊢
        exact ⟨[], chunk, [], chunks, by simp, by simp, hne, by simpa using hflat⟩
      · obtain ⟨mid, last, c, cs, rfl, rfl, hlast, hrest⟩ := ih hmore hflat
        exact ⟨chunk :: mid, last, c, cs, by simp, by simp, hlast, hrest⟩
    · exact ⟨[], tail, c, chunks, by simp, by simp, hne, by simp [hrest]⟩

/-- **Any chunks of a stream mark its pieces.** -/
theorem exists_parted (hspell : ∀ p, spell p ≠ []) (hne : chunks ≠ [])
    (h : chunks.flatten = ps.flatMap spell) :
    ∃ ms, ms.map Prod.fst = ps ∧ Parted spell chunks ms := by
  induction ps generalizing chunks with
  | nil =>
    induction chunks with
    | nil => exact absurd rfl hne
    | cons chunk chunks ih =>
      obtain ⟨rfl, hflat⟩ := List.append_eq_nil_iff.mp h
      by_cases hlast : chunks = []
      · subst hlast
        exact ⟨[], rfl, .nil⟩
      · obtain ⟨ms, hms, hparted⟩ := ih hlast hflat
        exact ⟨ms, hms, .border hparted⟩
  | cons p ps ihp =>
    induction chunks with
    | nil => exact absurd rfl hne
    | cons chunk chunks ih =>
      rw [List.flatMap_cons, List.flatten_cons] at h
      by_cases hempty : chunk = []
      · subst hempty
        have hchunks : chunks ≠ [] := by
          rintro rfl
          exact hspell p (List.append_eq_nil_iff.mp h.symm).1
        obtain ⟨ms, hms, hparted⟩ := ih hchunks h
        exact ⟨ms, hms, .border hparted⟩
      · rcases List.append_eq_append_iff.mp h with ⟨more, hp, hflat⟩ | ⟨c, rfl, hrest⟩
        · by_cases hmore : more = []
          · subst hmore
            rw [List.append_nil] at hp
            obtain ⟨ms, rfl, hparted⟩ := @ihp ([] :: chunks) (by simp) hflat
            refine ⟨(p, false) :: ms, rfl, ?_⟩
            have hwhole := Parted.whole p hparted
            rwa [List.append_nil, hp] at hwhole
          · obtain ⟨mid, last, c, cs, rfl, rfl, hlast, hrest⟩ := exists_tail hmore hflat
            obtain ⟨ms, rfl, hparted⟩ := ihp (by simp) hrest
            exact ⟨(p, true) :: ms, rfl, .cut p hp hempty hlast hparted⟩
        · obtain ⟨ms, rfl, hparted⟩ := @ihp (c :: chunks) (by simp) hrest.symm
          exact ⟨(p, false) :: ms, rfl, .whole p hparted⟩

/-! ### Borders -/

theorem endsBetween_nil : EndsBetween spell soft ps [] := ⟨[], ps, rfl, .inl rfl⟩

/-- A piece in front changes nothing. -/
theorem endsBetween_append (hspell : ∀ p, spell p ≠ []) :
    EndsBetween spell soft (p :: ps) (spell p ++ bs) ↔ EndsBetween spell soft ps bs := by
  constructor
  · rintro ⟨pre, post, hps, h⟩
    cases pre with
    | nil =>
      rcases h with h | ⟨q, rest, part, tail, hpost, hsoft, hq, h⟩
      · exact absurd (List.append_eq_nil_iff.mp h).1 (hspell p)
      · -- the whole of a soft piece
        have hpq : p = q := by
          rw [← List.nil_append post, ← hps] at hpost
          exact (List.cons.inj hpost).1
        subst hpq
        rw [List.flatMap_nil, List.nil_append] at h
        rw [hq, List.append_assoc] at h
        have hnil : tail ++ bs = [] := List.append_right_eq_self.mp h
        rw [(List.append_eq_nil_iff.mp hnil).2]
        exact endsBetween_nil
    | cons q pre =>
      obtain ⟨rfl, rfl⟩ := List.cons.inj hps
      refine ⟨pre, post, rfl, ?_⟩
      rcases h with h | ⟨q, rest, part, tail, hpost, hsoft, hq, h⟩
      · exact .inl (List.append_cancel_left h)
      · rw [List.flatMap_cons, List.append_assoc] at h
        exact .inr ⟨q, rest, part, tail, hpost, hsoft, hq, List.append_cancel_left h⟩
  · rintro ⟨pre, post, rfl, h⟩
    refine ⟨p :: pre, post, rfl, ?_⟩
    rcases h with rfl | ⟨q, rest, part, tail, hpost, hsoft, hq, rfl⟩
    · exact .inl rfl
    · exact .inr ⟨q, rest, part, tail, hpost, hsoft, hq, (List.append_assoc _ _ _).symm⟩

/-- Inside of a piece, it has to be a soft one. -/
theorem endsBetween_part (hp : spell p = head ++ tail) (hhead : head ≠ []) (htail : tail ≠ []) :
    EndsBetween spell soft (p :: ps) head ↔ soft p = true := by
  constructor
  · rintro ⟨pre, post, hps, h⟩
    cases pre with
    | nil =>
      rcases h with h | ⟨q, rest, part, more, rfl, hsoft, -, -⟩
      · exact absurd h hhead
      · obtain ⟨rfl, -⟩ := List.cons.inj hps
        exact hsoft
    | cons q pre =>
      obtain ⟨rfl, rfl⟩ := List.cons.inj hps
      -- the head is shorter than its piece
      have hlt : head.length < (spell p).length := by
        have := List.length_pos_iff.mpr htail
        rw [hp, List.length_append]
        omega
      have hle : (spell p).length ≤ head.length := by
        rcases h with h | ⟨q, rest, part, more, -, -, -, h⟩
        · rw [h, List.flatMap_cons, List.length_append]
          omega
        · rw [h, List.flatMap_cons, List.length_append, List.length_append]
          omega
      omega
  · intro hsoft
    exact ⟨[], p :: ps, rfl, .inr ⟨p, ps, head, tail, rfl, hsoft, hp, rfl⟩⟩

/-- **Borders fall between pieces or inside soft ones exactly when only soft pieces are
marked.** -/
theorem Parted.cutsBetween_iff (hspell : ∀ p, spell p ≠ []) (h : Parted spell chunks ms) :
    CutsBetween spell soft (ms.map Prod.fst) chunks ↔
      ∀ m ∈ ms, m.2 = true → soft m.1 = true := by
  induction h with
  | nil =>
    refine iff_of_true (fun done hdone => ?_) (by simp)
    obtain ⟨more, hmore⟩ := hdone
    have hflat : done.flatten ++ more.flatten = [] := by
      rw [← List.flatten_append, hmore]
      rfl
    rw [(List.append_eq_nil_iff.mp hflat).1]
    exact endsBetween_nil
  | border _ ih =>
    rw [← ih]
    constructor
    · intro hcuts done hdone
      exact hcuts ([] :: done) (List.cons_prefix_cons.mpr ⟨rfl, hdone⟩)
    · intro hcuts done hdone
      cases done with
      | nil => exact endsBetween_nil
      | cons chunk done =>
        obtain ⟨rfl, hdone'⟩ := List.cons_prefix_cons.mp hdone
        exact hcuts done hdone'
  | @whole c cs ms p _ ih =>
    rw [List.forall_mem_cons, List.map_cons, ← ih]
    constructor
    · intro hcuts
      refine ⟨by simp, fun done hdone => ?_⟩
      cases done with
      | nil => exact endsBetween_nil
      | cons chunk done =>
        obtain ⟨rfl, hdone'⟩ := List.cons_prefix_cons.mp hdone
        have hborder := hcuts ((spell p ++ chunk) :: done)
          (List.cons_prefix_cons.mpr ⟨rfl, hdone'⟩)
        rw [List.flatten_cons, List.append_assoc] at hborder
        exact (endsBetween_append hspell).mp hborder
    · rintro ⟨-, hcuts⟩ done hdone
      cases done with
      | nil => exact endsBetween_nil
      | cons chunk done =>
        obtain ⟨rfl, hdone'⟩ := List.cons_prefix_cons.mp hdone
        rw [List.flatten_cons, List.append_assoc]
        exact (endsBetween_append hspell).mpr
          (hcuts (c :: done) (List.cons_prefix_cons.mpr ⟨rfl, hdone'⟩))
  | @cut c cs ms p head mid tail hp hhead htail _ ih =>
    rw [List.forall_mem_cons, List.map_cons, ← ih]
    have hrest : mid.flatten ++ tail ≠ [] := fun hnil =>
      htail (List.append_eq_nil_iff.mp hnil).2
    -- the borders behind the piece are those of what follows it
    have hwhole : ∀ done, (head :: (mid ++ (tail ++ c) :: done)).flatten
        = spell p ++ (c :: done).flatten := by
      intro done
      simp [hp]
    constructor
    · intro hcuts
      refine ⟨fun _ => ?_, fun done hdone => ?_⟩
      · have hborder := hcuts [head] (List.cons_prefix_cons.mpr ⟨rfl, List.nil_prefix⟩)
        rw [List.flatten_singleton] at hborder
        exact (endsBetween_part hp hhead hrest).mp hborder
      · cases done with
        | nil => exact endsBetween_nil
        | cons chunk done =>
          obtain ⟨rfl, hdone'⟩ := List.cons_prefix_cons.mp hdone
          have hborder := hcuts (head :: (mid ++ (tail ++ chunk) :: done))
            (List.cons_prefix_cons.mpr ⟨rfl, (List.prefix_append_right_inj mid).mpr
              (List.cons_prefix_cons.mpr ⟨rfl, hdone'⟩)⟩)
          rw [hwhole] at hborder
          exact (endsBetween_append hspell).mp hborder
    · rintro ⟨hsoft, hcuts⟩ done hdone
      cases done with
      | nil => exact endsBetween_nil
      | cons chunk done =>
        obtain ⟨rfl, hdone'⟩ := List.cons_prefix_cons.mp hdone
        obtain ⟨todo, htodo⟩ := hdone'
        rcases List.append_eq_append_iff.mp htodo with ⟨more, rfl, -⟩ | ⟨later, rfl, hlater⟩
        · -- a border inside the piece
          have hp' : spell p = (chunk :: done).flatten ++ (more.flatten ++ tail) := by
            simp [hp]
          have hne : (chunk :: done).flatten ≠ [] := fun hnil =>
            hhead (List.append_eq_nil_iff.mp hnil).1
          exact (endsBetween_part hp' hne (fun hnil =>
            htail (List.append_eq_nil_iff.mp hnil).2)).mpr (hsoft rfl)
        · cases later with
          | nil =>
            have hp' : spell p = (chunk :: (mid ++ [])).flatten ++ tail := by simp [hp]
            exact (endsBetween_part hp' (fun hnil =>
              hhead (List.append_eq_nil_iff.mp hnil).1) htail).mpr (hsoft rfl)
          | cons chunk' later =>
            obtain ⟨rfl, rfl⟩ := List.cons.inj hlater
            rw [hwhole]
            exact (endsBetween_append hspell).mpr
              (hcuts (c :: later) (List.prefix_append (c :: later) todo))

end Borders
end Pantoken
