import Mathlib.Data.List.Basic

/-!
# Incremental decoding

A decoder that is fed a stream in chunks keeps a buffer.  It looks at the front of the
buffer again and again and takes an item off it as long as there is a complete one; one
kind of item makes it throw the whole buffer away.  What it yields must not depend on how
the stream was cut, and it does not, up to the first item that empties the buffer.

## Main definitions

* `Look`, `Stable` — one look at the buffer, and the laws of a look.
* `drain` — looks until there is no complete item.
* `results`, `leftover` — what a list of chunks yields, push by push, and what stays behind.
* `throughFirst` — a list up to and including its first element of some kind.
* `seek` — where the first item of some kind is.

## Main results

* `drain_append`, `drain_append_of_flushed` — draining in two parts.
* `results_eq_drain` — **without a flush the chunks yield what the whole stream does.**
* `results_of_flushed` — with one, decoding starts afresh after the chunk that caused it.
-/

namespace Pantoken
namespace Incremental

variable {β γ : Type*}

/-- What one look at the buffer finds. -/
inductive Look (β γ : Type*)
  /-- No complete item yet. -/
  | more
  /-- An item, and the rest of the buffer after it. -/
  | item (c : γ) (rest : List β)
  /-- An item after which the buffer is thrown away. -/
  | flush (c : γ)

/-- The laws of a look: it decides on a prefix of the buffer, whatever follows. -/
structure Stable (look : List β → Look β γ) : Prop where
  nil : look [] = .more
  shorter : ∀ {buf c rest}, look buf = .item c rest → rest.length < buf.length
  item : ∀ {buf c rest}, look buf = .item c rest →
    ∀ bytes, look (buf ++ bytes) = .item c (rest ++ bytes)
  flush : ∀ {buf c}, look buf = .flush c → ∀ bytes, look (buf ++ bytes) = .flush c

/-- What a drain leaves: the items taken, the buffer, and whether it was thrown away. -/
structure Drained (β γ : Type*) where
  items : List γ
  buf : List β
  flushed : Bool

/-- Put an item in front of what a drain yields. -/
def Drained.cons (c : γ) (d : Drained β γ) : Drained β γ := { d with items := c :: d.items }

@[simp] theorem Drained.cons_items (c : γ) (d : Drained β γ) :
    (d.cons c).items = c :: d.items := rfl

@[simp] theorem Drained.cons_buf (c : γ) (d : Drained β γ) : (d.cons c).buf = d.buf := rfl

@[simp] theorem Drained.cons_flushed (c : γ) (d : Drained β γ) :
    (d.cons c).flushed = d.flushed := rfl

/-- Put items in front of what a drain yields. -/
def Drained.prepend (cs : List γ) (d : Drained β γ) : Drained β γ :=
  { d with items := cs ++ d.items }

/-- At most `n` looks at the buffer. -/
def drainFor (look : List β → Look β γ) : ℕ → List β → Drained β γ
  | 0, buf => ⟨[], buf, false⟩
  | n + 1, buf =>
    match look buf with
    | .more => ⟨[], buf, false⟩
    | .item c rest => (drainFor look n rest).cons c
    | .flush c => ⟨[c], [], true⟩

/-- Look until no item is complete.  Every item shortens the buffer. -/
def drain (look : List β → Look β γ) (buf : List β) : Drained β γ :=
  drainFor look (buf.length + 1) buf

/-- What each chunk yields, from the buffer `buf`. -/
def results (look : List β → Look β γ) : List β → List (List β) → List (List γ)
  | _, [] => []
  | buf, chunk :: chunks =>
    (drain look (buf ++ chunk)).items :: results look (drain look (buf ++ chunk)).buf chunks

/-- The buffer after the chunks. -/
def leftover (look : List β → Look β γ) (buf : List β) (chunks : List (List β)) : List β :=
  chunks.foldl (fun buf chunk => (drain look (buf ++ chunk)).buf) buf

/-- The elements up to and including the first one that meets `p`. -/
def throughFirst (p : γ → Bool) : List γ → List γ
  | [] => []
  | c :: cs => if p c then [c] else c :: throughFirst p cs

/-- At most `n` looks for an item that meets `p`: the items before it, and the buffer at whose
front it is.  What empties the buffer ends the search. -/
def seekFor (look : List β → Look β γ) (p : γ → Bool) : ℕ → List β → Option (List γ × List β)
  | 0, _ => none
  | n + 1, buf =>
    match look buf with
    | .item c rest =>
      if p c then some ([], buf)
      else (seekFor look p n rest).map fun (before, found) => (c :: before, found)
    | _ => none

/-- The first item that meets `p`. -/
def seek (look : List β → Look β γ) (p : γ → Bool) (buf : List β) : Option (List γ × List β) :=
  seekFor look p (buf.length + 1) buf

@[simp] theorem results_nil (look : List β → Look β γ) (buf : List β) :
    results look buf [] = [] := rfl

@[simp] theorem results_cons (look : List β → Look β γ) (buf chunk : List β)
    (chunks : List (List β)) :
    results look buf (chunk :: chunks)
      = (drain look (buf ++ chunk)).items
        :: results look (drain look (buf ++ chunk)).buf chunks := rfl

@[simp] theorem leftover_nil (look : List β → Look β γ) (buf : List β) :
    leftover look buf [] = buf := rfl

@[simp] theorem leftover_cons (look : List β → Look β γ) (buf chunk : List β)
    (chunks : List (List β)) :
    leftover look buf (chunk :: chunks)
      = leftover look (drain look (buf ++ chunk)).buf chunks := rfl

theorem results_append (look : List β → Look β γ) (buf : List β) (xs ys : List (List β)) :
    results look buf (xs ++ ys)
      = results look buf xs ++ results look (leftover look buf xs) ys := by
  induction xs generalizing buf with
  | nil => rfl
  | cons x xs ih => simp only [List.cons_append, results_cons, leftover_cons, ih]

theorem leftover_append (look : List β → Look β γ) (buf : List β) (xs ys : List (List β)) :
    leftover look buf (xs ++ ys) = leftover look (leftover look buf xs) ys := by
  unfold leftover
  rw [List.foldl_append]

/-- What one chunk yields, among the others. -/
theorem mem_results {look : List β → Look β γ} {buf : List β} {chunks : List (List β)}
    {items : List γ} :
    items ∈ results look buf chunks ↔ ∃ done chunk todo, chunks = done ++ chunk :: todo ∧
      items = (drain look (leftover look buf done ++ chunk)).items := by
  induction chunks generalizing buf with
  | nil => simp
  | cons chunk chunks ih =>
    rw [results_cons, List.mem_cons]
    constructor
    · rintro (rfl | hmem)
      · exact ⟨[], chunk, chunks, rfl, rfl⟩
      · obtain ⟨done, last, todo, rfl, rfl⟩ := ih.mp hmem
        exact ⟨chunk :: done, last, todo, rfl, rfl⟩
    · rintro ⟨done, last, todo, hsplit, rfl⟩
      rcases done with _ | ⟨first, done⟩
      · obtain ⟨rfl, rfl⟩ := List.cons.inj hsplit
        exact .inl rfl
      · obtain ⟨rfl, hsplit'⟩ := List.cons.inj hsplit
        exact .inr (ih.mpr ⟨done, last, todo, hsplit', rfl⟩)

/-- The end of a concatenation begins in one of its parts. -/
theorem suffix_flatten {xss : List (List β)} {ys : List β} (h : ys <:+ xss.flatten) :
    ys = [] ∨ ∃ begun tail rest, (begun ++ tail) :: rest <:+ xss ∧ ys = tail ++ rest.flatten := by
  induction xss with
  | nil => exact .inl (List.suffix_nil.mp h)
  | cons xs xss ih =>
    obtain ⟨gone, hgone⟩ := h
    rw [List.flatten_cons] at hgone
    rcases List.append_eq_append_iff.mp hgone with ⟨more, rfl, hys⟩ | ⟨later, -, hflat⟩
    · exact .inr ⟨gone, more, xss, List.suffix_rfl, hys⟩
    · rcases ih ⟨later, hflat.symm⟩ with hnil | ⟨begun, tail, rest, hrest, hys⟩
      · exact .inl hnil
      · exact .inr ⟨begun, tail, rest, hrest.trans (List.suffix_cons xs xss), hys⟩

/-! ### Through the first -/

/-- A list without such an element is taken whole. -/
theorem throughFirst_of_none {p : γ → Bool} {cs : List γ} (h : ∀ c ∈ cs, p c = false) :
    throughFirst p cs = cs := by
  induction cs with
  | nil => rfl
  | cons c cs ih =>
    have hc : p c = false := h c (by simp)
    rw [throughFirst, hc, ih fun d hd => h d (by simp [hd])]
    rfl

/-- What follows such an element is cut off. -/
theorem throughFirst_append_of_mem {p : γ → Bool} {cs : List γ} (ds : List γ)
    (h : ∃ c ∈ cs, p c = true) : throughFirst p (cs ++ ds) = throughFirst p cs := by
  induction cs with
  | nil => simp at h
  | cons c cs ih =>
    by_cases hc : p c = true
    · simp [throughFirst, hc]
    · have htail : ∃ c ∈ cs, p c = true := by
        obtain ⟨d, hd, hpd⟩ := h
        rcases List.mem_cons.mp hd with rfl | hd
        · exact absurd hpd hc
        · exact ⟨d, hd, hpd⟩
      simp only [List.cons_append, throughFirst, ih htail]

/-- Cutting keeps the elements' kind in sight. -/
theorem exists_mem_throughFirst {p : γ → Bool} {cs : List γ} :
    (∃ c ∈ throughFirst p cs, p c = true) ↔ ∃ c ∈ cs, p c = true := by
  induction cs with
  | nil => rfl
  | cons c cs ih =>
    by_cases hc : p c = true
    · simp [throughFirst, hc]
    · simp only [throughFirst, hc, Bool.false_eq_true, if_false, List.mem_cons,
        exists_eq_or_imp, ih]

/-! ### Draining -/

section Drain

variable {look : List β → Look β γ} {buf rest : List β} {c : γ}

/-- One look more than the buffer has elements changes nothing. -/
theorem drainFor_succ (h : Stable look) {n : ℕ} {buf : List β} (hn : buf.length < n) :
    drainFor look (n + 1) buf = drainFor look n buf := by
  induction n generalizing buf with
  | zero => exact absurd hn (Nat.not_lt_zero _)
  | succ n ih =>
    rw [drainFor]
    conv_rhs => rw [drainFor]
    cases hl : look buf with
    | more => rfl
    | flush c => rfl
    | item c rest =>
      have hlt : rest.length < buf.length := h.shorter hl
      have hrest : rest.length < n := by omega
      simp only [ih hrest]

/-- Any number of looks beyond the length of the buffer is as good as any other. -/
theorem drainFor_eq_drain (h : Stable look) {n : ℕ} {buf : List β} (hn : buf.length < n) :
    drainFor look n buf = drain look buf := by
  induction n with
  | zero => exact absurd hn (Nat.not_lt_zero _)
  | succ n ih =>
    rcases Nat.lt_or_ge buf.length n with hlt | hge
    · rw [drainFor_succ h hlt, ih hlt]
    · have heq : n = buf.length := by omega
      rw [heq, drain]

theorem drain_more (hl : look buf = .more) : drain look buf = ⟨[], buf, false⟩ := by
  rw [drain, drainFor, hl]

theorem drain_flush (hl : look buf = .flush c) : drain look buf = ⟨[c], [], true⟩ := by
  rw [drain, drainFor, hl]

theorem drain_item (h : Stable look) (hl : look buf = .item c rest) :
    drain look buf = (drain look rest).cons c := by
  rw [drain, drainFor, hl]
  show (drainFor look buf.length rest).cons c = _
  rw [drainFor_eq_drain h (h.shorter hl)]

/-- Induction along a drain: an item leaves a shorter buffer. -/
theorem Stable.induction (h : Stable look) {motive : List β → Prop}
    (more : ∀ buf, look buf = .more → motive buf)
    (item : ∀ buf c rest, look buf = .item c rest → motive rest → motive buf)
    (flush : ∀ buf c, look buf = .flush c → motive buf) (buf : List β) : motive buf := by
  induction hn : buf.length using Nat.strongRecOn generalizing buf with
  | _ n ih =>
    cases hl : look buf with
    | more => exact more buf hl
    | flush c => exact flush buf c hl
    | item c rest =>
      have hlt : rest.length < n := hn ▸ h.shorter hl
      exact item buf c rest hl (ih rest.length hlt rest rfl)

/-- A flush leaves nothing in the buffer. -/
theorem drain_buf_of_flushed (h : Stable look) (buf : List β) :
    (drain look buf).flushed = true → (drain look buf).buf = [] := by
  induction buf using h.induction with
  | more buf hl => rw [drain_more hl]; simp
  | flush buf c hl => rw [drain_flush hl]; simp
  | item buf c rest hl ih => rw [drain_item h hl]; exact ih

/-- Nothing complete stays behind. -/
theorem look_drain_buf (h : Stable look) (buf : List β) :
    look (drain look buf).buf = .more := by
  induction buf using h.induction with
  | more buf hl => rw [drain_more hl]; exact hl
  | flush buf c hl => rw [drain_flush hl]; exact h.nil
  | item buf c rest hl ih => rw [drain_item h hl]; exact ih

/-- **Draining in two parts.**  What the first part leaves is drained with the second. -/
theorem drain_append (h : Stable look) (a b : List β) :
    (drain look a).flushed = false →
      drain look (a ++ b)
        = (drain look ((drain look a).buf ++ b)).prepend (drain look a).items := by
  induction a using h.induction with
  | more a hl => rw [drain_more hl]; intro _; rfl
  | flush a c hl => rw [drain_flush hl]; simp
  | item a c rest hl ih =>
    rw [drain_item h hl, drain_item h (h.item hl b)]
    intro hf
    rw [ih hf]
    rfl

/-- What follows a flush in the same buffer is lost. -/
theorem drain_append_of_flushed (h : Stable look) (a b : List β) :
    (drain look a).flushed = true → drain look (a ++ b) = drain look a := by
  induction a using h.induction with
  | more a hl => rw [drain_more hl]; simp
  | flush a c hl => rw [drain_flush hl, drain_flush (h.flush hl b)]; intro _; rfl
  | item a c rest hl ih =>
    rw [drain_item h hl, drain_item h (h.item hl b)]
    intro hf
    rw [ih hf]

/-- Short of its last element an item is not complete. -/
theorem Stable.more_of_append (h : Stable look) {part tail : List β}
    (hitem : look (part ++ tail) = .item c []) (htail : tail ≠ []) : look part = .more := by
  cases hl : look part with
  | more => rfl
  | flush c' =>
    rw [h.flush hl tail] at hitem
    cases hitem
  | item c' rest =>
    rw [h.item hl tail] at hitem
    have hrest : rest ++ tail = [] := by injection hitem
    exact absurd (List.append_eq_nil_iff.mp hrest).2 htail

/-- A drain is flushed exactly when it yields an item that flushes. -/
theorem flushed_iff (h : Stable look) {p : γ → Bool}
    (hitem : ∀ {buf c rest}, look buf = .item c rest → p c = false)
    (hflush : ∀ {buf c}, look buf = .flush c → p c = true) (buf : List β) :
    (drain look buf).flushed = true ↔ ∃ c ∈ (drain look buf).items, p c = true := by
  induction buf using h.induction with
  | more buf hl => rw [drain_more hl]; simp
  | flush buf c hl => rw [drain_flush hl]; simp [hflush hl]
  | item buf c rest hl ih =>
    rw [drain_item h hl]
    have hc : p c = false := hitem hl
    simp only [Drained.cons_flushed, Drained.cons_items, ih, List.mem_cons, exists_eq_or_imp, hc,
      Bool.false_eq_true, false_or]

/-- The item that flushes is the last one of its drain. -/
theorem throughFirst_drain (h : Stable look) {p : γ → Bool}
    (hitem : ∀ {buf c rest}, look buf = .item c rest → p c = false)
    (buf : List β) : throughFirst p (drain look buf).items = (drain look buf).items := by
  induction buf using h.induction with
  | more buf hl => rw [drain_more hl]; rfl
  | flush buf c hl => rw [drain_flush hl]; simp [throughFirst]
  | item buf c rest hl ih =>
    rw [drain_item h hl, Drained.cons_items, throughFirst, hitem hl, ih]
    rfl

/-! ### Searching -/

theorem seekFor_eq_seek (h : Stable look) {p : γ → Bool} {n : ℕ} {buf : List β}
    (hn : buf.length < n) : seekFor look p n buf = seek look p buf := by
  have hsucc : ∀ {n : ℕ} {buf : List β}, buf.length < n →
      seekFor look p (n + 1) buf = seekFor look p n buf := by
    intro n
    induction n with
    | zero => exact fun hn => absurd hn (Nat.not_lt_zero _)
    | succ n ih =>
      intro buf hn
      rw [seekFor]
      conv_rhs => rw [seekFor]
      cases hl : look buf with
      | more => rfl
      | flush c => rfl
      | item c rest =>
        have hlt : rest.length < buf.length := h.shorter hl
        have hrest : rest.length < n := by omega
        simp only [ih hrest]
  induction n with
  | zero => exact absurd hn (Nat.not_lt_zero _)
  | succ n ih =>
    rcases Nat.lt_or_ge buf.length n with hlt | hge
    · rw [hsucc hlt, ih hlt]
    · have heq : n = buf.length := by omega
      rw [heq, seek]

theorem seek_of_pos {p : γ → Bool} (hl : look buf = .item c rest) (hc : p c = true) :
    seek look p buf = some ([], buf) := by
  rw [seek, seekFor, hl]
  exact if_pos hc

theorem seek_of_neg (h : Stable look) {p : γ → Bool} (hl : look buf = .item c rest)
    (hc : p c = false) : seek look p buf =
      (seek look p rest).map fun (before, found) => (c :: before, found) := by
  rw [seek, seekFor, hl, ← seekFor_eq_seek h (h.shorter hl)]
  simp [hc]

/-- What is found is what the drain yields after the items before it. -/
theorem seek_eq_some (h : Stable look) {p : γ → Bool} (buf : List β) :
    ∀ {before : List γ} {found : List β}, seek look p buf = some (before, found) →
      ∃ c rest, look found = .item c rest ∧ p c = true ∧
        (drain look buf).items = before ++ (drain look found).items ∧
        (drain look buf).buf = (drain look found).buf ∧ (before = [] → found = buf) := by
  induction buf using h.induction with
  | more buf hl =>
    intro before found hseek
    rw [seek, seekFor, hl] at hseek
    cases hseek
  | flush buf c hl =>
    intro before found hseek
    rw [seek, seekFor, hl] at hseek
    cases hseek
  | item buf c rest hl ih =>
    intro before found hseek
    cases hc : p c with
    | true =>
      rw [seek_of_pos hl hc] at hseek
      cases hseek
      exact ⟨c, rest, hl, hc, rfl, rfl, fun _ => rfl⟩
    | false =>
      rw [seek_of_neg h hl hc] at hseek
      obtain ⟨⟨before', found'⟩, hseek', heq⟩ := Option.map_eq_some_iff.mp hseek
      cases heq
      obtain ⟨d, rest', hfound, hd, hitems, hbuf, -⟩ := ih hseek'
      rw [drain_item h hl]
      refine ⟨d, rest', hfound, hd, ?_, hbuf, fun hnil => by cases hnil⟩
      rw [Drained.cons_items, hitems]
      rfl

/-- The first item of a drain is the first look's. -/
theorem head?_drain (h : Stable look) (buf : List β) : (drain look buf).items.head? =
    match look buf with
    | .more => none
    | .item c _ => some c
    | .flush c => some c := by
  cases hl : look buf with
  | more => rw [drain_more hl]; rfl
  | flush c => rw [drain_flush hl]; rfl
  | item c rest => rw [drain_item h hl]; rfl

theorem length_drain_le (h : Stable look) (buf : List β) :
    (drain look buf).buf.length ≤ buf.length := by
  induction buf using h.induction with
  | more buf hl => exact Nat.le_of_eq (by rw [drain_more hl])
  | flush buf c hl =>
    rw [drain_flush hl]
    exact Nat.zero_le _
  | item buf c rest hl ih =>
    rw [drain_item h hl]
    exact Nat.le_trans ih (Nat.le_of_lt (h.shorter hl))

/-! ### Chunks -/

/-- **Without a flush the chunks yield what the whole stream does**, however it is cut. -/
theorem results_eq_drain (h : Stable look) {buf : List β} (hq : look buf = .more)
    (chunks : List (List β)) (hf : (drain look (buf ++ chunks.flatten)).flushed = false) :
    (results look buf chunks).flatten = (drain look (buf ++ chunks.flatten)).items ∧
      leftover look buf chunks = (drain look (buf ++ chunks.flatten)).buf := by
  induction chunks generalizing buf with
  | nil => simp [drain_more hq]
  | cons chunk chunks ih =>
    have hcut : buf ++ (chunk :: chunks).flatten = (buf ++ chunk) ++ chunks.flatten := by simp
    rw [hcut] at hf ⊢
    cases hfirst : (drain look (buf ++ chunk)).flushed with
    | true =>
      rw [drain_append_of_flushed h _ _ hfirst, hfirst] at hf
      exact absurd hf (by simp)
    | false =>
      rw [drain_append h _ _ hfirst] at hf ⊢
      obtain ⟨hitems, hbuf⟩ := ih (look_drain_buf h _) hf
      constructor
      · rw [results_cons, List.flatten_cons, hitems]
        rfl
      · rw [leftover_cons, hbuf]
        rfl

/-- With a flush in the stream, the chunks up to the one that shows it yield what the whole
stream does, and leave an empty buffer. -/
theorem results_of_flushed (h : Stable look) {buf : List β} (hq : look buf = .more)
    (chunks : List (List β)) (hf : (drain look (buf ++ chunks.flatten)).flushed = true) :
    ∃ pre chunk post, chunks = pre ++ chunk :: post ∧
      (drain look (buf ++ pre.flatten)).flushed = false ∧
      (results look buf (pre ++ [chunk])).flatten
        = (drain look (buf ++ chunks.flatten)).items ∧
      leftover look buf (pre ++ [chunk]) = [] := by
  induction chunks generalizing buf with
  | nil => simp [drain_more hq] at hf
  | cons chunk chunks ih =>
    have hcut : buf ++ (chunk :: chunks).flatten = (buf ++ chunk) ++ chunks.flatten := by simp
    rw [hcut] at hf ⊢
    cases hfirst : (drain look (buf ++ chunk)).flushed with
    | true =>
      refine ⟨[], chunk, chunks, rfl, ?_, ?_, ?_⟩
      · simp [drain_more hq]
      · rw [drain_append_of_flushed h _ _ hfirst]
        simp
      · exact drain_buf_of_flushed h _ hfirst
    | false =>
      rw [drain_append h _ _ hfirst] at hf ⊢
      obtain ⟨pre, last, post, rfl, hpre, hitems, hleft⟩ := ih (look_drain_buf h _) hf
      refine ⟨chunk :: pre, last, post, rfl, ?_, ?_, ?_⟩
      · have hcut' : buf ++ (chunk :: pre).flatten = (buf ++ chunk) ++ pre.flatten := by simp
        rw [hcut', drain_append h _ _ hfirst]
        exact hpre
      · rw [List.cons_append, results_cons, List.flatten_cons, hitems]
        rfl
      · exact hleft

end Drain

end Incremental
end Pantoken
