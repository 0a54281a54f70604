import Pantoken.Lib.Run

/-!
# Stores kept in one file

A store keeps its records in one file and writes the whole of it at a change.  A write
can be refused, or cut short after the file was emptied; the process can end and start
again at any point; a read can fail.  What such a store is for is said by a `History`:
the operations in effect, of which a restart may forget the last ones but none up to the
last whose write was completed.

## Main definitions

* `FileWrite`, `FileFormat` — how a write ends, and what is read of a file.
* `History`, `History.Follows` — the operations in effect, and how an event changes them.
* `Followed` — a run that shows, at every step, the operations in effect.
* `FileStore`, `FileStore.step` — a store that is read at a start and written from memory.
* `PatchStore`, `PatchStore.step` — a store that is read again for each change.

## Main results

* `Followed.of_along` — the simulation rule.
* `FileStore.followed` — **a store written from memory shows the operations in effect, whatever
  becomes of its writes, as long as no start finds a file that it cannot read.**
* `PatchStore.followed` — **a store that is read for each change does if besides no change
  follows one of the same life whose write was not completed.**
-/

namespace Pantoken

/-! ### Files -/

/-- How a write of a whole file ends. -/
inductive FileWrite where
  /-- The file could not be opened: it is as it was. -/
  | refused
  /-- The file was emptied and no more than its first `n` bytes were written. -/
  | cut (n : ℕ)
  /-- The file was written. -/
  | done
  deriving DecidableEq, Repr

/-- The file after a write of `text`. -/
def FileWrite.leaves (text : List UInt8) (file : Option (List UInt8)) :
    FileWrite → Option (List UInt8)
  | .refused => file
  | .cut n => some (text.take n)
  | .done => some text

/-- The texts of a store's file and what is read of them. -/
structure FileFormat (ε : Type*) where
  /-- The bytes written for the contents. -/
  text : ε → List UInt8
  /-- What is read of some bytes, if they can be read and parsed. -/
  read : List UInt8 → Option ε
  /-- A whole text is read. -/
  read_text : ∀ e, read (text e) = some e
  /-- The beginning of a text is not read as other contents. -/
  read_take : ∀ e n, read ((text e).take n) = none ∨ read ((text e).take n) = some e

/-- Nothing that a write leaves is read as other contents than those written or those
that were there. -/
theorem FileFormat.read_leaves {ε : Type*} (f : FileFormat ε) {e e' : ε} {w : FileWrite}
    {file : Option (List UInt8)} (h : (w.leaves (f.text e) file).bind f.read = some e') :
    e' = e ∨ (w = .refused ∧ file.bind f.read = some e') := by
  cases w with
  | refused => exact .inr ⟨rfl, h⟩
  | cut n =>
    rcases f.read_take e n with hnone | hsome
    · simp [FileWrite.leaves, hnone] at h
    · simp only [FileWrite.leaves, Option.bind_some, hsome, Option.some.injEq] at h
      exact .inl h.symm
  | done =>
    simp only [FileWrite.leaves, Option.bind_some, f.read_text, Option.some.injEq] at h
    exact .inl h.symm

/-! ### Histories -/

variable {σ α ω ε ν : Type*}

/-- What a step is to the operations in effect. -/
inductive StoreEvent (ω : Type*) where
  /-- An operation, and whether a write for it was completed. -/
  | did (o : ω) (completed : Bool)
  /-- The process started again. -/
  | restart
  /-- Neither. -/
  | other
  deriving DecidableEq, Repr

/-- The operations in effect. -/
structure History (ω : Type*) where
  /-- The operations, first to last. -/
  ops : List ω
  /-- How many of them a restart must not forget: all up to the last one whose write was
  completed. -/
  safe : ℕ

namespace History

/-- Before any operation. -/
def start : History ω := ⟨[], 0⟩

/-- The operations in effect after an event.  A restart forgets the last ones, how many is
not said, but none whose write was completed. -/
def Follows : StoreEvent ω → History ω → History ω → Prop
  | .did o completed, h, h' =>
    h' = ⟨h.ops ++ [o], if completed then h.ops.length + 1 else h.safe⟩
  | .restart, h, h' => ∃ k, h.safe ≤ k ∧ h' = ⟨h.ops.take k, h.safe⟩
  | .other, h, h' => h' = h

end History

/-- A run shows at every step the operations in effect. -/
def Followed (step : σ → α → σ) (event : σ → α → StoreEvent ω) (Shows : σ → α → History ω → Prop) :
    History ω → σ → List α → Prop
  | _, _, [] => True
  | h, s, a :: as => ∃ h', History.Follows (event s a) h h' ∧ Shows s a h' ∧
      Followed step event Shows h' (step s a) as

/-- The simulation rule. -/
theorem Followed.of_along {step : σ → α → σ} {event : σ → α → StoreEvent ω}
    {Shows : σ → α → History ω → Prop} {C : σ → α → Prop} {I : History ω → σ → Prop}
    (hstep : ∀ h s a, I h s → C s a →
      ∃ h', History.Follows (event s a) h h' ∧ Shows s a h' ∧ I h' (step s a))
    {h : History ω} {s : σ} (hI : I h s) {as : List α} (hC : Along step C s as) :
    Followed step event Shows h s as := by
  induction as generalizing h s with
  | nil => trivial
  | cons a as ih =>
    obtain ⟨h', hfollows, hshows, hI'⟩ := hstep h s a hI hC.1
    exact ⟨h', hfollows, hshows, ih hI' hC.2⟩

/-! ### Stores written from memory -/

/-- A store that is read at a start, changed in memory, and written whole at a change.
`ν` are the orders in which its records can be walked. -/
structure FileStore (σ ω ε ν : Type*) where
  /-- The store with no record. -/
  empty : σ
  /-- The memory after an operation. -/
  act : σ → ω → σ
  /-- Whether the operation writes the file. -/
  writes : σ → ω → Bool
  /-- `v` walks the records of `s`. -/
  Walks : σ → ν → Prop
  /-- What is written of the records. -/
  out : σ → ν → ε
  /-- The memory after reading some contents. -/
  load : ε → σ
  /-- What was written of the records is read as the records. -/
  load_out : ∀ s v, Walks s v → load (out s v) = s
  /-- How the contents are written. -/
  format : FileFormat ε

/-- A store, its file, and whether a write of the file was ever completed. -/
structure FileStoreState (σ : Type*) where
  mem : σ
  file : Option (List UInt8)
  written : Bool

/-- What happens to a store. -/
inductive FileStoreAct (ω ν : Type*) where
  /-- An operation; the order in which its records are walked if they are written, and
  how the write ends. -/
  | op (o : ω) (v : ν) (w : FileWrite)
  /-- The process starts again; whether the read of the file fails. -/
  | restart (fails : Bool)

namespace FileStore

variable (k : FileStore σ ω ε ν)

/-- Nothing was ever written. -/
def init : FileStoreState σ := ⟨k.empty, none, false⟩

/-- The memory after operations from the store with no record. -/
def after (ops : List ω) : σ := ops.foldl k.act k.empty

theorem after_append (ops : List ω) (o : ω) : k.after (ops ++ [o]) = k.act (k.after ops) o := by
  rw [after, List.foldl_append, List.foldl_cons, List.foldl_nil, ← after]

/-- The memory at a start: a file that is missing, cannot be read or does not parse leaves
it empty. -/
def loaded (fails : Bool) (file : Option (List UInt8)) : σ :=
  match file with
  | none => k.empty
  | some bytes => if fails then k.empty else ((k.format.read bytes).map k.load).getD k.empty

def step (s : FileStoreState σ) : FileStoreAct ω ν → FileStoreState σ
  | .op o v w =>
    if k.writes s.mem o then
      { mem := k.act s.mem o
        file := w.leaves (k.format.text (k.out (k.act s.mem o) v)) s.file
        written := s.written || w = .done }
    else { s with mem := k.act s.mem o }
  | .restart fails => { s with mem := k.loaded fails s.file }

/-- A start that reads a whole file. -/
theorem mem_restart_of_text {s : FileStoreState σ} {e : ε}
    (h : s.file = some (k.format.text e)) :
    (k.step s (.restart false : FileStoreAct ω ν)).mem = k.load e := by
  simp [step, loaded, h, k.format.read_text]

/-- A write that is completed leaves the whole text. -/
theorem file_done {s : FileStoreState σ} {o : ω} (h : k.writes s.mem o = true) (v : ν) :
    (k.step s (.op o v .done)).file = some (k.format.text (k.out (k.act s.mem o) v)) := by
  rw [step, if_pos h]
  rfl

theorem file_restart (s : FileStoreState σ) (fails : Bool) :
    (k.step s (.restart fails : FileStoreAct ω ν)).file = s.file := rfl

/-- A write that is refused leaves the file. -/
theorem file_refused (s : FileStoreState σ) (o : ω) (v : ν) :
    (k.step s (.op o v .refused)).file = s.file := by
  rw [step]
  split_ifs <;> rfl

def event (s : FileStoreState σ) : FileStoreAct ω ν → StoreEvent ω
  | .op o _ w => .did o (k.writes s.mem o && w = .done)
  | .restart _ => .restart

/-- What the file can be read as is the state after operations in effect, of which none is
missing whose write was completed. -/
def FileShows (file : Option (List UInt8)) (h : History ω) : Prop :=
  ∀ e, file.bind k.format.read = some e →
    ∃ j, h.safe ≤ j ∧ k.load e = k.after (h.ops.take j)

/-- What a step shows: the memory is the state after the operations in effect, what is
written is, and what the file can be read as is the state after a part of them that holds
every one whose write was completed. -/
def Shows (s : FileStoreState σ) (a : FileStoreAct ω ν) (h : History ω) : Prop :=
  (k.step s a).mem = k.after h.ops ∧
    (∀ o v w, a = .op o v w → k.writes s.mem o → k.load (k.out (k.act s.mem o) v) = k.after h.ops) ∧
    k.FileShows (k.step s a).file h

/-- The records are walked where they are written. -/
def Walked (s : FileStoreState σ) : FileStoreAct ω ν → Prop
  | .op o v _ => k.writes s.mem o → k.Walks (k.act s.mem o) v
  | .restart _ => True

/-- A start finds no file, or reads the one it finds, or finds what the first write left
of it, none having been completed. -/
def Keeps (s : FileStoreState σ) : FileStoreAct ω ν → Prop
  | .op _ _ _ => True
  | .restart fails => ∀ bytes, s.file = some bytes →
      (fails = false ∧ (k.format.read bytes).isSome) ∨
        (k.format.read bytes = none ∧ s.written = false)

/-- A start that finds a whole file and reads it. -/
theorem keeps_restart_of_text {s : FileStoreState σ} {e : ε} (h : s.file = some (k.format.text e)) :
    k.Keeps s (.restart false : FileStoreAct ω ν) := by
  intro bytes hbytes
  obtain rfl := Option.some.inj (h.symm.trans hbytes)
  exact .inl ⟨rfl, by rw [k.format.read_text, Option.isSome_some]⟩

/-- The memory is the state after the operations in effect, and the file holds a part of
them. -/
structure Sound (h : History ω) (s : FileStoreState σ) : Prop where
  mem : s.mem = k.after h.ops
  file : ∀ e, s.file.bind k.format.read = some e →
    ∃ j, h.safe ≤ j ∧ j ≤ h.ops.length ∧ k.load e = k.after (h.ops.take j)
  safe_le : h.safe ≤ h.ops.length
  unwritten : s.written = false → h.safe = 0
  missing : s.file = none → s.written = false

theorem Sound.start : k.Sound History.start k.init where
  mem := rfl
  file e h := by simp [init] at h
  safe_le := le_rfl
  unwritten _ := rfl
  missing _ := rfl

variable {k} {h : History ω} {s : FileStoreState σ}

theorem Sound.fileShows (hs : k.Sound h s) : k.FileShows s.file h := fun e he => by
  obtain ⟨j, hsafe, _, hload⟩ := hs.file e he
  exact ⟨j, hsafe, hload⟩

/-- An operation that writes nothing. -/
theorem Sound.quiet (hs : k.Sound h s) (o : ω) :
    k.Sound ⟨h.ops ++ [o], h.safe⟩ { s with mem := k.act s.mem o } where
  mem := by rw [hs.mem, after_append]
  file e he := by
    obtain ⟨j, hsafe, hle, hload⟩ := hs.file e he
    refine ⟨j, hsafe, by simp only [List.length_append]; omega, ?_⟩
    rw [List.take_append_of_le_length hle, hload]
  safe_le := by
    have := hs.safe_le
    simp only [List.length_append]
    omega
  unwritten := hs.unwritten
  missing := hs.missing

/-- An operation that writes the file, however the write ends. -/
theorem Sound.write (hs : k.Sound h s) {o : ω} {v : ν} (hv : k.Walks (k.act s.mem o) v)
    (w : FileWrite) :
    k.Sound ⟨h.ops ++ [o], if w = .done then h.ops.length + 1 else h.safe⟩
      { mem := k.act s.mem o
        file := w.leaves (k.format.text (k.out (k.act s.mem o) v)) s.file
        written := s.written || w = .done } where
  mem := by rw [hs.mem, after_append]
  file e he := by
    have hsafe := hs.safe_le
    rcases k.format.read_leaves he with rfl | ⟨rfl, hold⟩
    · -- the contents just written, whole
      refine ⟨h.ops.length + 1, ?_, by simp, ?_⟩
      · dsimp only
        split <;> omega
      · rw [List.take_of_length_le (by simp), k.load_out _ _ hv, hs.mem, after_append]
    · -- the contents from before, the write having been refused
      obtain ⟨j, hsafe', hle, hload⟩ := hs.file e hold
      refine ⟨j, hsafe', by simp only [List.length_append]; omega, ?_⟩
      rw [List.take_append_of_le_length hle, hload]
  safe_le := by
    have := hs.safe_le
    simp only [List.length_append, List.length_cons, List.length_nil]
    split <;> omega
  unwritten hw := by
    rw [Bool.or_eq_false_iff, decide_eq_false_iff_not] at hw
    dsimp only
    rw [if_neg hw.2, hs.unwritten hw.1]
  missing hnone := by
    cases w with
    | refused => simpa using hs.missing hnone
    | cut n => cases hnone
    | done => cases hnone

/-- A start that meets the condition. -/
theorem Sound.restart (hs : k.Sound h s) {fails : Bool}
    (hC : k.Keeps s (.restart fails : FileStoreAct ω ν)) :
    ∃ j, h.safe ≤ j ∧
      k.Sound ⟨h.ops.take j, h.safe⟩ { s with mem := k.loaded fails s.file } := by
  -- where nothing is read, no write was completed, and every operation may be forgotten
  have hnothing : k.loaded fails s.file = k.empty → s.file.bind k.format.read = none →
      s.written = false → ∃ j, h.safe ≤ j ∧
        k.Sound ⟨h.ops.take j, h.safe⟩ { s with mem := k.loaded fails s.file } := by
    intro hload hread hw
    refine ⟨0, (hs.unwritten hw).le, ⟨hload, ?_, (hs.unwritten hw).le, hs.unwritten, hs.missing⟩⟩
    intro e he
    rw [hread] at he
    cases he
  obtain hfile | ⟨bytes, hfile⟩ := Option.eq_none_or_eq_some s.file
  · refine hnothing ?_ ?_ (hs.missing hfile)
    · rw [hfile, loaded]
    · rw [hfile, Option.bind_none]
  · rcases hC bytes hfile with ⟨rfl, hsome⟩ | ⟨hnone, hw⟩
    · obtain ⟨e, he⟩ := Option.isSome_iff_exists.mp hsome
      have hread : s.file.bind k.format.read = some e := by rw [hfile, Option.bind_some, he]
      obtain ⟨j, hsafe, hle, hload⟩ := hs.file e hread
      refine ⟨j, hsafe, ⟨?_, ?_, ?_, hs.unwritten, hs.missing⟩⟩
      · simp only [hfile, loaded, Bool.false_eq_true, if_false, he, Option.map_some,
          Option.getD_some, hload]
      · intro e' he'
        obtain rfl := Option.some.inj (hread.symm.trans he')
        refine ⟨j, hsafe, by rw [List.length_take, min_eq_left hle], ?_⟩
        rw [List.take_take, min_self, hload]
      · rw [List.length_take]
        exact le_min hsafe hs.safe_le
    · refine hnothing ?_ ?_ hw
      · rw [hfile, loaded, hnone, Option.map_none, Option.getD_none, ite_self]
      · rw [hfile, Option.bind_some, hnone]

theorem Sound.step (hs : k.Sound h s) (a : FileStoreAct ω ν) (hwalked : k.Walked s a)
    (hC : k.Keeps s a) :
    ∃ h', History.Follows (k.event s a) h h' ∧ k.Shows s a h' ∧ k.Sound h' (k.step s a) := by
  cases a with
  | op o v w =>
    cases hwrites : k.writes s.mem o with
    | false =>
      have hstep : k.step s (.op o v w) = { s with mem := k.act s.mem o } := by
        rw [FileStore.step, hwrites, if_neg Bool.false_ne_true]
      have hs' := hs.quiet o
      rw [← hstep] at hs'
      refine ⟨_, ?_, ⟨hs'.mem, ?_, hs'.fileShows⟩, hs'⟩
      · rw [event, hwrites, Bool.false_and]
        rfl
      · rintro _ _ _ ⟨rfl, rfl, rfl⟩ hw
        rw [hwrites] at hw
        cases hw
    | true =>
      have hstep : k.step s (.op o v w)
          = { mem := k.act s.mem o
              file := w.leaves (k.format.text (k.out (k.act s.mem o) v)) s.file
              written := s.written || w = .done } := by
        rw [FileStore.step, if_pos hwrites]
      have hv := hwalked hwrites
      have hs' := hs.write hv w
      rw [← hstep] at hs'
      refine ⟨_, ?_, ⟨hs'.mem, ?_, hs'.fileShows⟩, hs'⟩
      · rw [event, hwrites, Bool.true_and, History.Follows]
        simp only [decide_eq_true_eq]
      · rintro _ _ _ ⟨rfl, rfl, rfl⟩ _
        rw [k.load_out _ _ hv, hs.mem, ← after_append]
  | restart fails =>
    obtain ⟨j, hsafe, hs'⟩ := hs.restart hC
    refine ⟨_, ⟨j, hsafe, rfl⟩, ⟨hs'.mem, ?_, hs'.fileShows⟩, hs'⟩
    rintro _ _ _ ⟨⟩

variable (k) in
/-- **A store written from memory shows the operations in effect**, whatever becomes of
its writes, as long as no start finds a file that it cannot read. -/
theorem followed {acts : List (FileStoreAct ω ν)} (hwalked : Along k.step k.Walked k.init acts)
    (hC : Along k.step k.Keeps k.init acts) :
    Followed k.step k.event k.Shows History.start k.init acts :=
  Followed.of_along (I := k.Sound) (fun _ _ a hs hC => hs.step a hC.1 hC.2) (Sound.start k)
    (hwalked.and hC)

end FileStore

/-! ### Stores read for each change -/

/-- A store without memory: a change reads the file, merges, and writes it whole. -/
structure PatchStore (σ ω : Type*) where
  /-- The contents where no file can be read. -/
  default : σ
  /-- The contents after a change. -/
  merge : σ → ω → σ
  /-- How the contents are written. -/
  format : FileFormat σ

/-- The file of such a store; whether a write of it was ever completed, and whether this
life of the process has a change whose write was not. -/
structure PatchStoreState where
  file : Option (List UInt8)
  written : Bool
  behind : Bool

/-- What happens to such a store. -/
inductive PatchStoreAct (ω : Type*) where
  /-- A change; whether its read fails, and how its write ends. -/
  | update (o : ω) (fails : Bool) (w : FileWrite)
  /-- A look at the contents; whether its read fails. -/
  | look (fails : Bool)
  /-- The process starts again. -/
  | restart

namespace PatchStore

variable (k : PatchStore σ ω)

/-- Nothing was ever written. -/
def init : PatchStoreState := ⟨none, false, false⟩

/-- The contents after changes from the default ones. -/
def after (ops : List ω) : σ := ops.foldl k.merge k.default

theorem after_append (ops : List ω) (o : ω) : k.after (ops ++ [o]) = k.merge (k.after ops) o := by
  rw [after, List.foldl_append, List.foldl_cons, List.foldl_nil, ← after]

/-- The contents as they are read: a file that is missing, cannot be read or does not parse
gives the default ones. -/
def current (fails : Bool) (file : Option (List UInt8)) : σ :=
  match file with
  | none => k.default
  | some bytes => if fails then k.default else (k.format.read bytes).getD k.default

def step (s : PatchStoreState) : PatchStoreAct ω → PatchStoreState
  | .update o fails w =>
    { file := w.leaves (k.format.text (k.merge (k.current fails s.file) o)) s.file
      written := s.written || w = .done
      behind := s.behind || w ≠ .done }
  | .look _ => s
  | .restart => { s with behind := false }

def event (_ : PatchStoreState) : PatchStoreAct ω → StoreEvent ω
  | .update o _ w => .did o (w = .done)
  | .look _ => .other
  | .restart => .restart

/-- What the file can be read as is the state after operations in effect, of which none is
missing whose write was completed. -/
def FileShows (file : Option (List UInt8)) (h : History ω) : Prop :=
  ∀ e, file.bind k.format.read = some e → ∃ j, h.safe ≤ j ∧ e = k.after (h.ops.take j)

/-- What a step shows: a change gives and writes the state after the operations in effect,
a look and the file give the state after a part of them that holds every one whose write
was completed. -/
def Shows (s : PatchStoreState) (a : PatchStoreAct ω) (h : History ω) : Prop :=
  (∀ o fails w, a = .update o fails w → k.merge (k.current fails s.file) o = k.after h.ops) ∧
    (∀ fails, a = .look fails →
      ∃ j, h.safe ≤ j ∧ k.current fails s.file = k.after (h.ops.take j)) ∧
    k.FileShows (k.step s a).file h

/-- A read finds no file, or reads the one it finds, or finds what the first write left of
it, none having been completed. -/
def Reads (s : PatchStoreState) (fails : Bool) : Prop :=
  ∀ bytes, s.file = some bytes →
    (fails = false ∧ (k.format.read bytes).isSome) ∨
      (k.format.read bytes = none ∧ s.written = false)

/-- Every read finds what it should, and no change follows one of the same life whose
write was not completed. -/
def Keeps (s : PatchStoreState) : PatchStoreAct ω → Prop
  | .update _ fails _ => k.Reads s fails ∧ s.behind = false
  | .look fails => k.Reads s fails
  | .restart => True

/-- A read that finds a whole file. -/
theorem reads_of_text {s : PatchStoreState} {e : σ} (h : s.file = some (k.format.text e)) :
    k.Reads s false := by
  intro bytes hbytes
  obtain rfl := Option.some.inj (h.symm.trans hbytes)
  exact .inl ⟨rfl, by rw [k.format.read_text, Option.isSome_some]⟩

/-- The file holds a part of the operations in effect, and all of them if every write of
this life was completed. -/
structure Sound (h : History ω) (s : PatchStoreState) : Prop where
  file : ∀ e, s.file.bind k.format.read = some e →
    ∃ j, h.safe ≤ j ∧ j ≤ h.ops.length ∧ e = k.after (h.ops.take j) ∧
      (s.behind = false → j = h.ops.length)
  nothing : s.file.bind k.format.read = none → s.written = false → s.behind = false → h.ops = []
  safe_le : h.safe ≤ h.ops.length
  unwritten : s.written = false → h.safe = 0
  missing : s.file = none → s.written = false

theorem Sound.start : k.Sound History.start init where
  file e h := by simp [init] at h
  nothing _ _ _ := rfl
  safe_le := le_rfl
  unwritten _ := rfl
  missing _ := rfl

variable {k} {h : History ω} {s : PatchStoreState}

theorem Sound.fileShows (hs : k.Sound h s) : k.FileShows s.file h := fun e he => by
  obtain ⟨j, hsafe, _, hload, _⟩ := hs.file e he
  exact ⟨j, hsafe, hload⟩

/-- What a read that meets the condition gives. -/
theorem Sound.current (hs : k.Sound h s) {fails : Bool} (hC : k.Reads s fails) :
    ∃ j, h.safe ≤ j ∧ k.current fails s.file = k.after (h.ops.take j) ∧
      (s.behind = false → h.ops.take j = h.ops) := by
  -- where nothing is read, no write was completed, and no operation need be seen
  have hnothing : k.current fails s.file = k.default → s.file.bind k.format.read = none →
      s.written = false → ∃ j, h.safe ≤ j ∧ k.current fails s.file = k.after (h.ops.take j) ∧
        (s.behind = false → h.ops.take j = h.ops) := by
    intro hcurrent hread hw
    refine ⟨0, (hs.unwritten hw).le, hcurrent, fun hbehind => ?_⟩
    rw [hs.nothing hread hw hbehind, List.take_nil]
  obtain hfile | ⟨bytes, hfile⟩ := Option.eq_none_or_eq_some s.file
  · refine hnothing ?_ ?_ (hs.missing hfile)
    · rw [hfile, PatchStore.current]
    · rw [hfile, Option.bind_none]
  · rcases hC bytes hfile with ⟨rfl, hsome⟩ | ⟨hnone, hw⟩
    · obtain ⟨e, he⟩ := Option.isSome_iff_exists.mp hsome
      obtain ⟨j, hsafe, _, hload, hall⟩ := hs.file e (by rw [hfile, Option.bind_some, he])
      refine ⟨j, hsafe, ?_, fun hbehind => List.take_of_length_le (hall hbehind).ge⟩
      simp only [hfile, PatchStore.current, Bool.false_eq_true, if_false, he, Option.getD_some,
        hload]
    · refine hnothing ?_ ?_ hw
      · rw [hfile, PatchStore.current, hnone, Option.getD_none, ite_self]
      · rw [hfile, Option.bind_some, hnone]

/-- A change that reads the state after the operations in effect, however its write
ends. -/
theorem Sound.update (hs : k.Sound h s) {o : ω} {fails : Bool}
    (hcurrent : k.current fails s.file = k.after h.ops) (hbehind : s.behind = false)
    (w : FileWrite) :
    k.Sound ⟨h.ops ++ [o], if w = .done then h.ops.length + 1 else h.safe⟩
      (k.step s (.update o fails w)) where
  file e he := by
    have hsafe := hs.safe_le
    rcases k.format.read_leaves he with rfl | ⟨rfl, hold⟩
    · -- the contents just written, whole
      refine ⟨h.ops.length + 1, ?_, by simp, ?_, fun _ => by simp⟩
      · dsimp only
        split <;> omega
      · rw [List.take_of_length_le (by simp), hcurrent, after_append]
    · -- the contents from before, the write having been refused
      obtain ⟨j, hsafe', hle, hload, _⟩ := hs.file e hold
      refine ⟨j, hsafe', by simp only [List.length_append]; omega, ?_, fun hb => ?_⟩
      · rw [List.take_append_of_le_length hle, hload]
      · simp [step] at hb
  nothing hread hw hb := by
    simp only [step, hbehind, Bool.false_or, decide_eq_false_iff_not, not_not] at hb
    simp [step, hb] at hw
  safe_le := by
    have := hs.safe_le
    simp only [List.length_append, List.length_cons, List.length_nil]
    split <;> omega
  unwritten hw := by
    simp only [step, Bool.or_eq_false_iff, decide_eq_false_iff_not] at hw
    dsimp only
    rw [if_neg hw.2, hs.unwritten hw.1]
  missing hnone := by
    cases w with
    | refused => simpa [step] using hs.missing hnone
    | cut n => cases hnone
    | done => cases hnone

/-- A start forgets the operations that are not in the file. -/
theorem Sound.restart (hs : k.Sound h s) :
    ∃ j, h.safe ≤ j ∧ k.Sound ⟨h.ops.take j, h.safe⟩ { s with behind := false } := by
  cases hread : s.file.bind k.format.read with
  | some e =>
    obtain ⟨j, hsafe, hle, hload, _⟩ := hs.file e hread
    refine ⟨j, hsafe, ⟨?_, ?_, ?_, hs.unwritten, hs.missing⟩⟩
    · intro e' he'
      obtain rfl := Option.some.inj (hread.symm.trans he')
      have hlen : (h.ops.take j).length = j := by rw [List.length_take, min_eq_left hle]
      refine ⟨j, hsafe, hlen.ge, ?_, fun _ => hlen.symm⟩
      rw [List.take_take, min_self, hload]
    · intro hnone
      rw [hread] at hnone
      cases hnone
    · rw [List.length_take]
      exact le_min hsafe hs.safe_le
  | none =>
    obtain hw | hw := Bool.eq_false_or_eq_true s.written
    · -- nothing is read of this file any more
      refine ⟨h.ops.length, hs.safe_le, ⟨?_, ?_, ?_, hs.unwritten, hs.missing⟩⟩
      · intro e he
        rw [hread] at he
        cases he
      · intro _ hw'
        rw [hw] at hw'
        cases hw'
      · rw [List.take_length]
        exact hs.safe_le
    · have hsafe := hs.unwritten hw
      refine ⟨0, hsafe.le, ⟨?_, fun _ _ _ => rfl, hsafe.le, hs.unwritten, hs.missing⟩⟩
      intro e he
      rw [hread] at he
      cases he

theorem Sound.step (hs : k.Sound h s) (a : PatchStoreAct ω) (hC : k.Keeps s a) :
    ∃ h', History.Follows (event s a) h h' ∧ k.Shows s a h' ∧ k.Sound h' (k.step s a) := by
  cases a with
  | update o fails w =>
    obtain ⟨hreads, hbehind⟩ := hC
    obtain ⟨j, _, hcurrent, hall⟩ := hs.current hreads
    rw [hall hbehind] at hcurrent
    have hs' := hs.update (o := o) hcurrent hbehind w
    refine ⟨_, ?_, ⟨?_, ?_, hs'.fileShows⟩, hs'⟩
    · rw [event, History.Follows]
      simp only [decide_eq_true_eq]
    · rintro _ _ _ ⟨rfl, rfl, rfl⟩
      rw [hcurrent, ← after_append]
    · rintro _ ⟨⟩
  | look fails =>
    obtain ⟨j, hsafe, hcurrent, _⟩ := hs.current hC
    refine ⟨h, rfl, ⟨?_, ?_, hs.fileShows⟩, hs⟩
    · rintro _ _ _ ⟨⟩
    · rintro _ ⟨rfl⟩
      exact ⟨j, hsafe, hcurrent⟩
  | restart =>
    obtain ⟨j, hsafe, hs'⟩ := hs.restart
    refine ⟨_, ⟨j, hsafe, rfl⟩, ⟨?_, ?_, hs'.fileShows⟩, hs'⟩
    · rintro _ _ _ ⟨⟩
    · rintro _ ⟨⟩

variable (k) in
/-- **A store that is read for each change shows the operations in effect** as long as
every read finds what it should and no change follows one of the same life whose write
was not completed. -/
theorem followed {acts : List (PatchStoreAct ω)} (hC : Along k.step k.Keeps init acts) :
    Followed k.step event k.Shows History.start init acts :=
  Followed.of_along (I := k.Sound) (fun _ _ a hs hC => hs.step a hC) (Sound.start k) hC

end PatchStore

end Pantoken
