import Pantoken.Lib.Delimited
import Pantoken.Lib.KeptFile

/-!
# The files of the stores

The records of the worktree, archive, push-subscription and settings stores, and the JSON
they are kept as.  The stores rely on `serde_json` for three things, which a `Codec` names:
that what it writes it reads back, with or without a line end after it, and that a text of
it cut short does not parse.

## Main definitions

* `PersistedWorktree`, `PushSubscription`, `PantokenSettings` — the records.
* `Codec`, `Codec.plain`, `Codec.line` — writing and reading them, and the file formats.
* `JsonText.str`, `array`, `persistedWorktree`, .. — the texts that `to_string_pretty` gives.

## Main results

* `StoreCodecs.pretty` — **those texts have the three properties.**
-/

namespace Pantoken

/-! ### Records -/

/-- `Vcs` -/
inductive Vcs where
  | jj
  | git
  deriving DecidableEq, Repr

/-- `WorktreeMeta` -/
structure WorktreeMeta where
  path : String
  base : String
  vcs : Vcs
  name : String
  deriving DecidableEq, Repr

/-- `PersistedWorktree`; `reaped` is left out where it is `none`. -/
structure PersistedWorktree where
  worktree : WorktreeMeta
  reaped : Option Bool
  deriving DecidableEq, Repr

/-- `SubscriptionKeys` -/
structure SubscriptionKeys where
  p256dh : String
  auth : String
  deriving DecidableEq, Repr

/-- `PushSubscription` -/
structure PushSubscription where
  endpoint : String
  keys : SubscriptionKeys
  deriving DecidableEq, Repr

/-- `PantokenSettings` -/
structure PantokenSettings where
  loginShell : Option String
  backgroundModel : Option String
  enabledExtensions : Option (List String)
  deriving DecidableEq, Repr

/-- `PartialSettings` -/
structure PartialSettings where
  loginShell : Option (Option String)
  backgroundModel : Option (Option String)
  enabledExtensions : Option (Option (List String))
  deriving DecidableEq, Repr

/-- The settings as `PartialSettings` reads them: a `null` is read like a key left out. -/
def PantokenSettings.asPartial (s : PantokenSettings) : PartialSettings :=
  ⟨s.loginShell.map some, s.backgroundModel.map some, s.enabledExtensions.map some⟩

/-- The settings that `read_pantoken_settings` makes of what was parsed. -/
def PartialSettings.flatten (p : PartialSettings) : PantokenSettings :=
  ⟨p.loginShell.join, p.backgroundModel.join, p.enabledExtensions.join⟩

@[simp] theorem PantokenSettings.flatten_asPartial (s : PantokenSettings) :
    s.asPartial.flatten = s := by
  obtain ⟨shell, model, extensions⟩ := s
  cases shell <;> cases model <;> cases extensions <;> rfl

/-! ### Codecs -/

/-- What the stores rely on of `serde_json`: `toBytes` is `to_string_pretty`, `ofBytes` is
`fs::read_to_string` of a file of these bytes and `from_str`.  What was written as an `α` is
read as a `β`. -/
structure Codec {α β : Type} (seen : α → β) where
  toBytes : α → List UInt8
  ofBytes : List UInt8 → Option β
  /-- What was written is read back. -/
  ofBytes_toBytes : ∀ a, ofBytes (toBytes a) = some (seen a)
  /-- Also with a line end after it. -/
  ofBytes_line : ∀ a, ofBytes (toBytes a ++ [10]) = some (seen a)
  /-- A text cut short does not parse. -/
  ofBytes_take : ∀ a n, n < (toBytes a).length → ofBytes ((toBytes a).take n) = none

namespace Codec

variable {α β : Type} {seen : α → β}

/-- A file that holds the text alone. -/
def plain (c : Codec seen) (back : β → α) (hback : ∀ a, back (seen a) = a) : FileFormat α where
  text := c.toBytes
  read bytes := (c.ofBytes bytes).map back
  read_text a := by rw [c.ofBytes_toBytes, Option.map_some, hback]
  read_take a n := by
    rcases lt_or_ge n (c.toBytes a).length with hn | hn
    · rw [c.ofBytes_take a n hn]
      exact .inl rfl
    · rw [List.take_of_length_le hn, c.ofBytes_toBytes, Option.map_some, hback]
      exact .inr rfl

/-- A file that holds the text and a line end, `format!("{json}\n")`. -/
def line (c : Codec seen) (back : β → α) (hback : ∀ a, back (seen a) = a) : FileFormat α where
  text a := c.toBytes a ++ [10]
  read bytes := (c.ofBytes bytes).map back
  read_text a := by rw [c.ofBytes_line, Option.map_some, hback]
  read_take a n := by
    rcases lt_trichotomy n (c.toBytes a).length with hn | rfl | hn
    · rw [List.take_append_of_le_length hn.le, c.ofBytes_take a n hn]
      exact .inl rfl
    · rw [List.take_left, c.ofBytes_toBytes, Option.map_some, hback]
      exact .inr rfl
    · rw [List.take_of_length_le (by rw [List.length_append]; exact hn), c.ofBytes_line,
        Option.map_some, hback]
      exact .inr rfl

/-- Texts that say where they end are such a codec. -/
def ofDelimited (d : Delimited α) (seen : α → β) : Codec seen where
  toBytes := d.toBytes
  ofBytes bytes := (d.ofBytes bytes).map seen
  ofBytes_toBytes a := by
    have h : d.ofBytes (d.toBytes a ++ Utf8.encode []) = some a := d.ofBytes_toBytes a rfl
    rw [Utf8.encode_nil, List.append_nil] at h
    rw [h, Option.map_some]
  ofBytes_line a := by
    have h : d.ofBytes (d.toBytes a ++ Utf8.encode ['\n']) = some a := d.ofBytes_toBytes a rfl
    rw [show Utf8.encode ['\n'] = [10] from rfl] at h
    rw [h, Option.map_some]
  ofBytes_take a n hn := by
    have htail : (d.toBytes a).drop n ≠ [] := by
      rw [Ne, List.drop_eq_nil_iff, not_le]
      exact hn
    rw [d.ofBytes_cut (List.take_append_drop n _) htail, Option.map_none]

end Codec

/-- The codecs of the four stores. -/
structure StoreCodecs where
  worktrees : Codec (id : List PersistedWorktree → List PersistedWorktree)
  archived : Codec (id : List String → List String)
  subscriptions : Codec (id : List PushSubscription → List PushSubscription)
  settings : Codec PantokenSettings.asPartial

/-! ### The texts of `to_string_pretty` -/

namespace JsonText

open Delimited

/-- A digit of the escape of a control character. -/
def hexDigit (n : ℕ) : Char := if n < 10 then Char.ofNat (48 + n) else Char.ofNat (87 + n)

def unhex (c : Char) : ℕ := if c.toNat < 58 then c.toNat - 48 else c.toNat - 87

/-- A character of a string. -/
def escape (c : Char) : List Char :=
  if c = '"' then ['\\', '"']
  else if c = '\\' then ['\\', '\\']
  else if c = '\x08' then ['\\', 'b']
  else if c = '\t' then ['\\', 't']
  else if c = '\n' then ['\\', 'n']
  else if c = '\x0c' then ['\\', 'f']
  else if c = '\r' then ['\\', 'r']
  else if c.toNat < 32 then
    ['\\', 'u', '0', '0', hexDigit (c.toNat / 16), hexDigit (c.toNat % 16)]
  else [c]

/-- The character that an escape stands for, after its backslash. -/
def unescapeTail : List Char → Option (Char × List Char)
  | '"' :: rest => some ('"', rest)
  | '\\' :: rest => some ('\\', rest)
  | 'b' :: rest => some ('\x08', rest)
  | 't' :: rest => some ('\t', rest)
  | 'n' :: rest => some ('\n', rest)
  | 'f' :: rest => some ('\x0c', rest)
  | 'r' :: rest => some ('\r', rest)
  | 'u' :: '0' :: '0' :: high :: low :: rest =>
    some (Char.ofNat (16 * unhex high + unhex low), rest)
  | _ => none

/-- The character at the front of the rest of a string, none at its end. -/
def unescape : List Char → Option (Char × List Char)
  | [] => none
  | c :: rest =>
    if c = '"' then none else if c = '\\' then unescapeTail rest else some (c, rest)

/-- A control character is read back from its two digits. -/
theorem unhex_hexDigit :
    ∀ n < 32, 16 * unhex (hexDigit (n / 16)) + unhex (hexDigit (n % 16)) = n := by
  decide

theorem unescape_escape (c : Char) (rest : List Char) :
    unescape (escape c ++ rest) = some (c, rest) := by
  unfold escape
  split_ifs with hquote hback hb ht hn hf hr hcontrol
  · subst hquote; rfl
  · subst hback; rfl
  · subst hb; rfl
  · subst ht; rfl
  · subst hn; rfl
  · subst hf; rfl
  · subst hr; rfl
  · have hread := unhex_hexDigit c.toNat hcontrol
    have htail : unescape (['\\', 'u', '0', '0', hexDigit (c.toNat / 16), hexDigit (c.toNat % 16)]
        ++ rest) = some (Char.ofNat (16 * unhex (hexDigit (c.toNat / 16))
          + unhex (hexDigit (c.toNat % 16))), rest) := rfl
    rw [htail, hread, Char.ofNat_toNat]
  · rw [List.singleton_append, unescape, if_neg hquote, if_neg hback]

def char : Delimited Char := ⟨escape, unescape, unescape_escape⟩

theorem escape_ne_nil (c : Char) : escape c ≠ [] := by
  unfold escape
  split_ifs <;> exact List.cons_ne_nil _ _

/-- A string. -/
def str : Delimited String :=
  (after ['"'] (many char ['"'] (fun _ => rfl) escape_ne_nil)).imap String.ofList String.toList
    fun _ => String.ofList_toList

/-- `null` or a value, whose text begins with another character. -/
def nullable {α : Type} (d : Delimited α)
    (h : ∀ a rest, (lit "null".toList).read (d.write a ++ rest) = none) : Delimited (Option α) :=
  (alt (lit "null".toList) d h).imap (Sum.elim (fun _ => none) some)
    (fun o => o.elim (.inl ()) .inr) fun o => by cases o <;> rfl

/-- A new line with `n` spaces before what follows. -/
def newline (n : ℕ) : List Char := '\n' :: List.replicate n ' '

/-- The elements of an array after its bracket, `n + 2` spaces in. -/
def elements {α : Type} (n : ℕ) (d : Delimited α) : Delimited (α × List α) :=
  seq (after (newline (n + 2)) d)
    (many (after (',' :: newline (n + 2)) d) (newline n ++ [']'])
      (fun _ => after_read_of_none d (lit_read_of_ne (by decide)))
      fun _ => List.cons_ne_nil _ _)

/-- An array. -/
def array {α : Type} (n : ℕ) (d : Delimited α) : Delimited (List α) :=
  (after ['['] (alt (lit [']']) (elements n d) fun _ _ => lit_read_of_ne (by decide))).imap
    (Sum.elim (fun _ => []) fun p => p.1 :: p.2)
    (fun as => match as with
      | [] => .inl ()
      | a :: as => .inr (a, as))
    fun as => by cases as <;> rfl

/-- `Vcs`, in lower case. -/
def vcs : Delimited Vcs :=
  (after ['"'] (alt (lit "jj\"".toList) (lit "git\"".toList)
      fun _ _ => lit_read_of_ne (by decide))).imap
    (Sum.elim (fun _ => .jj) fun _ => .git)
    (fun v => match v with
      | .jj => .inl ()
      | .git => .inr ())
    fun v => by cases v <;> rfl

/-- `true` or `false`. -/
def bool : Delimited Bool :=
  (alt (lit "false".toList) (lit "true".toList) fun _ _ => lit_read_of_ne (by decide)).imap
    (Sum.elim (fun _ => false) fun _ => true) (fun b => if b then .inr () else .inl ())
    fun b => by cases b <;> rfl

/-- The end of a `PersistedWorktree`, where `reaped` is left out if it is `none`. -/
def reapedTail : Delimited (Option Bool) :=
  (alt (lit "\n  \x7d".toList)
      (before (after ",\n    \"reaped\": ".toList bool) "\n  \x7d".toList)
      fun _ _ => lit_read_of_ne (by decide)).imap
    (Sum.elim (fun _ => none) some) (fun o => o.elim (.inl ()) .inr) fun o => by cases o <;> rfl

/-- A `PersistedWorktree` of an array, its metadata flattened into it. -/
def persistedWorktree : Delimited PersistedWorktree :=
  (seq (after "\x7b\n    \"path\": ".toList str)
    (seq (after ",\n    \"base\": ".toList str)
      (seq (after ",\n    \"vcs\": ".toList vcs)
        (seq (after ",\n    \"name\": ".toList str) reapedTail)))).imap
    (fun (path, base, vcs, name, reaped) => ⟨⟨path, base, vcs, name⟩, reaped⟩)
    (fun e => (e.worktree.path, e.worktree.base, e.worktree.vcs, e.worktree.name, e.reaped))
    fun _ => rfl

/-- A `PushSubscription` of an array. -/
def pushSubscription : Delimited PushSubscription :=
  (seq (after "\x7b\n    \"endpoint\": ".toList str)
    (seq (after ",\n    \"keys\": \x7b\n      \"p256dh\": ".toList str)
      (before (after ",\n      \"auth\": ".toList str) "\n    \x7d\n  \x7d".toList))).imap
    (fun (endpoint, p256dh, auth) => ⟨endpoint, p256dh, auth⟩)
    (fun s => (s.endpoint, s.keys.p256dh, s.keys.auth)) fun _ => rfl

/-- The `PantokenSettings`. -/
def pantokenSettings : Delimited PantokenSettings :=
  (seq (after "\x7b\n  \"loginShell\": ".toList
      (nullable str fun _ _ => lit_read_of_ne (by decide)))
    (seq (after ",\n  \"backgroundModel\": ".toList
        (nullable str fun _ _ => lit_read_of_ne (by decide)))
      (before (after ",\n  \"enabledExtensions\": ".toList
        (nullable (array 2 str) fun _ _ => lit_read_of_ne (by decide))) "\n\x7d".toList))).imap
    (fun (shell, model, extensions) => ⟨shell, model, extensions⟩)
    (fun s => (s.loginShell, s.backgroundModel, s.enabledExtensions)) fun _ => rfl

end JsonText

/-- **The texts of `to_string_pretty` have the three properties.** -/
def StoreCodecs.pretty : StoreCodecs where
  worktrees := .ofDelimited (JsonText.array 0 JsonText.persistedWorktree) id
  archived := .ofDelimited (JsonText.array 0 JsonText.str) id
  subscriptions := .ofDelimited (JsonText.array 0 JsonText.pushSubscription) id
  settings := .ofDelimited JsonText.pantokenSettings PantokenSettings.asPartial

end Pantoken
