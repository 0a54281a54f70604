import Pantoken.Lib.Cut
import Pantoken.Lib.Numeral
import Pantoken.Lib.Pieces
import Pantoken.Lib.StrSlice
import Pantoken.Polytoken.Calendar
import Pantoken.Remote.Semver

/-!
# Timestamps

The server writes an instant as a date and a time of UTC and reads the timestamps of a daemon,
with any offset.  The items of a history that carry no time get a synthetic one, a second for
each item, which is to keep their order.

## Main definitions

* `nowIso8601`, `parseRfc3339Millis` — the code.
* `Writes` — how an instant is written at an offset.
* `stamp` — the synthetic time of an item of a history.

## Main results

* `writes_formatSyntheticIso`, `writes_nowIso8601` — what the code writes.
* `parseRfc3339Millis_writes` — a written instant is read back.
* `stamp_lt_iff` — when two synthetic times are in order.
* `timestamps_exact` — **dates and timestamps are exact, and synthetic times are in order as long
  as the numerals of their years are.**
-/

namespace Pantoken

open Gregorian

/-! ### The code -/

/-- `now_iso8601`, of the seconds and the milliseconds of a clock.  The year is not negative. -/
def nowIso8601 (secs millis : ℕ) : Option String :=
  (epochToCivil secs).map fun (y, mo, d, h, mi, s) =>
    padZeros 4 y.toNat ++ "-" ++ padZeros 2 mo ++ "-" ++ padZeros 2 d ++ "T" ++
      padZeros 2 h ++ ":" ++ padZeros 2 mi ++ ":" ++ padZeros 2 s ++ "." ++
      padZeros 3 millis ++ "Z"

/-- The number of decimal digits, if there are only such. -/
def parseMagnitude (s : List Char) : Option ℕ :=
  if s ≠ [] ∧ s.all Char.isDigit then some (Remote.Semver.digitsValue s) else none

/-- A number without the sign `+`. -/
def stripPlus (s : List Char) : List Char := if s.head? = some '+' then s.tail else s

/-- `str::parse::<u32>` -/
def parseU32 (s : List Char) : Option ℕ :=
  (parseMagnitude (stripPlus s)).filter (· < 2 ^ 32)

/-- `str::parse::<i32>` -/
def parseI32 (s : List Char) : Option ℤ :=
  if s.head? = some '-' then
    ((parseMagnitude s.tail).filter (· ≤ 2 ^ 31)).map fun n => -(n : ℤ)
  else ((parseMagnitude (stripPlus s)).filter (· < 2 ^ 31)).map fun n => (n : ℤ)

/-- The texts before the last place of a character and from it on, as `str::rfind` finds it. -/
def splitLast (c : Char) (s : List Char) : Option (List Char × List Char) :=
  if c ∈ s then some ((s.rdropWhile (· ≠ c)).dropLast, c :: s.rtakeWhile (· ≠ c)) else none

/-- The time and the offset behind it, if the sign is in the text. -/
def offsetPart (sign : Char) (rest : List Char) : Option (List Char × List Char) :=
  (splitLast sign rest).filter fun (time, tzPart) => time ≠ [] ∧ 6 ≤ byteLength tzPart

/-- `tz_sign * (tz_h * 60 + tz_m)` -/
def signedMinutes (tzSign tzH tzM : ℤ) : Option ℤ :=
  (i32 (tzH * 60)).bind fun hours => (i32 (hours + tzM)).bind fun minutes =>
    i32 (tzSign * minutes)

/-- The minutes of an offset. -/
def offsetMinutes (tzPart : List Char) : Option (Option ℤ) :=
  let tzSign := if tzPart.head? = some '-' then -1 else 1
  match tzPart.tail.splitOn ':' with
  | h :: m :: _ =>
    match parseI32 h, parseI32 m with
    | some tzH, some tzM => (signedMinutes tzSign tzH tzM).map some
    | _, _ => some none
  | _ => some none

/-- `parse_tz` -/
def parseTz (rest : List Char) : Option (Option (List Char × ℤ)) :=
  match splitLast 'Z' rest with
  | some (time, _) => some (some (time, 0))
  | none =>
    match (offsetPart '+' rest).or (offsetPart '-' rest) with
    | some (time, tzPart) => (offsetMinutes tzPart).map fun o => o.map (time, ·)
    | none => some (some (rest, 0))

/-- The year, the month and the day in front of a timestamp. -/
def parseDatePart (datePart : List Char) : Option (ℤ × ℕ × ℕ) :=
  match datePart.splitOn '-' with
  | y :: m :: d :: _ => do some (← parseI32 y, ← parseU32 m, ← parseU32 d)
  | _ => none

/-- The hour, the minute, the second and the milliseconds behind them. -/
def parseTimePart (timePart : List Char) : Option (ℕ × ℕ × ℕ × ℕ) :=
  match timePart.splitOn ':' with
  | h :: m :: secAndMillis :: _ => do
    let h ← parseU32 h
    let m ← parseU32 m
    let (secStr, millisStr) := match Remote.Semver.splitOnce '.' secAndMillis with
      | some (s, ms) => (s, some ms)
      | none => (secAndMillis, none)
    let sec ← parseU32 secStr
    let millis := (millisStr.bind fun ms =>
      parseU32 (ms.take 3 ++ List.replicate (3 - (ms.take 3).length) '0')).getD 0
    some (h, m, sec, millis)
  | _ => none

/-- `as u128` -/
def asU128 (n : ℤ) : ℕ := (n % 2 ^ 128).toNat

/-- `parse_rfc3339_millis`.  The seconds of a year of the machine fit into an `i64`. -/
def parseRfc3339Millis (s : List Char) : Option (Option ℕ) :=
  match Remote.Semver.splitOnce 'T' (Cut.trim Cut.isWhitespace s) with
  | none => some none
  | some (datePart, rest) =>
    match parseDatePart datePart with
    | none => some none
    | some (year, month, day) => do
      let some (timePart, tzOffsetMinutes) ← parseTz rest | some none
      let some (h, m, sec, millis) := parseTimePart timePart | some none
      let some days ← daysFromCivil year month day | some none
      let totalSeconds := days * 86400 + h * 3600 + m * 60 + sec - tzOffsetMinutes * 60
      some (some (asU128 (totalSeconds * 1000 + millis)))

/-- The synthetic time of an item of a history. -/
def stamp (i : ℕ) : String := formatSyntheticIso (saturatingMul i 1000)

/-! ### How an instant is written -/

def Gregorian.Date.text (d : Date) : List Char :=
  ['-'].intercalate [numeral 4 d.year.toNat, numeral 2 d.month, numeral 2 d.day]

/-- A time of the day, which is counted in milliseconds. -/
def timeText (t : ℕ) : List Char :=
  [':'].intercalate [numeral 2 (t / 3600000), numeral 2 (t / 60000 % 60),
    numeral 2 (t / 1000 % 60) ++ '.' :: numeral 3 (t % 1000)]

def dateTime (d : Date) (t : ℕ) : List Char := d.text ++ 'T' :: timeText t

/-- The hours and the minutes of an offset. -/
def offsetText (o : ℕ) : List Char := [':'].intercalate [numeral 2 (o / 60), numeral 2 (o % 60)]

/-- How an offset of whole minutes is written. -/
inductive IsZone : ℤ → List Char → Prop
  | utc : IsZone 0 ['Z']
  | east (o : ℕ) : IsZone o ('+' :: offsetText o)
  | west (o : ℕ) : IsZone (-o) ('-' :: offsetText o)

/-- An instant is written at an offset: as the date and the time there, in a year of the machine
that is not negative. -/
def Writes (ms offset : ℤ) (text : List Char) : Prop :=
  ∃ (day : ℤ) (t : ℕ) (d : Date) (zone : List Char), OnDay day d ∧ t < 86400000 ∧
    ms + 60000 * offset = 86400000 * day + t ∧ 0 ≤ d.year ∧ d.year < 2 ^ 31 ∧
    IsZone offset zone ∧ text = dateTime d t ++ zone

/-! ### What the code writes -/

theorem padZeros_toList (w n : ℕ) : (padZeros w n).toList = numeral w n := by
  have hpad (k : ℕ) : ("".pushn '0' k).toList = List.replicate k '0' := by
    rw [String.pushn_eq_repeat_push]
    induction k with
    | zero => rfl
    | succ k ih => rw [Nat.repeat, String.toList_push, ih, List.replicate_succ']
  unfold padZeros numeral
  rw [String.toList_append, hpad, Nat.toString_eq_ofList_toDigits, String.toList_ofList,
    String.length_ofList]

/-- The text both formatters write. -/
theorem isoText_toList (y mo d h mi s ms : ℕ) :
    (padZeros 4 y ++ "-" ++ padZeros 2 mo ++ "-" ++ padZeros 2 d ++ "T" ++ padZeros 2 h ++ ":" ++
      padZeros 2 mi ++ ":" ++ padZeros 2 s ++ "." ++ padZeros 3 ms ++ "Z").toList =
    ['-'].intercalate [numeral 4 y, numeral 2 mo, numeral 2 d] ++ 'T' ::
      [':'].intercalate [numeral 2 h, numeral 2 mi, numeral 2 s ++ '.' :: numeral 3 ms] ++
        ['Z'] := by
  simp [padZeros_toList, List.intercalate]

/-- An instant from the epoch on is written in UTC. -/
theorem writes_utc {ms : ℕ} {d : Date} (h : OnDay (ms / 86400000 : ℕ) d) (hyear : d.year < 2 ^ 31) :
    Writes ms 0 (dateTime d (ms % 86400000) ++ ['Z']) := by
  have hge := (civilFromDays_eq h).2
  refine ⟨_, ms % 86400000, d, _, h, by omega, by omega, ?_, hyear, .utc, rfl⟩
  have hle : d.marchYear ≤ d.year := by
    unfold Date.marchYear
    split <;> omega
  omega

/-- The text of `format_synthetic_iso` is that of the calendar. -/
theorem formatSyntheticIso_eq {ms : ℕ} {d : Date} (h : OnDay (ms / 86400000 : ℕ) d) :
    (formatSyntheticIso ms).toList = dateTime d (ms % 86400000) ++ ['Z'] := by
  have hdays : ms / 1000 / 86400 = ms / 86400000 := by omega
  have hhour : ms / 1000 % 86400 / 3600 = ms % 86400000 / 3600000 := by omega
  have hminute : ms / 1000 % 86400 % 3600 / 60 = ms % 86400000 / 60000 % 60 := by omega
  have hsecond : ms / 1000 % 86400 % 60 = ms % 86400000 / 1000 % 60 := by omega
  have hmillis : ms % 1000 = ms % 86400000 % 1000 := by omega
  unfold formatSyntheticIso
  simp only [hdays, (civilFromDays_eq h).1]
  rw [isoText_toList, hhour, hminute, hsecond, hmillis]
  rfl

/-- So is the text of `now_iso8601`. -/
theorem nowIso8601_eq {secs millis : ℕ} {d : Date} (h : OnDay (secs / 86400 : ℕ) d)
    (hsecs : secs < 2 ^ 64) (hmillis : millis < 1000) :
    (nowIso8601 secs millis).map String.toList = if d.year < 2 ^ 31 then
      some (dateTime d ((secs * 1000 + millis) % 86400000) ++ ['Z']) else none := by
  obtain ⟨t, ht⟩ : ∃ t, t = (secs * 1000 + millis) % 86400000 := ⟨_, rfl⟩
  have hhour : secs % 86400 / 3600 = t / 3600000 := by omega
  have hminute : secs % 86400 % 3600 / 60 = t / 60000 % 60 := by omega
  have hsecond : secs % 86400 % 60 = t / 1000 % 60 := by omega
  have hrest : millis = t % 1000 := by omega
  rw [nowIso8601, epochToCivil_eq h hsecs, ← ht]
  split
  · simp only [Option.map_some]
    rw [isoText_toList, hhour, hminute, hsecond, hrest]
    rfl
  · rfl

/-! ### What the code reads -/

theorem notMem_numeral {c : Char} (hc : c.isDigit = false) (w n : ℕ) : c ∉ numeral w n := by
  intro h
  rw [isDigit_of_mem_numeral c h] at hc
  cases hc

theorem head_numeral_ne {c : Char} (hc : c.isDigit = false) (w n : ℕ) :
    (numeral w n).head? ≠ some c := fun h => notMem_numeral hc w n (List.mem_of_mem_head? h)

theorem parseMagnitude_numeral (w n : ℕ) : parseMagnitude (numeral w n) = some n := by
  have hdigits : (numeral w n).all Char.isDigit :=
    List.all_eq_true.mpr isDigit_of_mem_numeral
  rw [parseMagnitude, if_pos ⟨numeral_ne_nil w n, hdigits⟩]
  exact congrArg some (ofDigitChars_numeral w n)

theorem parseU32_numeral {w n : ℕ} (h : n < 2 ^ 32) : parseU32 (numeral w n) = some n := by
  rw [parseU32, stripPlus, if_neg (head_numeral_ne (by decide) w n), parseMagnitude_numeral]
  exact Option.filter_some_pos (by simpa using h)

theorem parseI32_numeral {w n : ℕ} (h : n < 2 ^ 31) : parseI32 (numeral w n) = some (n : ℤ) := by
  rw [parseI32, if_neg (head_numeral_ne (by decide) w n), stripPlus,
    if_neg (head_numeral_ne (by decide) w n), parseMagnitude_numeral,
    Option.filter_some_pos (by simpa using h)]
  rfl

theorem splitLast_append {c : Char} {back : List Char} (front : List Char) (h : c ∉ back) :
    splitLast c (front ++ c :: back) = some (front, c :: back) := by
  have hall : ∀ d ∈ back.reverse, decide (d ≠ c) = true := by
    intro d hd
    rw [decide_eq_true_eq]
    rintro rfl
    exact h (List.mem_reverse.mp hd)
  rw [splitLast, if_pos (by simp), List.rdropWhile, List.rtakeWhile, List.reverse_append,
    List.reverse_cons, List.append_assoc, List.dropWhile_append_of_pos hall,
    List.takeWhile_append_of_pos hall]
  simp

theorem splitLast_of_notMem {c : Char} {s : List Char} (h : c ∉ s) : splitLast c s = none :=
  if_neg h

/-- A time of the day holds no letters and no signs. -/
theorem notMem_timeText {c : Char} (hc : c.isDigit = false) (hcolon : c ≠ ':') (hdot : c ≠ '.')
    (t : ℕ) : c ∉ timeText t := by
  refine Pieces.notMem_intercalate (by simpa using hcolon) ?_
  intro piece hpiece
  simp only [List.mem_cons, List.not_mem_nil, or_false] at hpiece
  rcases hpiece with rfl | rfl | rfl
  · exact notMem_numeral hc 2 _
  · exact notMem_numeral hc 2 _
  · rw [List.mem_append, List.mem_cons]
    rintro (h | h | h)
    · exact notMem_numeral hc 2 _ h
    · exact hdot h
    · exact notMem_numeral hc 3 _ h

theorem notMem_offsetText {c : Char} (hc : c.isDigit = false) (hcolon : c ≠ ':') (o : ℕ) :
    c ∉ offsetText o := by
  refine Pieces.notMem_intercalate (by simpa using hcolon) ?_
  intro piece hpiece
  simp only [List.mem_cons, List.not_mem_nil, or_false] at hpiece
  rcases hpiece with rfl | rfl
  · exact notMem_numeral hc 2 _
  · exact notMem_numeral hc 2 _

theorem parseDatePart_text {d : Date} (hpos : 0 ≤ d.year) (hlt : d.year < 2 ^ 31) :
    parseDatePart d.text = some (d.year, d.month, d.day) := by
  have hm := d.month_le
  have hd := d.day_le
  have hd' := monthLength_le d.year d.month
  have hsplit : d.text.splitOn '-' =
      [numeral 4 d.year.toNat, numeral 2 d.month, numeral 2 d.day] := by
    apply List.splitOn_intercalate
    · simp [notMem_numeral]
    · simp
  rw [parseDatePart, hsplit]
  simp only [parseI32_numeral (show d.year.toNat < 2 ^ 31 by omega),
    parseU32_numeral (show d.month < 2 ^ 32 by omega),
    parseU32_numeral (show d.day < 2 ^ 32 by omega), Option.bind_eq_bind, Option.bind_some]
  rw [Int.toNat_of_nonneg hpos]

theorem parseTimePart_timeText {t : ℕ} (ht : t < 86400000) : parseTimePart (timeText t) =
    some (t / 3600000, t / 60000 % 60, t / 1000 % 60, t % 1000) := by
  have hcolon (w n : ℕ) : ':' ∉ numeral w n := notMem_numeral (by decide) w n
  have hsplit : (timeText t).splitOn ':' = [numeral 2 (t / 3600000), numeral 2 (t / 60000 % 60),
      numeral 2 (t / 1000 % 60) ++ '.' :: numeral 3 (t % 1000)] := by
    apply List.splitOn_intercalate
    · simp [hcolon]
    · simp
  have hlen : (numeral 3 (t % 1000)).length = 3 := length_numeral_of_lt (by decide) (by omega)
  have htake : (numeral 3 (t % 1000)).take 3 = numeral 3 (t % 1000) :=
    List.take_of_length_le hlen.le
  have hdot := Remote.Semver.splitOnce_append
    (notMem_numeral (c := '.') (by decide) 2 (t / 1000 % 60)) (numeral 3 (t % 1000))
  rw [parseTimePart, hsplit]
  simp only [hdot,
    parseU32_numeral (show t / 3600000 < 2 ^ 32 by omega),
    parseU32_numeral (show t / 60000 % 60 < 2 ^ 32 by omega),
    parseU32_numeral (show t / 1000 % 60 < 2 ^ 32 by omega), Option.bind_eq_bind,
    Option.bind_some, htake, hlen, Nat.sub_self, List.replicate_zero, List.append_nil,
    parseU32_numeral (show t % 1000 < 2 ^ 32 by omega), Option.getD_some]

theorem length_le_byteLength (s : List Char) : s.length ≤ byteLength s := by
  induction s with
  | nil => exact le_rfl
  | cons c s ih =>
    have hpos := c.utf8Size_pos
    rw [byteLength, List.length_cons]
    omega

/-- An offset is long enough to be one. -/
theorem six_le_byteLength (sign : Char) (o : ℕ) : 6 ≤ byteLength (sign :: offsetText o) := by
  refine le_trans ?_ (length_le_byteLength _)
  have hh := length_numeral 2 (o / 60)
  have hm := length_numeral 2 (o % 60)
  simp only [offsetText, List.intercalate, List.intersperse, List.flatten_cons, List.flatten_nil,
    List.length_cons, List.length_append, List.length_nil]
  omega

theorem offsetPart_append {sign : Char} {time : List Char} (htime : time ≠ [])
    (hdigit : sign.isDigit = false) (hcolon : sign ≠ ':') (o : ℕ) :
    offsetPart sign (time ++ sign :: offsetText o) = some (time, sign :: offsetText o) := by
  rw [offsetPart, splitLast_append time (notMem_offsetText hdigit hcolon o)]
  exact Option.filter_some_pos (by simpa using ⟨htime, six_le_byteLength sign o⟩)

theorem signedMinutes_eq {sign : ℤ} (hsign : sign = 1 ∨ sign = -1) {o : ℕ} (ho : o < 2 ^ 31) :
    signedMinutes sign (o / 60 : ℕ) (o % 60 : ℕ) = some (sign * o) := by
  have hsum : ((o / 60 : ℕ) : ℤ) * 60 + (o % 60 : ℕ) = o := by omega
  have hrange : -2 ^ 31 ≤ sign * (o : ℤ) ∧ sign * (o : ℤ) < 2 ^ 31 := by
    rcases hsign with rfl | rfl <;> omega
  rw [signedMinutes, i32_of_mem (by omega), Option.bind_some, hsum, i32_of_mem (by omega),
    Option.bind_some, i32_of_mem hrange]

theorem offsetMinutes_eq (sign : Char) {o : ℕ} (ho : o < 2 ^ 31) :
    offsetMinutes (sign :: offsetText o) =
      some (some ((if sign = '-' then -1 else 1) * (o : ℤ))) := by
  have hsplit : (offsetText o).splitOn ':' = [numeral 2 (o / 60), numeral 2 (o % 60)] := by
    apply List.splitOn_intercalate
    · simp [notMem_numeral]
    · simp
  have hsign : (if sign = '-' then (-1 : ℤ) else 1) = 1 ∨
      (if sign = '-' then (-1 : ℤ) else 1) = -1 := by
    split <;> simp
  rw [offsetMinutes, List.tail_cons, hsplit]
  simp only [parseI32_numeral (show o / 60 < 2 ^ 31 by omega),
    parseI32_numeral (show o % 60 < 2 ^ 31 by omega), List.head?_cons, Option.some.injEq,
    signedMinutes_eq hsign ho, Option.map_some]

/-- The offset behind a time is read. -/
theorem parseTz_timeText {offset : ℤ} {zone : List Char} (hzone : IsZone offset zone)
    (hoffset : |offset| < 2 ^ 31) (t : ℕ) :
    parseTz (timeText t ++ zone) = some (some (timeText t, offset)) := by
  have hZ := notMem_timeText (c := 'Z') (by decide) (by decide) (by decide) t
  have hplus := notMem_timeText (c := '+') (by decide) (by decide) (by decide) t
  have hne : timeText t ≠ [] := by
    simp [timeText, List.intercalate, numeral_ne_nil]
  cases hzone with
  | utc => rw [parseTz, splitLast_append _ List.not_mem_nil]
  | east o =>
    have ho : o < 2 ^ 31 := by
      rw [Nat.abs_cast] at hoffset
      omega
    have hnoZ : splitLast 'Z' (timeText t ++ '+' :: offsetText o) = none := by
      apply splitLast_of_notMem
      simp [hZ, notMem_offsetText]
    rw [parseTz, hnoZ, offsetPart_append hne (by decide) (by decide), Option.some_or]
    simp [offsetMinutes_eq _ ho]
  | west o =>
    have ho : o < 2 ^ 31 := by
      rw [abs_neg, Nat.abs_cast] at hoffset
      omega
    have hnoZ : splitLast 'Z' (timeText t ++ '-' :: offsetText o) = none := by
      apply splitLast_of_notMem
      simp [hZ, notMem_offsetText]
    have hnoplus : offsetPart '+' (timeText t ++ '-' :: offsetText o) = none := by
      rw [offsetPart, splitLast_of_notMem]
      · rfl
      · simp [hplus, notMem_offsetText]
    rw [parseTz, hnoZ, hnoplus, Option.none_or, offsetPart_append hne (by decide) (by decide)]
    simp [offsetMinutes_eq _ ho]

/-- A timestamp has no blanks around it. -/
theorem trim_dateTime (d : Date) (t : ℕ) {offset : ℤ} {zone : List Char} (h : IsZone offset zone) :
    Cut.trim Cut.isWhitespace (dateTime d t ++ zone) = dateTime d t ++ zone := by
  have hdigit {c : Char} (hc : c.isDigit) : Cut.isWhitespace c = false := by
    have := toNat_of_isDigit hc
    have h0 : '0'.toNat = 48 := rfl
    have h9 : '9'.toNat = 57 := rfl
    unfold Cut.isWhitespace
    rw [decide_eq_false_iff_not]
    omega
  have hlast : ∀ c ∈ zone.getLast?, Cut.isWhitespace c = false := by
    have hoffset (o : ℕ) (sign : Char) : ∀ c ∈ (sign :: offsetText o).getLast?, c.isDigit := by
      have htext : sign :: offsetText o =
          (sign :: numeral 2 (o / 60) ++ [':']) ++ numeral 2 (o % 60) := by
        simp [offsetText, List.intercalate]
      rw [htext, List.getLast?_append_of_ne_nil _ (numeral_ne_nil 2 _)]
      exact fun c hc => isDigit_of_mem_numeral c (List.mem_of_getLast? hc)
    cases h with
    | utc =>
      rintro c ⟨⟩
      rfl
    | east o => exact fun c hc => hdigit (hoffset o '+' c hc)
    | west o => exact fun c hc => hdigit (hoffset o '-' c hc)
  have hne : zone ≠ [] := by
    cases h <;> simp
  have hsolid : Cut.Solid Cut.isWhitespace (dateTime d t ++ zone) := by
    refine ⟨by simp [hne], fun c hc => ?_, ?_⟩
    · have htext : dateTime d t ++ zone = numeral 4 d.year.toNat ++
          ('-' :: numeral 2 d.month ++ '-' :: numeral 2 d.day ++ 'T' :: timeText t ++ zone) := by
        simp [dateTime, Date.text, List.intercalate]
      rw [htext, List.head?_append_of_ne_nil _ (numeral_ne_nil 4 _)] at hc
      exact hdigit (isDigit_of_mem_numeral c (List.mem_of_mem_head? hc))
    · rwa [List.getLast?_append_of_ne_nil _ hne]
  have htrim := Cut.trim_pad (a := []) (b := []) hsolid (by simp) (by simp)
  simpa using htrim

/-- **A written instant is read back.** -/
theorem parseRfc3339Millis_writes {ms offset : ℤ} {text : List Char} (h : Writes ms offset text)
    (hoffset : |offset| < 2 ^ 31) : parseRfc3339Millis text = some (some (asU128 ms)) := by
  obtain ⟨day, t, d, zone, hday, ht, hms, hpos, hlt, hzone, rfl⟩ := h
  have hT : 'T' ∉ d.text := by
    apply Pieces.notMem_intercalate (by decide)
    simp [notMem_numeral]
  have hback : BackInRange d := by
    unfold BackInRange Date.marchYear
    split <;> omega
  have hsplit := Remote.Semver.splitOnce_append hT (timeText t ++ zone)
  rw [parseRfc3339Millis, trim_dateTime d t hzone, dateTime, List.append_assoc, List.cons_append,
    hsplit]
  simp only [parseDatePart_text hpos hlt, parseTz_timeText hzone hoffset,
    parseTimePart_timeText ht, daysFromCivil_eq d (by omega) hlt, if_pos hback,
    Option.bind_eq_bind, Option.bind_some, onDay_iff.mp hday, Option.some.injEq]
  congr 1
  omega

/-! ### Synthetic times in order -/

/-- The milliseconds of the synthetic time of an item. -/
def stampMillis (i : ℕ) : ℕ := saturatingMul i 1000

/-- The first item whose time is the last one. -/
def lastStamp : ℕ := 18446744073709552

theorem stampMillis_eq (i : ℕ) : stampMillis i = min (i * 1000) u64Max := by
  unfold stampMillis saturatingMul
  split
  · next h => exact (min_eq_left h).symm
  · next h => exact (min_eq_right (Nat.le_of_not_le h)).symm

theorem stampMillis_le {i j : ℕ} (h : i < j) : stampMillis i ≤ stampMillis j := by
  rw [stampMillis_eq, stampMillis_eq]
  exact min_le_min_right _ (Nat.mul_le_mul_right 1000 h.le)

/-- Only the last time is that of several items. -/
theorem stampMillis_lt_iff {i j : ℕ} (h : i < j) :
    stampMillis i < stampMillis j ↔ i < lastStamp := by
  rw [stampMillis_eq, stampMillis_eq]
  unfold u64Max lastStamp
  omega

/-- The time of a date, with everything behind the year. -/
theorem dateTime_eq (d : Date) (t : ℕ) : dateTime d t ++ ['Z'] = numeral 4 d.year.toNat ++ '-' ::
    (numeral 2 d.month ++ '-' :: (numeral 2 d.day ++ 'T' :: (timeText t ++ ['Z']))) := by
  simp [dateTime, Date.text, List.intercalate]

theorem timeText_lt_iff {t u : ℕ} (ht : t < 86400000) (hu : u < 86400000) :
    timeText t ++ ['Z'] < timeText u ++ ['Z'] ↔ t < u := by
  have hsplit (t : ℕ) : timeText t ++ ['Z'] = numeral 2 (t / 3600000) ++ ':' ::
      (numeral 2 (t / 60000 % 60) ++ ':' :: (numeral 2 (t / 1000 % 60) ++ '.' ::
        (numeral 3 (t % 1000) ++ 'Z' :: []))) := by
    simp [timeText, List.intercalate]
  have htwo {m n : ℕ} (hm : m < 100) (hn : n < 100) :
      (numeral 2 m).length = (numeral 2 n).length := by
    rw [length_numeral_of_lt (by decide) hm, length_numeral_of_lt (by decide) hn]
  have hthree : (numeral 3 (t % 1000)).length = (numeral 3 (u % 1000)).length := by
    rw [length_numeral_of_lt (by decide) (by omega), length_numeral_of_lt (by decide) (by omega)]
  rw [hsplit, hsplit, numeral_append_cons_lt_iff _ _ _ (htwo (by omega) (by omega)),
    numeral_append_cons_lt_iff _ _ _ (htwo (by omega) (by omega)),
    numeral_append_cons_lt_iff _ _ _ (htwo (by omega) (by omega)),
    numeral_append_cons_lt_iff _ _ _ hthree]
  have hirrefl : ¬ ([] : List Char) < [] := by simp
  simp only [hirrefl, and_false, or_false]
  omega

/-- Timestamps whose years have numerals of one length are in the order of their instants. -/
theorem dateTime_lt_iff {d e : Date} {t u : ℕ} (ht : t < 86400000) (hu : u < 86400000)
    (hd : 0 ≤ d.year) (he : 0 ≤ e.year)
    (hlen : (numeral 4 d.year.toNat).length = (numeral 4 e.year.toNat).length) :
    dateTime d t ++ ['Z'] < dateTime e u ++ ['Z'] ↔
      86400000 * d.dayNumber + t < 86400000 * e.dayNumber + u := by
  have htwo {m n : ℕ} (hm : m < 100) (hn : n < 100) :
      (numeral 2 m).length = (numeral 2 n).length := by
    rw [length_numeral_of_lt (by decide) hm, length_numeral_of_lt (by decide) hn]
  have hday (d : Date) : d.month < 100 ∧ d.day < 100 := by
    have := d.month_le
    have := d.day_le
    have := monthLength_le d.year d.month
    omega
  rw [dateTime_eq, dateTime_eq, numeral_append_cons_lt_iff _ _ _ hlen,
    numeral_append_cons_lt_iff _ _ _ (htwo (hday d).1 (hday e).1),
    numeral_append_cons_lt_iff _ _ _ (htwo (hday d).2 (hday e).2), timeText_lt_iff ht hu]
  have hlt := d.dayNumber_lt_iff e
  have hgt := e.dayNumber_lt_iff d
  omega

/-- The date and the time of an instant from the epoch on. -/
theorem year_mono {m n : ℕ} {d e : Date} (hd : OnDay (m / 86400000 : ℕ) d)
    (he : OnDay (n / 86400000 : ℕ) e) (h : m ≤ n) : d.year ≤ e.year := by
  have hlt := e.dayNumber_lt_iff d
  rw [onDay_iff.mp hd, onDay_iff.mp he] at hlt
  have hdiv : m / 86400000 ≤ n / 86400000 := Nat.div_le_div_right h
  omega

theorem year_nonneg {n : ℕ} {d : Date} (h : OnDay n d) : 0 ≤ d.year := by
  have hge := (civilFromDays_eq h).2
  unfold Date.marchYear at hge
  split at hge <;> omega

/-- **Two synthetic times are in order as long as the times are not both the last one and the
numeral of the first year is not above the front of the second.** -/
theorem stamp_lt_iff {i j : ℕ} {d e : Date} (h : i < j)
    (hd : OnDay (stampMillis i / 86400000 : ℕ) d) (he : OnDay (stampMillis j / 86400000 : ℕ) e) :
    stamp i < stamp j ↔ i < lastStamp ∧ d.year.toNat ≤ e.year.toNat /
      10 ^ ((numeral 4 e.year.toNat).length - (numeral 4 d.year.toNat).length) := by
  have hle := stampMillis_le h
  have hyear := year_mono hd he hle
  have hlt := stampMillis_lt_iff h
  have hi := formatSyntheticIso_eq hd
  have hj := formatSyntheticIso_eq he
  change (formatSyntheticIso (stampMillis i)).toList <
    (formatSyntheticIso (stampMillis j)).toList ↔ _
  rw [hi, hj]
  rcases (length_numeral_le (w := 4) (Int.toNat_le_toNat hyear)).eq_or_lt with hlen | hlen
  · rw [dateTime_lt_iff (by omega) (by omega) (year_nonneg hd) (year_nonneg he) hlen,
      onDay_iff.mp hd, onDay_iff.mp he, hlen, Nat.sub_self, Nat.pow_zero, Nat.div_one]
    have hyear' := Int.toNat_le_toNat hyear
    omega
  · rw [dateTime_eq, dateTime_eq, numeral_append_lt_iff (by decide) hlen]
    refine ⟨fun hfront => ⟨?_, hfront⟩, fun hfront => hfront.2⟩
    by_contra hlast
    have heq : stampMillis i = stampMillis j := by omega
    rw [heq] at hd
    rw [(existsUnique_onDay _).unique hd he] at hlen
    exact lt_irrefl _ hlen

/-- Up to the end of the year 9999 all synthetic times are in order. -/
theorem stamp_lt {i j : ℕ} (h : i < j) (hj : j ≤ 253402300799) : stamp i < stamp j := by
  obtain ⟨d, hd⟩ := exists_onDay (stampMillis i / 86400000 : ℕ)
  obtain ⟨e, he⟩ := exists_onDay (stampMillis j / 86400000 : ℕ)
  have hmillis : stampMillis j = j * 1000 := if_pos (by unfold u64Max; omega)
  have hyear := year_mono hd he (stampMillis_le h)
  have hlast : e.year < 10000 := by
    apply Date.year_lt
    rw [onDay_iff.mp he, hmillis, show yearStart 10000 = 3652059 by decide]
    omega
  have hlen (d : Date) (hd : d.year < 10000) : (numeral 4 d.year.toNat).length = 4 :=
    length_numeral_of_lt (by decide) (by omega)
  rw [stamp_lt_iff h hd he, hlen d (by omega), hlen e hlast]
  refine ⟨?_, ?_⟩
  · unfold lastStamp
    omega
  · rw [Nat.sub_self, Nat.pow_zero, Nat.div_one]
    exact Int.toNat_le_toNat hyear

/-- The last time of the year 9999 is not before the first of the year 10000. -/
example : ¬ stamp 253402300799 < stamp 253402300800 := by
  have hd : OnDay (stampMillis 253402300799 / 86400000 : ℕ)
      ⟨9999, 12, 31, by decide, by decide, by decide, by decide⟩ := onDay_iff.mpr (by decide)
  have he : OnDay (stampMillis 253402300800 / 86400000 : ℕ)
      ⟨10000, 1, 1, by decide, by decide, by decide, by decide⟩ := onDay_iff.mpr (by decide)
  rw [stamp_lt_iff (by decide) hd he]
  decide

/-! ### Dates and timestamps -/

/-- **Dates and timestamps are exact, and synthetic times are in order as long as the numerals of
their years are.**  The dates are those of the calendar, in every place where the years fit; a
text the code writes and any other text of the instant are read back. -/
theorem timestamps_exact (i j : ℕ) :
    (∀ n d, OnDay n d → -2 ^ 63 ≤ n →
      (civilFromDaysI64 n = some (d.year, d.month, d.day) ↔ n + 719468 < 2 ^ 63)) ∧
    (∀ (secs : ℕ) d, OnDay (secs / 86400 : ℕ) d → secs < 2 ^ 64 →
      (epochToCivil secs = some (d.year, d.month, d.day, secs % 86400 / 3600,
        secs % 86400 % 3600 / 60, secs % 86400 % 60) ↔ d.year < 2 ^ 31)) ∧
    (∀ n d, OnDay n d → -2 ^ 31 ≤ d.year → d.year < 2 ^ 31 →
      (daysFromCivil d.year d.month d.day = some (some n) ↔ BackInRange d)) ∧
    (∀ ms < 2 ^ 64, parseRfc3339Millis (formatSyntheticIso ms).toList = some (some ms)) ∧
    (∀ secs < 2 ^ 64, ∀ millis < 1000, ∀ text, nowIso8601 secs millis = some text →
      parseRfc3339Millis text.toList = some (some (secs * 1000 + millis))) ∧
    (∀ (ms : ℕ) offset text, ms < 2 ^ 128 → |offset| < 2 ^ 31 → Writes ms offset text →
      parseRfc3339Millis text = some (some ms)) ∧
    (i < j → j ≤ 253402300799 → stamp i < stamp j) ∧
    (i < j → ∀ d e, OnDay (stampMillis i / 86400000 : ℕ) d →
      OnDay (stampMillis j / 86400000 : ℕ) e →
      (stamp i < stamp j ↔ i < lastStamp ∧ d.year.toNat ≤ e.year.toNat /
        10 ^ ((numeral 4 e.year.toNat).length - (numeral 4 d.year.toNat).length))) := by
  have hcast {ms : ℕ} (h : ms < 2 ^ 128) : asU128 ms = ms := by
    unfold asU128
    omega
  have hback {ms : ℕ} {d : Date} (h : OnDay (ms / 86400000 : ℕ) d) (hyear : d.year < 2 ^ 31)
      (hms : ms < 2 ^ 128) :
      parseRfc3339Millis (dateTime d (ms % 86400000) ++ ['Z']) = some (some ms) := by
    rw [parseRfc3339Millis_writes (writes_utc h hyear) (by decide), hcast hms]
  refine ⟨fun n d h hlow => ?_, fun secs d h hsecs => ?_, fun n d h hlow hhigh => ?_,
    fun ms hms => ?_, fun secs hsecs millis hmillis text h => ?_, fun ms offset text hms ho h => ?_,
    stamp_lt, fun hij d e hd he => stamp_lt_iff hij hd he⟩
  · have hn := onDay_iff.mp h
    have hcivil := civilFromDaysI64_eq d (by omega)
    rw [hn] at hcivil
    rw [hcivil]
    split <;> simp_all
  · rw [epochToCivil_eq h hsecs]
    split <;> simp_all
  · rw [daysFromCivil_eq d hlow hhigh, onDay_iff.mp h]
    split <;> simp_all
  · obtain ⟨d, hd⟩ := exists_onDay (ms / 86400000 : ℕ)
    rw [formatSyntheticIso_eq hd]
    refine hback hd ?_ (by omega)
    apply Date.year_lt
    rw [onDay_iff.mp hd, show yearStart (2 ^ 31) = 784352295939 by decide]
    omega
  · obtain ⟨d, hd⟩ := exists_onDay (secs / 86400 : ℕ)
    have htext := nowIso8601_eq hd hsecs hmillis
    rw [h] at htext
    split at htext
    · next hyear =>
      rw [Option.map_some, Option.some.injEq] at htext
      rw [htext]
      refine hback ?_ hyear (by omega)
      rwa [show (secs * 1000 + millis) / 86400000 = secs / 86400 by omega]
    · cases htext
  · rw [parseRfc3339Millis_writes h ho, hcast hms]

end Pantoken
