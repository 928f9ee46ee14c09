import DocumentQa.Lib.Binary64
import DocumentQa.Lib.Calendar
import DocumentQa.Python.Errors

/-!
# The `datetime` module

An aware instant is its microseconds since the epoch. `isoformat` prints an instant in UTC
with `Z` for the offset, `fromisoformat` reads the ISO 8601 texts Python 3.12 accepts, and
`fromisoformat_isoformat` says that the second undoes the first. The passages between
milliseconds and instants go through doubles, as `timestamp` and `fromtimestamp` do.
-/

namespace Python

open Calendar

/-! ## Printing -/

def digit (n : Nat) : Char :=
  Nat.digitChar (n % 10)

def twoDigits (n : Nat) : List Char :=
  [digit (n / 10), digit n]

def fourDigits (n : Nat) : List Char :=
  [digit (n / 1000), digit (n / 100), digit (n / 10), digit n]

def sixDigits (n : Nat) : List Char :=
  [digit (n / 100000), digit (n / 10000), digit (n / 1000), digit (n / 100), digit (n / 10), digit n]

/-- The microseconds of a day. -/
def dayMicros : Nat := 86400000000

/-- The instants before year 10000. -/
def maxMicros : Nat := 2932897 * dayMicros

def dateText (d : Date) : List Char :=
  fourDigits d.year ++ '-' :: twoDigits d.month ++ '-' :: twoDigits d.day

def clockText (h m s : Nat) (fraction : List Char) : List Char :=
  twoDigits h ++ ':' :: twoDigits m ++ ':' :: twoDigits s ++ fraction

/-- `isoformat()` of an instant without its offset; `timespec` is `"microseconds"`. -/
def isoLocal (timespec : Bool) (m : Nat) : List Char :=
  let s := m / 1000000 % 86400
  let fraction := if m % 1000000 = 0 ∧ timespec = false then [] else '.' :: sixDigits (m % 1000000)
  dateText (dateOf (m / dayMicros)) ++ 'T' :: clockText (s / 3600) (s / 60 % 60) (s % 60) fraction

/-- `value.isoformat(...).replace("+00:00", "Z")`. -/
def isoText (timespec : Bool) (m : Nat) : String :=
  String.ofList (isoLocal timespec m ++ ['Z'])

/-! ## Reading -/

def parseDigits : Nat → Nat → List Char → Option (Nat × List Char)
  | 0, acc, cs => some (acc, cs)
  | w + 1, acc, c :: cs => if c.isDigit then parseDigits w (acc * 10 + (c.toNat - 48)) cs else none
  | _ + 1, _, [] => none

def dropDash (dashed : Bool) (cs : List Char) : Option (List Char) :=
  if dashed then
    match cs with
    | '-' :: r => some r
    | _ => none
  else some cs

/-- `iso_to_ymd`: the ordinal of a day of an ISO week. -/
def isoWeekOrdinal (year week day : Nat) : Option Nat :=
  let first := (Date.mk year 1 1).ordinal
  let weekday := (first + 6) % 7
  let last := if weekday = 3 ∨ (weekday = 2 ∧ isLeap year = true) then 53 else 52
  let monday := if 3 < weekday then first + 7 - weekday else first - weekday
  let ordinal := monday + (week - 1) * 7 + (day - 1)
  if 1 ≤ year ∧ 1 ≤ week ∧ week ≤ last ∧ 1 ≤ day ∧ day ≤ 7 ∧ ordinal ≤ 3652059 then some ordinal else none

/-- `parse_isoformat_date`: the ordinal of the date. -/
def parseDate (cs : List Char) : Option Nat := do
  let (year, r) ← parseDigits 4 0 cs
  let dashed := r.head? = some '-'
  let r := if dashed then r.drop 1 else r
  if r.head? = some 'W' then
    let (week, r) ← parseDigits 2 0 (r.drop 1)
    if r = [] then isoWeekOrdinal year week 1
    else
      let r ← dropDash dashed r
      let (day, _) ← parseDigits 1 0 r
      isoWeekOrdinal year week day
  else
    let (month, r) ← parseDigits 2 0 r
    let r ← dropDash dashed r
    let (day, r) ← parseDigits 2 0 r
    if r = [] ∧ (Date.mk year month day).isValid = true then some (Date.mk year month day).ordinal else none

/-- `_find_isoformat_datetime_separator`. -/
def findSeparator (cs : List Char) : Option Nat :=
  if cs.length = 7 then some 7
  else if cs[4]? = some '-' then
    if cs[5]? = some 'W' then
      if cs[8]? = some '-' then
        if cs.length = 9 then none
        else if (cs.drop 10).head?.any Char.isDigit then some 8 else some 10
      else some 8
    else some 10
  else if cs[4]? = some 'W' then
    let pos := 7 + ((cs.drop 7).takeWhile Char.isDigit).length
    some (if pos < 9 then pos else if pos % 2 = 0 then 7 else 8)
  else some 8

/-- A time of day: its fields, its microseconds and what is left of the text. -/
structure ParsedTime where
  hour : Nat
  minute : Nat
  second : Nat
  micros : Nat
  rest : List Char

/-- The fraction of a second behind its mark. -/
def parseFraction (hour minute second : Nat) (cs : List Char) : Option ParsedTime := do
  let width := min cs.length 6
  let (value, r) ← parseDigits width 0 cs
  let scale := [1000000, 100000, 10000, 1000, 100, 10, 1]
  some ⟨hour, minute, second, value * scale.getD width 1, r.dropWhile Char.isDigit⟩

/-- What follows a field of a time: the end, a fraction, or the next field. -/
inductive AfterField where
  | done (rest : List Char)
  | fraction (rest : List Char)
  | next (rest : List Char)

def afterField (separated : Bool) : List Char → Option AfterField
  | [] => some (.done [])
  | [c] => some (.done [c])
  | c :: r =>
    if separated = true ∧ c = ':' then some (.next r)
    else if c = '.' ∨ c = ',' then some (.fraction r)
    else if separated = false then some (.next (c :: r))
    else none

/-- `parse_hh_mm_ss_ff`. -/
def parseHms (cs : List Char) : Option ParsedTime := do
  let (hour, r) ← parseDigits 2 0 cs
  let separated := r.head? = some ':'
  match ← afterField separated r with
  | .done rest => some ⟨hour, 0, 0, 0, rest⟩
  | .fraction r => parseFraction hour 0 0 r
  | .next r =>
    let (minute, r) ← parseDigits 2 0 r
    match ← afterField separated r with
    | .done rest => some ⟨hour, minute, 0, 0, rest⟩
    | .fraction r => parseFraction hour minute 0 r
    | .next r =>
      let (second, r) ← parseDigits 2 0 r
      match ← afterField separated r with
      | .done rest => some ⟨hour, minute, second, 0, rest⟩
      | .fraction r => parseFraction hour minute second r
      | .next r => parseFraction hour minute second r

def ParsedTime.total (t : ParsedTime) : Nat :=
  ((t.hour * 60 + t.minute) * 60 + t.second) * 1000000 + t.micros

def isZoneMark (c : Char) : Bool :=
  c = '+' || c = '-' || c = 'Z'

/-- `parse_isoformat_time`: the microseconds of the day and of the offset from UTC. -/
def parseTime (cs : List Char) : Option (Nat × Int) := do
  let clock ← parseHms (cs.takeWhile fun c => !isZoneMark c)
  let offset : Int ← match cs.dropWhile fun c => !isZoneMark c with
    | [] => if clock.rest = [] then some (0 : Int) else none
    | sign :: r =>
      if sign = 'Z' then (if r = [] then some 0 else none)
      else do
        let zone ← parseHms r
        if zone.rest = [] ∧ zone.total < dayMicros then
          some (if sign = '-' then -(zone.total : Int) else zone.total)
        else none
  if clock.hour < 24 ∧ clock.minute < 60 ∧ clock.second < 60 then some (clock.total, offset) else none

/-- `datetime.fromisoformat(text)`, a naive value taken for UTC; `none` where it raises. -/
def fromisoformat (cs : List Char) : Option Int :=
  if cs.length < 7 then none
  else do
    let separator ← findSeparator cs
    let ordinal ← parseDate (cs.take separator)
    let (clock, offset) ← if separator < cs.length then parseTime (cs.drop (separator + 1)) else some (0, 0)
    some (((ordinal : Int) - epochOrdinal) * dayMicros + clock - offset)

/-- `datetime.fromisoformat(value.replace("Z", "+00:00"))`. -/
def parseIso (value : String) : Option Int :=
  fromisoformat (value.toList.flatMap fun c => if c = 'Z' then "+00:00".toList else [c])

/-! ## Timestamps -/

/-- `datetime.fromtimestamp(ms / 1000, timezone.utc)`. -/
def fromtimestamp (ms : Nat) : Except PyError Nat := do
  let x := Binary64.nearest ms 1000
  let m := x.floor * 1000000 + (x.fraction.times 1000000).round
  Checked.require (m / 1000000 < 0x8000000000000000)
    ⟨.overflowError, "timestamp out of range for platform time_t"⟩
  Checked.require (m < maxMicros) ⟨.valueError, "year is out of range"⟩
  pure m

/-- `int(value.timestamp() * 1000)`. -/
def timestampMs (m : Int) : Int :=
  let magnitude := ((Binary64.nearest m.natAbs 1000000).times 1000).floor
  if m < 0 then -(magnitude : Int) else magnitude

/-! ## Reading what was printed -/

theorem digit_isDigit (n : Nat) : (digit n).isDigit = true := by
  have all : ∀ k : Fin 10, (Nat.digitChar k.val).isDigit = true := by decide
  exact all ⟨n % 10, by omega⟩

theorem digit_value (n : Nat) : (digit n).toNat - 48 = n % 10 := by
  have all : ∀ k : Fin 10, (Nat.digitChar k.val).toNat - 48 = k.val := by decide
  exact all ⟨n % 10, by omega⟩

theorem digit_ne {c : Char} (h : c.isDigit = false) (n : Nat) : digit n ≠ c := by
  intro e
  have := digit_isDigit n
  rw [e, h] at this
  cases this

theorem parse_digit (w acc n : Nat) (r : List Char) :
    parseDigits (w + 1) acc (digit n :: r) = parseDigits w (acc * 10 + n % 10) r := by
  rw [parseDigits, if_pos (digit_isDigit n), digit_value]

theorem parse_twoDigits {n : Nat} (h : n < 100) (r : List Char) :
    parseDigits 2 0 (twoDigits n ++ r) = some (n, r) := by
  change parseDigits 2 0 (digit (n / 10) :: digit n :: r) = _
  rw [parse_digit, parse_digit, parseDigits]
  congr 2
  omega

theorem parse_fourDigits {n : Nat} (h : n < 10000) (r : List Char) :
    parseDigits 4 0 (fourDigits n ++ r) = some (n, r) := by
  change parseDigits 4 0 (digit (n / 1000) :: digit (n / 100) :: digit (n / 10) :: digit n :: r) = _
  rw [parse_digit, parse_digit, parse_digit, parse_digit, parseDigits]
  congr 2
  omega

theorem parse_sixDigits {n : Nat} (h : n < 1000000) (r : List Char) :
    parseDigits 6 0 (sixDigits n ++ r) = some (n, r) := by
  change parseDigits 6 0 (digit (n / 100000) :: digit (n / 10000) :: digit (n / 1000) :: digit (n / 100) ::
    digit (n / 10) :: digit n :: r) = _
  rw [parse_digit, parse_digit, parse_digit, parse_digit, parse_digit, parse_digit, parseDigits]
  congr 2
  omega

theorem parseDate_printed {d : Date} (h : d.isValid = true) :
    parseDate (dateText d) = some d.ordinal := by
  have bounds := h
  simp only [Date.isValid, Bool.and_eq_true, decide_eq_true_eq] at bounds
  obtain ⟨⟨⟨⟨⟨-, year⟩, -⟩, month⟩, -⟩, day⟩ := bounds
  have short : monthLength d.year d.month < 100 := by
    unfold monthLength
    split
    · split <;> omega
    all_goals omega
  have notWeek : digit (d.month / 10) ≠ 'W' := digit_ne rfl _
  have rest : parseDigits 2 0 (twoDigits d.day) = some (d.day, []) := by
    simpa using parse_twoDigits (show d.day < 100 by omega) []
  simp only [parseDate, dateText, List.append_assoc, List.cons_append, parse_fourDigits (show d.year < 10000 by omega),
    Option.bind_eq_bind, Option.bind_some, List.head?_cons, decide_true, if_true, List.drop_succ_cons, List.drop_zero,
    parse_twoDigits (show d.month < 100 by omega), dropDash, rest, h, and_self]
  rw [if_neg]
  simpa [twoDigits] using notWeek

theorem digits_notZone (n : Nat) : isZoneMark (digit n) = false := by
  simp only [isZoneMark, Bool.or_eq_false_iff, decide_eq_false_iff_not]
  exact ⟨⟨digit_ne rfl n, digit_ne rfl n⟩, digit_ne rfl n⟩

theorem parseHms_whole {h m s : Nat} (hh : h < 100) (hm : m < 100) (hs : s < 100) :
    parseHms (clockText h m s []) = some ⟨h, m, s, 0, []⟩ := by
  have seconds : parseDigits 2 0 (twoDigits s) = some (s, []) := by simpa using parse_twoDigits hs []
  have minutes := parse_twoDigits hm (':' :: twoDigits s)
  have hours := parse_twoDigits hh (':' :: (twoDigits m ++ ':' :: twoDigits s))
  have toMinutes : afterField true (':' :: (twoDigits m ++ ':' :: twoDigits s)) =
      some (.next (twoDigits m ++ ':' :: twoDigits s)) := rfl
  have toSeconds : afterField true (':' :: twoDigits s) = some (.next (twoDigits s)) := rfl
  have atEnd : afterField true [] = some (.done []) := rfl
  have text : clockText h m s [] = twoDigits h ++ ':' :: (twoDigits m ++ ':' :: twoDigits s) := by
    simp [clockText]
  rw [text, parseHms]
  simp only [hours, Option.bind_eq_bind, Option.bind_some, List.head?_cons, decide_true, toMinutes, minutes, toSeconds,
    seconds, atEnd]

theorem parseHms_fraction {h m s u : Nat} (hh : h < 100) (hm : m < 100) (hs : s < 100) (hu : u < 1000000) :
    parseHms (clockText h m s ('.' :: sixDigits u)) = some ⟨h, m, s, u, []⟩ := by
  have micros : parseDigits 6 0 (sixDigits u) = some (u, []) := by simpa using parse_sixDigits hu []
  have seconds := parse_twoDigits hs ('.' :: sixDigits u)
  have minutes := parse_twoDigits hm (':' :: (twoDigits s ++ '.' :: sixDigits u))
  have hours := parse_twoDigits hh (':' :: (twoDigits m ++ ':' :: (twoDigits s ++ '.' :: sixDigits u)))
  have toMinutes : afterField true (':' :: (twoDigits m ++ ':' :: (twoDigits s ++ '.' :: sixDigits u))) =
      some (.next (twoDigits m ++ ':' :: (twoDigits s ++ '.' :: sixDigits u))) := rfl
  have toSeconds : afterField true (':' :: (twoDigits s ++ '.' :: sixDigits u)) =
      some (.next (twoDigits s ++ '.' :: sixDigits u)) := rfl
  have toFraction : afterField true ('.' :: sixDigits u) = some (.fraction (sixDigits u)) := rfl
  have text : clockText h m s ('.' :: sixDigits u) =
      twoDigits h ++ ':' :: (twoDigits m ++ ':' :: (twoDigits s ++ '.' :: sixDigits u)) := by
    simp [clockText]
  have width : min (sixDigits u).length 6 = 6 := rfl
  rw [text, parseHms]
  simp only [hours, Option.bind_eq_bind, Option.bind_some, List.head?_cons, decide_true, toMinutes, minutes, toSeconds,
    seconds, toFraction, parseFraction, width, micros, List.dropWhile_nil]
  simp

/-- No digit, colon or point is a mark of the zone. -/
theorem clockText_notZone {h m s : Nat} {fraction : List Char} (hf : ∀ c ∈ fraction, isZoneMark c = false) :
    ∀ c ∈ clockText h m s fraction, (!isZoneMark c) = true := by
  have colon : isZoneMark ':' = false := rfl
  intro c hc
  simp only [clockText, twoDigits, List.cons_append, List.nil_append, List.mem_cons] at hc
  rcases hc with rfl | rfl | rfl | rfl | rfl | rfl | rfl | rfl | hc
  all_goals first | (rw [digits_notZone]; rfl) | rfl | (rw [hf c hc]; rfl)

theorem parseTime_printed {h m s u : Nat} {fraction : List Char} (hf : ∀ c ∈ fraction, isZoneMark c = false)
    (read : parseHms (clockText h m s fraction) = some ⟨h, m, s, u, []⟩) (hh : h < 24) (hm : m < 60) (hs : s < 60) :
    parseTime (clockText h m s fraction ++ "+00:00".toList) =
      some (((h * 60 + m) * 60 + s) * 1000000 + u, 0) := by
  have inside := clockText_notZone hf (h := h) (m := m) (s := s)
  have take : (clockText h m s fraction ++ "+00:00".toList).takeWhile (fun c => !isZoneMark c) =
      clockText h m s fraction := by
    rw [List.takeWhile_append_of_pos inside]
    simp [isZoneMark]
  have drop : (clockText h m s fraction ++ "+00:00".toList).dropWhile (fun c => !isZoneMark c) = "+00:00".toList := by
    rw [List.dropWhile_append_of_pos inside]
    rfl
  have zone : parseHms "00:00".toList = some ⟨0, 0, 0, 0, []⟩ := rfl
  have plus : "+00:00".toList = '+' :: "00:00".toList := rfl
  have notZ : ('+' = 'Z') = False := by simp
  have short : ParsedTime.total ⟨0, 0, 0, 0, []⟩ < dayMicros := by decide
  rw [parseTime, take, drop, read, plus]
  simp only [Option.bind_eq_bind, Option.bind_some, notZ, if_false, zone, short, and_self, if_true]
  simp [ParsedTime.total, hh, hm, hs]

theorem dateText_length (d : Date) : (dateText d).length = 10 :=
  rfl

/-- What comes before the offset has no `Z` for the replacement to find. -/
theorem isoLocal_noZ (timespec : Bool) (m : Nat) : ∀ c ∈ isoLocal timespec m, c ≠ 'Z' := by
  intro c hc
  simp only [isoLocal, dateText, clockText, fourDigits, twoDigits, List.cons_append, List.nil_append, List.mem_cons] at hc
  rcases hc with rfl | rfl | rfl | rfl | rfl | rfl | rfl | rfl | rfl | rfl | rfl | rfl | rfl | rfl | rfl | rfl | rfl | rfl |
    rfl | hc
  all_goals try first | exact digit_ne rfl _ | decide
  split at hc
  · cases hc
  · simp only [sixDigits, List.mem_cons, List.not_mem_nil, or_false] at hc
    rcases hc with rfl | rfl | rfl | rfl | rfl | rfl | rfl
    all_goals first | exact digit_ne rfl _ | decide

theorem fromisoformat_printed {d : Date} {clock : List Char} {micros : Nat} (hd : d.isValid = true)
    (time : parseTime clock = some (micros, 0)) :
    fromisoformat (dateText d ++ 'T' :: clock) = some (((d.ordinal : Int) - epochOrdinal) * dayMicros + micros) := by
  have long : ¬(dateText d ++ 'T' :: clock).length < 7 := by
    rw [List.length_append, dateText_length]
    omega
  have notSeven : (dateText d ++ 'T' :: clock).length ≠ 7 := by
    rw [List.length_append, dateText_length]
    omega
  have dash : (dateText d ++ 'T' :: clock)[4]? = some '-' := rfl
  have fifth : (dateText d ++ 'T' :: clock)[5]? = some (digit (d.month / 10)) := rfl
  have separator : findSeparator (dateText d ++ 'T' :: clock) = some 10 := by
    rw [findSeparator, if_neg notSeven, if_pos dash, fifth, if_neg]
    simpa using digit_ne (c := 'W') rfl (d.month / 10)
  have take : (dateText d ++ 'T' :: clock).take 10 = dateText d := rfl
  have drop : (dateText d ++ 'T' :: clock).drop 11 = clock := rfl
  have more : 10 < (dateText d ++ 'T' :: clock).length := by
    rw [List.length_append, dateText_length, List.length_cons]
    omega
  rw [fromisoformat, if_neg long, separator]
  simp only [Option.bind_eq_bind, Option.bind_some, take, parseDate_printed hd, if_pos more, drop, time]
  simp

/-- **Reading undoes printing**: a stored timestamp denotes the instant it was made from. -/
theorem parseIso_isoText (timespec : Bool) {m : Nat} (h : m < maxMicros) : parseIso (isoText timespec m) = some m := by
  have days : m / dayMicros < 2932897 := Nat.div_lt_of_lt_mul (by rw [Nat.mul_comm]; exact h)
  have replaced : (isoText timespec m).toList.flatMap (fun c => if c = 'Z' then "+00:00".toList else [c]) =
      isoLocal timespec m ++ "+00:00".toList := by
    have kept : (isoLocal timespec m).flatMap (fun c => if c = 'Z' then "+00:00".toList else [c]) =
        isoLocal timespec m := by
      rw [List.flatMap_congr fun c hc => if_neg (isoLocal_noZ timespec m c hc)]
      exact List.flatMap_singleton' _
    have plain : (isoText timespec m).toList = isoLocal timespec m ++ ['Z'] := String.toList_ofList
    rw [plain, List.flatMap_append, kept]
    rfl
  have clock : m / 1000000 % 86400 / 3600 < 24 ∧ m / 1000000 % 86400 / 60 % 60 < 60 ∧
      m / 1000000 % 86400 % 60 < 60 := by omega
  have time : parseTime (clockText (m / 1000000 % 86400 / 3600) (m / 1000000 % 86400 / 60 % 60) (m / 1000000 % 86400 % 60)
      (if m % 1000000 = 0 ∧ timespec = false then [] else '.' :: sixDigits (m % 1000000)) ++ "+00:00".toList) =
      some (m % dayMicros, 0) := by
    have total : ((m / 1000000 % 86400 / 3600 * 60 + m / 1000000 % 86400 / 60 % 60) * 60 + m / 1000000 % 86400 % 60) *
        1000000 + m % 1000000 = m % dayMicros := by
      unfold dayMicros
      omega
    rw [← total]
    split
    · next whole =>
      rw [whole.1]
      exact parseTime_printed (by simp) (parseHms_whole (by omega) (by omega) (by omega)) clock.1 clock.2.1 clock.2.2
    · have digits : ∀ c ∈ '.' :: sixDigits (m % 1000000), isZoneMark c = false := by
        intro c hc
        simp only [sixDigits, List.mem_cons, List.not_mem_nil, or_false] at hc
        rcases hc with rfl | rfl | rfl | rfl | rfl | rfl | rfl
        all_goals first | exact digits_notZone _ | rfl
      exact parseTime_printed digits (parseHms_fraction (by omega) (by omega) (by omega) (by omega)) clock.1 clock.2.1
        clock.2.2
  rw [parseIso, replaced, isoLocal, List.append_assoc, List.cons_append, fromisoformat_printed (dateOf_isValid days) time,
    ordinal_dateOf]
  congr 1
  push_cast
  unfold dayMicros
  omega

end Python
