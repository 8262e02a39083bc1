import Stencil.Wire.Record

/-!
Points in time, with or without a distance from UTC.

A text writes one as a date, or as a date and a time with a letter T, a blank or an underscore
between them, a fraction of the second and a zone; a number counts seconds since 1970, or
milliseconds when it is too large for seconds.
-/

namespace Stencil

/-- A date and a time of day; `offset` is the distance east of UTC in seconds. -/
structure Timestamp where
  year : Nat
  month : Nat
  day : Nat
  hour : Nat := 0
  minute : Nat := 0
  second : Nat := 0
  microsecond : Nat := 0
  offset : Option Int := none
  deriving DecidableEq

namespace Timestamp

def isLeap (year : Nat) : Bool := year % 4 = 0 && (year % 100 ≠ 0 || year % 400 = 0)

def daysIn (year month : Nat) : Nat :=
  if month = 2 then (if isLeap year then 29 else 28)
  else if month = 4 || month = 6 || month = 9 || month = 11 then 30
  else 31

/-- The number that exactly `n` digits in front of a text write, and the rest. -/
def takeNumber? (n : Nat) (s : List Char) : Option (Nat × List Char) :=
  let ds := s.take n
  if ds.length = n && ds.all Char.isDigit then some (Decimal.digitsValue ds, s.drop n) else none

/-- Removes a character in front of a text. -/
def takeOne? (allowed : List Char) : List Char → Option (List Char)
  | c :: rest => if allowed.contains c then some rest else none
  | [] => none

def readDate? (s : List Char) : Option (Timestamp × List Char) := do
  let (year, s) ← takeNumber? 4 s
  let s ← takeOne? ['-'] s
  let (month, s) ← takeNumber? 2 s
  let s ← takeOne? ['-'] s
  let (day, s) ← takeNumber? 2 s
  if 1 ≤ year && 1 ≤ month && month ≤ 12 && 1 ≤ day && day ≤ daysIn year month then
    return (⟨year, month, day, 0, 0, 0, 0, none⟩, s)
  else none

/-- A fraction of a second in millionths; further digits are dropped. -/
def readFraction? (s : List Char) : Option (Nat × List Char) :=
  let ds := s.takeWhile Char.isDigit
  if ds.isEmpty then none
  else
    let six := ds.take 6
    some (Decimal.digitsValue (six ++ List.replicate (6 - six.length) '0'), s.drop ds.length)

/-- Seconds and their fraction, if a colon introduces them. -/
def readSeconds? : List Char → Option (Nat × Nat × List Char)
  | ':' :: s => do
    let (second, s) ← takeNumber? 2 s
    if 59 < second then none
    else
      match s with
      | c :: rest =>
        if c = '.' || c = ',' then do
          let (micro, rest) ← readFraction? rest
          return (second, micro, rest)
        else return (second, 0, s)
      | [] => return (second, 0, s)
  | s => some (0, 0, s)

/-- A zone, up to the end of the text. -/
def readZone? : List Char → Option (Option Int)
  | [] => some none
  | c :: s =>
    if c = 'Z' || c = 'z' then (if s.isEmpty then some (some 0) else none)
    else if c = '+' || c = '-' || c.toNat = 0x2212 then do
      let (hours, s) ← takeNumber? 2 s
      let s := (takeOne? [':'] s).getD s
      let (minutes, s) ← takeNumber? 2 s
      if 59 < minutes || 23 < hours || !s.isEmpty then none
      else
        let n : Int := hours * 3600 + minutes * 60
        return some (if c = '+' then n else -n)
    else none

/-- A date, and a time if there is one, up to the end of the text. -/
def readCalendar? (s : List Char) : Option Timestamp := do
  let (date, s) ← readDate? s
  if s.isEmpty then return date
  let s ← takeOne? ['T', 't', ' ', '_'] s
  let (hour, s) ← takeNumber? 2 s
  let s ← takeOne? [':'] s
  let (minute, s) ← takeNumber? 2 s
  let (second, microsecond, s) ← readSeconds? s
  let offset ← readZone? s
  if 23 < hour || 59 < minute then none
  else return { date with hour, minute, second, microsecond, offset }

/-- The date that is `days` days after the first of March of the year 0. -/
def ofDays (days : Nat) : Nat × Nat × Nat :=
  let era := days / 146097
  let dayOfEra := days % 146097
  let yearOfEra := (dayOfEra - dayOfEra / 1460 + dayOfEra / 36524 - dayOfEra / 146096) / 365
  let dayOfYear := dayOfEra - (365 * yearOfEra + yearOfEra / 4 - yearOfEra / 100)
  let m := (5 * dayOfYear + 2) / 153
  let month := if m < 10 then m + 3 else m - 9
  (era * 400 + yearOfEra + (if month ≤ 2 then 1 else 0), month, dayOfYear - (153 * m + 2) / 5 + 1)

/-- The largest count that is taken for seconds. -/
def mostSeconds : Nat := 20000000000

/-- The point in time that many seconds and millionths after the beginning of 1970 in UTC, from
1600 to 9999. Counts above twenty thousand million are milliseconds. -/
def ofUnix? (count : Int) (microseconds : Nat) : Option Timestamp :=
  let inSeconds := count.natAbs ≤ mostSeconds
  let seconds := if inSeconds then count else count.fdiv 1000
  let micros := microseconds + if inSeconds then 0 else (count.fmod 1000).toNat * 1000
  let seconds := seconds + (micros / 1000000 : Nat)
  if seconds < -11676096000 || 253402300799 < seconds then none
  else
    let (year, month, day) := ofDays (seconds.fdiv 86400 + 719468).toNat
    let rest := (seconds.fmod 86400).toNat
    some ⟨year, month, day, rest / 3600, rest / 60 % 60, rest % 60, micros % 1000000, some 0⟩

/-- A count written in digits, with a fraction or without one. The fraction counts in millionths of
a second and is rounded to them; it is added, whatever the sign of the count. -/
def readUnix? (s : List Char) : Option Timestamp :=
  let (negative, unsigned) := Decimal.takeSign s
  let whole := unsigned.takeWhile Char.isDigit
  let n : Int := Decimal.digitsValue whole
  let count := if negative then -n else n
  let places := if (mostSeconds : Int) < count then 3 else 6
  if whole.isEmpty then none
  else
    match unsigned.drop whole.length with
    | [] => ofUnix? count 0
    | '.' :: ds =>
      if ds.all Char.isDigit then
        let unit := Nat.pow 10 ds.length
        ofUnix? count ((2 * Decimal.digitsValue ds * Nat.pow 10 places + unit) / (2 * unit))
      else none
    | _ => none

/-- The point in time that a text writes. -/
def parse? (s : String) : Option Timestamp := readCalendar? s.toList <|> readUnix? s.toList

/-- A count with a fraction, which is rounded to millionths. The whole part is rounded down, and the
fraction counts from there as far as it lies from zero. -/
def ofFloat? (x : Float) : Option Timestamp :=
  let floor := x.floor
  let toZero := if x < 0 then x.ceil else floor
  match Wire.wholeNumber? floor with
  | some count => ofUnix? count ((x - toZero).abs * 1000000).round.toUInt64.toNat
  | none => none

/-- A point in time: a text or a count of seconds. -/
def check : Value → Checked Timestamp
  | .text s =>
    match parse? s with
    | some t => .valid t
    | none => .fail .datetimeFromDateParsing
  | .int i =>
    match ofUnix? i 0 with
    | some t => .valid t
    | none => .fail .datetimeParsing
  | .float x =>
    match ofFloat? x with
    | some t => .valid t
    | none => .fail .datetimeParsing
  | _ => .fail .datetimeType

/-- A point in time or null. -/
def check? : Value → Checked (Option Timestamp)
  | .null => .valid none
  | v => some <$> check v

/-- The last `width` digits of a number. -/
def padded (width n : Nat) : String :=
  let ds := Nat.toDigits 10 n
  String.ofList (List.replicate (width - ds.length) '0' ++ ds)

/-- The zone: nothing, the letter Z for UTC, or hours and minutes. -/
def zoneText : Option Int → String
  | none => ""
  | some n =>
    if n = 0 then "Z"
    else
      let minutes := n.natAbs / 60
      (if n < 0 then "-" else "+") ++ padded 2 (minutes / 60) ++ ":" ++ padded 2 (minutes % 60)

/-- The text of a point in time; millionths are written if there are any. -/
def text (t : Timestamp) : String :=
  padded 4 t.year ++ "-" ++ padded 2 t.month ++ "-" ++ padded 2 t.day ++ "T" ++ padded 2 t.hour ++
    ":" ++ padded 2 t.minute ++ ":" ++ padded 2 t.second ++
    (if t.microsecond = 0 then "" else "." ++ padded 6 t.microsecond) ++ zoneText t.offset

def toValue? : Option Timestamp → Value
  | some t => .text t.text
  | none => .null

end Timestamp

end Stencil
