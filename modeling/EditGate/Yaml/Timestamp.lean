import EditGate.Value.Reader
import EditGate.Yaml.Cursor

/-!
# Days and times in YAML

A day is written as year, month and day. A time may follow it, with a fraction of the second
and the distance to the time of the prime meridian.
-/

namespace EditGate.Yaml

/-- The distance of a time to that of the prime meridian. -/
structure Zone where
  west : Bool
  hours : Nat
  minutes : Nat
  /-- The distance as it is written. -/
  name : String

/-- A time of day as it is written. -/
structure Time where
  hour : Nat
  minute : Nat
  second : Nat
  /-- The digits of the fraction. -/
  fraction : List Char
  zone : Option Zone

/-- Whether there is such a time. -/
def Time.isTime (time : Time) : Bool :=
  time.hour < 24 && time.minute < 60 && time.second < 60 &&
    time.zone.all fun zone => zone.hours * 60 + zone.minutes < 1440

/-- A day, and perhaps a time, as they are written. -/
structure Timestamp where
  year : Nat
  month : Nat
  day : Nat
  time : Option Time

namespace Timestamp

/-- A number of as many digits as there are, if that is within bounds. -/
def number? (least most : Nat) (chars : List Char) : Option (Nat × List Char) :=
  let (digits, rest) := Value.takeDigits chars
  if least ≤ digits.length ∧ digits.length ≤ most then some (Value.ofDigitChars digits, rest)
  else none

/-- A number behind a mark. -/
def marked? (mark : Char) (least most : Nat) (chars : List Char) : Option (Nat × List Char) :=
  match chars with
  | char :: rest => if char = mark then number? least most rest else none
  | [] => none

/-- The distance to the prime meridian at the end of a time. -/
def zone? (chars : List Char) : Option (Option Zone) := do
  let written := chars.dropWhile isBlank
  let name := String.ofList written
  match chars, written with
  | [], _ => some none
  | _, ['Z'] => some (some ⟨false, 0, 0, name⟩)
  | _, sign :: rest =>
      if sign = '+' ∨ sign = '-' then
        let (hours, rest) ← number? 1 2 rest
        if rest.isEmpty then some (some ⟨sign == '-', hours, 0, name⟩)
        else
          let (minutes, rest) ← marked? ':' 2 2 rest
          if rest.isEmpty then some (some ⟨sign == '-', hours, minutes, name⟩) else none
      else none
  | _, [] => none

/-- The time behind a day. A letter or blanks separate them. -/
def time? (chars : List Char) : Option Time := do
  let chars ← match chars with
    | 'T' :: rest | 't' :: rest => some rest
    | char :: _ => if isBlank char then some (chars.dropWhile isBlank) else none
    | [] => none
  let (hour, rest) ← number? 1 2 chars
  let (minute, rest) ← marked? ':' 2 2 rest
  let (second, rest) ← marked? ':' 2 2 rest
  let (fraction, rest) := match rest with
    | '.' :: rest => Value.takeDigits rest
    | rest => ([], rest)
  some ⟨hour, minute, second, fraction, ← zone? rest⟩

/-- Reads a day, and perhaps a time. -/
def ofChars? (chars : List Char) : Option Timestamp := do
  let (year, rest) ← number? 4 4 chars
  let (month, rest) ← marked? '-' 1 2 rest
  let (day, rest) ← marked? '-' 1 2 rest
  if rest.isEmpty then some ⟨year, month, day, none⟩
  else some ⟨year, month, day, some (← time? rest)⟩

/-- Whether a plain scalar is taken for a day or a time. A day that stands alone is written
in full. -/
def isWritten (chars : List Char) : Bool :=
  match ofChars? chars with
  | some stamp => stamp.time.isSome || chars.length == 10
  | none => false

/-! ### Meaning -/

/-- The number of days of a month. -/
def daysIn (year month : Nat) : Nat :=
  if month = 2 then
    if year % 4 = 0 ∧ (year % 100 ≠ 0 ∨ year % 400 = 0) then 29 else 28
  else if month = 4 ∨ month = 6 ∨ month = 9 ∨ month = 11 then 30
  else 31

/-- Whether there is such a day. -/
def isDay (stamp : Timestamp) : Bool :=
  1 ≤ stamp.year && 1 ≤ stamp.month && stamp.month ≤ 12 && 1 ≤ stamp.day &&
    stamp.day ≤ daysIn stamp.year stamp.month

/-- The day after a day, up to the end of the year 9999. -/
def nextDay? (year month day : Nat) : Option (Nat × Nat × Nat) :=
  if day < daysIn year month then some (year, month, day + 1)
  else if month < 12 then some (year, month + 1, 1)
  else if year < 9999 then some (year + 1, 1, 1)
  else none

/-- The millionths of a second that the digits of a fraction mean, rounded by the digit
behind them. -/
def millionths (fraction : List Char) : Nat :=
  let kept := fraction.take 6
  let number := Value.ofDigitChars (kept ++ List.replicate (6 - kept.length) '0')
  if (fraction.drop 6).head?.any ('4' < ·) then number + 1 else number

/-- A number with leading zeros. -/
def padded (width number : Nat) : String :=
  let digits := Nat.toDigits 10 number
  String.ofList (List.replicate (width - digits.length) '0' ++ digits)

/-- A day as text. -/
def dayText (year month day : Nat) : String :=
  padded 4 year ++ "-" ++ padded 2 month ++ "-" ++ padded 2 day

/-- A time of day as text. -/
def timeText (seconds micros : Nat) (zone : Option Zone) : String :=
  padded 2 (seconds / 3600) ++ ":" ++ padded 2 (seconds / 60 % 60) ++ ":" ++
    padded 2 (seconds % 60) ++ (if micros = 0 then "" else "." ++ padded 6 micros) ++
    match zone with
    | none => ""
    | some zone =>
        let minutes := zone.hours * 60 + zone.minutes
        (if zone.west ∧ 0 < minutes then "-" else "+") ++ padded 2 (minutes / 60) ++ ":" ++
          padded 2 (minutes % 60)

/-- A distance to the prime meridian as a literal: whole days, then the seconds east of
them. -/
def zoneLiteral (zone : Zone) : String :=
  let minutes := zone.hours * 60 + zone.minutes
  let distance :=
    if minutes = 0 then "0"
    else if zone.west then s!"days=-1, seconds={86400 - minutes * 60}"
    else s!"seconds={minutes * 60}"
  s!"datetime.timezone(datetime.timedelta({distance}), {Text.quoted zone.name})"

/-- A day and a time as a literal. Seconds and their millionths are left out if nothing but
zeros would follow. -/
def timeLiteral (year month day seconds micros : Nat) (zone : Option Zone) : String :=
  let second := seconds % 60
  let small :=
    if 0 < micros then [second, micros] else if 0 < second then [second] else []
  let parts := [year, month, day, seconds / 3600, seconds / 60 % 60] ++ small
  let zoned := match zone with
    | none => ""
    | some zone => ", tzinfo=" ++ zoneLiteral zone
  "datetime.datetime(" ++ ", ".intercalate (parts.map toString) ++ zoned ++ ")"

/-- What a day or a time means. -/
def meaning (stamp : Timestamp) : Except Fault Value :=
  if !stamp.isDay then .error .meaningless
  else match stamp.time with
    | none =>
        .ok (.special "date" (dayText stamp.year stamp.month stamp.day)
          s!"datetime.date({stamp.year}, {stamp.month}, {stamp.day})")
    | some time =>
        if !time.isTime then .error .meaningless
        else
          let micros := millionths time.fraction
          let seconds := time.hour * 3600 + time.minute * 60 + time.second + micros / 1000000
          let day :=
            if seconds < 86400 then some (stamp.year, stamp.month, stamp.day)
            else nextDay? stamp.year stamp.month stamp.day
          match day with
          | none => .error .outOfRange
          | some (year, month, day) =>
              let seconds := seconds % 86400
              let micros := micros % 1000000
              .ok (.special "datetime"
                (dayText year month day ++ " " ++ timeText seconds micros time.zone)
                (timeLiteral year month day seconds micros time.zone))

end Timestamp

end EditGate.Yaml
