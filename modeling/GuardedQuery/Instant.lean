import GuardedQuery.Text.Blank

/-!
# Instants

A point in time, read from a date, a time of day and an offset. A leap second is kept as the second
before it with a fraction of a second or more, so instants are ordered by second and fraction.

## Main definitions

* `Instant.parse?`: the strict notation of RFC 3339, used for stored values and operands.
* `Instant.parseLoose?`: a notation that also takes spaces between the parts, fewer digits, signed
  years and the word `UTC`, used for the time stamp of a cursor.
* `Instant.toText`: the instant in UTC.
-/

namespace GuardedQuery

/-- A point in time. -/
structure Instant where
  /-- The seconds since the start of 1970 in UTC. -/
  seconds : Int
  /-- The nanoseconds past the second; a leap second has a thousand million or more. -/
  nanos : Nat
deriving DecidableEq, Repr

namespace Instant

/-- Earlier instants come first. -/
def compare (a b : Instant) : Ordering :=
  (Ord.compare a.seconds b.seconds).then (Ord.compare a.nanos b.nanos)

/-! ## The calendar -/

/-- Whether a year has a 29th of February. -/
def isLeapYear (year : Int) : Bool :=
  (year % 4 == 0 && year % 100 != 0) || year % 400 == 0

/-- The number of days of a month. -/
def daysInMonth (year : Int) (month : Nat) : Nat :=
  match month with
  | 2 => if isLeapYear year then 29 else 28
  | 4 | 6 | 9 | 11 => 30
  | _ => 31

/-- The days from the start of 1970 to a date. Years are counted from March, so that a leap day is the
last day of its year. -/
def daysOfDate (year : Int) (month day : Nat) : Int :=
  let y := if month ≤ 2 then year - 1 else year
  let m : Int := if month ≤ 2 then month + 9 else month - 3
  365 * y + y.fdiv 4 - y.fdiv 100 + y.fdiv 400 + (153 * m + 2) / 5 + (day - 1 : Int) - 719468

/-- The date that lies a number of days after the start of 1970. -/
def dateOfDays (days : Int) : Int × Nat × Nat :=
  let z := days + 719468
  let era := z.fdiv 146097
  let d := (z - era * 146097).toNat
  let y := (d - d / 1460 + d / 36524 - d / 146096) / 365
  let dayOfYear := d - (365 * y + y / 4 - y / 100)
  let m := (5 * dayOfYear + 2) / 153
  let day := dayOfYear - (153 * m + 2) / 5 + 1
  let month := if m < 10 then m + 3 else m - 9
  let year : Int := y + era * 400
  (if month ≤ 2 then year + 1 else year, month, day)

/-- The years of the calendar. -/
def yearInRange (year : Int) : Bool := -262143 ≤ year && year ≤ 262142

/-- Whether a number of seconds since the start of 1970 falls into a year of the calendar in UTC. -/
def secondsInRange (seconds : Int) : Bool :=
  86400 * daysOfDate (-262143) 1 1 ≤ seconds && seconds < 86400 * daysOfDate 262143 1 1

/-- The date, the time of day and the offset of an instant as they are written. -/
structure Parts where
  /-- The year. -/
  year : Int
  /-- The month, from 1. -/
  month : Nat
  /-- The day of the month, from 1. -/
  day : Nat
  /-- The hour. -/
  hour : Nat
  /-- The minute. -/
  minute : Nat
  /-- The second; 60 in a leap second. -/
  second : Nat
  /-- The nanoseconds past the second. -/
  nanos : Nat
  /-- The offset from UTC in seconds. -/
  offset : Int

/-- The instant of the parts, if they name a date, a time of day and an offset under a day. The calendar
has to reach it both as it is written and in UTC: an offset may carry it past the first or the last
year. -/
def ofParts? (p : Parts) : Option Instant :=
  if yearInRange p.year && 1 ≤ p.month && p.month ≤ 12 && 1 ≤ p.day && p.day ≤ daysInMonth p.year p.month
      && p.hour ≤ 23 && p.minute ≤ 59 && p.second ≤ 60 && p.offset.natAbs < 86400 then
    let leap := p.second == 60
    let second := if leap then 59 else p.second
    let seconds : Int :=
      86400 * daysOfDate p.year p.month p.day + 3600 * p.hour + 60 * p.minute + second - p.offset
    if secondsInRange seconds then
      some { seconds, nanos := p.nanos + (if leap then 1000000000 else 0) }
    else none
  else none

/-! ## Reading -/

/-- The number that a list of decimal digits stands for. -/
def digitsValue (digits : List Char) : Nat :=
  digits.foldl (fun n c => 10 * n + (c.toNat - 48)) 0

/-- A number of between `least` and `most` digits, and the characters after it. -/
def number? (least most : Nat) (cs : List Char) : Option (Nat × List Char) :=
  let digits := (cs.take most).takeWhile Char.isDigit
  if least ≤ digits.length then some (digitsValue digits, cs.drop digits.length) else none

/-- The characters after the given one. -/
def mark? (c : Char) : List Char → Option (List Char)
  | d :: rest => if d = c then some rest else none
  | [] => none

/-- The characters after the mark between a date and a time. -/
def timeMark? : List Char → Option (List Char)
  | d :: rest => if d = 'T' ∨ d = 't' ∨ d = ' ' then some rest else none
  | [] => none

/-- The nanoseconds of a fraction, if there is one. Digits beyond the ninth are dropped. -/
def fraction? : List Char → Option (Nat × List Char)
  | '.' :: rest =>
    match (rest.take 9).takeWhile Char.isDigit with
    | [] => none
    | digits => some (digitsValue digits * Nat.pow 10 (9 - digits.length), rest.dropWhile Char.isDigit)
  | rest => some (0, rest)

/-- The offset in seconds. The separator between hours and minutes is read by `separator?`. -/
def offset? (separator? : List Char → Option (List Char)) : List Char → Option (Int × List Char)
  | [] => none
  | c :: rest =>
    if c = 'Z' ∨ c = 'z' then some (0, rest)
    else if c = '+' ∨ c = '-' ∨ c = '−' then do
      let (hours, rest) ← number? 2 2 rest
      let rest ← separator? rest
      let (minutes, rest) ← number? 2 2 rest
      let size : Int := 3600 * hours + 60 * minutes
      if minutes ≤ 59 then some (if c = '+' then size else -size, rest) else none
    else none

/-- Reads the strict notation. -/
def parse? (s : String) : Option Instant := do
  let (year, cs) ← number? 4 4 s.toList
  let (month, cs) ← number? 2 2 (← mark? '-' cs)
  let (day, cs) ← number? 2 2 (← mark? '-' cs)
  let (hour, cs) ← number? 2 2 (← timeMark? cs)
  let (minute, cs) ← number? 2 2 (← mark? ':' cs)
  let (second, cs) ← number? 2 2 (← mark? ':' cs)
  let (nanos, cs) ← fraction? cs
  let (offset, cs) ← offset? (mark? ':') cs
  if cs.isEmpty then ofParts? { year, month, day, hour, minute, second, nanos, offset } else none

/-- The characters after white space. -/
def skipBlanks (cs : List Char) : List Char := cs.dropWhile Text.isBlank

/-- A year: up to four digits, or a sign and any number of digits. -/
def looseYear? : List Char → Option (Int × List Char)
  | '-' :: rest => (number? 1 rest.length rest).map fun (n, rest) => (-n, rest)
  | '+' :: rest => (number? 1 rest.length rest).map fun (n, rest) => (n, rest)
  | rest => (number? 1 4 rest).map fun (n, rest) => (n, rest)

/-- A number of one or two digits after white space. -/
def looseNumber? (cs : List Char) : Option (Nat × List Char) := number? 1 2 (skipBlanks cs)

/-- The offset of the loose notation. -/
def looseOffset? (cs : List Char) : Option (Int × List Char) :=
  if Text.lowerAscii (String.ofList (cs.take 3)) = "utc" then some (0, cs.drop 3)
  else offset? (fun cs => some (cs.dropWhile fun c => c == ':' || Text.isBlank c)) cs

/-- Reads the loose notation. -/
def parseLoose? (s : String) : Option Instant := do
  let (year, cs) ← looseYear? (skipBlanks s.toList)
  let (month, cs) ← looseNumber? (← mark? '-' (skipBlanks cs))
  let (day, cs) ← looseNumber? (← mark? '-' (skipBlanks cs))
  let (hour, cs) ← looseNumber? (← timeMark? cs)
  let (minute, cs) ← looseNumber? (← mark? ':' (skipBlanks cs))
  let (second, cs) ← looseNumber? (← mark? ':' (skipBlanks cs))
  let (nanos, cs) ← fraction? cs
  let (offset, cs) ← looseOffset? (skipBlanks cs)
  if (skipBlanks cs).isEmpty then ofParts? { year, month, day, hour, minute, second, nanos, offset } else none

/-! ## Writing -/

/-- A number with at least the given count of digits. -/
def padded (count n : Nat) : String :=
  let digits := Nat.toDigits 10 n
  String.ofList (List.replicate (count - digits.length) '0' ++ digits)

/-- A fraction of a second: absent, or three, six or nine digits, whichever is exact. -/
def fractionText (nanos : Nat) : String :=
  if nanos = 0 then ""
  else if nanos % 1000000 = 0 then "." ++ padded 3 (nanos / 1000000)
  else if nanos % 1000 = 0 then "." ++ padded 6 (nanos / 1000)
  else "." ++ padded 9 nanos

/-- A year: four digits, or more digits after a sign. -/
def yearText (year : Int) : String :=
  if 0 ≤ year ∧ year ≤ 9999 then padded 4 year.toNat
  else (if year < 0 then "-" else "+") ++ padded 4 year.natAbs

/-- The instant in UTC. -/
def toText (i : Instant) : String :=
  let (year, month, day) := dateOfDays (i.seconds.fdiv 86400)
  let time := (i.seconds.fmod 86400).toNat
  let leap := 1000000000 ≤ i.nanos
  yearText year ++ "-" ++ padded 2 month ++ "-" ++ padded 2 day ++ "T"
    ++ padded 2 (time / 3600) ++ ":" ++ padded 2 (time / 60 % 60) ++ ":"
    ++ padded 2 (time % 60 + (if leap then 1 else 0)) ++ fractionText (i.nanos % 1000000000) ++ "Z"

end Instant

end GuardedQuery
