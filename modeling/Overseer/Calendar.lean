/-! Points in time and their dates in the Gregorian calendar, in UTC. -/

namespace Overseer

structure Date where
  year : Int
  month : Nat
  day : Nat
  deriving DecidableEq, Repr

/-- The date so many days after 1970-01-01. Years begin in March here, so that the leap
day is the last of its year; an era is 400 years. -/
def Date.ofDays (days : Int) : Date :=
  let shifted := days + 719468
  let era := shifted.fdiv 146097
  let dayOfEra := (shifted.fmod 146097).toNat
  let yearOfEra :=
    (dayOfEra - dayOfEra / 1460 + dayOfEra / 36524 - dayOfEra / 146096) / 365
  let dayOfYear := dayOfEra - (365 * yearOfEra + yearOfEra / 4 - yearOfEra / 100)
  let fromMarch := (5 * dayOfYear + 2) / 153
  let month := if fromMarch < 10 then fromMarch + 3 else fromMarch - 9
  { year := yearOfEra + era * 400 + (if month ≤ 2 then 1 else 0)
    month
    day := dayOfYear - (153 * fromMarch + 2) / 5 + 1 }

/-- Seconds since 1970-01-01T00:00:00Z and nanoseconds into that second; from a billion on
the nanoseconds stand for a leap second that follows. -/
structure Timestamp where
  seconds : Int
  nanos : Nat
  deriving DecidableEq, Repr

namespace Timestamp

def nanosPerSecond : Nat := 1000000000

def nanosPerMilli : Nat := 1000000

/-- The calendar ends with the years -262143 and 262142. -/
def minSeconds : Int := -8334601228800

def maxSeconds : Int := 8210266876799

/-- A time within the calendar; a leap second may only end a minute. -/
def of? (seconds : Int) (nanos : Nat) : Option Timestamp :=
  if minSeconds ≤ seconds ∧ seconds ≤ maxSeconds ∧
      (nanos < nanosPerSecond ∨ (nanos < 2 * nanosPerSecond ∧ seconds.fmod 60 = 59)) then
    some ⟨seconds, nanos⟩
  else none

def ofMillis (millis : Int) : Timestamp :=
  ⟨millis.fdiv 1000, (millis.fmod 1000).toNat * nanosPerMilli⟩

/-- A number with leading zeros, at least `width` digits. -/
def padded (width n : Nat) : String :=
  let digits := Nat.repr n
  "".pushn '0' (width - digits.length) ++ digits

/-- Four digits for the years 0 to 9999; others bear a sign. -/
def yearText (year : Int) : String :=
  if 0 ≤ year ∧ year ≤ 9999 then padded 4 year.toNat
  else (if year < 0 then "-" else "+") ++ padded 4 year.natAbs

def date (t : Timestamp) : Date := Date.ofDays (t.seconds.fdiv 86400)

def secondOfDay (t : Timestamp) : Nat := (t.seconds.fmod 86400).toNat

/-- Date and time of day to the second. -/
def toSecond (t : Timestamp) : String :=
  let d := t.date
  let s := t.secondOfDay
  yearText d.year ++ "-" ++ padded 2 d.month ++ "-" ++ padded 2 d.day ++ "T" ++
    padded 2 (s / 3600) ++ ":" ++ padded 2 (s / 60 % 60) ++ ":" ++
    padded 2 (s % 60 + t.nanos / nanosPerSecond)

/-- With milliseconds, as log records bear it. -/
def record (t : Timestamp) : String :=
  t.toSecond ++ "." ++ padded 3 (t.nanos % nanosPerSecond / nanosPerMilli) ++ "Z"

/-- With as many groups of three decimals as the fraction needs. -/
def text (t : Timestamp) : String :=
  let n := t.nanos % nanosPerSecond
  let fraction :=
    if n = 0 then ""
    else if n % nanosPerMilli = 0 then "." ++ padded 3 (n / nanosPerMilli)
    else if n % 1000 = 0 then "." ++ padded 6 (n / 1000)
    else "." ++ padded 9 n
  t.toSecond ++ fraction ++ "Z"

end Timestamp

end Overseer
