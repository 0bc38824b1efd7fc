import OrgClient.Number.Decimal

namespace OrgClient.Calendar

open Number

/-- A day of the calendar; year zero comes before year one. -/
structure Date where
  year : Int
  month : Nat
  day : Nat
  deriving DecidableEq, Repr

/-- Four digits or more, with a sign outside the years 0 to 9999. -/
def yearText (y : Int) : String :=
  if 0 ≤ y && y ≤ 9999 then padded 4 y.toNat
  else (if y < 0 then "-" else "+") ++ padded 4 y.natAbs

def Date.text (d : Date) : String :=
  yearText d.year ++ "-" ++ padded 2 d.month ++ "-" ++ padded 2 d.day

/-- The day that lies `days` days after 1 January 1970. -/
def Date.ofDays (days : Int) : Date :=
  let z := days + 719468
  let era := z.fdiv 146097
  let doe := (z - era * 146097).toNat
  let yoe := (doe - doe / 1460 + doe / 36524 - doe / 146096) / 365
  let doy := doe - (365 * yoe + yoe / 4 - yoe / 100)
  let mp := (5 * doy + 2) / 153
  let month := if mp < 10 then mp + 3 else mp - 9
  let year : Int := yoe + era * 400
  ⟨if month ≤ 2 then year + 1 else year, month, doy - (153 * mp + 2) / 5 + 1⟩

/-- Whether a year has a 29 February. -/
def isLeap (y : Int) : Bool :=
  y.emod 4 == 0 && (y.emod 100 != 0 || y.emod 400 == 0)

def daysInMonth (y : Int) (m : Nat) : Nat :=
  match m with
  | 2 => if isLeap y then 29 else 28
  | 4 | 6 | 9 | 11 => 30
  | _ => 31

def Date.isValid (d : Date) : Bool :=
  1 ≤ d.month && d.month ≤ 12 && 1 ≤ d.day && d.day ≤ daysInMonth d.year d.month

/-- Seconds since 1970 and nanoseconds; a leap second has a thousand million nanoseconds or more. -/
structure Instant where
  seconds : Int
  nanoseconds : Nat
  deriving DecidableEq, Repr

def Instant.date (t : Instant) : Date :=
  Date.ofDays (t.seconds.fdiv 86400)

def Instant.secondOfDay (t : Instant) : Nat :=
  (t.seconds.fmod 86400).toNat

/-- The second of its minute; a leap second is the second 60. -/
def Instant.second (t : Instant) : Nat :=
  t.secondOfDay % 60 + (if 1000000000 ≤ t.nanoseconds then 1 else 0)

def Instant.text (t : Instant) : String :=
  t.date.text ++ "T" ++ padded 2 (t.secondOfDay / 3600) ++ ":" ++ padded 2 (t.secondOfDay / 60 % 60)
    ++ ":" ++ padded 2 t.second ++ "Z"

end OrgClient.Calendar
