namespace ResourceScript

structure Date where
  year : Nat
  month : Nat
  day : Nat
  deriving DecidableEq, Repr

/-- A time of a day, perhaps with the distance from universal time in minutes. -/
structure Clock where
  hour : Nat
  minute : Nat
  second : Nat
  microsecond : Nat
  zone : Option Int
  deriving DecidableEq, Repr

namespace Date

def isLeapYear (year : Nat) : Bool :=
  year % 4 == 0 && (year % 100 != 0 || year % 400 == 0)

def daysIn (year month : Nat) : Nat :=
  match month with
  | 2 => if isLeapYear year then 29 else 28
  | 4 | 6 | 9 | 11 => 30
  | _ => 31

def exists? (d : Date) : Bool :=
  1 ≤ d.year && 1 ≤ d.month && d.month ≤ 12 && 1 ≤ d.day && d.day ≤ daysIn d.year d.month

def daysBefore (year : Nat) : Nat → Nat
  | 0 => 0
  | month + 1 => daysBefore year month + (if month = 0 then 0 else daysIn year month)

def dayNumber (d : Date) : Nat :=
  let past := d.year - 1
  365 * past + past / 4 - past / 100 + past / 400 + daysBefore d.year d.month + d.day

end Date

namespace Clock

def exists? (c : Clock) : Bool :=
  c.hour < 24 && c.minute < 60 && c.second < 60 && (c.zone.all fun z => z.natAbs < 1440)

end Clock

/-- The moment of universal time in microseconds, if its distance from that time is known. -/
def instant? (d : Date) (c : Clock) : Option Int :=
  c.zone.map fun zone =>
    let minutes : Int := (d.dayNumber * 24 + c.hour) * 60 + c.minute - zone
    (minutes * 60 + c.second) * 1000000 + c.microsecond

end ResourceScript
