import Magnetofluid.Text.Layout

/-!
# Moments

A day and a time of day, with the two texts of a moment: as it is shown by itself, and by its parts as it appears inside
other values.
-/

namespace Magnetofluid

/-- A day and a time of day. `zone` is the offset from universal time in minutes, if one is given. -/
structure Moment where
  year : Nat
  month : Nat
  day : Nat
  hour : Nat
  minute : Nat
  second : Nat
  microsecond : Nat
  zone : Option Int
deriving DecidableEq, Repr

namespace Text

/-- An offset in minutes with its sign. -/
def zoneText (minutes : Int) : String :=
  let m := minutes.natAbs
  (if minutes < 0 then "-" else "+") ++ padded 2 (m / 60) ++ ":" ++ padded 2 (m % 60)

end Text

namespace Moment

open Text

/-- The moment as a date, a blank and a time. -/
def text (m : Moment) : String :=
  padded 4 m.year ++ "-" ++ padded 2 m.month ++ "-" ++ padded 2 m.day ++ " " ++
    padded 2 m.hour ++ ":" ++ padded 2 m.minute ++ ":" ++ padded 2 m.second ++
    (if m.microsecond = 0 then "" else "." ++ padded 6 m.microsecond) ++
    (m.zone.map zoneText).getD ""

def quoted (m : Moment) : String :=
  let tail := if m.microsecond ≠ 0 then [m.second, m.microsecond]
    else if m.second ≠ 0 then [m.second] else []
  let parts := ([m.year, m.month, m.day, m.hour, m.minute] ++ tail).map toString
  let zone := match m.zone with
    | none => []
    | some 0 => ["tzinfo=datetime.timezone.utc"]
    | some minutes =>
      let seconds := minutes * 60
      let inside := if seconds < 0 then "days=-1, seconds=" ++ toString (seconds + 86400)
        else "seconds=" ++ toString seconds
      ["tzinfo=datetime.timezone(datetime.timedelta(" ++ inside ++ "))"]
  "datetime.datetime(" ++ joined ", " (parts ++ zone) ++ ")"

/-- The number of a day. A year begins in March, so that the day a leap year has more comes last. -/
def dayNumber (year month day : Nat) : Nat :=
  let y := if month ≤ 2 then year - 1 else year
  let m := (month + 9) % 12
  365 * y + y / 4 - y / 100 + y / 400 + (153 * m + 2) / 5 + day

/-- The microseconds of a moment since a fixed one. -/
def microseconds (m : Moment) : Nat :=
  (((dayNumber m.year m.month m.day * 24 + m.hour) * 60 + m.minute) * 60 + m.second) * 1000000 + m.microsecond

/-- Whether two moments are the same. Those with an offset are compared by universal time; a moment with an offset is never
one without. -/
def same (m n : Moment) : Bool :=
  match m.zone, n.zone with
  | none, none => m == n
  | some i, some j => (m.microseconds : Int) - i * 60000000 == (n.microseconds : Int) - j * 60000000
  | _, _ => false

end Moment

end Magnetofluid
