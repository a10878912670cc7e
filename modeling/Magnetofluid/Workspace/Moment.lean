import Magnetofluid.Moment

/-!
# Moments on the clock

How a moment is written in the names of directories and in log files, and the time between two moments.
-/

namespace Magnetofluid.Moment

open Text

/-- The moment in the name of a directory. -/
def stamp (m : Moment) : String :=
  padded 4 m.year ++ "-" ++ padded 2 m.month ++ "-" ++ padded 2 m.day ++ "_" ++
    padded 2 m.hour ++ padded 2 m.minute ++ padded 2 m.second

/-- The moment in a log file, to the millisecond. -/
def logText (m : Moment) : String :=
  padded 4 m.year ++ "-" ++ padded 2 m.month ++ "-" ++ padded 2 m.day ++ " " ++
    padded 2 m.hour ++ ":" ++ padded 2 m.minute ++ ":" ++ padded 2 m.second ++ "," ++
    padded 3 (m.microsecond / 1000)

/-- The microseconds from one moment to a later one. -/
def since (start stop : Moment) : Nat := stop.microseconds - start.microseconds

/-- A time in hours, minutes and seconds, after the days if there are any. -/
def durationText (microseconds : Nat) : String :=
  let seconds := microseconds / 1000000
  let days := seconds / 86400
  let clock := toString (seconds / 3600 % 24) ++ ":" ++ padded 2 (seconds / 60 % 60) ++ ":" ++ padded 2 (seconds % 60)
  if days = 0 then clock else toString days ++ (if days = 1 then " day, " else " days, ") ++ clock

/-- How many of something there were in each second, to two places. No time at all counts as the millionth part of
a microsecond. -/
def speedText (count microseconds : Nat) : String :=
  let hundredths :=
    if microseconds = 0 then count * 100000000000000 else (2 * count * 100000000 + microseconds) / (2 * microseconds)
  toString (hundredths / 100) ++ "." ++ padded 2 (hundredths % 100)

end Magnetofluid.Moment
