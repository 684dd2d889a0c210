-- Time stamps. A moment as a date and a time of the day in universal time.

namespace ReplicaLoad.Stamp

/-- Year, month and day of the day that lies some days after the first of January 1970. Years are
counted from March, so that a leap day is the last day of its year, and in cycles of 400 years. -/
def dateOf (days : Nat) : Nat × Nat × Nat :=
  let shifted := days + 719468
  let cycle := shifted / 146097
  let inCycle := shifted % 146097
  let yearInCycle := (inCycle - inCycle / 1460 + inCycle / 36524 - inCycle / 146096) / 365
  let inYear := inCycle - (365 * yearInCycle + yearInCycle / 4 - yearInCycle / 100)
  let fromMarch := (5 * inYear + 2) / 153
  let day := inYear - (153 * fromMarch + 2) / 5 + 1
  let month := if fromMarch < 10 then fromMarch + 3 else fromMarch - 9
  let year := yearInCycle + 400 * cycle + (if month ≤ 2 then 1 else 0)
  (year, month, day)

def twoDigits (n : Nat) : String := if n < 10 then "0" ++ toString n else toString n

/-- The time stamp of the second that lies some seconds after the beginning of 1970. -/
def ofSeconds (seconds : Nat) : String :=
  let (year, month, day) := dateOf (seconds / 86400)
  let inDay := seconds % 86400
  let date := s!"{year}-{twoDigits month}-{twoDigits day}"
  let time := s!"{twoDigits (inDay / 3600)}:{twoDigits (inDay / 60 % 60)}:{twoDigits (inDay % 60)}"
  s!"{date}T{time}Z"

example : ofSeconds 0 = "1970-01-01T00:00:00Z" := by decide +kernel
example : ofSeconds 951827696 = "2000-02-29T12:34:56Z" := by decide +kernel

end ReplicaLoad.Stamp
