-- Durations. Durations are counted in nanoseconds. The clock moves in whole
-- milliseconds, so that a wait ends at the first whole millisecond that is not
-- before its end.
import ReplicaLoad.Decimal.Shortest

namespace ReplicaLoad

/-- A length of time in nanoseconds. -/
abbrev Nanos := Nat

/-- A time of the clock in milliseconds. -/
abbrev Millis := Nat

namespace Nanos

def perSecond : Nat := 1000000000

def perMilli : Nat := 1000000

def ofMillis (ms : Nat) : Nanos := ms * perMilli

/-- The longest duration that fits in 64 bits of seconds. -/
def longest : Nanos := (twoTo 64 - 1) * perSecond + (perSecond - 1)

/-- The least number of whole milliseconds that are not shorter than a duration. -/
def ceilMillis (d : Nanos) : Millis := (d + (perMilli - 1)) / perMilli

/-- The natural number nearest to a quotient, and of two the even one. -/
def nearest (num den : Nat) : Nat :=
  match compare (2 * (num % den)) den with
  | .lt => num / den
  | .gt => num / den + 1
  | .eq => if (num / den) % 2 = 0 then num / den else num / den + 1

/-- A number of seconds to the nearest nanosecond. There is none for a negative number, and
none when the seconds do not fit in 64 bits. -/
def ofSeconds? (x : Float) : Option Nanos :=
  let b := Decimal.Binary.ofFloat x
  if !Decimal.isFinite x || (Decimal.isNegative x && b.m ≠ 0) then none
  else
    let n := nearest (b.m * twoTo b.q.toNat * perSecond) (twoTo (-b.q).toNat)
    if n / perSecond < twoTo 64 then some n else none

end Nanos

def Millis.after (start : Millis) (d : Nanos) : Millis := start + d.ceilMillis

end ReplicaLoad
