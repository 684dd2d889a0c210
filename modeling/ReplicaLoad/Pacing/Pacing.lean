-- Pacing. How a tuning set starts a list of actions. Before each action the
-- starter takes a pause; then it waits for a permit if their number is limited;
-- the action itself may begin with a wait of its own. `Load.pacing` gives these
-- times for every load.
import ReplicaLoad.LoadTest.Check
import ReplicaLoad.Pacing.Draw
import ReplicaLoad.Table

namespace ReplicaLoad

structure Pacing where
  /-- The pause of the starter before an action, by its position. -/
  pause : Nat → Nanos
  /-- The wait with which an action begins, by its position. -/
  offset : Nat → Nanos
  /-- How many actions may run at the same time. -/
  permits : Option Nat

namespace Pacing

def immediate : Pacing := ⟨fun _ => 0, fun _ => 0, none⟩

def every (gap : Nanos) : Pacing := { immediate with pause := fun i => if i = 0 then 0 else gap }

def bursts (size : Nat) (gap : Nanos) : Pacing :=
  { immediate with pause := fun i => if i ≠ 0 ∧ i % size = 0 then gap else 0 }

end Pacing

/-- The pause that spreads a number of actions over a time limit. The number counts in 32 bits;
when these are all zero there is no such pause. -/
def spreadInterval? (limit : Nanos) (count : Nat) : Option Nanos :=
  if count % twoTo 32 = 0 then none else some (limit / (count % twoTo 32))

/-- The gap that a number of seconds makes, the longest one if it is out of range. -/
def gapOfSeconds (x : Float) : Nanos := (Nanos.ofSeconds? x).getD Nanos.longest

/-- The interval of a fixed rate. -/
def rateInterval (rate : Float) : Nanos := gapOfSeconds (1.0 / rate)

/-- The bound of the random gaps of an average rate. -/
def gapBound (averageRate : Float) : Nanos := gapOfSeconds (2.0 / averageRate)

/-- How a load starts a number of actions. Only the spreading over a time limit can fail. -/
def Load.pacing (draws : Draws) (count : Nat) : Load → Option Pacing
  | .qps rate => some (.every (rateInterval rate))
  | .randomized rate =>
    some { Pacing.immediate with
      pause := fun i => if i = 0 then 0 else draws.below i (gapBound rate) }
  | .stepped b => some (.bursts (max b.burstSize.toNat 1) (Nanos.ofMillis b.stepDelayMs.toNat))
  | .timeLimited limit =>
    if count = 0 then some .immediate
    else (spreadInterval? (Nanos.ofMillis limit.toNat) count).map .every
  | .randomizedTimeLimited limit =>
    some { Pacing.immediate with
      offset := fun i => Nanos.ofMillis (draws.below i limit.toNat) }
  | .parallelismLimited limit =>
    some { Pacing.immediate with permits := some (max limit.toNat 1) }

/-- The text of the crash when a load cannot start a number of actions. -/
def Load.divisionCrash : String := "divide by zero error when dividing duration by scalar"

inductive TuningSetError where
  | notFound (name : String)
  | invalid (problem : String)
  deriving DecidableEq

def TuningSetError.message : TuningSetError → String
  | .notFound name => s!"tuning set {Text.quoted name} not found"
  | .invalid problem => s!"invalid tuning set: {problem}"

/-- The declared tuning sets; of two with one name the later one counts. -/
structure TuningSets where
  declared : Table String TuningSet

namespace TuningSets

def ofList (sets : List TuningSet) : TuningSets := ⟨Table.ofList (sets.map fun t => (t.name, t))⟩

def names (s : TuningSets) : List String := s.declared.keys.mergeSort (· ≤ ·)

def select (s : TuningSets) (name : String) : Except TuningSetError Load :=
  match s.declared.get? name with
  | none => .error (.notFound name)
  | some t => match t.load with
    | .ok load => .ok load
    | .error d => .error (.invalid d.report)

end TuningSets

end ReplicaLoad
