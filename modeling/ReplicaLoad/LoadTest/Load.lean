-- The load of a tuning set. A tuning set stands for one load. `TuningSet.load`
-- finds it, or says what is wrong with the set. `Defect` lists everything that
-- can be wrong with a test.
import ReplicaLoad.LoadTest.Basic
import ReplicaLoad.Pacing.Duration

namespace ReplicaLoad

inductive Load where
  | qps (rate : Float)
  | randomized (averageRate : Float)
  | stepped (bursts : Bursts)
  | timeLimited (limitMs : UInt64)
  | randomizedTimeLimited (limitMs : UInt64)
  | parallelismLimited (limit : UInt32)

inductive Defect where
  | emptyName
  | noLoad (tuningSet : String)
  | severalLoads (tuningSet : String) (count : Nat)
  | loadOutOfRange (tuningSet : String)
  | duplicateTuningSet (tuningSet : String)
  | mixedStep (step : String)
  | emptyRange (step : String) (min max : Nat)
  | unknownTuningSet (step tuningSet : String)
  | incompleteObject (step : String)
  | missingMethod (step : String)
  deriving DecidableEq

def TuningSet.loads (t : TuningSet) : List Load :=
  (t.qps.map .qps).toList ++ (t.averageQps.map .randomized).toList
    ++ (t.stepped.map .stepped).toList ++ (t.timeLimitMs.map .timeLimited).toList
    ++ (t.randomTimeLimitMs.map .randomizedTimeLimited).toList
    ++ (t.parallelismLimit.map .parallelismLimited).toList

/-- Whether a rate is positive and `span / rate` seconds are a duration. -/
def representableRate (rate span : Float) : Bool :=
  rate > 0.0 && (Nanos.ofSeconds? (span / rate)).isSome

/-- Whether rates, burst size and parallelism are positive and in range. -/
def Load.inRange : Load → Bool
  | .qps rate => representableRate rate 1.0
  | .randomized rate => representableRate rate 2.0
  | .stepped bursts => bursts.burstSize > 0
  | .parallelismLimited limit => limit > 0
  | .timeLimited _ => true
  | .randomizedTimeLimited _ => true

def TuningSet.load (t : TuningSet) : Except Defect Load :=
  match t.loads with
  | [load] => if load.inRange then .ok load else .error (.loadOutOfRange t.name)
  | [] => .error (.noLoad t.name)
  | loads => .error (.severalLoads t.name loads.length)

end ReplicaLoad
