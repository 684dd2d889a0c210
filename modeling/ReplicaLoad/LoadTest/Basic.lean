-- Load tests. A load test is a sequence of steps. A step either calls
-- measurements or runs phases, all at the same time. A phase names, for a range
-- of namespaces and a bundle of object templates, how many replicas there shall
-- be of each object, and the tuning set that paces the way there.
import ReplicaLoad.Object.Identity
import ReplicaLoad.Value.Basic

namespace ReplicaLoad

structure Bursts where
  burstSize : UInt32
  stepDelayMs : UInt64
  deriving DecidableEq

/-- A named way of pacing actions. Exactly one of the loads shall be given. -/
structure TuningSet where
  name : String
  /-- Actions a second, at a fixed rate. -/
  qps : Option Float := none
  /-- Actions a second on average, with random gaps. -/
  averageQps : Option Float := none
  stepped : Option Bursts := none
  /-- Milliseconds over which the actions are spread evenly. -/
  timeLimitMs : Option UInt64 := none
  /-- Milliseconds in which the actions start at random times. -/
  randomTimeLimitMs : Option UInt64 := none
  /-- The number of actions that may run at the same time. -/
  parallelismLimit : Option UInt32 := none

structure ObjectTemplate where
  basename : String
  path : String
  /-- Parameters of the template. -/
  fillMap : Option Dict := none
  deriving Inhabited

def ObjectTemplate.objectName (o : ObjectTemplate) (index : Nat) : String :=
  indexedName o.basename index

/-- Namespaces with the indices from `min` to `max` under a base name, which is that of the run
if none is given. -/
structure NamespaceRange where
  min : UInt32
  max : UInt32
  basename : Option String := none
  deriving DecidableEq

/-- The replica count that a bundle shall reach in each namespace of a range. -/
structure Phase where
  /-- Without a range the phase works on the cluster scope. -/
  range : Option NamespaceRange := none
  replicas : UInt32
  tuningSet : String
  bundle : List ObjectTemplate

structure MeasurementCall where
  method : String
  identifier : String
  params : Dict := []

structure Step where
  name : Option String := none
  phases : List Phase := []
  measurements : List MeasurementCall := []

def Step.displayName (s : Step) : String := s.name.getD ""

structure LoadTest where
  name : String
  automanagedNamespaces : UInt32 := 0
  tuningSets : List TuningSet := []
  steps : List Step := []

end ReplicaLoad
