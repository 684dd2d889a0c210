-- The form of a load test. How a load test is built up from records, lists and
-- scalars, whatever notation it is written in. A `Reader` says what these are
-- in a notation; `LoadTest.decode` reads a test with it, and the functions
-- before it its parts. Fields that a record does not have are passed over.
import ReplicaLoad.Bits
import ReplicaLoad.LoadTest.Basic

namespace ReplicaLoad

structure Reader (ν : Type) where
  /-- A text. -/
  text : ν → Option String
  /-- A whole number below a bound. -/
  natBelow : Nat → ν → Option Nat
  /-- A floating point number. -/
  number : ν → Option Float
  /-- A list. -/
  items : ν → Option (List ν)
  /-- A record, of whose fields those with one of the names matter. -/
  fields : List String → ν → Option (List (String × ν))
  /-- A node, or nothing where null is written. -/
  optional : ν → Option (Option ν)
  /-- Free data under names. -/
  dict : ν → Option Dict

namespace Reader

variable {ν : Type}

def find (fs : List (String × ν)) (name : String) : Option ν :=
  (fs.find? (·.1 = name)).map (·.2)

def required {α : Type} (fs : List (String × ν)) (name : String) (read : ν → Option α) : Option α :=
  (find fs name).bind read

def orElse {α : Type} (fs : List (String × ν)) (name : String) (absent : α) (read : ν → Option α) :
    Option α :=
  match find fs name with
  | some n => read n
  | none => some absent

def maybe {α : Type} (r : Reader ν) (fs : List (String × ν)) (name : String) (read : ν → Option α) :
    Option (Option α) :=
  match find fs name with
  | none => some none
  | some n => match r.optional n with
    | none => none
    | some none => some none
    | some (some n) => (read n).map some

def list {α : Type} (r : Reader ν) (read : ν → Option α) (n : ν) : Option (List α) :=
  (r.items n).bind (·.mapM read)

def word32 (r : Reader ν) (n : ν) : Option UInt32 := (r.natBelow (twoTo 32) n).map UInt32.ofNat

def word64 (r : Reader ν) (n : ν) : Option UInt64 := (r.natBelow (twoTo 64) n).map UInt64.ofNat

def single {α : Type} (r : Reader ν) (name : String) (read : ν → Option α) (n : ν) : Option α :=
  (r.fields [name] n).bind fun fs => required fs name read

def bursts (r : Reader ν) (n : ν) : Option Bursts := do
  let fs ← r.fields ["burstSize", "stepDelayMs"] n
  let burstSize ← required fs "burstSize" r.word32
  let stepDelayMs ← required fs "stepDelayMs" r.word64
  return { burstSize, stepDelayMs }

def tuningSetFields : List String :=
  ["name", "qpsLoad", "randomizedLoad", "steppedLoad", "timeLimitedLoad",
    "randomizedTimeLimitedLoad", "parallelismLimitedLoad"]

def tuningSet (r : Reader ν) (n : ν) : Option TuningSet := do
  let fs ← r.fields tuningSetFields n
  let name ← required fs "name" r.text
  let qps ← r.maybe fs "qpsLoad" (r.single "qps" r.number)
  let averageQps ← r.maybe fs "randomizedLoad" (r.single "averageQps" r.number)
  let stepped ← r.maybe fs "steppedLoad" r.bursts
  let timeLimitMs ← r.maybe fs "timeLimitedLoad" (r.single "timeLimitMs" r.word64)
  let randomTimeLimitMs ← r.maybe fs "randomizedTimeLimitedLoad" (r.single "timeLimitMs" r.word64)
  let parallelismLimit ←
    r.maybe fs "parallelismLimitedLoad" (r.single "parallelismLimit" r.word32)
  return { name, qps, averageQps, stepped, timeLimitMs, randomTimeLimitMs, parallelismLimit }

def objectTemplate (r : Reader ν) (n : ν) : Option ObjectTemplate := do
  let fs ← r.fields ["basename", "objectTemplatePath", "templateFillMap"] n
  let basename ← required fs "basename" r.text
  let path ← required fs "objectTemplatePath" r.text
  let fillMap ← r.maybe fs "templateFillMap" r.dict
  return { basename, path, fillMap }

def namespaceRange (r : Reader ν) (n : ν) : Option NamespaceRange := do
  let fs ← r.fields ["min", "max", "basename"] n
  let min ← required fs "min" r.word32
  let max ← required fs "max" r.word32
  let basename ← r.maybe fs "basename" r.text
  return { min, max, basename }

def phase (r : Reader ν) (n : ν) : Option Phase := do
  let fs ← r.fields ["namespaceRange", "replicasPerNamespace", "tuningSet", "objectBundle"] n
  let range ← r.maybe fs "namespaceRange" r.namespaceRange
  let replicas ← required fs "replicasPerNamespace" r.word32
  let tuningSet ← required fs "tuningSet" r.text
  let bundle ← required fs "objectBundle" (r.list r.objectTemplate)
  return { range, replicas, tuningSet, bundle }

def measurementCall (r : Reader ν) (n : ν) : Option MeasurementCall := do
  let fs ← r.fields ["method", "identifier", "params"] n
  let method ← required fs "method" r.text
  let identifier ← required fs "identifier" r.text
  let params ← orElse fs "params" [] r.dict
  return { method, identifier, params }

def step (r : Reader ν) (n : ν) : Option Step := do
  let fs ← r.fields ["name", "phases", "measurements"] n
  let name ← r.maybe fs "name" r.text
  let phases ← orElse fs "phases" [] (r.list r.phase)
  let measurements ← orElse fs "measurements" [] (r.list r.measurementCall)
  return { name, phases, measurements }

end Reader

def LoadTest.decode {ν : Type} (r : Reader ν) (n : ν) : Option LoadTest := do
  let fs ← r.fields ["name", "automanagedNamespaces", "tuningSets", "steps"] n
  let name ← Reader.required fs "name" r.text
  let automanagedNamespaces ← Reader.orElse fs "automanagedNamespaces" 0 r.word32
  let tuningSets ← Reader.orElse fs "tuningSets" [] (r.list r.tuningSet)
  let steps ← Reader.orElse fs "steps" [] (r.list r.step)
  return { name, automanagedNamespaces, tuningSets, steps }

end ReplicaLoad
