-- Load tests as values. A load test as a value and back. Optional parts that
-- are absent leave no entry; lists are always written. A rate that is not
-- finite has no value of its own and is written as null.
import ReplicaLoad.Decimal.Shortest
import ReplicaLoad.LoadTest.Schema

namespace ReplicaLoad

namespace Value

def reader : Reader Value where
  text := text?
  natBelow := natBelow?
  number
    | .float x => some x
    | .int n => some (Float.ofInt n)
    | _ => none
  items
    | .list items => some items
    | _ => none
  fields _ := dict?
  optional v := some (if v.isNull then none else some v)
  dict := dict?

def entry? {α : Type} (key : String) (value : Option α) (encode : α → Value) : Dict :=
  match value with
  | some a => [(key, encode a)]
  | none => []

def ofWord32 (n : UInt32) : Value := .int n.toNat

def ofWord64 (n : UInt64) : Value := .int n.toNat

def ofRate (x : Float) : Value := if Decimal.isFinite x then .float x else .null

end Value

open Value

def Bursts.encode (b : Bursts) : Value :=
  .dict [("burstSize", ofWord32 b.burstSize), ("stepDelayMs", ofWord64 b.stepDelayMs)]

def TuningSet.encode (t : TuningSet) : Value :=
  .dict <|
    ("name", .text t.name) ::
      entry? "parallelismLimitedLoad" t.parallelismLimit
        (fun n => .dict [("parallelismLimit", ofWord32 n)])
    ++ entry? "qpsLoad" t.qps (fun x => .dict [("qps", ofRate x)])
    ++ entry? "randomizedLoad" t.averageQps (fun x => .dict [("averageQps", ofRate x)])
    ++ entry? "randomizedTimeLimitedLoad" t.randomTimeLimitMs
        (fun n => .dict [("timeLimitMs", ofWord64 n)])
    ++ entry? "steppedLoad" t.stepped Bursts.encode
    ++ entry? "timeLimitedLoad" t.timeLimitMs (fun n => .dict [("timeLimitMs", ofWord64 n)])

def ObjectTemplate.encode (o : ObjectTemplate) : Value :=
  .dict <|
    [("basename", .text o.basename), ("objectTemplatePath", .text o.path)]
    ++ entry? "templateFillMap" o.fillMap .dict

def NamespaceRange.encode (r : NamespaceRange) : Value :=
  .dict <|
    entry? "basename" r.basename .text
    ++ [("max", ofWord32 r.max), ("min", ofWord32 r.min)]

def Phase.encode (p : Phase) : Value :=
  .dict <|
    entry? "namespaceRange" p.range NamespaceRange.encode
    ++ [("objectBundle", .list (p.bundle.map ObjectTemplate.encode)),
      ("replicasPerNamespace", ofWord32 p.replicas), ("tuningSet", .text p.tuningSet)]

def MeasurementCall.encode (m : MeasurementCall) : Value :=
  .dict [("identifier", .text m.identifier), ("method", .text m.method), ("params", .dict m.params)]

def Step.encode (s : Step) : Value :=
  .dict <|
    ("measurements", .list (s.measurements.map MeasurementCall.encode)) ::
      entry? "name" s.name .text
    ++ [("phases", .list (s.phases.map Phase.encode))]

def LoadTest.encode (t : LoadTest) : Value :=
  .dict [("automanagedNamespaces", ofWord32 t.automanagedNamespaces), ("name", .text t.name),
    ("steps", .list (t.steps.map Step.encode)),
    ("tuningSets", .list (t.tuningSets.map TuningSet.encode))]

end ReplicaLoad
