-- Measurements. A measurement is an instance of a method. The first call of a
-- method with an identifier makes the instance, later calls with the same
-- identifier reach it again. The summaries that calls return are kept until
-- they are taken.
import ReplicaLoad.Pacing.Duration
import ReplicaLoad.Table
import ReplicaLoad.Text.Quoted
import ReplicaLoad.Value.JsonText

namespace ReplicaLoad

inductive MeasurementError where
  | unknownMethod (method : String)
  | missingParam (name : String)
  | invalidParam (name reason : String)
  | failed (reason : String)
  deriving DecidableEq

def MeasurementError.message : MeasurementError → String
  | .unknownMethod m => s!"unknown measurement method {m}"
  | .missingParam n => s!"missing parameter {n}"
  | .invalidParam n reason => s!"invalid parameter {n}: {reason}"
  | .failed reason => s!"measurement failed: {reason}"

inductive Printed where
  | text (s : String)
  | fails (e : MeasurementError)
  | crashes (reason : String)
  deriving DecidableEq

structure Summary where
  name : String
  printed : Printed
  deriving DecidableEq

inductive CallOutcome where
  | summaries (list : List Summary)
  | error (e : MeasurementError)
  | crash (reason : String)
  deriving DecidableEq

/-- The answer of an instance to a call: its next state, how long the call takes, and its end. -/
structure Reply (ι : Type) where
  state : ι
  lasts : Nanos := 0
  outcome : CallOutcome

/-- A method: the state of a new instance, and what an instance does when it is called. -/
structure Method (ι : Type) where
  fresh : ι
  call : Millis → Dict → ι → Reply ι

/-- A method with an identifier. -/
abbrev InstanceKey := String × String

/-- The registered methods, their instances, and the summaries that wait to be taken. -/
structure Measurements (ι : Type) where
  methods : Table String (Method ι)
  instances : Table InstanceKey ι := Table.empty
  pending : List Summary := []

def textParam (params : Dict) (name : String) : Except MeasurementError String :=
  match params.get? name with
  | none => .error (.missingParam name)
  | some (.text s) => .ok s
  | some v => .error (.invalidParam name s!"expected string, got {v.compact}")

def countParam (params : Dict) (name : String) : Except MeasurementError Nat :=
  match params.get? name with
  | none => .error (.missingParam name)
  | some v => match v.natBelow? (twoTo 64) with
    | some n => .ok n
    | none => .error (.invalidParam name s!"expected non-negative integer, got {v.compact}")

namespace Measurements

variable {ι : Type}

/-- A manager with some methods, of which a later one of a name counts. -/
def ofMethods (methods : List (String × Method ι)) : Measurements ι := ⟨Table.ofList methods, Table.empty, []⟩

def methodNames (m : Measurements ι) : List String := m.methods.keys.mergeSort (· ≤ ·)

/-- Call a method. Its summaries are not yet among the pending ones, since the call may take
time. -/
def call (m : Measurements ι) (now : Millis) (method identifier : String) (params : Dict) :
    Measurements ι × Nanos × CallOutcome :=
  match m.methods.get? method with
  | none => (m, 0, .error (.unknownMethod method))
  | some found =>
    let state := (m.instances.get? (method, identifier)).getD found.fresh
    let reply := found.call now params state
    ({ m with instances := m.instances.put (method, identifier) reply.state },
      reply.lasts, reply.outcome)

/-- The summaries of a call that has ended become pending. -/
def collect (m : Measurements ι) : CallOutcome → Measurements ι
  | .summaries list => { m with pending := m.pending ++ list }
  | .error _ => m
  | .crash _ => m

def take (m : Measurements ι) : List Summary × Measurements ι := (m.pending, { m with pending := [] })

def dispose (m : Measurements ι) : Measurements ι :=
  { m with instances := Table.empty, pending := [] }

def describe (m : Measurements ι) : String :=
  let names := ", ".intercalate (m.methodNames.map Text.quoted)
  s!"MeasurementManager \x7b methods: [{names}], instances: {m.instances.size} \x7d"

end Measurements

end ReplicaLoad
