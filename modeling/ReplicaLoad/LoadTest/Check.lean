-- Checking a test. `LoadTest.check` accepts the tests that can run, and reports
-- the first defect of any other: the name, the tuning sets in order, then step
-- by step. `describe` sums up a test that passed.
import ReplicaLoad.LoadTest.Load
import ReplicaLoad.Text.Quoted

namespace ReplicaLoad

def Defect.message : Defect → String
  | .emptyName => "test name must not be empty"
  | .noLoad t => s!"tuning set {t} has no load configured"
  | .severalLoads t count => s!"tuning set {t} configures {count} loads, expected exactly one"
  | .loadOutOfRange t =>
    s!"tuning set {t}: rates, burst size and parallelism must be positive and in range"
  | .duplicateTuningSet t => s!"duplicate tuning set {t}"
  | .mixedStep step => s!"step {step} has both phases and measurements"
  | .emptyRange step min max => s!"step {step}: namespace range min {min} exceeds max {max}"
  | .unknownTuningSet step t => s!"step {step}: unknown tuning set {Text.quoted t}"
  | .incompleteObject step => s!"step {step}: object needs both basename and objectTemplatePath"
  | .missingMethod step => s!"step {step}: measurement without method"

inductive ConfigError where
  | unreadable
  | notYaml
  | invalid (defect : Defect)
  deriving DecidableEq

/-- The text of an invalid test inside other messages. -/
def Defect.report (d : Defect) : String := s!"Invalid test config: {d.message}"

/-- The tuning sets in order: each has one load, and a name of its own. -/
def checkTuningSets (seen : List String) : List TuningSet → Except Defect Unit
  | [] => .ok ()
  | t :: rest =>
    match t.load with
    | .error d => .error d
    | .ok _ =>
      if t.name ∈ seen then .error (.duplicateTuningSet t.name)
      else checkTuningSets (t.name :: seen) rest

/-- The objects of a bundle have a base name and a template. -/
def checkBundle (step : String) : List ObjectTemplate → Except Defect Unit
  | [] => .ok ()
  | o :: rest =>
    if o.basename = "" || o.path = "" then .error (.incompleteObject step)
    else checkBundle step rest

/-- A phase has a range with a namespace in it, a declared tuning set and complete objects. -/
def checkPhase (declared : List String) (step : String) (p : Phase) : Except Defect Unit :=
  match p.range with
  | some r =>
    if r.max < r.min then .error (.emptyRange step r.min.toNat r.max.toNat)
    else if p.tuningSet ∉ declared then .error (.unknownTuningSet step p.tuningSet)
    else checkBundle step p.bundle
  | none =>
    if p.tuningSet ∉ declared then .error (.unknownTuningSet step p.tuningSet)
    else checkBundle step p.bundle

def checkPhases (declared : List String) (step : String) : List Phase → Except Defect Unit
  | [] => .ok ()
  | p :: rest =>
    match checkPhase declared step p with
    | .error d => .error d
    | .ok () => checkPhases declared step rest

def checkMeasurements (step : String) : List MeasurementCall → Except Defect Unit
  | [] => .ok ()
  | m :: rest =>
    if m.method = "" then .error (.missingMethod step) else checkMeasurements step rest

/-- A step has phases or measurements, not both, and each of them passes. -/
def checkStep (declared : List String) (index : Nat) (s : Step) : Except Defect Unit :=
  let name := s.name.getD s!"#{index}"
  if !s.phases.isEmpty && !s.measurements.isEmpty then .error (.mixedStep name)
  else match checkPhases declared name s.phases with
    | .error d => .error d
    | .ok () => checkMeasurements name s.measurements

def checkSteps (declared : List String) (index : Nat) : List Step → Except Defect Unit
  | [] => .ok ()
  | s :: rest =>
    match checkStep declared index s with
    | .error d => .error d
    | .ok () => checkSteps declared (index + 1) rest

def LoadTest.check (t : LoadTest) : Except Defect Unit :=
  if Text.trim t.name = "" then .error .emptyName
  else match checkTuningSets [] t.tuningSets with
    | .error d => .error d
    | .ok () => checkSteps (t.tuningSets.map (·.name)) 0 t.steps

def LoadTest.describe (t : LoadTest) : String :=
  let phases := t.steps.foldl (fun n s => n + s.phases.length) 0
  let measurements := t.steps.foldl (fun n s => n + s.measurements.length) 0
  let names := ", ".intercalate (t.tuningSets.map (·.name))
  "\n".intercalate
    [s!"Test {t.name} is valid",
      s!"  Automanaged namespaces: {t.automanagedNamespaces}",
      s!"  Steps: {t.steps.length} ({phases} phases, {measurements} measurements)",
      s!"  Tuning sets: {names}"]

end ReplicaLoad
