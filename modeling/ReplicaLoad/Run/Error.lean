-- Errors of a run. A run goes on after a failure and records it. Every error
-- tells what was tried and why it failed. Errors of the setup leave nothing for
-- a step to work on; errors of the bookkeeping come after the cluster has been
-- changed.
import ReplicaLoad.Cluster.Basic
import ReplicaLoad.Measurement.Basic
import ReplicaLoad.Pacing.Pacing
import ReplicaLoad.State.Versions
import ReplicaLoad.Template.Library

namespace ReplicaLoad

inductive Collaborator where
  | cluster
  | templates
  | scope
  deriving DecidableEq

def Collaborator.name : Collaborator → String
  | cluster => "cluster client"
  | templates => "template provider"
  | scope => "namespace prefix"

inductive RunError where
  | template (path : String) (source : TemplateError)
  | templateForDeletion (path : String) (source : TemplateError)
  | identifier (path : String) (source : TemplateError)
  | create (ns name : String) (source : ClusterError)
  | patch (ns name : String) (source : ClusterError)
  | delete (ns name : String) (source : ClusterError)
  | resourceVersion (ns name : String) (source : VersionError)
  | measurement (method identifier : String) (source : MeasurementError)
  | tuningSet (source : TuningSetError)
  | namespaceListing (source : ClusterError)
  | preexistingNamespaces (names : List String)
  | namespaceCreation (source : ClusterError)
  | summaryPrint (summary : String) (source : MeasurementError)
  | summaryWrite (path : String)
  /-- A unit of work that crashed. -/
  | task (unit reason : String)
  | missing (part : Collaborator)
  deriving DecidableEq

namespace RunError

/-- The error of a step one of whose units has crashed. -/
def crashedUnit (step : String) (index : Nat) (reason : String) : RunError :=
  .task s!"step {Text.quoted step} unit" s!"task {index} panicked with message {Text.quoted reason}"

def occasion : RunError → String
  | template path _ => s!"reading template ({path}) error: "
  | templateForDeletion path _ => s!"reading template ({path}) for deletion error: "
  | identifier path _ => s!"reading template ({path}) for identifier error: "
  | create ns name _ => s!"namespace {Text.quoted ns} object {name} creation error: "
  | patch ns name _ => s!"namespace {Text.quoted ns} object {name} updating error: "
  | delete ns name _ => s!"namespace {Text.quoted ns} object {name} deletion error: "
  | resourceVersion ns name _ =>
    s!"namespace {Text.quoted ns} object {name} resource version recording error: "
  | measurement method id _ => s!"measurement call {method} - {id} error: "
  | tuningSet _ => "tuning set creation error: "
  | namespaceListing _ => "automanaged namespaces listing failed: "
  | preexistingNamespaces _ => "pre-existing automanaged namespaces found: "
  | namespaceCreation _ => "automanaged namespaces creation failed: "
  | summaryPrint summary _ => s!"printing summary {summary} error: "
  | summaryWrite path => s!"writing to file {path} error: "
  | task unit _ => s!"{unit} task failed: "
  | missing _ => "execution context is missing its "

/-- Why it failed, up to the details of a template error. -/
def cause : RunError → String
  | template _ e => e.heading
  | templateForDeletion _ e => e.heading
  | identifier _ e => e.heading
  | create _ _ e => e.message
  | patch _ _ e => e.message
  | delete _ _ e => e.message
  | resourceVersion _ _ e => e.message
  | measurement _ _ e => e.message
  | tuningSet e => e.message
  | namespaceListing e => e.message
  | preexistingNamespaces names => ", ".intercalate names
  | namespaceCreation e => e.message
  | summaryPrint _ e => e.message
  | summaryWrite _ => ""
  | task _ reason => reason
  | missing part => part.name

def details : RunError → String
  | template _ e => e.details
  | templateForDeletion _ e => e.details
  | identifier _ e => e.details
  | summaryWrite _ => "the file cannot be written"
  | _ => ""

def message (e : RunError) : String := e.occasion ++ e.cause ++ e.details

/-- Whether an error leaves nothing for a step to work on. -/
def isSetup : RunError → Bool
  | namespaceListing _ => true
  | preexistingNamespaces _ => true
  | namespaceCreation _ => true
  | missing _ => true
  | _ => false

/-- Whether an error comes after the cluster has been changed. -/
def isBookkeeping : RunError → Bool
  | resourceVersion _ _ _ => true
  | _ => false

end RunError

end ReplicaLoad
