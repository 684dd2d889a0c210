-- Automanaged namespaces. The namespaces of a run are those whose name is the
-- scope of the run, a dash and digits. They are created before the first step
-- and deleted, with the objects in them, after the last one.
import ReplicaLoad.Cluster.Basic

namespace ReplicaLoad

/-- What is left of a text after a beginning. -/
def dropLead? : List Char → List Char → Option (List Char)
  | [], cs => some cs
  | _ :: _, [] => none
  | l :: lead, c :: cs => if l = c then dropLead? lead cs else none

/-- Whether a namespace belongs to a scope. -/
def automanaged (scope ns : String) : Bool :=
  match dropLead? (scope.toList ++ ['-']) ns.toList with
  | some index => !index.isEmpty && index.all Char.isDigit
  | none => false

namespace Cluster

def checkCall (c : Cluster) (call : NamespaceCall) : Except ClusterError Unit :=
  if call ∈ c.failingCalls then
    .error (.unavailable s!"injected failure for namespace {call.name}")
  else .ok ()

/-- The registered namespaces of a scope in ascending order. -/
def ofScope (c : Cluster) (scope : String) : List String :=
  c.namespaceNames.filter (automanaged scope)

def listNamespaces (c : Cluster) (scope : String) : Except ClusterError (List String) :=
  match c.checkCall .list with
  | .error e => .error e
  | .ok () => .ok (c.ofScope scope)

/-- Register names one after another, up to the first one that is taken. -/
def registerAll (c : Cluster) : List String → Except ClusterError Unit × Cluster
  | [] => (.ok (), c)
  | name :: rest =>
    match c.namespaces.get? name with
    | some () => (.error (.alreadyExists "Namespace" "" name), c)
    | none => registerAll (c.addNamespace name) rest

/-- Create the namespaces of a scope with the indices from 1 to a count. -/
def createNamespaces (c : Cluster) (scope : String) (count : Nat) :
    Except ClusterError Unit × Cluster :=
  match c.checkCall .create with
  | .error e => (.error e, c)
  | .ok () => c.registerAll ((List.range' 1 count).map (indexedName scope))

/-- Delete the namespaces of a scope and every object in them. -/
def deleteNamespaces (c : Cluster) (scope : String) : Except ClusterError Unit × Cluster :=
  match c.checkCall .delete with
  | .error e => (.error e, c)
  | .ok () =>
    let doomed := c.ofScope scope
    (.ok (), { c with
      namespaces := c.namespaces.keep fun ns => !doomed.contains ns
      objects := c.objects.keep fun k => !doomed.contains k.ns })

end Cluster

end ReplicaLoad
