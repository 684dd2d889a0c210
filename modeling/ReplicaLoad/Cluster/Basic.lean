-- The simulated cluster. Objects by namespace, group, kind and name, and the
-- registered namespaces. Every write stamps the object with the next resource
-- version, and every call for an object is entered in a journal, whether it
-- succeeds or not. Calls can be told to fail.
import ReplicaLoad.Object.Basic
import ReplicaLoad.Table
import ReplicaLoad.Text.Quoted

namespace ReplicaLoad

inductive Operation where
  | create
  | patch
  | delete
  deriving DecidableEq, Inhabited

def Operation.name : Operation → String
  | .create => "create"
  | .patch => "patch"
  | .delete => "delete"

structure ObjectKey where
  ns : String
  group : String
  kind : String
  name : String
  deriving DecidableEq

structure JournalEntry where
  operation : Operation
  ns : String
  kind : String
  name : String
  succeeded : Bool
  deriving DecidableEq

inductive NamespaceCall where
  | list
  | create
  | delete
  deriving DecidableEq

def NamespaceCall.name : NamespaceCall → String
  | .list => "list"
  | .create => "create"
  | .delete => "delete"

inductive ClusterError where
  | alreadyExists (kind ns name : String)
  | notFound (kind ns name : String)
  | rejected (reason : String)
  | unavailable (reason : String)
  deriving DecidableEq

def ClusterError.message : ClusterError → String
  | .alreadyExists kind ns name =>
    s!"{kind} {Text.quoted name} already exists in namespace {Text.quoted ns}"
  | .notFound kind ns name => s!"{kind} {Text.quoted name} not found in namespace {Text.quoted ns}"
  | .rejected reason => s!"request rejected: {reason}"
  | .unavailable reason => s!"cluster unavailable: {reason}"

structure Cluster where
  objects : Table ObjectKey Object := Table.empty
  namespaces : Table String Unit := Table.empty
  /-- The version of the latest write. -/
  version : UInt64 := 0
  /-- Names of objects for which every call fails. -/
  failingNames : List String := []
  /-- Namespace calls that fail. -/
  failingCalls : List NamespaceCall := []
  /-- The calls for objects, the earliest first. -/
  journal : List JournalEntry := []

namespace Cluster

def key (ns : String) (gvk : GroupVersionKind) (name : String) : ObjectKey :=
  ⟨ns, gvk.group, gvk.kind, name⟩

def injectFailure (c : Cluster) (name : String) : Cluster :=
  { c with failingNames := name :: c.failingNames }

def injectNamespaceFailure (c : Cluster) (call : NamespaceCall) : Cluster :=
  { c with failingCalls := call :: c.failingCalls }

def addNamespace (c : Cluster) (ns : String) : Cluster :=
  { c with namespaces := c.namespaces.put ns () }

def namespaceNames (c : Cluster) : List String := c.namespaces.keys.mergeSort (· ≤ ·)

def object? (c : Cluster) (ns : String) (gvk : GroupVersionKind) (name : String) : Option Object :=
  c.objects.get? (key ns gvk name)

/-- The names of the objects of a kind in a namespace, in ascending order. -/
def objectNames (c : Cluster) (ns kind : String) : List String :=
  ((c.objects.keys.filter fun k => k.ns = ns && k.kind = kind).map (·.name)).mergeSort (· ≤ ·)

/-- An object as a write stores it: with its name, its namespace unless it belongs to the cluster
scope, and the version of the write. -/
def stamp (version : UInt64) (ns name : String) (o : Object) : Object :=
  let named := o.setName name
  let placed := if ns = "" then named else named.setNamespace ns
  placed.setResourceVersion (toString version)

def enter (c : Cluster) (operation : Operation) (ns kind name : String) (succeeded : Bool) :
    Cluster :=
  { c with journal := c.journal ++ [⟨operation, ns, kind, name, succeeded⟩] }

/-- Store an object under its key, with the next version. -/
def write (c : Cluster) (ns name : String) (o : Object) : Object × Cluster :=
  let version := c.version + 1
  let stored := stamp version ns name o
  (stored, { c with
    version
    objects := c.objects.put (key ns o.groupVersionKind name) stored })

/-- The error of a call for a name that was told to fail. -/
def injected (name : String) : ClusterError := .rejected s!"injected failure for {name}"

def create (c : Cluster) (ns name : String) (o : Object) : Except ClusterError Object × Cluster :=
  let kind := o.kind
  let fail (e : ClusterError) := (.error e, c.enter .create ns kind name false)
  -- a name that was told to fail fails whether the object is there or not
  if name ∈ c.failingNames then fail (injected name)
  else match c.object? ns o.groupVersionKind name with
    | some _ => fail (.alreadyExists kind ns name)
    | none =>
      let (stored, c) := c.write ns name o
      (.ok stored, c.enter .create ns kind name true)

def patch (c : Cluster) (ns name : String) (o : Object) : Except ClusterError Object × Cluster :=
  let kind := o.kind
  let fail (e : ClusterError) := (.error e, c.enter .patch ns kind name false)
  if name ∈ c.failingNames then fail (injected name)
  else match c.object? ns o.groupVersionKind name with
    | none => fail (.notFound kind ns name)
    | some _ =>
      let (stored, c) := c.write ns name o
      (.ok stored, c.enter .patch ns kind name true)

def delete (c : Cluster) (gvk : GroupVersionKind) (ns name : String) :
    Except ClusterError Unit × Cluster :=
  let fail (e : ClusterError) := (.error e, c.enter .delete ns gvk.kind name false)
  if name ∈ c.failingNames then fail (injected name)
  else match c.object? ns gvk name with
    | none => fail (.notFound gvk.kind ns name)
    | some _ =>
      (.ok (), { c with objects := c.objects.erase (key ns gvk name) }.enter .delete ns gvk.kind name true)

end Cluster

end ReplicaLoad
