-- The environment of a run. What stays the same while a test runs
-- (`Environment`) and what the test changes (`World`). A test double of the
-- cluster can crash for some names, and can return other objects than it has
-- stored.
import ReplicaLoad.Measurement.Builtin
import ReplicaLoad.Run.Error
import ReplicaLoad.Settings.Basic
import ReplicaLoad.State.Instances

namespace ReplicaLoad

/-- How a run reaches the cluster. -/
structure Client where
  /-- The milliseconds that a call for an object waits first. -/
  latency : Millis := 0
  /-- With what text a call for a name crashes, before anything else. -/
  crash? : String → Option String := fun _ => none
  /-- The object that a call returns for the one that it has stored. -/
  returned : Object → Object := id

/-- What stays the same while a test runs. -/
structure Environment where
  client : Client := {}
  templates : TemplateSource
  tuningSets : TuningSets := .ofList []
  /-- The beginning of the names of the namespaces of the run. -/
  scope : String
  settings : Settings := {}
  draws : Draws := .ofSeed 0

/-- What a test changes. -/
structure World where
  cluster : Cluster := {}
  instances : InstanceStore := Table.empty
  versions : VersionStore := Table.empty
  measurements : Measurements BuiltinState := .ofMethods builtinMethods

/-- The parts that an environment is put together from, some of which can be missing. -/
structure EnvironmentParts where
  cluster : Option Cluster := none
  templates : Option TemplateSource := none
  measurements : Option (Measurements BuiltinState) := none
  tuningSets : TuningSets := .ofList []
  scope : Option String := none
  settings : Settings := {}

/-- Put parts together. The first one that a run cannot do without and that is missing is
reported. -/
def EnvironmentParts.assemble (p : EnvironmentParts) : Except RunError (Environment × World) :=
  match p.cluster, p.templates, p.scope with
  | none, _, _ => .error (.missing .cluster)
  | _, none, _ => .error (.missing .templates)
  | _, _, none => .error (.missing .scope)
  | some cluster, some templates, some scope =>
    .ok ({ templates, scope, tuningSets := p.tuningSets, settings := p.settings },
      { cluster, measurements := p.measurements.getD (.ofMethods builtinMethods) })

def Environment.describe (e : Environment) : String :=
  let names := ", ".intercalate (e.tuningSets.names.map Text.quoted)
  s!"ExecutionContext \x7b namespace_prefix: {Text.quoted e.scope}, tuning_sets: [{names}], " ++
    s!"config: {e.settings.describe}, .. \x7d"

/-! ## One operation -/

inductive Request where
  | create (o : Object)
  | patch (o : Object)
  | delete (gvk : GroupVersionKind)

/-- The values with which the template of a replica is rendered: those of the bundle, the name of the
replica and its index. -/
def ObjectTemplate.values (o : ObjectTemplate) (index : Nat) : Dict :=
  Dict.insert "Index" (.int index)
    (Dict.insert "Name" (.text (o.objectName index)) (o.fillMap.getD []))

namespace Environment

def object (env : Environment) (path : String) (values : Dict) : Except TemplateError Object :=
  match env.templates path with
  | .error e => .error e
  | .ok source => Object.ofTemplate values source

def bareObject (env : Environment) (path : String) : Except TemplateError Object :=
  match env.templates path with
  | .error e => .error e
  | .ok source => Object.ofBareTemplate source

/-- Make the request of an operation. Nothing has reached the cluster when that fails. -/
def request (env : Environment) (o : ObjectTemplate) (index : Nat) :
    Operation → Except RunError Request
  -- the kind is all that a delete needs, so that nothing is rendered for it
  | .delete => match env.bareObject o.path with
    | .ok found => .ok (.delete found.groupVersionKind)
    | .error e => .error (.templateForDeletion o.path e)
  | .create => match env.object o.path (o.values index) with
    | .ok made => .ok (.create made)
    | .error e => .error (.template o.path e)
  | .patch => match env.object o.path (o.values index) with
    | .ok made => .ok (.patch made)
    | .error e => .error (.template o.path e)

/-- The group of replicas that a template of a bundle belongs to. -/
def identify (env : Environment) (o : ObjectTemplate) : Except RunError ReplicaGroup :=
  match env.bareObject o.path with
  | .ok found => .ok ⟨o.basename, found.kind, found.groupVersionKind.group⟩
  | .error e => .error (.identifier o.path e)

end Environment

namespace World

/-- Record the version of an object that a call has returned. -/
def record (w : World) (ns name : String) (returned : Object) : Option RunError × World :=
  match w.versions.record returned.resourceType (returned.resourceVersion?.getD "") with
  | .ok versions => (none, { w with versions })
  | .error e => (some (.resourceVersion ns name e), w)

/-- Send a request to the cluster and record the version of what it returns. -/
def send (w : World) (client : Client) (ns name : String) : Request → Option RunError × World
  | .create o => match w.cluster.create ns name o with
    | (.ok stored, cluster) => { w with cluster }.record ns name (client.returned stored)
    | (.error e, cluster) => (some (.create ns name e), { w with cluster })
  | .patch o => match w.cluster.patch ns name o with
    | (.ok stored, cluster) => { w with cluster }.record ns name (client.returned stored)
    | (.error e, cluster) => (some (.patch ns name e), { w with cluster })
  | .delete gvk => match w.cluster.delete gvk ns name with
    | (.ok (), cluster) => (none, { w with cluster })
    | (.error e, cluster) => (some (.delete ns name e), { w with cluster })

/-- Do one operation on a replica, from its template to the record of its version. It takes the
latency of the client when the request can be made. -/
def operate (w : World) (env : Environment) (o : ObjectTemplate) (op : Operation) (ns : String)
    (index : Nat) : Option RunError × World × Millis :=
  match env.request o index op with
  | .error e => (some e, w, 0)
  | .ok r =>
    let (e, w) := w.send env.client ns (o.objectName index) r
    (e, w, env.client.latency)

end World

end ReplicaLoad
