-- Cluster objects. An object is a dictionary. Only its kind, its API version
-- and three metadata entries have a meaning here; everything else is passed
-- through.
import ReplicaLoad.Object.Identity
import ReplicaLoad.Value.Basic

namespace ReplicaLoad

structure Object where
  fields : Dict

namespace Object

/-- The object that a value is, if it is a dictionary. -/
def ofValue? : Value → Option Object
  | .dict entries => some ⟨entries⟩
  | _ => none

def toValue (o : Object) : Value := .dict o.fields

def topText (o : Object) (key : String) : String :=
  ((o.fields.get? key).bind Value.text?).getD ""

def kind (o : Object) : String := o.topText "kind"

def apiVersion (o : Object) : String := o.topText "apiVersion"

def groupVersionKind (o : Object) : GroupVersionKind := .ofApiVersion o.apiVersion o.kind

def resourceType (o : Object) : ResourceType := ⟨o.kind, o.groupVersionKind.group⟩

def metadata? (o : Object) (key : String) : Option String :=
  ((o.fields.get? "metadata").bind (·.field? key)).bind Value.text?

def name? (o : Object) : Option String := o.metadata? "name"

def namespace? (o : Object) : Option String := o.metadata? "namespace"

def resourceVersion? (o : Object) : Option String := o.metadata? "resourceVersion"

/-- Set a metadata entry. Metadata that is absent or no dictionary is replaced by a new
dictionary. -/
def setMetadata (o : Object) (key : String) (value : Value) : Object :=
  let metadata := ((o.fields.get? "metadata").bind Value.dict?).getD []
  ⟨o.fields.insert "metadata" (.dict (metadata.insert key value))⟩

def setName (o : Object) (name : String) : Object := o.setMetadata "name" (.text name)

def setNamespace (o : Object) (ns : String) : Object := o.setMetadata "namespace" (.text ns)

def setResourceVersion (o : Object) (version : String) : Object :=
  o.setMetadata "resourceVersion" (.text version)

end Object

end ReplicaLoad
