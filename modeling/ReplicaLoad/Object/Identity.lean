-- Names and identities. How replicas and namespaces are named, and how a kind
-- of object is identified: by the group and version that its API version text
-- holds, and by its kind.

namespace ReplicaLoad

/-- The name of the replica, or of the namespace, with an index under a base name. -/
def indexedName (base : String) (index : Nat) : String := base ++ "-" ++ toString index

/-- Split a text at the first occurrence of a character. -/
def splitAtFirst (c : Char) (s : String) : Option (String × String) :=
  match s.toList.span (· ≠ c) with
  | (_, []) => none
  | (before, _ :: after) => some (String.ofList before, String.ofList after)

/-- Group, version and kind of an object. The core group is the empty one. -/
structure GroupVersionKind where
  group : String
  version : String
  kind : String
  deriving DecidableEq, Inhabited

namespace GroupVersionKind

/-- The group stands before the first slash of an API version; without a slash it is the core
group. -/
def ofApiVersion (apiVersion kind : String) : GroupVersionKind :=
  match splitAtFirst '/' apiVersion with
  | some (group, version) => ⟨group, version, kind⟩
  | none => ⟨"", apiVersion, kind⟩

def apiVersion (g : GroupVersionKind) : String :=
  if g.group = "" then g.version else g.group ++ "/" ++ g.version

def display (g : GroupVersionKind) : String := s!"{g.apiVersion}, Kind={g.kind}"

end GroupVersionKind

/-- A kind of an API group, which shares one sequence of resource versions. -/
structure ResourceType where
  kind : String
  apiGroup : String
  deriving DecidableEq, Inhabited

def ResourceType.display (r : ResourceType) : String :=
  if r.apiGroup = "" then r.kind else s!"{r.kind}.{r.apiGroup}"

/-- The identity of one group of replicas in a namespace: its base name, and the kind and API
group that its template turns out to have. -/
structure ReplicaGroup where
  basename : String
  kind : String
  apiGroup : String
  deriving DecidableEq, Inhabited

def ReplicaGroup.display (g : ReplicaGroup) : String :=
  if g.apiGroup = "" then s!"{g.kind}/{g.basename}" else s!"{g.kind}.{g.apiGroup}/{g.basename}"

end ReplicaLoad
