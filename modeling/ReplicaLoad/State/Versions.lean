-- Resource versions. The last version seen of each type of resource. A version
-- is a text that holds a number of 64 bits: an optional plus sign and decimal
-- digits.
import ReplicaLoad.Object.Identity
import ReplicaLoad.Table
import ReplicaLoad.Text.Digits
import ReplicaLoad.Text.Quoted

namespace ReplicaLoad

structure VersionError where
  resource : ResourceType
  version : String
  reason : String
  deriving DecidableEq

def VersionError.message (e : VersionError) : String :=
  s!"invalid resource version {Text.quoted e.version} for {e.resource.display}: {e.reason}"

/-- The last version of each type of resource. -/
abbrev VersionStore := Table ResourceType Nat

/-- Record a version. A text that is none changes nothing. -/
def VersionStore.record (s : VersionStore) (resource : ResourceType) (version : String) :
    Except VersionError VersionStore :=
  match Text.readWord version with
  | .ok n => .ok (s.put resource n)
  | .error fault => .error ⟨resource, version, fault.message⟩

end ReplicaLoad
