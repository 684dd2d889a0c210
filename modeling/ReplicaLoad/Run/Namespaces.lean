-- The namespaces of a run. Every run has a scope, a name that begins the names
-- of its own namespaces.
import ReplicaLoad.LoadTest.Basic
import ReplicaLoad.Pacing.Draw

namespace ReplicaLoad

def scopeAlphabet : List Char := "abcdefghijklmnopqrstuvwxyz0123456789".toList

/-- A random scope: six letters or digits after a fixed beginning. -/
def randomScope (draws : Draws) : String :=
  "test-" ++ String.ofList ((List.range 6).map fun i =>
    scopeAlphabet.getD (draws.below i scopeAlphabet.length) 'a')

/-- The namespaces of a range. Without a range there is one, the cluster scope, which has no name.
A range without a base name takes the scope of the run. -/
def namespaceList (scope : String) : Option NamespaceRange → List String
  | none => [""]
  | some r =>
    let base := r.basename.getD scope
    (List.range' r.min.toNat (r.max.toNat + 1 - r.min.toNat)).map (indexedName base)

end ReplicaLoad
