-- Actions. An action brings one replica index of a namespace to its target.
-- `planNamespace` makes the actions that take a bundle from its current counts
-- to a target: the indices from the target up to the greatest count are
-- deleted, and those below the target are created where they are missing.
-- Objects that are at the target already are patched at every index below it.
import ReplicaLoad.Cluster.Basic
import ReplicaLoad.LoadTest.Basic

namespace ReplicaLoad

/-- Whether an action removes replicas or brings them up to date. -/
inductive ActionKind where
  /-- Every operation is tried, also after one that failed. -/
  | delete
  /-- The first operation that fails ends the action. -/
  | apply
  deriving DecidableEq

structure ObjectOperation where
  object : ObjectTemplate
  operation : Operation
  deriving Inhabited

/-- The operations on one replica index of a namespace, in the order in which they are done. -/
structure Action where
  ns : String
  index : Nat
  kind : ActionKind
  operations : List ObjectOperation

def Action.basenames (a : Action) : List String := a.operations.map fun op => op.object.basename

/-- The natural numbers from one up to another one, which is left out. -/
def between (low high : Nat) : List Nat := List.range' low (high - low)

/-- The greatest current count of a bundle. -/
def greatestCount (bundle : List (ObjectTemplate × Nat)) : Nat :=
  bundle.foldl (fun n e => max n e.2) 0

/-- The index from which on a bundle is applied: the least current count, or zero when an object
is at the target already. -/
def firstApplied (bundle : List (ObjectTemplate × Nat)) (target : Nat) : Nat :=
  if bundle.any fun e => e.2 = target then 0 else ((bundle.map (·.2)).min?).getD 0

/-- The objects to delete at an index, in the reverse order of the bundle. -/
def deletions (bundle : List (ObjectTemplate × Nat)) (index : Nat) : List ObjectOperation :=
  bundle.reverse.filterMap fun (o, current) => if index < current then some ⟨o, .delete⟩ else none

/-- What is done to an object at an index below the target. -/
def application (target index : Nat) : ObjectTemplate × Nat → Option ObjectOperation
  | (o, current) =>
    if current = target then some ⟨o, .patch⟩
    else if current ≤ index then some ⟨o, .create⟩
    else none

/-- The objects to create or patch at an index, in the order of the bundle. -/
def applications (bundle : List (ObjectTemplate × Nat)) (target index : Nat) :
    List ObjectOperation :=
  bundle.filterMap (application target index)

/-- The actions that bring a bundle with current counts to a target. -/
def planNamespace (ns : String) (bundle : List (ObjectTemplate × Nat)) (target : Nat) :
    List Action :=
  if bundle.isEmpty then []
  else
    -- what goes comes before what stays
    (between target (greatestCount bundle)).map (fun i => ⟨ns, i, .delete, deletions bundle i⟩)
    ++ (between (firstApplied bundle target) target).map
        (fun i => ⟨ns, i, .apply, applications bundle target i⟩)

end ReplicaLoad
