-- Replica counts. What a run last asked the cluster for, by namespace and group
-- of replicas.
import ReplicaLoad.LoadTest.Basic
import ReplicaLoad.Table

namespace ReplicaLoad

structure Instances where
  /-- The target of the latest phase. -/
  desired : Nat
  /-- The count after the latest phase that has ended. -/
  current : Nat
  object : ObjectTemplate

/-- The counts of a group that no phase has touched. -/
def Instances.fresh (object : ObjectTemplate) : Instances := ⟨0, 0, object⟩

/-- A namespace and a group of replicas in it. -/
abbrev GroupKey := String × ReplicaGroup

abbrev InstanceStore := Table GroupKey Instances

/-- The groups of a namespace, in no meaningful order. -/
def InstanceStore.groups (s : InstanceStore) (ns : String) : List ReplicaGroup :=
  (s.keys.filter (·.1 = ns)).map (·.2)

end ReplicaLoad
