-- Replica addresses. A replica is addressed by the base name and the index of
-- its namespace, by its type, and by its own base name and index. The cluster
-- knows it by two texts, each a base name, a dash and an index. Base names may
-- hold dashes and digits themselves, so that different base names with an index
-- can look alike; they are never the same, and no two addresses share a key of
-- the cluster.
import ReplicaLoad.Proofs.ReplicaNames

namespace ReplicaLoad

/-! ## Names -/

theorem indexedName_ne_empty (base : String) (i : Nat) : indexedName base i ≠ "" := by
  intro h
  have hl := congrArg String.toList h
  rw [toList_indexedName] at hl
  simp at hl

theorem indexedName_eq_iff {b b' : String} {i i' : UInt32} :
    indexedName b i.toNat = indexedName b' i'.toNat ↔ b = b' ∧ i = i' := by
  constructor
  · intro h
    obtain ⟨hb, hi⟩ := indexedName_inj h
    exact ⟨hb, UInt32.toNat_inj.mp hi⟩
  · rintro ⟨rfl, rfl⟩
    rfl

/-! ## The namespaces of a range -/

namespace NamespaceRange

/-- Names under a base name that stand for a range: one for each index from the first to the last,
in this order, all different and none of them empty. -/
structure NamedBy (r : NamespaceRange) (base : String) (names : List String) : Prop where
  length : names.length = if r.min ≤ r.max then r.max.toNat - r.min.toNat + 1 else 0
  ordered : ∀ (k : Nat) (h : k < names.length), ∃ i : UInt32,
    i.toNat = r.min.toNat + k ∧ i ≤ r.max ∧ names[k] = indexedName base i.toNat
  distinct : names.Nodup
  nonempty : "" ∉ names

variable (r : NamespaceRange) (scope : String)

theorem length_namespaceList :
    (namespaceList scope (some r)).length = r.max.toNat + 1 - r.min.toNat := by
  simp [namespaceList]

theorem getElem_namespaceList {k : Nat} (h : k < (namespaceList scope (some r)).length) :
    (namespaceList scope (some r))[k] =
      indexedName (r.basename.getD scope) (r.min.toNat + k) := by
  simp [namespaceList]

theorem namedBy_namespaceList :
    r.NamedBy (r.basename.getD scope) (namespaceList scope (some r)) where
  length := by
    rw [length_namespaceList]
    -- the order of the bounds decides whether the subtraction is cut off
    by_cases h : r.min ≤ r.max
    · have := UInt32.le_iff_toNat_le.mp h
      rw [if_pos h]
      omega
    · have := UInt32.not_le.mp h
      have := UInt32.lt_iff_toNat_lt.mp this
      rw [if_neg h]
      omega
  ordered := by
    intro k h
    have hk := h
    rw [length_namespaceList] at hk
    -- the index stays below the greatest one, also where that is the greatest number of all
    have hlt : r.min.toNat + k < UInt32.size := by
      have := r.max.toNat_lt_size
      omega
    have hi : (UInt32.ofNat (r.min.toNat + k)).toNat = r.min.toNat + k :=
      UInt32.toNat_ofNat_of_lt' hlt
    refine ⟨UInt32.ofNat (r.min.toNat + k), hi, UInt32.le_iff_toNat_le.mpr (by omega), ?_⟩
    rw [getElem_namespaceList, hi]
  distinct := namespaceList_nodup scope (some r)
  nonempty := by
    intro h
    obtain ⟨i, -, hi⟩ := List.mem_map.mp h
    exact indexedName_ne_empty _ _ hi

end NamespaceRange

/-! ## Addresses -/

structure ReplicaAddress where
  nsBase : String
  nsIndex : UInt32
  kind : String
  group : String
  basename : String
  index : UInt32
  deriving DecidableEq

namespace ReplicaAddress

/-- The key under which the cluster keeps what is written to an address, in any version of the API
group. -/
def key (a : ReplicaAddress) (version : String) : ObjectKey :=
  Cluster.key (indexedName a.nsBase a.nsIndex.toNat) ⟨a.group, version, a.kind⟩
    (indexedName a.basename a.index.toNat)

/-- The group of replicas that an address belongs to. -/
def groupKey (a : ReplicaAddress) : GroupKey :=
  (indexedName a.nsBase a.nsIndex.toNat, ⟨a.basename, a.kind, a.group⟩)

theorem key_eq_replicaKey (a : ReplicaAddress) (version : String) :
    a.key version = replicaKey a.groupKey a.index.toNat := rfl

theorem key_eq_iff {a a' : ReplicaAddress} {version version' : String} :
    a.key version = a'.key version' ↔ a = a' := by
  constructor
  · intro h
    rw [key_eq_replicaKey, key_eq_replicaKey] at h
    obtain ⟨hgroup, hindex⟩ := replicaKey_inj h
    obtain ⟨nsBase, nsIndex, kind, group, basename, index⟩ := a
    obtain ⟨nsBase', nsIndex', kind', group', basename', index'⟩ := a'
    simp only [groupKey, Prod.mk.injEq, ReplicaGroup.mk.injEq] at hgroup
    obtain ⟨hns, rfl, rfl, rfl⟩ := hgroup
    obtain ⟨rfl, rfl⟩ := indexedName_eq_iff.mp hns
    obtain rfl : index = index' := UInt32.toNat_inj.mp hindex
    rfl
  · rintro rfl
    rfl

end ReplicaAddress

/-- The base name and the index of a replica can be told from its name, and those of a namespace
from the name of the namespace. So a range names each of its namespaces once, in the order of their
indices, up to the greatest index that there is, and the cluster keeps replicas with different
addresses under different keys. -/
theorem addresses_unique :
    (∀ (o o' : ObjectTemplate) (i i' : UInt32),
      o.objectName i.toNat = o'.objectName i'.toNat ↔ o.basename = o'.basename ∧ i = i') ∧
    (∀ (base base' : String) (i i' : UInt32),
      indexedName base i.toNat = indexedName base' i'.toNat ↔ base = base' ∧ i = i') ∧
    (∀ (scope : String) (r : NamespaceRange),
      r.NamedBy (r.basename.getD scope) (namespaceList scope (some r))) ∧
    ∀ (a a' : ReplicaAddress) (version version' : String),
      a.key version = a'.key version' ↔ a = a' :=
  ⟨fun _ _ _ _ => indexedName_eq_iff, fun _ _ _ _ => indexedName_eq_iff,
    fun scope r => r.namedBy_namespaceList scope, fun _ _ _ _ => ReplicaAddress.key_eq_iff⟩

end ReplicaLoad
