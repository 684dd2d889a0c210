-- The names of replicas. An indexed name can be taken apart again, so that no
-- two replicas of a run share a key of the cluster: neither replicas of one
-- group with different indices, nor replicas of different groups.
import ReplicaLoad.Run.Namespaces
import ReplicaLoad.State.Instances
import ReplicaLoad.Cluster.Basic
import Mathlib.Data.List.Nodup

namespace ReplicaLoad

/-! ## Indexed names -/

/-- What stands before the last separator of a text, and what stands after it, can be read off. -/
theorem last_separator_unique {sep : Char} {xs ys ds es : List Char}
    (h : xs ++ sep :: ds = ys ++ sep :: es) (hd : sep ∉ ds) (he : sep ∉ es) :
    xs = ys ∧ ds = es := by
  rcases List.append_eq_append_iff.mp h with ⟨zs, hy, hz⟩ | ⟨zs, hx, hz⟩
  · rcases zs with _ | ⟨z, zs⟩
    · simp_all
    · -- the second separator would stand in what comes after the first one
      simp only [List.cons_append, List.cons.injEq] at hz
      exact absurd (by simp [hz.2] : sep ∈ ds) hd
  · rcases zs with _ | ⟨z, zs⟩
    · simp_all
    · simp only [List.cons_append, List.cons.injEq] at hz
      exact absurd (by simp [hz.2] : sep ∈ es) he

theorem dash_notMem_toDigits (n : Nat) : '-' ∉ Nat.toDigits 10 n := by
  intro h
  have := Nat.isDigit_of_mem_toDigits (by decide) (by decide) h
  simp at this

theorem toList_indexedName (base : String) (i : Nat) :
    (indexedName base i).toList = base.toList ++ '-' :: Nat.toDigits 10 i := by
  simp [indexedName]

/-- The base name and the index can be read off an indexed name. -/
theorem indexedName_inj {b b' : String} {i i' : Nat} (h : indexedName b i = indexedName b' i') :
    b = b' ∧ i = i' := by
  have hl := congrArg String.toList h
  rw [toList_indexedName, toList_indexedName] at hl
  obtain ⟨hb, hd⟩ := last_separator_unique hl (dash_notMem_toDigits i) (dash_notMem_toDigits i')
  refine ⟨String.toList_inj.mp hb, ?_⟩
  have := congrArg (Nat.ofDigitChars 10 · 0) hd
  simpa using this

/-- The namespaces of a range are different from each other. -/
theorem namespaceList_nodup (scope : String) (r : Option NamespaceRange) :
    (namespaceList scope r).Nodup := by
  cases r with
  | none => exact List.nodup_singleton _
  | some r =>
    unfold namespaceList
    exact List.Nodup.map (fun _ _ h => (indexedName_inj h).2) List.nodup_range'

/-! ## Keys of replicas -/

/-- Where the cluster keeps the replica of a group with an index. -/
def replicaKey (key : GroupKey) (i : Nat) : ObjectKey :=
  ⟨key.1, key.2.apiGroup, key.2.kind, indexedName key.2.basename i⟩

/-- Different replicas have different keys. -/
theorem replicaKey_inj {key key' : GroupKey} {i i' : Nat}
    (h : replicaKey key i = replicaKey key' i') : key = key' ∧ i = i' := by
  obtain ⟨ns, b, k, g⟩ := key
  obtain ⟨ns', b', k', g'⟩ := key'
  simp only [replicaKey, ObjectKey.mk.injEq] at h
  obtain ⟨rfl, rfl, rfl, hn⟩ := h
  obtain ⟨rfl, rfl⟩ := indexedName_inj hn
  exact ⟨rfl, rfl⟩

end ReplicaLoad
