-- Scopes beside each other. Runs in different scopes share a cluster. No name
-- belongs to two scopes, also where one scope begins with the other or ends in
-- a dash and digits, since what stands before the last dash of a name is its
-- scope. So a run that creates, lists and deletes the namespaces of its scope
-- never meets a namespace of another one, or an object in it.
import ReplicaLoad.Proofs.ScopeNamespaces

namespace ReplicaLoad

/-! ## Names -/

/-- A name of a scope: the scope, a dash and digits. -/
def NameOf (scope ns : String) : Prop :=
  ∃ index : List Char, index ≠ [] ∧ (∀ c ∈ index, c.isDigit = true) ∧
    ns.toList = scope.toList ++ '-' :: index

theorem dash_notMem_digits {index : List Char} (h : ∀ c ∈ index, c.isDigit = true) :
    '-' ∉ index := by
  intro hdash
  have := h '-' hdash
  simp at this

/-- The scope can be read off a name. -/
theorem NameOf.unique {scope other ns : String} (h : NameOf scope ns) (h' : NameOf other ns) :
    scope = other := by
  obtain ⟨index, -, hdigits, hns⟩ := h
  obtain ⟨index', -, hdigits', hns'⟩ := h'
  have hsame := last_separator_unique (hns.symm.trans hns') (dash_notMem_digits hdigits)
    (dash_notMem_digits hdigits')
  exact String.toList_inj.mp hsame.1

/-- The names that are recognised as those of a scope are its names. -/
theorem automanaged_iff_nameOf {scope ns : String} :
    automanaged scope ns = true ↔ NameOf scope ns := automanaged_iff

theorem nameOf_of_mem_scopeNamespaces {scope ns : String} {count : Nat}
    (h : ns ∈ scopeNamespaces scope count) : NameOf scope ns :=
  automanaged_iff_nameOf.mp (automanaged_of_mem_scopeNamespaces h)

/-! ## What a scope holds -/

namespace Cluster

variable {c c' : Cluster} {scope other : String}

theorem mem_ofScope_iff {ns : String} :
    ns ∈ c.ofScope scope ↔ c.namespaces.get? ns ≠ none ∧ NameOf scope ns := by
  rw [mem_ofScope, automanaged_iff_nameOf]

/-- Two clusters are the same as far as a scope is concerned: in its namespaces, in the objects in
them, and in the answer to a list. -/
structure SameIn (c c' : Cluster) (scope : String) : Prop where
  namespaces : ∀ ns, NameOf scope ns → c'.namespaces.get? ns = c.namespaces.get? ns
  objects : ∀ k, NameOf scope k.ns → c'.objects.get? k = c.objects.get? k
  listed : c'.listNamespaces scope = c.listNamespaces scope

/-- The names that are listed for a scope are those of the scope that are registered. -/
theorem ofScope_congr
    (h : ∀ ns, NameOf scope ns → c'.namespaces.get? ns = c.namespaces.get? ns) :
    c'.ofScope scope = c.ofScope scope := by
  have hmem : ∀ ns, ns ∈ c'.ofScope scope ↔ ns ∈ c.ofScope scope := by
    intro ns
    rw [mem_ofScope_iff, mem_ofScope_iff]
    constructor
    · rintro ⟨hreg, hns⟩
      exact ⟨h ns hns ▸ hreg, hns⟩
    · rintro ⟨hreg, hns⟩
      exact ⟨(h ns hns).symm ▸ hreg, hns⟩
  -- the same members in ascending order are the same list
  have hperm := (List.perm_ext_iff_of_nodup (c'.nodup_ofScope scope) (c.nodup_ofScope scope)).mpr
    hmem
  refine List.Perm.eq_of_pairwise (fun a b _ _ hab hba => ?_) (c'.pairwise_ofScope scope)
    (c.pairwise_ofScope scope) hperm
  exact absurd hba (String.lt_asymm hab)

theorem sameIn_of_namespaces {namespaces : Table String Unit} {objects : Table ObjectKey Object}
    (hn : ∀ ns, NameOf scope ns → namespaces.get? ns = c.namespaces.get? ns)
    (ho : ∀ k, NameOf scope k.ns → objects.get? k = c.objects.get? k) :
    c.SameIn { c with namespaces, objects } scope where
  namespaces := hn
  objects := ho
  listed := by
    have hscope : Cluster.ofScope { c with namespaces, objects } scope = c.ofScope scope :=
      ofScope_congr hn
    unfold listNamespaces
    rw [hscope]
    rfl

/-- To create namespaces of a scope does nothing in another one. -/
theorem sameIn_createNamespaces (c : Cluster) (h : scope ≠ other) (count : Nat) :
    c.SameIn (c.createNamespaces scope count).2 other := by
  obtain ⟨namespaces, hcreate, hget⟩ := c.createNamespaces_eq scope count
  have hkept : ∀ ns, NameOf other ns → namespaces.get? ns = c.namespaces.get? ns := by
    intro ns hns
    refine hget ns fun hmem => ?_
    exact h ((nameOf_of_mem_scopeNamespaces hmem).unique hns)
  have hsame : c.SameIn { c with namespaces, objects := c.objects } other :=
    sameIn_of_namespaces hkept fun _ _ => rfl
  rw [hcreate]
  exact hsame

theorem get?_keep_ofScope {κ α : Type} [DecidableEq κ] (t : Table κ α) (place : κ → String)
    (key : κ) :
    (t.keep fun k => !(c.ofScope scope).contains (place k)).get? key =
      if place key ∈ c.ofScope scope then none else t.get? key := by
  rw [Table.get?_keep]
  by_cases hk : place key ∈ c.ofScope scope
  · simp [hk]
  · simp [hk]

/-- To delete the namespaces of a scope does nothing in another one. -/
theorem sameIn_deleteNamespaces (c : Cluster) (h : scope ≠ other) :
    c.SameIn (c.deleteNamespaces scope).2 other := by
  have hout : ∀ ns, NameOf other ns → ns ∉ c.ofScope scope := by
    intro ns hns hmem
    exact h ((mem_ofScope_iff.mp hmem).2.unique hns)
  unfold deleteNamespaces
  dsimp only
  split
  · exact ⟨fun _ _ => rfl, fun _ _ => rfl, rfl⟩
  · refine sameIn_of_namespaces (fun ns hns => ?_) fun k hk => ?_
    · exact (get?_keep_ofScope c.namespaces id ns).trans (if_neg (hout ns hns))
    · exact (get?_keep_ofScope c.objects ObjectKey.ns k).trans (if_neg (hout k.ns hk))

/-- What a cluster loses with the namespaces of a scope: the names of the scope, and the objects in
those of them that were registered. -/
structure LosesScope (c c' : Cluster) (scope : String) : Prop where
  names : ∀ ns, NameOf scope ns → c'.namespaces.get? ns = none
  otherNames : ∀ ns, ¬ NameOf scope ns → c'.namespaces.get? ns = c.namespaces.get? ns
  objects : ∀ k, c.namespaces.get? k.ns ≠ none → NameOf scope k.ns → c'.objects.get? k = none
  otherObjects : ∀ k, c.namespaces.get? k.ns = none ∨ ¬ NameOf scope k.ns →
    c'.objects.get? k = c.objects.get? k
  version : c'.version = c.version
  journal : c'.journal = c.journal

/-- To delete the namespaces of a scope takes away these and no others. -/
theorem losesScope_deleteNamespaces (c : Cluster) (scope : String)
    (h : .delete ∉ c.failingCalls) :
    (c.deleteNamespaces scope).1 = .ok () ∧ c.LosesScope (c.deleteNamespaces scope).2 scope := by
  unfold deleteNamespaces
  rw [checkCall_of_notMem h]
  refine ⟨rfl, fun ns hns => ?_, fun ns hns => ?_, fun k hreg hk => ?_, fun k hk => ?_, rfl, rfl⟩
  · refine (get?_keep_ofScope c.namespaces id ns).trans ?_
    by_cases hreg : c.namespaces.get? ns = none
    · simp [hreg]
    · exact if_pos (mem_ofScope_iff.mpr ⟨hreg, hns⟩)
  · refine (get?_keep_ofScope c.namespaces id ns).trans (if_neg fun hmem => ?_)
    exact hns (mem_ofScope_iff.mp hmem).2
  · exact (get?_keep_ofScope c.objects ObjectKey.ns k).trans
      (if_pos (mem_ofScope_iff.mpr ⟨hreg, hk⟩))
  · refine (get?_keep_ofScope c.objects ObjectKey.ns k).trans (if_neg fun hmem => ?_)
    obtain ⟨hreg, hname⟩ := mem_ofScope_iff.mp hmem
    rcases hk with hnone | hother
    · exact hreg hnone
    · exact hother hname

theorem deleteNamespaces_of_failing (scope : String) (h : .delete ∈ c.failingCalls) :
    (c.deleteNamespaces scope).2 = c := by
  unfold deleteNamespaces checkCall
  rw [if_pos h]

end Cluster

/-- No name belongs to two scopes. So to create, list or delete the namespaces of a scope adds,
reports and removes nothing that belongs to another one, and a deletion that is not told to fail
takes away the names of its scope with the objects in them and nothing else. -/
theorem scopes_isolated {scope other : String} (h : scope ≠ other) (c : Cluster) :
    (∀ ns, (automanaged scope ns = true ↔ NameOf scope ns) ∧
      ¬ (automanaged scope ns = true ∧ automanaged other ns = true)) ∧
    (∀ count, c.SameIn (c.createNamespaces scope count).2 other) ∧
    (∀ names, c.listNamespaces scope = .ok names → ∀ ns ∈ names, ¬ NameOf other ns) ∧
    c.SameIn (c.deleteNamespaces scope).2 other ∧
    (.delete ∈ c.failingCalls → (c.deleteNamespaces scope).2 = c) ∧
    (.delete ∉ c.failingCalls →
      (c.deleteNamespaces scope).1 = .ok () ∧ c.LosesScope (c.deleteNamespaces scope).2 scope) := by
  refine ⟨fun ns => ⟨automanaged_iff_nameOf, ?_⟩, c.sameIn_createNamespaces h, ?_,
    c.sameIn_deleteNamespaces h, Cluster.deleteNamespaces_of_failing scope,
    c.losesScope_deleteNamespaces scope⟩
  · rintro ⟨hscope, hother⟩
    exact h ((automanaged_iff_nameOf.mp hscope).unique (automanaged_iff_nameOf.mp hother))
  · intro names hlist ns hns hother
    unfold Cluster.listNamespaces at hlist
    split at hlist
    · cases hlist
    · cases hlist
      exact h ((Cluster.mem_ofScope_iff.mp hns).2.unique hother)

/-- A cluster with namespaces of the scopes `test` and `test-1`, and objects in them. -/
def sharedCluster : Cluster :=
  let c : Cluster := {}
  let o : Object := ⟨[("kind", .text "A")]⟩
  let c := (((c.addNamespace "test-1").addNamespace "test-1-2").addNamespace "test-x")
  (((c.create "test-1" "a" o).2.create "test-1-2" "a" o).2.create "test-3" "a" o).2

theorem scopes_isolated_sharedCluster :
    (sharedCluster.deleteNamespaces "test").2.namespaces.get? "test-1" = none ∧
    (sharedCluster.deleteNamespaces "test").2.namespaces.get? "test-1-2" = some () ∧
    (sharedCluster.deleteNamespaces "test").2.objects.get? ⟨"test-1", "", "A", "a"⟩ = none ∧
    ((sharedCluster.deleteNamespaces "test").2.objects.get? ⟨"test-1-2", "", "A", "a"⟩).isSome ∧
    ((sharedCluster.deleteNamespaces "test").2.objects.get? ⟨"test-3", "", "A", "a"⟩).isSome := by
  have hfirst : NameOf "test" "test-1" := automanaged_iff_nameOf.mp (by decide +kernel)
  have hsecond : NameOf "test-1" "test-1-2" := automanaged_iff_nameOf.mp (by decide +kernel)
  obtain ⟨-, -, -, hsame, -, hdeleted⟩ :=
    @scopes_isolated "test" "test-1" (by decide) sharedCluster
  obtain ⟨-, hloses⟩ := hdeleted (by decide +kernel)
  refine ⟨hloses.names _ hfirst, ?_, hloses.objects _ (by decide +kernel) hfirst, ?_, ?_⟩
  · rw [hsame.namespaces _ hsecond]
    decide +kernel
  · rw [hsame.objects ⟨"test-1-2", "", "A", "a"⟩ hsecond]
    decide +kernel
  · -- the namespace of the third object has a name of the scope but was not registered
    rw [hloses.otherObjects ⟨"test-3", "", "A", "a"⟩ (.inl (by decide +kernel))]
    decide +kernel

end ReplicaLoad
