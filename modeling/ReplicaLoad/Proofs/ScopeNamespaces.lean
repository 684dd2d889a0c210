-- The namespaces of a scope. A namespace belongs to a scope when its name is
-- the scope, a dash and digits. In a cluster that has no such namespace those
-- of a run can always be created, and to delete the namespaces of the scope
-- afterwards takes away these and no others, with the objects in them.
import ReplicaLoad.Cluster.Namespaces
import ReplicaLoad.Proofs.ReplicaNames

namespace ReplicaLoad

/-! ## Keys of tables -/

namespace Table

variable {κ α : Type}

theorem eq_of_entries {t t' : Table κ α} (h : t.entries = t'.entries) : t = t' := by
  cases t
  cases t'
  cases h
  rfl

variable [DecidableEq κ]

theorem putEntry_of_notMem {key : κ} {es : List (κ × α)} (h : key ∉ es.map (·.1)) (value : α) :
    putEntry key value es = es ++ [(key, value)] := by
  induction es with
  | nil => rfl
  | cons e rest ih =>
    obtain ⟨k, a⟩ := e
    rw [List.map_cons, List.mem_cons, not_or] at h
    rw [putEntry, if_neg (Ne.symm h.1), ih h.2]
    rfl

/-- A new key comes after those that are there. -/
theorem entries_put_of_none {t : Table κ α} {key : κ} (h : t.get? key = none) (value : α) :
    (t.put key value).entries = t.entries ++ [(key, value)] :=
  putEntry_of_notMem (find?_eq_none_iff.mp h) value

end Table

/-! ## Names of a scope -/

theorem dropLead?_eq_some {lead cs rest : List Char} :
    dropLead? lead cs = some rest ↔ cs = lead ++ rest := by
  fun_induction dropLead? lead cs with
  | case1 cs => simp
  | case2 l lead => simp
  | case3 lead c cs ih => simpa using ih
  | case4 l lead c cs hne => simp [Ne.symm hne]

/-- The names of a scope are the scope, a dash and digits. -/
theorem automanaged_iff {scope ns : String} :
    automanaged scope ns = true ↔ ∃ ds : List Char, ds ≠ [] ∧ (∀ c ∈ ds, c.isDigit = true) ∧
      ns.toList = scope.toList ++ '-' :: ds := by
  unfold automanaged
  cases hd : dropLead? (scope.toList ++ ['-']) ns.toList with
  | none =>
    simp only [Bool.false_eq_true, false_iff]
    rintro ⟨ds, -, -, hns⟩
    have hds : dropLead? (scope.toList ++ ['-']) ns.toList = some ds :=
      dropLead?_eq_some.mpr (by simpa using hns)
    rw [hds] at hd
    cases hd
  | some index =>
    have hns := dropLead?_eq_some.mp hd
    rw [List.append_assoc, List.singleton_append] at hns
    simp only [Bool.and_eq_true, Bool.not_eq_true', List.isEmpty_eq_false_iff, List.all_eq_true]
    constructor
    · rintro ⟨hne, hdigits⟩
      exact ⟨index, hne, hdigits, hns⟩
    · rintro ⟨ds, hne, hdigits, hds⟩
      obtain rfl : index = ds := by simpa using hns.symm.trans hds
      exact ⟨hne, hdigits⟩

theorem automanaged_indexedName (scope : String) (i : Nat) :
    automanaged scope (indexedName scope i) = true :=
  automanaged_iff.mpr ⟨_, Nat.toDigits_ne_nil,
    fun _ hc => Nat.isDigit_of_mem_toDigits (by decide) (by decide) hc, toList_indexedName scope i⟩

/-- The namespaces that a run creates in its scope. -/
def scopeNamespaces (scope : String) (count : Nat) : List String :=
  (List.range' 1 count).map (indexedName scope)

theorem mem_scopeNamespaces {scope : String} {count : Nat} {ns : String} :
    ns ∈ scopeNamespaces scope count ↔ ∃ i, 1 ≤ i ∧ i ≤ count ∧ ns = indexedName scope i := by
  unfold scopeNamespaces
  simp only [List.mem_map, List.mem_range'_1]
  constructor
  · rintro ⟨i, ⟨hl, hh⟩, rfl⟩
    exact ⟨i, hl, by omega, rfl⟩
  · rintro ⟨i, hl, hh, rfl⟩
    exact ⟨i, ⟨hl, by omega⟩, rfl⟩

theorem automanaged_of_mem_scopeNamespaces {scope : String} {count : Nat} {ns : String}
    (h : ns ∈ scopeNamespaces scope count) : automanaged scope ns = true := by
  obtain ⟨i, -, -, rfl⟩ := mem_scopeNamespaces.mp h
  exact automanaged_indexedName scope i

theorem scopeNamespaces_nodup (scope : String) (count : Nat) :
    (scopeNamespaces scope count).Nodup :=
  List.Nodup.map (fun _ _ h => (indexedName_inj h).2) List.nodup_range'

/-! ## Creating and deleting them -/

namespace Cluster

theorem checkCall_of_notMem {c : Cluster} {call : NamespaceCall} (h : call ∉ c.failingCalls) :
    c.checkCall call = .ok () := by
  simp [checkCall, h]

theorem mem_ofScope {c : Cluster} {scope ns : String} :
    ns ∈ c.ofScope scope ↔ c.namespaces.get? ns ≠ none ∧ automanaged scope ns = true := by
  unfold ofScope namespaceNames
  rw [List.mem_filter, List.mem_mergeSort, Table.mem_keys]

theorem nodup_ofScope (c : Cluster) (scope : String) : (c.ofScope scope).Nodup := by
  unfold ofScope namespaceNames Table.keys
  exact ((List.mergeSort_perm _ _).nodup_iff.mpr c.namespaces.distinct).filter _

/-- The names of a scope are listed in strictly ascending order. -/
theorem pairwise_ofScope (c : Cluster) (scope : String) : (c.ofScope scope).Pairwise (· < ·) := by
  have hsorted : c.namespaceNames.Pairwise fun a b => decide (a ≤ b) = true := by
    refine List.pairwise_mergeSort (fun a b d hab hbd => ?_) (fun a b => ?_) _
    · exact decide_eq_true (String.le_trans (of_decide_eq_true hab) (of_decide_eq_true hbd))
    · simpa using String.le_total a b
  refine ((hsorted.filter _).and (c.nodup_ofScope scope)).imp fun {a b} h => ?_
  obtain ⟨hle, hne⟩ := h
  by_contra hlt
  exact hne (String.le_antisymm (of_decide_eq_true hle) hlt)

/-- A scope is unused when listing its namespaces finds none. -/
theorem ofScope_of_listNamespaces {c : Cluster} {scope : String}
    (h : c.listNamespaces scope = .ok []) : c.ofScope scope = [] := by
  unfold listNamespaces at h
  split at h
  · cases h
  · simpa using h

/-- A name of an unused scope is not registered. -/
theorem get?_of_unused {c : Cluster} {scope ns : String} (h : c.ofScope scope = [])
    (hns : automanaged scope ns = true) : c.namespaces.get? ns = none := by
  by_contra hne
  have hmem := mem_ofScope.mpr ⟨hne, hns⟩
  rw [h] at hmem
  cases hmem

/-- Names are registered without a change of anything else. -/
theorem registerAll_eq (c : Cluster) (names : List String) :
    ∃ namespaces, (c.registerAll names).2 = { c with namespaces } ∧
      ∀ ns ∉ names, namespaces.get? ns = c.namespaces.get? ns := by
  induction names generalizing c with
  | nil => exact ⟨c.namespaces, rfl, fun _ _ => rfl⟩
  | cons name rest ih =>
    unfold registerAll
    split
    · exact ⟨c.namespaces, rfl, fun _ _ => rfl⟩
    · obtain ⟨namespaces, hreg, hget⟩ := ih (c.addNamespace name)
      refine ⟨namespaces, hreg, fun ns hns => ?_⟩
      rw [List.mem_cons, not_or] at hns
      rw [hget ns hns.2]
      exact (Table.get?_put _ _ _ _).trans (if_neg (Ne.symm hns.1))

/-- Whether it succeeds or not, a creation of namespaces registers names of its scope and does
nothing else. -/
theorem createNamespaces_eq (c : Cluster) (scope : String) (count : Nat) :
    ∃ namespaces, (c.createNamespaces scope count).2 = { c with namespaces } ∧
      ∀ ns ∉ scopeNamespaces scope count, namespaces.get? ns = c.namespaces.get? ns := by
  unfold createNamespaces
  split
  · exact ⟨c.namespaces, rfl, fun _ _ => rfl⟩
  · exact c.registerAll_eq _

/-- New names are registered one after another. -/
theorem registerAll_of_new {c : Cluster} {names : List String} (hn : names.Nodup)
    (hnew : ∀ n ∈ names, c.namespaces.get? n = none) :
    ∃ namespaces, c.registerAll names = (.ok (), { c with namespaces }) ∧
      namespaces.entries = c.namespaces.entries ++ names.map (·, ()) := by
  induction names generalizing c with
  | nil => exact ⟨c.namespaces, rfl, by simp⟩
  | cons name rest ih =>
    obtain ⟨hname, hrest⟩ := List.nodup_cons.mp hn
    have hfresh := hnew name List.mem_cons_self
    obtain ⟨namespaces, hreg, hentries⟩ := ih (c := c.addNamespace name) hrest fun n hm => by
      have hne : name ≠ n := fun he => hname (he ▸ hm)
      exact (Table.get?_put _ _ _ _).trans
        ((if_neg hne).trans (hnew n (List.mem_cons_of_mem _ hm)))
    refine ⟨namespaces, ?_, ?_⟩
    · unfold registerAll
      rw [hfresh]
      exact hreg
    · rw [hentries, addNamespace, Table.entries_put_of_none hfresh, List.append_assoc]
      rfl

/-- The namespaces of a run can be created in an unused scope. -/
theorem createNamespaces_of_unused {c : Cluster} {scope : String} (h : c.ofScope scope = [])
    (hcall : .create ∉ c.failingCalls) (count : Nat) :
    ∃ namespaces, c.createNamespaces scope count = (.ok (), { c with namespaces }) ∧
      namespaces.entries = c.namespaces.entries ++ (scopeNamespaces scope count).map (·, ()) := by
  unfold createNamespaces
  rw [checkCall_of_notMem hcall]
  exact registerAll_of_new (scopeNamespaces_nodup scope count) fun n hn =>
    get?_of_unused h (automanaged_of_mem_scopeNamespaces hn)

/-- The registered namespaces of a scope when those of a run have been added to others. -/
theorem mem_ofScope_added {c c' : Cluster} {scope : String} {count : Nat}
    (h : c.ofScope scope = [])
    (hadded : c'.namespaces.entries =
      c.namespaces.entries ++ (scopeNamespaces scope count).map (·, ())) {ns : String} :
    ns ∈ c'.ofScope scope ↔ ns ∈ scopeNamespaces scope count := by
  have hkeys : c'.namespaces.keys = c.namespaces.keys ++ scopeNamespaces scope count := by
    simp [Table.keys, hadded, Function.comp_def]
  rw [mem_ofScope, ← Table.mem_keys, hkeys, List.mem_append, Table.mem_keys]
  constructor
  · rintro ⟨hns | hns, ha⟩
    · exact absurd (get?_of_unused h ha) hns
    · exact hns
  · exact fun hns => ⟨Or.inr hns, automanaged_of_mem_scopeNamespaces hns⟩

/-- To delete the namespaces of a scope takes away those that a run has added, with the objects in
them, and nothing else. -/
theorem deleteNamespaces_of_added {c c' : Cluster} {scope : String} {count : Nat}
    (h : c.ofScope scope = []) (hcall : .delete ∉ c'.failingCalls)
    (hadded : c'.namespaces.entries =
      c.namespaces.entries ++ (scopeNamespaces scope count).map (·, ())) :
    (c'.deleteNamespaces scope).2.namespaces = c.namespaces ∧
    ∀ k, (c'.deleteNamespaces scope).2.objects.get? k =
      if k.ns ∈ scopeNamespaces scope count then none else c'.objects.get? k := by
  have hdoomed : ∀ ns, (c'.ofScope scope).contains ns =
      decide (ns ∈ scopeNamespaces scope count) := by
    intro ns
    rw [List.contains_eq_mem, decide_eq_decide]
    exact mem_ofScope_added h hadded
  unfold deleteNamespaces
  rw [checkCall_of_notMem hcall]
  simp only [hdoomed]
  constructor
  · apply Table.eq_of_entries
    change c'.namespaces.entries.filter _ = _
    rw [hadded, List.filter_append]
    -- those that were there before do not belong to the scope, and the added ones do
    have hbefore : c.namespaces.entries.filter
        (fun e => !decide (e.1 ∈ scopeNamespaces scope count)) = c.namespaces.entries := by
      refine List.filter_eq_self.mpr fun e he => ?_
      have hreg : c.namespaces.get? e.1 ≠ none := Table.mem_keys.mp (List.mem_map_of_mem he)
      have hout : e.1 ∉ scopeNamespaces scope count := fun hm =>
        hreg (get?_of_unused h (automanaged_of_mem_scopeNamespaces hm))
      simpa using hout
    have hadded : ((scopeNamespaces scope count).map (·, ())).filter
        (fun e => !decide (e.1 ∈ scopeNamespaces scope count)) = [] := by
      refine List.filter_eq_nil_iff.mpr fun e he => ?_
      obtain ⟨ns, hns, rfl⟩ := List.mem_map.mp he
      simpa using hns
    rw [hbefore, hadded, List.append_nil]
  · intro k
    rw [Table.get?_keep]
    by_cases hk : k.ns ∈ scopeNamespaces scope count
    · simp [hk]
    · simp [hk]

end Cluster

end ReplicaLoad
