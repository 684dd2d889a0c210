-- Wanted counts. What a phase enters into the store and what it commits, as
-- functions of the store before it. A group that stands several times in a
-- bundle is read again after its own entry; that changes neither what is read
-- nor what is entered.
import ReplicaLoad.Proofs.PhasePlans

namespace ReplicaLoad

def groupKeys (namespaces : List String) (bundle : List (ObjectTemplate × ReplicaGroup)) :
    List GroupKey :=
  namespaces.flatMap fun ns => bundle.map fun e => (ns, e.2)

theorem mem_groupKeys {namespaces : List String} {bundle : List (ObjectTemplate × ReplicaGroup)}
    {key : GroupKey} :
    key ∈ groupKeys namespaces bundle ↔ key.1 ∈ namespaces ∧ key.2 ∈ bundle.map (·.2) := by
  obtain ⟨ns, g⟩ := key
  simp only [groupKeys, List.mem_flatMap, List.mem_map, Prod.mk.injEq]
  constructor
  · rintro ⟨ns', hns, e, he, rfl, rfl⟩
    exact ⟨hns, e, he, rfl⟩
  · rintro ⟨hns, e, he, rfl⟩
    exact ⟨ns, hns, e, he, rfl, rfl⟩

def firstOf (bundle : List (ObjectTemplate × ReplicaGroup)) (g : ReplicaGroup) : ObjectTemplate :=
  ((bundle.find? fun e => e.2 = g).map (·.1)).getD default

namespace InstanceStore

/-- The count that a group has reached, zero if no phase has touched it. -/
def count (s : InstanceStore) (key : GroupKey) : Nat := ((s.get? key).map (·.current)).getD 0

/-- The counts of a group of a bundle that wants a target. -/
def wanted (s : InstanceStore) (target : Nat) (bundle : List (ObjectTemplate × ReplicaGroup))
    (key : GroupKey) : Instances :=
  s.aim key (firstOf bundle key.2) target

/-! ## Reading and entering -/

@[simp] theorem current_aim (s : InstanceStore) (key : GroupKey) (o : ObjectTemplate)
    (target : Nat) : (s.aim key o target).current = s.count key := by
  unfold aim count
  cases s.get? key <;> rfl

/-- What is entered is read again as it is. -/
theorem aim_of_get? {s s' : InstanceStore} {key : GroupKey} {o o' : ObjectTemplate} {target : Nat}
    (h : s'.get? key = some (s.aim key o target)) : s'.aim key o' target = s.aim key o target := by
  unfold aim at h ⊢
  rw [h]
  rfl

theorem aim_congr {s s' : InstanceStore} {key : GroupKey} (o : ObjectTemplate) (target : Nat)
    (h : s'.get? key = s.get? key) : s'.aim key o target = s.aim key o target := by
  unfold aim
  rw [h]

theorem firstOf_cons_self (o : ObjectTemplate) (g : ReplicaGroup)
    (rest : List (ObjectTemplate × ReplicaGroup)) : firstOf ((o, g) :: rest) g = o := by
  simp [firstOf]

theorem firstOf_cons_ne {g g' : ReplicaGroup} (o : ObjectTemplate)
    (rest : List (ObjectTemplate × ReplicaGroup)) (h : g ≠ g') :
    firstOf ((o, g) :: rest) g' = firstOf rest g' := by
  simp [firstOf, h]

/-- After the first entry of a bundle the rest of the bundle wants what the whole one wanted. -/
theorem wanted_put (s : InstanceStore) (ns : String) (target : Nat) (o : ObjectTemplate)
    (g g' : ReplicaGroup) (rest : List (ObjectTemplate × ReplicaGroup)) :
    InstanceStore.wanted (s.put (ns, g) (s.aim (ns, g) o target)) target rest (ns, g') =
      s.wanted target ((o, g) :: rest) (ns, g') := by
  unfold wanted
  by_cases h : g = g'
  · subst h
    rw [firstOf_cons_self]
    exact aim_of_get? (by rw [Table.get?_put, if_pos rfl])
  · rw [firstOf_cons_ne o rest h]
    exact aim_congr _ target (by rw [Table.get?_put, if_neg (by simp [h])])

theorem aimAll_aimed (ns : String) (target : Nat) (s : InstanceStore)
    (bundle : List (ObjectTemplate × ReplicaGroup)) :
    (s.aimAll ns target bundle).1 =
      bundle.map fun e => (e.1, (ns, e.2), s.wanted target bundle (ns, e.2)) := by
  induction bundle generalizing s with
  | nil => rfl
  | cons e rest ih =>
    obtain ⟨o, g⟩ := e
    simp only [aimAll, ih, wanted_put, List.map_cons]
    congr 3
    simp [wanted, firstOf_cons_self]

theorem aimAll_get? (ns : String) (target : Nat) (s : InstanceStore)
    (bundle : List (ObjectTemplate × ReplicaGroup)) (key : GroupKey) :
    (s.aimAll ns target bundle).2.get? key =
      if key.1 = ns ∧ key.2 ∈ bundle.map (·.2) then some (s.wanted target bundle key)
      else s.get? key := by
  obtain ⟨ns', g'⟩ := key
  induction bundle generalizing s with
  | nil => simp [aimAll]
  | cons e rest ih =>
    obtain ⟨o, g⟩ := e
    simp only [aimAll, ih, List.map_cons, List.mem_cons]
    by_cases hns : ns' = ns
    · -- a group can come again in the rest, and then wants the same
      subst hns
      rw [wanted_put]
      by_cases hr : g' ∈ rest.map (·.2)
      · simp [hr]
      · by_cases hg : g = g'
        · subst hg
          simp [hr, Table.get?_put, wanted, firstOf_cons_self]
        · simp [hr, Table.get?_put, hg, Ne.symm hg]
    · simp [hns, Table.get?_put, Ne.symm hns]

/-! ## A whole plan -/

theorem count_aimAll (ns : String) (target : Nat) (s : InstanceStore)
    (bundle : List (ObjectTemplate × ReplicaGroup)) (key : GroupKey) :
    InstanceStore.count (s.aimAll ns target bundle).2 key = s.count key := by
  have h := aimAll_get? ns target s bundle key
  by_cases hk : key.1 = ns ∧ key.2 ∈ bundle.map (·.2)
  · rw [if_pos hk] at h
    unfold count
    rw [h]
    exact current_aim s key _ target
  · rw [if_neg hk] at h
    unfold count
    rw [h]

theorem wanted_aimAll (ns : String) (target : Nat) (s : InstanceStore)
    (bundle : List (ObjectTemplate × ReplicaGroup)) (key : GroupKey) :
    InstanceStore.wanted (s.aimAll ns target bundle).2 target bundle key =
      s.wanted target bundle key := by
  have h := aimAll_get? ns target s bundle key
  by_cases hk : key.1 = ns ∧ key.2 ∈ bundle.map (·.2)
  · rw [if_pos hk] at h
    exact aim_of_get? h
  · rw [if_neg hk] at h
    exact aim_congr _ target h

/-- The actions of a plan depend on the counts before it alone. -/
theorem plan_actions (bundle : List (ObjectTemplate × ReplicaGroup)) (target : Nat)
    (s : InstanceStore) (namespaces : List String) :
    (s.plan bundle target namespaces).1 = namespaces.flatMap fun ns =>
      planNamespace ns (bundle.map fun e => (e.1, s.count (ns, e.2))) target := by
  induction namespaces generalizing s with
  | nil => rfl
  | cons ns rest ih =>
    simp only [plan, ih, List.flatMap_cons, aimAll_aimed, List.map_map, count_aimAll]
    congr 3
    funext e
    simp [wanted]

theorem plan_commits (bundle : List (ObjectTemplate × ReplicaGroup)) (target : Nat)
    (s : InstanceStore) (namespaces : List String) :
    (s.plan bundle target namespaces).2.1 =
      (groupKeys namespaces bundle).map fun key => (key, s.wanted target bundle key) := by
  induction namespaces generalizing s with
  | nil => rfl
  | cons ns rest ih =>
    simp only [plan, ih, groupKeys, List.flatMap_cons, aimAll_aimed, List.map_map, List.map_append,
      wanted_aimAll]
    rfl

theorem plan_get? (bundle : List (ObjectTemplate × ReplicaGroup)) (target : Nat)
    (s : InstanceStore) (namespaces : List String) (key : GroupKey) :
    (s.plan bundle target namespaces).2.2.get? key =
      if key ∈ groupKeys namespaces bundle then some (s.wanted target bundle key)
      else s.get? key := by
  simp only [mem_groupKeys]
  induction namespaces generalizing s with
  | nil => simp [plan]
  | cons ns rest ih =>
    simp only [plan, ih, wanted_aimAll, aimAll_get?, List.mem_cons]
    by_cases hr : key.1 ∈ rest <;> by_cases hg : key.2 ∈ bundle.map (·.2) <;> simp [hr, hg]

/-- The operations of a plan, replica by replica. -/
theorem mem_plan_operations {bundle : List (ObjectTemplate × ReplicaGroup)} {target : Nat}
    {s : InstanceStore} {namespaces : List String} {ns : String} {i : Nat} {op : ObjectOperation} :
    (∃ a ∈ (s.plan bundle target namespaces).1, a.ns = ns ∧ a.index = i ∧ op ∈ a.operations) ↔
      ns ∈ namespaces ∧ ∃ g, (op.object, g) ∈ bundle ∧
        plannedFor (s.count (ns, g)) target i = some op.operation := by
  simp only [plan_actions, List.mem_flatMap]
  constructor
  · -- the namespace of an action is that of the plan that it is part of
    rintro ⟨a, ⟨ns', hns, ha⟩, rfl, hi, hop⟩
    obtain rfl := ns_of_mem_planNamespace ha
    obtain ⟨c, hm, hp⟩ := mem_planNamespace_operations.mp ⟨a, ha, hi, hop⟩
    obtain ⟨e, he, heq⟩ := List.mem_map.mp hm
    obtain ⟨ho, rfl⟩ := Prod.mk.inj heq
    exact ⟨hns, e.2, ho ▸ he, hp⟩
  · rintro ⟨hns, g, hg, hp⟩
    have hm : (op.object, s.count (ns, g)) ∈ bundle.map fun e => (e.1, s.count (ns, e.2)) :=
      List.mem_map.mpr ⟨(op.object, g), hg, rfl⟩
    obtain ⟨a, ha, hi, hop⟩ := mem_planNamespace_operations.mpr ⟨_, hm, hp⟩
    exact ⟨a, ⟨ns, hns, ha⟩, ns_of_mem_planNamespace ha, hi, hop⟩

/-- A plan does at most one operation on a replica. -/
theorem plan_replicas_nodup {env : Environment} {bundle : List (ObjectTemplate × ReplicaGroup)}
    (target : Nat) (s : InstanceStore) {namespaces : List String}
    (hid : ∀ e ∈ bundle, env.identify e.1 = .ok e.2) (hg : (bundle.map (·.2)).Nodup)
    (hns : namespaces.Nodup) :
    ((s.plan bundle target namespaces).1.flatMap env.replicas).Nodup := by
  rw [plan_actions, List.flatMap_assoc, List.nodup_flatMap]
  refine ⟨fun ns _ => ?_, hns.imp fun hne x hx hx' => ?_⟩
  · rw [List.nodup_flatMap]
    refine ⟨fun a ha => ?_, ?_⟩
    · -- within an action the groups differ
      have hgroups : ((bundle.map fun e => (e.1, s.count (ns, e.2))).map
          fun e => env.group e.1).Nodup := by
        rw [List.map_map]
        refine (List.map_congr_left fun e he => ?_) ▸ hg
        exact (group_of_identify (hid e he)).symm
      have h := operations_nodup env.group hgroups ha
      unfold Environment.replicas
      exact List.Nodup.of_map (fun x => x.1.2) (by simpa [Function.comp_def] using h)
    · -- two actions of one namespace have different indices
      refine List.Pairwise.imp ?_ (List.pairwise_map.mp (planNamespace_index_nodup ns _ target))
      intro a b hab x hx hx'
      obtain ⟨_, _, rfl⟩ := List.mem_map.mp hx
      obtain ⟨_, _, he⟩ := List.mem_map.mp hx'
      exact hab (congrArg Prod.snd he).symm
  · obtain ⟨a, ha, hx⟩ := List.mem_flatMap.mp hx
    obtain ⟨b, hb, hx'⟩ := List.mem_flatMap.mp hx'
    obtain ⟨_, _, rfl⟩ := List.mem_map.mp hx
    obtain ⟨_, _, he⟩ := List.mem_map.mp hx'
    have := congrArg (fun x => x.1.1) he
    rw [ns_of_mem_planNamespace ha, ns_of_mem_planNamespace hb] at this
    exact hne this.symm

/-! ## Commits -/

theorem commit_of_notMem {key : GroupKey} {commits : List (GroupKey × Instances)}
    (s : InstanceStore) (h : key ∉ commits.map (·.1)) :
    (s.commit commits).get? key = s.get? key := by
  induction commits generalizing s with
  | nil => rfl
  | cons e rest ih =>
    simp only [List.map_cons, List.mem_cons, not_or] at h
    change (InstanceStore.commit _ rest).get? key = _
    rw [ih _ h.2, Table.get?_put, if_neg (Ne.symm h.1)]

/-- A group that is committed with the same counts throughout ends with them. -/
theorem commit_of_mem {key : GroupKey} {counts : Instances}
    {commits : List (GroupKey × Instances)} (s : InstanceStore)
    (hm : key ∈ commits.map (·.1)) (hc : ∀ c, (key, c) ∈ commits → c = counts) :
    (s.commit commits).get? key = some { counts with current := counts.desired } := by
  induction commits generalizing s with
  | nil => simp at hm
  | cons e rest ih =>
    change (InstanceStore.commit _ rest).get? key = _
    by_cases hr : key ∈ rest.map (·.1)
    · exact ih _ hr fun c h => hc c (List.mem_cons_of_mem _ h)
    · have he : key = e.1 := by simpa [hr] using hm
      have hcounts : e.2 = counts := hc e.2 (by simp [he])
      rw [commit_of_notMem _ hr, Table.get?_put, if_pos he.symm, hcounts]

/-- What a phase leaves in the store: its own groups have reached its target, and no other group has
changed. -/
theorem commit_plan_get? (bundle : List (ObjectTemplate × ReplicaGroup)) (target : Nat)
    (s : InstanceStore) (namespaces : List String) (key : GroupKey) :
    Table.get? ((s.plan bundle target namespaces).2.2.commit
        (s.plan bundle target namespaces).2.1) key =
      if key ∈ groupKeys namespaces bundle then
        some { s.wanted target bundle key with current := target }
      else s.get? key := by
  have hkeys : (s.plan bundle target namespaces).2.1.map (·.1) = groupKeys namespaces bundle := by
    rw [plan_commits, List.map_map]
    simp [Function.comp_def]
  split
  · rename_i hk
    refine commit_of_mem _ (by rw [hkeys]; exact hk) fun c hc => ?_
    rw [plan_commits, List.mem_map] at hc
    obtain ⟨key', -, he⟩ := hc
    cases he
    rfl
  · rename_i hk
    rw [commit_of_notMem _ (by rw [hkeys]; exact hk), plan_get?, if_neg hk]

end InstanceStore

end ReplicaLoad
