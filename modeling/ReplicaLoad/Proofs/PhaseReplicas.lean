-- The replicas of phases. Which replicas the operations of a phase work on:
-- those of its own groups, each of them once. For that the templates of its
-- bundle have to be of different groups, and their objects of the groups that
-- the templates were identified with.
import ReplicaLoad.Proofs.OperationEffects
import ReplicaLoad.Proofs.PhaseCourse

namespace ReplicaLoad

/-- The templates of a phase are of different groups, and every object that is made of a template
for a replica has the kind and the API group of the template. -/
structure Environment.Regular (env : Environment) (p : Phase) : Prop where
  distinct : ∀ bundle, env.identifyAll p.bundle = .ok bundle → (bundle.map (·.2)).Nodup
  renders : ∀ o ∈ p.bundle, ∀ g, env.identify o = .ok g → ∀ (i : UInt32) (made : Object),
    env.object o.path (o.values i.toNat) = .ok made →
      made.kind = g.kind ∧ made.groupVersionKind.group = g.apiGroup

theorem identifyAll_fst {env : Environment} {os : List ObjectTemplate}
    {bundle : List (ObjectTemplate × ReplicaGroup)} (h : env.identifyAll os = .ok bundle) :
    bundle.map (·.1) = os := by
  induction os generalizing bundle with
  | nil =>
    cases h
    rfl
  | cons o rest ih =>
    unfold Environment.identifyAll at h
    split at h
    · cases h
    · split at h
      · cases h
      · rename_i gs hgs
        cases h
        rw [List.map_cons, ih hgs]

theorem Environment.ready_ok {env : Environment} {p : Phase} {r : ReadyPhase}
    (h : env.ready p = .ok (some r)) :
    env.identifyAll p.bundle = .ok r.bundle ∧ r.namespaces = namespaceList env.scope p.range := by
  unfold Environment.ready at h
  split at h
  · cases h
  · rename_i namespaces hn
    split at h
    · cases h
    · split at h
      · cases h
      · rename_i bundle hb
        cases h
        exact ⟨hb, rfl⟩

theorem exists_uint32 {i : Nat} (h : i < UInt32.size) : ∃ n : UInt32, n.toNat = i :=
  ⟨UInt32.ofNat i, UInt32.toNat_ofNat_of_lt h⟩

variable {env : Environment} {p : Phase}

/-- The operations of a phase are those that its counts ask for. -/
theorem course_operation {s : InstanceStore} {a : Action} {op : ObjectOperation}
    (ha : a ∈ (env.course p s).actions) (hop : op ∈ a.operations) :
    ∃ g, env.identify op.object = .ok g ∧ op.object ∈ p.bundle ∧ (a.ns, g) ∈ env.keysOf p ∧
      plannedFor (s.count (a.ns, g)) p.replicas.toNat a.index = some op.operation := by
  obtain ⟨r, hr⟩ := Environment.exists_ready_of_mem_course ha
  obtain ⟨hb, -⟩ := Environment.ready_ok hr
  rw [Environment.course_ready hr] at ha
  obtain ⟨hns, g, hg, hp⟩ := InstanceStore.mem_plan_operations.mp ⟨a, ha, rfl, rfl, hop⟩
  rw [Environment.ready_target hr] at hp
  refine ⟨g, identifyAll_ok hb _ hg, ?_, ?_, hp⟩
  · rw [← identifyAll_fst hb]
    exact List.mem_map_of_mem hg
  · rw [Environment.keysOf_ready hr]
    exact mem_groupKeys.mpr ⟨hns, List.mem_map_of_mem hg⟩

/-- A replica is worked on when the counts of a phase ask for it. -/
theorem exists_course_operation {s : InstanceStore} {key : GroupKey} {i : Nat} {o : Operation}
    (hk : key ∈ env.keysOf p) (hp : plannedFor (s.count key) p.replicas.toNat i = some o) :
    ∃ a ∈ (env.course p s).actions, ∃ op ∈ a.operations, op.operation = o ∧
      env.address a op = replicaKey key i := by
  obtain ⟨r, hr⟩ := Environment.exists_ready_of_mem_keysOf hk
  obtain ⟨hb, -⟩ := Environment.ready_ok hr
  rw [Environment.keysOf_ready hr] at hk
  rw [← Environment.ready_target hr] at hp
  obtain ⟨hns, hg⟩ := mem_groupKeys.mp hk
  obtain ⟨⟨object, g⟩, hmem, hkg⟩ := List.mem_map.mp hg
  obtain ⟨ns, g'⟩ := key
  obtain rfl : g = g' := hkg
  have hplan : ∃ a ∈ (s.plan r.bundle r.target r.namespaces).1, a.ns = ns ∧ a.index = i ∧
      ⟨object, o⟩ ∈ a.operations := InstanceStore.mem_plan_operations.mpr ⟨hns, g, hmem, hp⟩
  obtain ⟨a, ha, rfl, rfl, hop⟩ := hplan
  refine ⟨a, by rw [Environment.course_ready hr]; exact ha, _, hop, rfl, ?_⟩
  rw [Environment.address, group_of_identify (identifyAll_ok hb _ hmem)]

/-- The requests of a phase are for the replicas that it has planned them for. -/
theorem Environment.Regular.addresses (h : env.Regular p) (s : InstanceStore) :
    ∀ a ∈ (env.course p s).actions, ∀ op ∈ a.operations, env.Addresses a op := by
  intro a ha op hop req hreq
  obtain ⟨g, hid, hmem, -, hp⟩ := course_operation ha hop
  obtain ⟨made, hgvk, hmade⟩ := Environment.request_identity hreq
  obtain ⟨found, hfound, hg⟩ := Environment.identify_ok hid
  have hsame : made.kind = g.kind ∧ made.groupVersionKind.group = g.apiGroup := by
    by_cases hdelete : op.operation = .delete
    · rw [if_pos hdelete, hfound] at hmade
      cases hmade
      rw [hg]
      exact ⟨rfl, rfl⟩
    · -- an index that is rendered lies below the target
      have hlt := (lt_target_of_plannedFor hp).mpr hdelete
      obtain ⟨i, hi⟩ := exists_uint32 (Nat.lt_trans hlt p.replicas.toNat_lt)
      rw [if_neg hdelete, ← hi] at hmade
      exact h.renders _ hmem g hid i made hmade
  unfold Environment.address Request.key Cluster.key replicaKey
  rw [group_of_identify hid, hgvk, Object.kind_groupVersionKind, hsame.1, hsame.2, hg]
  rfl

theorem Environment.addresses_eq (a : Action) :
    env.addresses a = (env.replicas a).map fun x => replicaKey x.1 x.2 := by
  simp [Environment.addresses, Environment.replicas, Environment.address, Function.comp_def]

/-- The replicas of a phase are of its own groups. -/
theorem mem_course_addresses {s : InstanceStore} {k : ObjectKey}
    (hk : k ∈ (env.course p s).actions.flatMap env.addresses) :
    ∃ key i, key ∈ env.keysOf p ∧ k = replicaKey key i := by
  obtain ⟨a, ha, hk⟩ := List.mem_flatMap.mp hk
  obtain ⟨op, hop, rfl⟩ := List.mem_map.mp hk
  obtain ⟨g, hid, -, hkey, -⟩ := course_operation ha hop
  exact ⟨(a.ns, g), a.index, hkey, by rw [Environment.address, group_of_identify hid]⟩

/-- A phase does at most one operation on a replica when its templates are of different groups. -/
theorem course_replicas_nodup (s : InstanceStore)
    (hd : ∀ bundle, env.identifyAll p.bundle = .ok bundle → (bundle.map (·.2)).Nodup) :
    ((env.course p s).actions.flatMap env.replicas).Nodup := by
  by_cases hready : ∃ r, env.ready p = .ok (some r)
  · obtain ⟨r, hr⟩ := hready
    obtain ⟨hb, hn⟩ := Environment.ready_ok hr
    rw [Environment.course_ready hr]
    exact InstanceStore.plan_replicas_nodup r.target s (identifyAll_ok hb) (hd _ hb)
      (hn ▸ namespaceList_nodup env.scope p.range)
  · rw [Environment.course_of_not_ready fun r hr => hready ⟨r, hr⟩]
    exact List.nodup_nil

theorem Environment.Regular.addresses_nodup (h : env.Regular p) (s : InstanceStore) :
    ((env.course p s).actions.flatMap env.addresses).Nodup := by
  have hmap : (env.course p s).actions.flatMap env.addresses =
      ((env.course p s).actions.flatMap env.replicas).map fun x => replicaKey x.1 x.2 := by
    rw [List.map_flatMap]
    exact List.flatMap_congr fun a _ => Environment.addresses_eq a
  rw [hmap]
  -- different replicas have different keys, so that it is enough to tell the replicas apart
  refine List.Nodup.map (fun x y hxy => ?_) (course_replicas_nodup s h.distinct)
  obtain ⟨hkey, hi⟩ := replicaKey_inj hxy
  exact Prod.ext hkey hi

/-- Phases that share no group share no replica. -/
theorem addresses_nodup {phases : List Phase} (s : InstanceStore)
    (hd : phases.Pairwise fun p q => (env.keysOf p).Disjoint (env.keysOf q))
    (hr : ∀ p ∈ phases, env.Regular p) :
    ((phases.flatMap fun p => (env.course p s).actions).flatMap env.addresses).Nodup := by
  rw [List.flatMap_assoc, List.nodup_flatMap]
  refine ⟨fun p hp => (hr p hp).addresses_nodup s, hd.imp ?_⟩
  intro p q hpq k hk hk'
  obtain ⟨key, i, hkey, rfl⟩ := mem_course_addresses hk
  obtain ⟨key', i', hkey', he⟩ := mem_course_addresses hk'
  exact hpq hkey ((replicaKey_inj he).1 ▸ hkey')

theorem regular_samplePhase (basename : String) (replicas : UInt32) :
    sampleEnvironment.Regular (samplePhase basename replicas) where
  distinct := by
    intro bundle h
    rw [identifyAll_samplePhase] at h
    cases h
    simp
  renders := by
    intro o ho g hg i made hmade
    obtain rfl : o = sampleTemplate basename := by simpa [samplePhase] using ho
    rw [identify_sampleTemplate] at hg
    cases hg
    rw [object_sampleEnvironment] at hmade
    obtain ⟨found, hf, hkind, hgroup⟩ := bareObject_sampleEnvironment (sampleTemplate basename).path
    obtain rfl : found = made := Except.ok.inj (hf.symm.trans hmade)
    exact ⟨hkind, hgroup⟩

end ReplicaLoad
