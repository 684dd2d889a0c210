-- The scope of a test after it. A test that finds its scope unused creates its
-- namespaces, and its cleanup takes away these and no others, however the run
-- between has ended. What its phases have put into namespaces that it has not
-- created stays there: an object is left in the scope only where a phase names
-- a namespace beyond those of the test.
import ReplicaLoad.LoadTest.Check
import ReplicaLoad.Proofs.ScopeNamespaces
import ReplicaLoad.Proofs.TouchedNamespaces

namespace ReplicaLoad

/-! ## A small test -/

/-- A test with one phase, which brings one replica into the first namespace of the scope. -/
def sampleTest (namespaces : UInt32) : LoadTest where
  name := "sample"
  automanagedNamespaces := namespaces
  tuningSets := [{ name := "one at a time", parallelismLimit := some 1 }]
  steps := [{ phases := [{ samplePhase "a" 1 with range := some ⟨1, 1, none⟩ }] }]

def sampleKey : ObjectKey := ⟨"run-1", "", "A", "a-0"⟩

/-- A cluster with a namespace that is of no scope. -/
def sampleWorld : World := { cluster := { namespaces := Table.empty.put "default" () } }

/-! ## A test and its cleanup -/

/-- The world in which a test begins: its namespaces are created, and nothing is counted yet. -/
def World.begun (w : World) (scope : String) (t : LoadTest) : World :=
  { w with
    cluster := (w.cluster.createNamespaces scope t.automanagedNamespaces.toNat).2
    instances := Table.empty
    versions := Table.empty }

/-- A test that has begun, up to its cleanup. -/
def World.runUncleaned (w : World) (env : Environment) (stamp : Nat → String) (files : FileTree)
    (now : Millis) (t : LoadTest) : TestResult :=
  (w.begun env.scope t).runBody { env with tuningSets := .ofList t.tuningSets } stamp files now t

section Cleanup

variable {w : World} {env : Environment} (stamp : Nat → String) (files : FileTree) (now : Millis)
  (t : LoadTest)

/-- A test that can begin is its run with the cleanup after it. -/
theorem World.runTest_eq (hlist : w.cluster.listNamespaces env.scope = .ok [])
    (hcreate : (w.cluster.createNamespaces env.scope t.automanagedNamespaces.toNat).1 = .ok ()) :
    w.runTest env stamp files now t =
      { w.runUncleaned env stamp files now t with
        world := { (w.runUncleaned env stamp files now t).world.cleanUp env.scope with
          instances := w.instances, versions := w.versions } } := by
  have hc : w.cluster.createNamespaces env.scope t.automanagedNamespaces.toNat =
      (.ok (), (w.cluster.createNamespaces env.scope t.automanagedNamespaces.toNat).2) :=
    Prod.ext hcreate rfl
  unfold World.runTest World.runPrepared World.runUncleaned World.begun
  simp only [hlist]
  rw [hc]

variable (hlist : w.cluster.listNamespaces env.scope = .ok [])
  (hcalls : w.cluster.failingCalls = [])

include hlist hcalls

/-- The steps and summaries of a test change the registered namespaces in no other way than by
those that the test has created. -/
theorem World.runUncleaned_cluster (inside : String → Prop)
    (h : ∀ s ∈ t.steps, ∀ p ∈ s.phases, ∀ ns ∈ namespaceList env.scope p.range, inside ns) :
    (w.runUncleaned env stamp files now t).world.cluster.namespaces.entries =
      w.cluster.namespaces.entries ++
        (scopeNamespaces env.scope t.automanagedNamespaces.toNat).map (·, ()) ∧
    (w.runUncleaned env stamp files now t).world.cluster.failingCalls = [] ∧
    ∀ k, ¬ inside k.ns → (w.runUncleaned env stamp files now t).world.cluster.objects.get? k =
      w.cluster.objects.get? k := by
  obtain ⟨namespaces, hc, hentries⟩ := Cluster.createNamespaces_of_unused
    (Cluster.ofScope_of_listNamespaces hlist) (by simp [hcalls]) t.automanagedNamespaces.toNat
  have hkeeps : (w.begun env.scope t).cluster.KeepsTo inside
      (w.runUncleaned env stamp files now t).world.cluster :=
    World.keepsTo_runBody _ stamp files now h
  have hbegun : (w.begun env.scope t).cluster = { w.cluster with namespaces } := by
    unfold World.begun
    rw [hc]
  rw [hbegun] at hkeeps
  refine ⟨?_, hkeeps.failingCalls.trans hcalls, hkeeps.objects⟩
  rw [hkeeps.namespaces]
  exact hentries

/-- Before the cleanup an object has changed only where a phase of the test names its namespace. -/
theorem World.named_of_changed {k : ObjectKey}
    (hne : (w.runUncleaned env stamp files now t).world.cluster.objects.get? k ≠
      w.cluster.objects.get? k) :
    ∃ s ∈ t.steps, ∃ p ∈ s.phases, k.ns ∈ namespaceList env.scope p.range := by
  by_contra hno
  exact hne ((w.runUncleaned_cluster stamp files now t hlist hcalls
    (fun ns => ∃ s ∈ t.steps, ∃ p ∈ s.phases, ns ∈ namespaceList env.scope p.range)
    fun s hs p hp ns hns => ⟨s, hs, p, hp, hns⟩).2.2 k hno)

theorem World.createNamespaces_ok :
    (w.cluster.createNamespaces env.scope t.automanagedNamespaces.toNat).1 = .ok () := by
  obtain ⟨namespaces, hc, -⟩ := Cluster.createNamespaces_of_unused
    (Cluster.ofScope_of_listNamespaces hlist) (by simp [hcalls]) t.automanagedNamespaces.toNat
  rw [hc]

/-- The cleanup takes away the namespaces that the test has created, with what is in them, however
the run has ended. -/
theorem World.cleanUp_runUncleaned :
    ((w.runUncleaned env stamp files now t).world.cleanUp env.scope).cluster.namespaces =
      w.cluster.namespaces ∧
    ∀ k, ((w.runUncleaned env stamp files now t).world.cleanUp env.scope).cluster.objects.get? k =
      if k.ns ∈ scopeNamespaces env.scope t.automanagedNamespaces.toNat then none
      else (w.runUncleaned env stamp files now t).world.cluster.objects.get? k := by
  obtain ⟨hadded, hfailing, -⟩ := w.runUncleaned_cluster stamp files now t hlist hcalls
    (fun _ => True) (fun _ _ _ _ _ _ => trivial)
  exact Cluster.deleteNamespaces_of_added (Cluster.ofScope_of_listNamespaces hlist)
    (by simp [hfailing]) hadded

/-- A test in an unused scope of a cluster whose namespace calls succeed can create its namespaces.
After it the registered namespaces are those from before it, the namespaces of the test are empty,
and every other object is what the run has left. -/
theorem namespaces_restored :
    (w.cluster.createNamespaces env.scope t.automanagedNamespaces.toNat).1 = .ok () ∧
    (w.runTest env stamp files now t).world.cluster.namespaces = w.cluster.namespaces ∧
    ∀ k, (w.runTest env stamp files now t).world.cluster.objects.get? k =
      if k.ns ∈ scopeNamespaces env.scope t.automanagedNamespaces.toNat then none
      else (w.runUncleaned env stamp files now t).world.cluster.objects.get? k := by
  have hcreate := w.createNamespaces_ok t hlist hcalls
  rw [w.runTest_eq stamp files now t hlist hcreate]
  exact ⟨hcreate, w.cleanUp_runUncleaned stamp files now t hlist hcalls⟩

end Cleanup

/-- The test with one namespace has a replica in it before its cleanup, and none after it. -/
theorem namespaces_restored_sampleTest :
    sampleWorld.cluster.listNamespaces sampleEnvironment.scope = .ok [] ∧
    sampleWorld.cluster.failingCalls = [] ∧
    ((sampleWorld.runUncleaned sampleEnvironment toString {} 0
      (sampleTest 1)).world.cluster.objects.get? sampleKey).isSome = true ∧
    (sampleWorld.runTest sampleEnvironment toString {} 0 (sampleTest 1)).world.cluster.namespaces =
      sampleWorld.cluster.namespaces ∧
    (sampleWorld.runTest sampleEnvironment toString {} 0
      (sampleTest 1)).world.cluster.objects.get? sampleKey = none := by
  have hlist : sampleWorld.cluster.listNamespaces sampleEnvironment.scope = .ok [] := by
    decide +kernel
  obtain ⟨-, hnamespaces, hobjects⟩ :=
    namespaces_restored toString {} 0 (sampleTest 1) hlist rfl
  refine ⟨hlist, rfl, by decide +kernel, hnamespaces, ?_⟩
  rw [hobjects, if_pos (by decide +kernel)]

/-! ## What is left in a scope -/

theorem mem_namespaceList {scope ns : String} {r : NamespaceRange} :
    ns ∈ namespaceList scope (some r) ↔ ∃ i, r.min.toNat ≤ i ∧ i ≤ r.max.toNat ∧
      ns = indexedName (r.basename.getD scope) i := by
  unfold namespaceList
  simp only [List.mem_map, List.mem_range'_1]
  constructor
  · rintro ⟨i, ⟨hl, hh⟩, rfl⟩
    exact ⟨i, hl, by omega, rfl⟩
  · rintro ⟨i, hl, hh, rfl⟩
    exact ⟨i, ⟨hl, by omega⟩, rfl⟩

/-- All phases of a test work in namespaces of the scope of the run. -/
def LoadTest.KeepsToScope (t : LoadTest) : Prop :=
  ∀ s ∈ t.steps, ∀ p ∈ s.phases, ∃ r, p.range = some r ∧ r.basename = none

/-- A phase of a test names the namespace of the scope with an index. -/
def LoadTest.Names (t : LoadTest) (i : Nat) : Prop :=
  ∃ s ∈ t.steps, ∃ p ∈ s.phases, ∃ r, p.range = some r ∧ r.min.toNat ≤ i ∧ i ≤ r.max.toNat

theorem LoadTest.KeepsToScope.names {t : LoadTest} (h : t.KeepsToScope) {scope ns : String}
    {s : Step} (hs : s ∈ t.steps) {p : Phase} (hp : p ∈ s.phases)
    (hns : ns ∈ namespaceList scope p.range) : ∃ i, t.Names i ∧ ns = indexedName scope i := by
  obtain ⟨r, hr, hb⟩ := h s hs p hp
  rw [hr] at hns
  obtain ⟨i, hl, hh, rfl⟩ := mem_namespaceList.mp hns
  exact ⟨i, ⟨s, hs, p, hp, r, hr, hl, hh⟩, by rw [hb]; rfl⟩

theorem Cluster.listNamespaces_of_unused {c : Cluster} {scope : String}
    (h : ∀ ns, automanaged scope ns = true → c.namespaces.get? ns = none)
    (hcall : .list ∉ c.failingCalls) : c.listNamespaces scope = .ok [] := by
  have hnone : c.ofScope scope = [] := by
    refine List.eq_nil_iff_forall_not_mem.mpr fun ns hns => ?_
    obtain ⟨hreg, ha⟩ := mem_ofScope.mp hns
    exact hreg (h ns ha)
  unfold listNamespaces
  rw [checkCall_of_notMem hcall]
  exact congrArg _ hnone

section Left

variable {w : World} {env : Environment} {t : LoadTest}

/-- After a test whose phases keep to its scope, in a cluster where the scope was unused, an object
of the scope is left only in a namespace that the test has not created and that one of its phases
names. So none is left when the phases keep to the namespaces that the test creates. -/
theorem left_in_scope (hscope : t.KeepsToScope)
    (hnamespaces : ∀ ns, automanaged env.scope ns = true → w.cluster.namespaces.get? ns = none)
    (hobjects : ∀ k, automanaged env.scope k.ns = true → w.cluster.objects.get? k = none)
    (hcalls : w.cluster.failingCalls = []) (stamp : Nat → String) (files : FileTree)
    (now : Millis) :
    (∀ k, automanaged env.scope k.ns = true →
      (w.runTest env stamp files now t).world.cluster.objects.get? k ≠ none →
      ∃ i, k.ns = indexedName env.scope i ∧ ¬ (1 ≤ i ∧ i ≤ t.automanagedNamespaces.toNat) ∧
        t.Names i) ∧
    ((∀ i, t.Names i → 1 ≤ i ∧ i ≤ t.automanagedNamespaces.toNat) →
      ∀ k, automanaged env.scope k.ns = true →
        (w.runTest env stamp files now t).world.cluster.objects.get? k = none) := by
  have hlist := Cluster.listNamespaces_of_unused hnamespaces (by simp [hcalls])
  rw [w.runTest_eq stamp files now t hlist (w.createNamespaces_ok t hlist hcalls)]
  have hleft : ∀ k, automanaged env.scope k.ns = true →
      ((w.runUncleaned env stamp files now t).world.cleanUp env.scope).cluster.objects.get? k ≠
        none →
      ∃ i, k.ns = indexedName env.scope i ∧ ¬ (1 ≤ i ∧ i ≤ t.automanagedNamespaces.toNat) ∧
        t.Names i := by
    intro k hk hne
    rw [(w.cleanUp_runUncleaned stamp files now t hlist hcalls).2 k] at hne
    have hout : k.ns ∉ scopeNamespaces env.scope t.automanagedNamespaces.toNat :=
      fun hin => hne (if_pos hin)
    rw [if_neg hout, ← hobjects k hk] at hne
    obtain ⟨s, hs, p, hp, hns⟩ := World.named_of_changed stamp files now t hlist hcalls hne
    obtain ⟨i, hi, heq⟩ := hscope.names hs hp hns
    refine ⟨i, heq, fun hin => hout ?_, hi⟩
    exact mem_scopeNamespaces.mpr ⟨i, hin.1, hin.2, heq⟩
  refine ⟨hleft, fun hall k hk => ?_⟩
  by_contra hne
  obtain ⟨i, -, hout, hi⟩ := hleft k hk hne
  exact hout (hall i hi)

end Left

theorem keepsToScope_sampleTest (namespaces : UInt32) : (sampleTest namespaces).KeepsToScope := by
  simp [LoadTest.KeepsToScope, sampleTest]

theorem names_sampleTest {namespaces : UInt32} {i : Nat} (h : (sampleTest namespaces).Names i) :
    i = 1 := by
  obtain ⟨s, hs, p, hp, r, hr, hl, hh⟩ := h
  obtain rfl := List.mem_singleton.mp hs
  obtain rfl := List.mem_singleton.mp hp
  obtain rfl := Option.some.inj hr
  exact Nat.le_antisymm hh hl

/-- The test with one namespace leaves nothing in its scope. -/
theorem left_in_scope_sampleTest :
    (sampleTest 1).KeepsToScope ∧ (∀ i, (sampleTest 1).Names i → 1 ≤ i ∧ i ≤ 1) ∧
    ∀ k, automanaged "run" k.ns = true →
      (({} : World).runTest sampleEnvironment toString {} 0
        (sampleTest 1)).world.cluster.objects.get? k = none := by
  have hnames : ∀ i, (sampleTest 1).Names i → 1 ≤ i ∧ i ≤ 1 := by
    intro i hi
    have := names_sampleTest hi
    omega
  refine ⟨keepsToScope_sampleTest 1, hnames, ?_⟩
  exact (@left_in_scope {} sampleEnvironment (sampleTest 1) (keepsToScope_sampleTest 1)
    (fun _ _ => rfl) (fun _ _ => rfl) rfl toString {} 0).2 hnames

/-- The test without namespaces passes every check, and its replica stays in a namespace of the
scope, which is never registered. -/
theorem a_replica_stays_in_the_scope :
    (sampleTest 0).check = .ok () ∧ (sampleTest 0).KeepsToScope ∧
    automanaged sampleEnvironment.scope sampleKey.ns = true ∧
    ({} : World).cluster.namespaces.entries = [] ∧ ({} : World).cluster.objects.entries = [] ∧
    ({} : World).cluster.failingCalls = [] ∧
    ((({} : World).runTest sampleEnvironment toString {} 0
      (sampleTest 0)).world.cluster.objects.get? sampleKey).isSome = true :=
  ⟨by decide +kernel, keepsToScope_sampleTest 0, by decide +kernel, rfl, rfl, rfl,
    by decide +kernel⟩

end ReplicaLoad
