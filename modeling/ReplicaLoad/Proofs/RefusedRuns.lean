-- Runs and phases that are refused. A test that finds namespaces of its scope,
-- or cannot ask for them, and a phase whose tuning set or templates cannot be
-- used, return one error and leave everything as it was: they are refused
-- before anything is entered, created or registered. Of several defects of a
-- phase the tuning set counts first, and then the first template of the bundle.
import ReplicaLoad.Proofs.ByteOrder
import ReplicaLoad.Proofs.InOrder
import ReplicaLoad.Proofs.ScopeIsolation
import ReplicaLoad.Run.Test

namespace ReplicaLoad

variable {env : Environment}

/-! ## Phases -/

/-- Why a phase cannot begin: its tuning set cannot be used, or else this is the error of the first
template of its bundle that has no identity. -/
inductive Environment.Refuses (env : Environment) (p : Phase) : RunError → Prop
  | tuningSet {problem} (select : env.tuningSets.select p.tuningSet = .error problem) :
      Refuses env p (.tuningSet problem)
  | template {load before o after e} (select : env.tuningSets.select p.tuningSet = .ok load)
      (bundle : p.bundle = before ++ o :: after)
      (earlier : ∀ x ∈ before, ∃ g, env.identify x = .ok g) (first : env.identify o = .error e) :
      Refuses env p e

/-- A bundle has the error of its first template without an identity. -/
theorem Environment.identifyAll_eq_error {before after : List ObjectTemplate} {o : ObjectTemplate}
    {e : RunError} (h : ∀ x ∈ before, ∃ g, env.identify x = .ok g)
    (ho : env.identify o = .error e) : env.identifyAll (before ++ o :: after) = .error e := by
  induction before with
  | nil => simp [identifyAll, ho]
  | cons x rest ih =>
    obtain ⟨g, hg⟩ := h x List.mem_cons_self
    have hrest := ih fun y hy => h y (List.mem_cons_of_mem _ hy)
    simp [identifyAll, hg, hrest]

/-- Where there is a template without an identity, there is a first one. -/
theorem Environment.exists_first {os : List ObjectTemplate}
    (h : ∃ o ∈ os, ∃ e, env.identify o = .error e) :
    ∃ before o after e, os = before ++ o :: after ∧
      (∀ x ∈ before, ∃ g, env.identify x = .ok g) ∧ env.identify o = .error e := by
  induction os with
  | nil =>
    obtain ⟨o, ho, -⟩ := h
    cases ho
  | cons x rest ih =>
    cases hx : env.identify x with
    | error e => exact ⟨[], x, rest, e, rfl, by simp, hx⟩
    | ok g =>
      have hrest : ∃ o ∈ rest, ∃ e, env.identify o = .error e := by
        obtain ⟨o, ho, e, he⟩ := h
        rcases List.mem_cons.mp ho with rfl | ho
        · rw [hx] at he
          cases he
        · exact ⟨o, ho, e, he⟩
      obtain ⟨before, o, after, e, rfl, hbefore, ho⟩ := ih hrest
      refine ⟨x :: before, o, after, e, rfl, fun y hy => ?_, ho⟩
      rcases List.mem_cons.mp hy with rfl | hy
      · exact ⟨g, hx⟩
      · exact hbefore y hy

/-- A defect of a phase, wherever it stands, is a reason to refuse the phase. -/
theorem Environment.exists_refuses {p : Phase}
    (h : (∃ problem, env.tuningSets.select p.tuningSet = .error problem) ∨
      ∃ o ∈ p.bundle, ∃ e, env.identify o = .error e) : ∃ e, env.Refuses p e := by
  cases hs : env.tuningSets.select p.tuningSet with
  | error problem => exact ⟨_, .tuningSet hs⟩
  | ok load =>
    rcases h with ⟨problem, hproblem⟩ | hbundle
    · rw [hs] at hproblem
      cases hproblem
    · obtain ⟨before, o, after, e, hb, hbefore, ho⟩ := exists_first hbundle
      exact ⟨e, .template hs hb hbefore ho⟩

/-- A phase that is refused is not ready. -/
theorem Environment.Refuses.ready {p : Phase} {e : RunError} (h : env.Refuses p e)
    (hn : namespaceList env.scope p.range ≠ []) : env.ready p = .error e := by
  obtain ⟨ns, rest, hns⟩ := List.exists_cons_of_ne_nil hn
  unfold Environment.ready
  rw [hns]
  cases h with
  | tuningSet hs => simp [hs]
  | template hs hb hbefore ho => simp [hs, hb, identifyAll_eq_error hbefore ho]

/-- No other reason is given. -/
theorem Environment.Refuses.unique {p : Phase} {e e' : RunError} (h : env.Refuses p e)
    (h' : env.Refuses p e') (hn : namespaceList env.scope p.range ≠ []) : e = e' := by
  have hready := (h.ready hn).symm.trans (h'.ready hn)
  cases hready
  rfl

/-- A refused phase returns its error at once. -/
theorem World.runPhases_of_refused {p : Phase} {e : RunError} (h : env.ready p = .error e)
    (w : World) (step : String) (now : Millis) :
    w.runPhases env step now [p] = (⟨[e]⟩, w, now) := by
  have hbegin : w.beginPhase env p = (.refused e, w) := by
    unfold World.beginPhase
    rw [h]
  unfold World.runPhases
  simp only [List.zipIdx_cons, List.zipIdx_nil, World.beginPhases, hbegin]
  rfl

/-- Beside other phases it returns its error in its only step, and that changes nothing. -/
theorem PhaseState.Step.of_refused {may : Outcomes} {w w' : World} {p : Phase} {e : RunError}
    {q' : PhaseState} (h : env.ready p = .error e) (hs : Step env may w (.waiting p) w' q') :
    w' = w ∧ q' = .ended (.returned [e]) := by
  cases hs with
  | refuse hr =>
    rw [h] at hr
    cases hr
    exact ⟨rfl, rfl⟩
  | idle hr =>
    rw [h] at hr
    cases hr
  | enrol hr =>
    rw [h] at hr
    cases hr

/-! ## Tests -/

/-- Why a test cannot start in a scope: its namespaces cannot be listed, or some are there already.
All of them are reported, in the order of their bytes. -/
inductive Cluster.Refuses (c : Cluster) (scope : String) : RunError → Prop
  | listing {problem} (list : c.listNamespaces scope = .error problem) :
      Refuses c scope (.namespaceListing problem)
  | taken {names} (list : c.listNamespaces scope = .ok names) (some : names ≠ [])
      (ascending : names.Pairwise fun a b => Text.bytes a < Text.bytes b)
      (members : ∀ ns, ns ∈ names ↔ c.namespaces.get? ns ≠ none ∧ NameOf scope ns) :
      Refuses c scope (.preexistingNamespaces names)

theorem Cluster.pairwise_bytes_ofScope (c : Cluster) (scope : String) :
    (c.ofScope scope).Pairwise fun a b => Text.bytes a < Text.bytes b :=
  (c.pairwise_ofScope scope).imp fun {_ _} h => Text.bytes_lt_iff.mpr h

/-- A test that finds its scope in use returns one error and does nothing. -/
theorem World.runTest_of_refused {w : World} (stamp : Nat → String) (files : FileTree)
    (now : Millis) (t : LoadTest) (h : w.cluster.listNamespaces env.scope ≠ .ok []) :
    ∃ e, w.cluster.Refuses env.scope e ∧
      w.runTest env stamp files now t = ⟨⟨[e]⟩, w, files, now⟩ := by
  cases hl : w.cluster.listNamespaces env.scope with
  | error problem => exact ⟨_, .listing hl, by simp [World.runTest, hl]⟩
  | ok names =>
    have hscope : names = w.cluster.ofScope env.scope := by
      unfold Cluster.listNamespaces at hl
      split at hl
      · cases hl
      · cases hl
        rfl
    cases names with
    | nil => exact absurd hl h
    | cons n rest =>
      refine ⟨_, .taken hl (by simp) ?_ fun ns => ?_, by simp [World.runTest, hl]⟩
      · rw [hscope]
        exact w.cluster.pairwise_bytes_ofScope env.scope
      · rw [hscope]
        exact Cluster.mem_ofScope_iff

/-- A test that cannot list the namespaces of its scope, or finds some, returns that one error; a
phase with a range that is not empty and a tuning set or a template that cannot be used returns the
error of the tuning set, or else of the first such template. Either leaves everything as it was, and
so does the only step that the phase takes beside others. -/
theorem refused_changes_nothing (w : World) (env : Environment) (now : Millis) :
    (∀ (stamp : Nat → String) (files : FileTree) (t : LoadTest),
      w.cluster.listNamespaces env.scope ≠ .ok [] →
      ∃ e, w.cluster.Refuses env.scope e ∧
        w.runTest env stamp files now t = ⟨⟨[e]⟩, w, files, now⟩) ∧
    ∀ p : Phase, namespaceList env.scope p.range ≠ [] →
      ((∃ problem, env.tuningSets.select p.tuningSet = .error problem) ∨
        ∃ o ∈ p.bundle, ∃ e, env.identify o = .error e) →
      ∃ e, env.Refuses p e ∧ (∀ e', env.Refuses p e' → e' = e) ∧
        (∀ step, w.runPhases env step now [p] = (⟨[e]⟩, w, now)) ∧
        ∀ (may : Outcomes) (w' : World) (q' : PhaseState),
          PhaseState.Step env may w (.waiting p) w' q' → w' = w ∧ q' = .ended (.returned [e]) := by
  refine ⟨fun stamp files t h => World.runTest_of_refused stamp files now t h, ?_⟩
  intro p hn h
  obtain ⟨e, he⟩ := Environment.exists_refuses h
  have hready := he.ready hn
  exact ⟨e, he, fun e' he' => he'.unique he hn,
    fun step => World.runPhases_of_refused hready w step now,
    fun may w' q' hs => hs.of_refused hready⟩

/-- An environment in which one path has a template, in a scope that is in use. -/
def scantEnvironment : Environment :=
  { sampleEnvironment with
    templates := fun path => if path = "a.yaml" then .ok "kind: A" else .error (.notFound path)
    scope := "test" }

/-- A phase with a template that can be used between two that cannot. -/
def scantPhase : Phase :=
  { samplePhase "a" 1 with
    bundle := [sampleTemplate "a", { basename := "b", path := "b.yaml" }, sampleTemplate "a",
      { basename := "c", path := "c.yaml" }] }

theorem refused_changes_nothing_scantPhase :
    (∃ names, "test-1" ∈ names ∧ "test-1-2" ∉ names ∧
      World.runTest { cluster := sharedCluster } scantEnvironment toString {} 0 { name := "t" } =
        ⟨⟨[.preexistingNamespaces names]⟩, { cluster := sharedCluster }, {}, 0⟩) ∧
    World.runPhases { cluster := sharedCluster } scantEnvironment "step" 0 [scantPhase] =
      (⟨[.identifier "b.yaml" (.notFound "b.yaml")]⟩, { cluster := sharedCluster }, 0) := by
  obtain ⟨htest, hphase⟩ :=
    refused_changes_nothing { cluster := sharedCluster } scantEnvironment 0
  have hname : NameOf "test" "test-1" := automanaged_iff_nameOf.mp (by decide +kernel)
  constructor
  · obtain ⟨e, he, hrun⟩ := htest toString {} { name := "t" } fun hlist => by
      have hnone := Cluster.get?_of_unused (Cluster.ofScope_of_listNamespaces hlist)
        (automanaged_iff_nameOf.mpr hname)
      exact absurd hnone (by decide +kernel)
    cases he with
    | listing hlist =>
      have hcall : sharedCluster.checkCall .list = .ok () := by decide +kernel
      simp [Cluster.listNamespaces, hcall] at hlist
    | @taken names hlist _ _ hmembers =>
      refine ⟨names, (hmembers _).mpr ⟨by decide +kernel, hname⟩, fun hmem => ?_, hrun⟩
      have hother : automanaged "test" "test-1-2" = true :=
        automanaged_iff_nameOf.mpr ((hmembers _).mp hmem).2
      exact absurd hother (by decide +kernel)
  · obtain ⟨e, -, hunique, hrun, -⟩ := hphase scantPhase (by decide +kernel)
      (.inr ⟨{ basename := "b", path := "b.yaml" }, by simp [scantPhase], _, rfl⟩)
    have hfirst : scantEnvironment.Refuses scantPhase
        (.identifier "b.yaml" (.notFound "b.yaml")) := by
      have hselect : scantEnvironment.tuningSets.select scantPhase.tuningSet =
          .ok (.parallelismLimited 1) := rfl
      have hbundle : scantPhase.bundle = [sampleTemplate "a"] ++
          { basename := "b", path := "b.yaml" } ::
            [sampleTemplate "a", { basename := "c", path := "c.yaml" }] := rfl
      have ha : scantEnvironment.identify (sampleTemplate "a") = .ok ⟨"a", "A", ""⟩ := by
        decide +kernel
      refine .template hselect hbundle (fun x hx => ?_) rfl
      rw [List.mem_singleton.mp hx]
      exact ⟨_, ha⟩
    rw [hunique _ hfirst]
    exact hrun "step"

end ReplicaLoad
