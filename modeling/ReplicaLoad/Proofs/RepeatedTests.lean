-- Tests one after another. Tests that share their methods, each of them on the
-- cluster and the files that the one before has left. A test leaves nothing
-- else behind, however it has ended: its measurements are disposed of and its
-- counts are its own. So it returns the same errors and takes the same
-- summaries as a test whose methods have never been used.
import ReplicaLoad.Proofs.CallRuns
import ReplicaLoad.Proofs.MeasurementHistory
import ReplicaLoad.Proofs.RefusedRuns
import ReplicaLoad.Proofs.StepSequence

namespace ReplicaLoad

/-! ## What a test is asked for, and what it gives -/

/-- A test with all that can differ between two tests of the same templates and methods. -/
structure TestRequest where
  /-- What has become of the cluster since the test before. -/
  cluster : Cluster → Cluster := id
  files : FileTree → FileTree := id
  scope : String
  draws : Draws := .ofSeed 0
  stamp : Nat → String
  start : Millis
  test : LoadTest

/-- What can be seen of a test after it. -/
structure TestRun where
  errors : ErrorList
  /-- The summaries that it has taken to print them. -/
  summaries : List Summary
  cluster : Cluster
  files : FileTree
  finished : Millis

namespace World

/-- A world in which nothing has been measured or counted. -/
def new (cluster : Cluster) (methods : List (String × Method BuiltinState)) : World :=
  { cluster, measurements := .ofMethods methods }

/-- The summaries that wait when the last step of a test has ended. A test that does not begin takes
none. -/
def summaries (w : World) (env : Environment) (now : Millis) (t : LoadTest) : List Summary :=
  let env := { env with tuningSets := .ofList t.tuningSets }
  match w.cluster.listNamespaces env.scope,
    (w.cluster.createNamespaces env.scope t.automanagedNamespaces.toNat).1 with
  | .ok [], .ok () => ((w.begun env.scope t).runSteps env now {} t.steps).2.1.measurements.take.1
  | _, _ => []

/-- Run a test that is asked for. -/
def serve (w : World) (env : Environment) (files : FileTree) (r : TestRequest) : TestRun × World :=
  let w := { w with cluster := r.cluster w.cluster }
  let env := { env with scope := r.scope, draws := r.draws }
  let result := w.runTest env r.stamp (r.files files) r.start r.test
  ({ errors := result.errors
     summaries := w.summaries env r.start r.test
     cluster := result.world.cluster
     files := result.files
     finished := result.finished }, result.world)

/-- Run tests one after another, each in the world that the one before has left. -/
def serveAll (w : World) (env : Environment) (files : FileTree) :
    List TestRequest → List TestRun × World
  | [] => ([], w)
  | r :: rest =>
    let (run, w) := w.serve env files r
    let (runs, w) := w.serveAll env run.files rest
    (run :: runs, w)

end World

/-- Run tests one after another, each with methods that have never been used. -/
def serveApart (methods : List (String × Method BuiltinState)) (cluster : Cluster)
    (env : Environment) (files : FileTree) : List TestRequest → List TestRun
  | [] => []
  | r :: rest =>
    let run := ((World.new cluster methods).serve env files r).1
    run :: serveApart methods run.cluster env run.files rest

/-! ## The methods of a step -/

theorem PhaseState.Step.measurements {env : Environment} {w w' : World} {q q' : PhaseState}
    (h : Step env env.performs w q w' q') : w'.measurements = w.measurements := by
  cases h with
  | @operate errors before a op rest after commits done _ hdone =>
    obtain rfl : done = w.perform env a op := hdone
    obtain ⟨_, _, h⟩ := w.perform_frame env a op
    rw [h]
  | _ => rfl

theorem CallRun.keeps_methods (step : String) (methods : Table String (Method BuiltinState)) :
    (callCrew step).Keeps (·.measurements.methods = methods) where
  close := fun _ _ _ h => h
  turn := by
    intro now lane job s h
    have hturned := s.turned step now job
    change (s.turn step now job).1.measurements.methods = methods
    generalize s.turn step now job = result at hturned
    cases hturned with
    | finish => simp [h]
    | retry => exact h
    | atOnce => simp [called, h]
    | take => simp [called, h]

namespace World

variable {env : Environment}

/-- Phases have no way to the measurements. -/
theorem measurements_runPhases (w : World) (step : String) (now : Millis) (phases : List Phase) :
    (w.runPhases env step now phases).2.1.measurements = w.measurements := by
  obtain ⟨t, hreaches, -, hworld, -⟩ := Interleaving.runPhases_reached env step w now phases
  rw [← hworld]
  clear hworld
  induction hreaches with
  | refl => rfl
  | tail _ hs ih =>
    -- whatever the order of the phases, each of their steps leaves the measurements as they are
    obtain ⟨hq⟩ := hs
    exact hq.measurements.trans ih

/-- A step makes and changes instances, but no methods. -/
theorem methods_runStep (w : World) (now : Millis) (s : Step) :
    (w.runStep env now s).2.1.measurements.methods = w.measurements.methods := by
  unfold runStep
  split
  · rw [measurements_runPhases]
  · exact (CallRun.keeps_methods s.displayName _).run rfl _ now _

theorem methods_runSteps (w : World) (now : Millis) (errors : ErrorList) (steps : List Step) :
    (w.runSteps env now errors steps).2.1.measurements.methods = w.measurements.methods := by
  induction steps generalizing w now errors with
  | nil => rfl
  | cons s rest ih =>
    have hs := @methods_runStep env w now s
    unfold runSteps
    dsimp only
    split
    · exact hs
    · exact (ih _ _ _).trans hs

/-! ## One test -/

/-- The summaries that a test takes are those that it writes. -/
theorem files_runTest (w : World) (stamp : Nat → String) (files : FileTree) (now : Millis)
    (t : LoadTest) :
    (w.runTest env stamp files now t).files =
      (emitFrom env.settings.reportDir t.name stamp { files } 0 (w.summaries env now t)).1 := by
  by_cases hlist : w.cluster.listNamespaces env.scope = .ok []
  · cases hcreate : (w.cluster.createNamespaces env.scope t.automanagedNamespaces.toNat).1 with
    | ok _ =>
      rw [w.runTest_eq stamp files now t hlist hcreate]
      simp only [summaries, hlist, hcreate, runUncleaned, runBody]
      split
      · next h => rw [h]
      · next h => rw [h]
    | error e =>
      have hc : w.cluster.createNamespaces env.scope t.automanagedNamespaces.toNat =
          (.error e, (w.cluster.createNamespaces env.scope t.automanagedNamespaces.toNat).2) :=
        Prod.ext hcreate rfl
      have hnone : w.summaries env now t = [] := by
        simp only [summaries, hlist, hcreate]
      rw [hnone]
      unfold runTest runPrepared
      simp only [hlist]
      rw [hc]
      rfl
  · -- a test that is refused takes and writes nothing
    obtain ⟨e, -, hresult⟩ := w.runTest_of_refused stamp files now t hlist
    have hnone : w.summaries env now t = [] := by
      unfold summaries
      dsimp only
      split
      · contradiction
      · rfl
    rw [hresult, hnone]
    rfl

theorem methods_runBody (w : World) (stamp : Nat → String) (files : FileTree) (now : Millis)
    (t : LoadTest) :
    (w.runBody env stamp files now t).world.measurements.methods = w.measurements.methods := by
  rw [(w.runBody_world env stamp files now t).1]
  exact w.methods_runSteps now {} t.steps

/-- The cleanup comes after whatever has happened, so that the methods of a test that has begun are
as if they had never been used. -/
theorem measurements_runPrepared (w : World) (stamp : Nat → String) (files : FileTree)
    (now : Millis) (t : LoadTest) :
    (w.runPrepared env stamp files now t).world.measurements = w.measurements.dispose := by
  have hdispose (m : Measurements BuiltinState) (h : m.methods = w.measurements.methods) :
      m.dispose = w.measurements.dispose := by
    simp [Measurements.dispose, h]
  apply hdispose
  split
  · rfl
  · apply methods_runBody

/-- After a test all but the cluster is as before it, if nothing had been measured. -/
theorem world_runTest (w : World) (env : Environment) (stamp : Nat → String) (files : FileTree)
    (now : Millis) (t : LoadTest) (h : w.measurements.dispose = w.measurements) :
    (w.runTest env stamp files now t).world =
      { w with cluster := (w.runTest env stamp files now t).world.cluster } := by
  by_cases hlist : w.cluster.listNamespaces env.scope = .ok []
  · have hprepared := @measurements_runPrepared { env with tuningSets := .ofList t.tuningSets }
      { w with instances := Table.empty, versions := Table.empty } stamp files now t
    rw [show Measurements.dispose _ = w.measurements from h] at hprepared
    simp only [runTest, hlist]
    rw [hprepared]
  · obtain ⟨e, -, hresult⟩ := w.runTest_of_refused stamp files now t hlist
    rw [hresult]

end World

namespace World

variable {methods : List (String × Method BuiltinState)} {w : World}

/-- What has been counted before a test makes no difference to it. -/
theorem runTest_eq_new (h : w.measurements = .ofMethods methods) (env : Environment)
    (stamp : Nat → String) (files : FileTree) (now : Millis) (t : LoadTest) :
    w.runTest env stamp files now t =
      { (new w.cluster methods).runTest env stamp files now t with
        world := { ((new w.cluster methods).runTest env stamp files now t).world with
          instances := w.instances, versions := w.versions } } := by
  obtain ⟨cluster, instances, versions, measurements⟩ := w
  obtain rfl : measurements = .ofMethods methods := h
  unfold runTest new
  dsimp only
  split
  · rfl
  · rfl
  · rfl

theorem serve_eq_new (h : w.measurements = .ofMethods methods) (env : Environment)
    (files : FileTree) (r : TestRequest) :
    (w.serve env files r).1 = ((new w.cluster methods).serve env files r).1 := by
  have hrun := runTest_eq_new (w := { w with cluster := r.cluster w.cluster }) h
    { env with scope := r.scope, draws := r.draws } r.stamp (r.files files) r.start r.test
  -- the summaries are those of steps that begin with nothing counted
  have hsummaries : ({ w with cluster := r.cluster w.cluster } : World).summaries
      { env with scope := r.scope, draws := r.draws } r.start r.test =
      (new (r.cluster w.cluster) methods).summaries
        { env with scope := r.scope, draws := r.draws } r.start r.test := by
    obtain ⟨cluster, instances, versions, measurements⟩ := w
    obtain rfl : measurements = .ofMethods methods := h
    rfl
  unfold serve
  dsimp only
  rw [hrun, hsummaries]
  rfl

theorem serve_world (h : w.measurements = .ofMethods methods) (env : Environment)
    (files : FileTree) (r : TestRequest) :
    (w.serve env files r).2 = { w with cluster := (w.serve env files r).1.cluster } := by
  have hfresh : w.measurements.dispose = w.measurements := by
    rw [h]
    rfl
  exact world_runTest { w with cluster := r.cluster w.cluster } _ r.stamp (r.files files) r.start
    r.test hfresh

/-- What a test has taken is what it has written. -/
theorem serve_files (w : World) (env : Environment) (files : FileTree) (r : TestRequest) :
    (w.serve env files r).1.files =
      (emitFrom env.settings.reportDir r.test.name r.stamp { files := r.files files } 0
        (w.serve env files r).1.summaries).1 := by
  apply files_runTest

/-! ## A sequence of tests -/

theorem serveAll_fresh (methods : List (String × Method BuiltinState)) (env : Environment)
    (w : World) (files : FileTree) (requests : List TestRequest) :
    let fresh : World := { w with measurements := .ofMethods methods }
    (fresh.serveAll env files requests).1 = serveApart methods w.cluster env files requests ∧
      ∃ cluster, (fresh.serveAll env files requests).2 = { fresh with cluster } := by
  induction requests generalizing w files with
  | nil => exact ⟨rfl, w.cluster, rfl⟩
  | cons r rest ih =>
    intro fresh
    have hrun : (fresh.serve env files r).1 = ((new w.cluster methods).serve env files r).1 :=
      serve_eq_new rfl env files r
    have hworld : (fresh.serve env files r).2 =
        { fresh with cluster := (fresh.serve env files r).1.cluster } :=
      serve_world rfl env files r
    -- so the next test begins with methods that have not been used either
    obtain ⟨hruns, cluster, hlast⟩ := ih { fresh with cluster := (fresh.serve env files r).1.cluster }
      (fresh.serve env files r).1.files
    unfold serveAll serveApart
    dsimp only
    rw [hworld, ← hrun]
    refine ⟨?_, cluster, hlast⟩
    rw [← hruns]

end World

/-- Tests one after another, the first of them with methods that have not been used: each test
returns the same errors, takes the same summaries, writes them and leaves the same cluster and files
as one with methods of its own. After them there is no instance and no summary, and of the world only
the cluster has changed. What is counted in the world before the tests makes no difference. -/
theorem tests_run_as_new (methods : List (String × Method BuiltinState)) (env : Environment)
    (w : World) (files : FileTree) (requests : List TestRequest) :
    let fresh : World := { w with measurements := .ofMethods methods }
    (fresh.serveAll env files requests).1 = serveApart methods w.cluster env files requests ∧
      (∃ cluster, (fresh.serveAll env files requests).2 = { fresh with cluster }) ∧
      ∀ (w : World) (files : FileTree) (r : TestRequest), (w.serve env files r).1.files =
        (emitFrom env.settings.reportDir r.test.name r.stamp { files := r.files files } 0
          (w.serve env files r).1.summaries).1 := by
  intro fresh
  obtain ⟨hruns, hlast⟩ := w.serveAll_fresh methods env files requests
  exact ⟨hruns, hlast, fun w files r => w.serve_files env files r⟩

end ReplicaLoad
