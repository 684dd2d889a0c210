-- The errors of a test. A test returns the errors of its steps, in the order of
-- the steps. Behind them come the errors of its summaries, or, when printing a
-- summary crashes, the crash alone: the errors of the summaries before it are
-- lost. So no error is lost exactly when no summary has failed before a crash.
import Mathlib.Data.List.Perm.Subperm
import ReplicaLoad.Proofs.ScopeCleanup

namespace ReplicaLoad

/-! ## Records -/

/-- What happens in a test: why it does not begin, what each of its steps returns, which errors its
summaries record, and with which text printing one of them crashes. -/
structure RunRecord where
  refusal : List RunError := []
  steps : List ErrorList := []
  summaries : List RunError := []
  crash : Option String := none
  deriving DecidableEq

namespace RunRecord

/-- The error that a crash is recorded as. -/
def crashError (test : String) (r : RunRecord) : List RunError :=
  r.crash.toList.map (.task s!"test {test}")

/-- All errors of a record. -/
def all (test : String) (r : RunRecord) : List RunError :=
  r.refusal ++ r.steps.flatMap (·.errors) ++ r.summaries ++ r.crashError test

/-- The errors of a record without those of its summaries if there is a crash. -/
def returned (test : String) (r : RunRecord) : List RunError :=
  r.refusal ++ r.steps.flatMap (·.errors) ++ (if r.crash.isSome then [] else r.summaries) ++
    r.crashError test

/-- Nothing is lost exactly when there is no crash or nothing to lose. -/
theorem all_subperm_returned_iff (test : String) (r : RunRecord) :
    (r.all test).Subperm (r.returned test) ↔ (r.crash.isSome = true → r.summaries = []) := by
  unfold all returned
  cases hc : r.crash with
  | none => simp [List.Subperm.refl]
  | some reason =>
    simp only [Option.isSome_some, if_true, List.append_nil, forall_const]
    constructor
    · -- the errors of the summaries are missing, so there is room for all only if there are none
      intro h
      have hlength := h.length_le
      simp only [List.length_append] at hlength
      exact List.length_eq_zero_iff.mp (by omega)
    · intro h
      rw [h, List.append_nil]

end RunRecord

/-! ## Summaries -/

/-- The text of the first crash of some summaries. -/
def firstCrash : List Summary → Option String
  | [] => none
  | summary :: rest =>
    match summary.printed with
    | .text _ => firstCrash rest
    | .fails _ => firstCrash rest
    | .crashes reason => some reason

/-- The errors that an emission records, up to its end or to a crash. -/
def recorded (folder : Option String) (test : String) (stamp : Nat → String) (files : FileTree)
    (index : Nat) : List Summary → List RunError
  | [] => []
  | summary :: rest =>
    match summary.printed with
    | .text text =>
      let s := SummaryRun.write { files } folder (summaryFile summary.name test (stamp index)) text
      s.errors.errors ++ recorded folder test stamp s.files (index + 1) rest
    | .fails e => .summaryPrint summary.name e :: recorded folder test stamp files (index + 1) rest
    | .crashes _ => []

/-- A write goes the same way whatever has been recorded before it. -/
theorem SummaryRun.write_eq (s : SummaryRun) (folder : Option String) (file text : String) :
    s.write folder file text =
      { files := (SummaryRun.write { files := s.files } folder file text).files
        errors := s.errors.concat (SummaryRun.write { files := s.files } folder file text).errors } := by
  unfold write
  split
  · simp [ErrorList.concat]
  · dsimp only
    split
    · simp [ErrorList.concat]
    · simp [ErrorList.concat, ErrorList.append]

/-- An emission returns what it has recorded, unless it crashes. -/
theorem emitFrom_snd (folder : Option String) (test : String) (stamp : Nat → String) (s : SummaryRun)
    (index : Nat) (summaries : List Summary) :
    (emitFrom folder test stamp s index summaries).2 =
      match firstCrash summaries with
      | some reason => .crashed reason
      | none => .finished (s.errors.concat ⟨recorded folder test stamp s.files index summaries⟩) := by
  induction summaries generalizing s index with
  | nil => simp [emitFrom, firstCrash, recorded, ErrorList.concat]
  | cons summary rest ih =>
    cases hp : summary.printed with
    | text text =>
      simp only [emitFrom, firstCrash, recorded, hp]
      rw [SummaryRun.write_eq, ih]
      simp only [ErrorList.concat, List.append_assoc]
    | fails e =>
      simp only [emitFrom, firstCrash, recorded, hp]
      rw [ih]
      simp only [ErrorList.concat, ErrorList.append, List.append_assoc, List.singleton_append]
    | crashes reason => simp only [emitFrom, firstCrash, hp]

/-! ## Steps -/

/-- What the steps of a test return from a time on, up to the first one with critical errors. -/
def World.stepErrors (w : World) (env : Environment) (now : Millis) : List Step → List ErrorList
  | [] => []
  | s :: rest =>
    let (found, w, now) := w.runStep env now s
    found :: if env.settings.policy.isCritical found then [] else w.stepErrors env now rest

/-- A run of steps returns the errors that it has begun with and those of its steps. -/
theorem World.errors_runSteps (w : World) (env : Environment) (now : Millis) (errors : ErrorList)
    (steps : List Step) :
    (w.runSteps env now errors steps).1 =
      errors.concat ⟨(w.stepErrors env now steps).flatMap (·.errors)⟩ := by
  induction steps generalizing w now errors with
  | nil => simp [runSteps, stepErrors, ErrorList.concat]
  | cons s rest ih =>
    unfold runSteps stepErrors
    dsimp only
    split
    · simp [ErrorList.concat]
    · rw [ih]
      simp [ErrorList.concat]

/-! ## A test -/

/-- The record of the steps and summaries of a test whose namespaces are there. -/
def World.bodyRecord (w : World) (env : Environment) (stamp : Nat → String) (files : FileTree)
    (now : Millis) (t : LoadTest) : RunRecord :=
  let summaries := (w.runSteps env now {} t.steps).2.1.measurements.pending
  { steps := w.stepErrors env now t.steps
    summaries := recorded env.settings.reportDir t.name stamp files 0 summaries
    crash := firstCrash summaries }

/-- The steps and summaries of a test return what their record says. -/
theorem World.errors_runBody (w : World) (env : Environment) (stamp : Nat → String)
    (files : FileTree) (now : Millis) (t : LoadTest) :
    (w.runBody env stamp files now t).errors.errors =
      (w.bodyRecord env stamp files now t).returned t.name := by
  have hemission := emitFrom_snd env.settings.reportDir t.name stamp { files } 0
    (w.runSteps env now {} t.steps).2.1.measurements.pending
  have hsteps := congrArg ErrorList.errors (w.errors_runSteps env now {} t.steps)
  unfold runBody bodyRecord RunRecord.returned RunRecord.crashError Measurements.take
  dsimp only at hemission hsteps ⊢
  split
  · next files' more h =>
    rw [h] at hemission
    split at hemission
    · cases hemission
    · next hcrash =>
      cases hemission
      simp [hcrash, hsteps, ErrorList.concat]
  · next files' reason h =>
    rw [h] at hemission
    split at hemission
    · next hcrash =>
      cases hemission
      simp [hcrash, hsteps, ErrorList.concat, ErrorList.append]
    · cases hemission

/-- The record of a test. A test that does not begin has only the reason for that. -/
def World.testRecord (w : World) (env : Environment) (stamp : Nat → String) (files : FileTree)
    (now : Millis) (t : LoadTest) : RunRecord :=
  match w.cluster.listNamespaces env.scope with
  | .error e => { refusal := [.namespaceListing e] }
  | .ok (n :: ns) => { refusal := [.preexistingNamespaces (n :: ns)] }
  | .ok [] =>
    match (w.cluster.createNamespaces env.scope t.automanagedNamespaces.toNat).1 with
    | .error e => { refusal := [.namespaceCreation e] }
    | .ok () =>
      (w.begun env.scope t).bodyRecord { env with tuningSets := .ofList t.tuningSets } stamp files now
        t

/-- A test returns what its record says, whether it has begun or not. -/
theorem World.errors_runTest (w : World) (env : Environment) (stamp : Nat → String)
    (files : FileTree) (now : Millis) (t : LoadTest) :
    (w.runTest env stamp files now t).errors.errors =
      (w.testRecord env stamp files now t).returned t.name := by
  have hrefused (e : RunError) : [e] = RunRecord.returned t.name { refusal := [e] } := by
    simp [RunRecord.returned, RunRecord.crashError]
  unfold testRecord
  cases hlist : w.cluster.listNamespaces env.scope with
  | error e =>
    unfold runTest
    simp only [hlist, ← hrefused]
  | ok found =>
    cases found with
    | cons n ns =>
      unfold runTest
      simp only [hlist, ← hrefused]
    | nil =>
      cases hcreate : (w.cluster.createNamespaces env.scope t.automanagedNamespaces.toNat).1 with
      | ok _ =>
        -- the only case in which anything runs; the cleanup adds no error
        rw [runTest_eq stamp files now t hlist hcreate]
        exact errors_runBody ..
      | error e =>
        have hc : w.cluster.createNamespaces env.scope t.automanagedNamespaces.toNat =
            (.error e, (w.cluster.createNamespaces env.scope t.automanagedNamespaces.toNat).2) :=
          Prod.ext hcreate rfl
        unfold runTest runPrepared
        simp only [hlist, ← hrefused]
        rw [hc]

/-- A test returns the errors of its steps and of its summaries, and an error for a crash. Exactly
when summaries have recorded errors before a crash, these are lost. -/
theorem errors_kept_iff (w : World) (env : Environment) (stamp : Nat → String) (files : FileTree)
    (now : Millis) (t : LoadTest) :
    (w.runTest env stamp files now t).errors.errors =
      (w.testRecord env stamp files now t).returned t.name ∧
    (((w.testRecord env stamp files now t).all t.name).Subperm
        (w.runTest env stamp files now t).errors.errors ↔
      ((w.testRecord env stamp files now t).crash.isSome = true →
        (w.testRecord env stamp files now t).summaries = [])) := by
  refine ⟨w.errors_runTest env stamp files now t, ?_⟩
  rw [w.errors_runTest env stamp files now t]
  exact RunRecord.all_subperm_returned_iff ..

/-! ## A crash behind a failure -/

/-- A probe with a summary that cannot be printed, and a summary behind it that crashes. -/
def sampleProbe : MeasurementCall where
  method := "Probe"
  identifier := "x"
  params := .ofList [("summaries", .list [
    .dict [("name", .text "A"), ("fail", .text "cannot be printed")],
    .dict [("name", .text "B"), ("panic", .text "summary exploded")]])]

def sampleProbeTest : LoadTest where
  name := "t"
  steps := [{ measurements := [sampleProbe] }]

def probedWorld : World := { measurements := .ofMethods probedMethods }

/-- The failure of the first summary is recorded, and is not among the errors of the test. -/
theorem a_summary_error_is_lost :
    probedWorld.testRecord sampleEnvironment toString {} 0 sampleProbeTest =
      { steps := [{}]
        summaries := [.summaryPrint "A" (.failed "cannot be printed")]
        crash := some "summary exploded" } ∧
    (probedWorld.runTest sampleEnvironment toString {} 0 sampleProbeTest).errors =
      ⟨[.task "test t" "summary exploded"]⟩ ∧
    ¬ ((probedWorld.testRecord sampleEnvironment toString {} 0 sampleProbeTest).all "t").Subperm
      (probedWorld.runTest sampleEnvironment toString {} 0 sampleProbeTest).errors.errors := by
  refine ⟨by decide +kernel, by decide +kernel, fun h => ?_⟩
  exact absurd h.length_le (by decide +kernel)

end ReplicaLoad
