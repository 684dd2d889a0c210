-- Tests. A test creates its namespaces, runs its steps one after another up to
-- the first one with critical errors, writes the summaries of its measurements,
-- and cleans up whatever has happened. It refuses to start where namespaces of
-- its scope are already there.
import ReplicaLoad.Cluster.Namespaces
import ReplicaLoad.FileTree
import ReplicaLoad.Run.Step

namespace ReplicaLoad

/-- A part of a test that can crash: the errors so far, or the text of the crash. -/
inductive Emission where
  | finished (errors : ErrorList)
  | crashed (reason : String)
  deriving DecidableEq

def summaryFile (summary test stamp : String) : String := s!"{summary}_{test}_{stamp}.txt"

/-- The files that summaries are written to, and the errors so far. -/
structure SummaryRun where
  files : FileTree
  errors : ErrorList := {}

/-- Write one printed summary into the folder for summaries, if there is one. -/
def SummaryRun.write (s : SummaryRun) (folder : Option String) (file text : String) : SummaryRun :=
  match folder with
  | none => s
  | some folder =>
    let path := FileTree.join folder file
    match s.files.write path text with
    | .ok files => { s with files }
    | .error _ => { s with errors := s.errors.append (.summaryWrite path) }

/-- Print summaries and write them, each with the time at which that happens. The errors are lost
when the printing of a summary crashes. -/
def emitFrom (folder : Option String) (test : String) (stamp : Nat → String) (s : SummaryRun)
    (index : Nat) : List Summary → FileTree × Emission
  | [] => (s.files, .finished s.errors)
  | summary :: rest =>
    match summary.printed with
    | .text t =>
      let file := summaryFile summary.name test (stamp index)
      emitFrom folder test stamp (s.write folder file t) (index + 1) rest
    | .fails e =>
      let errors := s.errors.append (.summaryPrint summary.name e)
      emitFrom folder test stamp { s with errors } (index + 1) rest
    | .crashes reason => (s.files, .crashed reason)

/-- The steps of a test from a time on, up to the first one with critical errors. -/
def World.runSteps (w : World) (env : Environment) (now : Millis) (errors : ErrorList) :
    List Step → ErrorList × World × Millis
  | [] => (errors, w, now)
  | s :: rest =>
    let (found, w, now) := w.runStep env now s
    let errors := errors.concat found
    if env.settings.policy.isCritical found then (errors, w, now) else w.runSteps env now errors rest

structure TestResult where
  errors : ErrorList
  world : World
  files : FileTree
  finished : Millis

/-- The steps and summaries of a test whose namespaces are there. -/
def World.runBody (w : World) (env : Environment) (stamp : Nat → String) (files : FileTree)
    (now : Millis) (t : LoadTest) : TestResult :=
  let (errors, w, now) := w.runSteps env now {} t.steps
  let (summaries, measurements) := w.measurements.take
  let w := { w with measurements }
  match emitFrom env.settings.reportDir t.name stamp { files } 0 summaries with
  | (files, .finished more) => ⟨errors.concat more, w, files, now⟩
  | (files, .crashed reason) => ⟨errors.append (.task s!"test {t.name}" reason), w, files, now⟩

/-- Forget the measurements and delete the namespaces of a scope. It does not matter whether that
succeeds. -/
def World.cleanUp (w : World) (scope : String) : World :=
  { w with
    measurements := w.measurements.dispose
    cluster := (w.cluster.deleteNamespaces scope).2 }

/-- Create the namespaces of a test, run it, and clean up. -/
def World.runPrepared (w : World) (env : Environment) (stamp : Nat → String) (files : FileTree)
    (now : Millis) (t : LoadTest) : TestResult :=
  let result : TestResult :=
    match w.cluster.createNamespaces env.scope t.automanagedNamespaces.toNat with
    | (.error e, cluster) => ⟨⟨[.namespaceCreation e]⟩, { w with cluster }, files, now⟩
    | (.ok (), cluster) => { w with cluster }.runBody env stamp files now t
  { result with world := result.world.cleanUp env.scope }

/-- Run a test in a scope from a time on. The counts and versions are those of the test alone. -/
def World.runTest (w : World) (env : Environment) (stamp : Nat → String) (files : FileTree)
    (now : Millis) (t : LoadTest) : TestResult :=
  let env := { env with tuningSets := .ofList t.tuningSets }
  match w.cluster.listNamespaces env.scope with
  | .error e => ⟨⟨[.namespaceListing e]⟩, w, files, now⟩
  | .ok (n :: ns) => ⟨⟨[.preexistingNamespaces (n :: ns)]⟩, w, files, now⟩
  | .ok [] =>
    -- the stores of the caller are put back at the end
    let fresh := { w with instances := Table.empty, versions := Table.empty }
    let result := fresh.runPrepared env stamp files now t
    { result with world := { result.world with instances := w.instances, versions := w.versions } }

end ReplicaLoad
