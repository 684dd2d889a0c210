-- Carrying commands out. A command reads its test first and its settings
-- second. Templates are looked up in the folder that the settings name, or else
-- beside the test. A run fails when it has recorded any error.
import ReplicaLoad.Command.Arguments
import ReplicaLoad.Run.Test
import ReplicaLoad.Yaml.Reading

namespace ReplicaLoad

inductive CommandError where
  | badTest (e : ConfigError)
  | badSettings (e : SettingsError)
  | testFailed (test : String) (errors : Nat)
  deriving DecidableEq

namespace CommandError

/-- The text of an error, up to the details of its cause. -/
def message : CommandError → String
  | badTest (.invalid d) => s!"Test config error: {d.report}"
  | badTest .unreadable => "Test config error: cannot be read"
  | badTest .notYaml => "Test config error: malformed document"
  | badSettings e => s!"Loader config error: {e.message}"
  | testFailed test errors => s!"Test {test} finished with {errors} error(s)"

/-- An error as it ends the program, up to the details of its cause. -/
def heading : CommandError → String
  | badTest (.invalid d) => s!"TestConfig(Invalid({Text.quoted d.message}))"
  | badTest .unreadable => "TestConfig(Io"
  | badTest .notYaml => "TestConfig(Yaml"
  | badSettings _ => "LoaderConfig"
  | testFailed test errors => s!"Execution \x7b test: {Text.quoted test}, count: {errors} \x7d"

def details : CommandError → String
  | badTest .unreadable => "(not a text file))"
  | badTest .notYaml => "(malformed document))"
  | badSettings e => s!"({e.message})"
  | _ => ""

end CommandError

def parentFolder (path : String) : String :=
  let folder := (path.toList.reverse.dropWhile (· = '/')).dropWhile (· ≠ '/')
  match folder.dropWhile (· = '/') with
  | [] => if folder.isEmpty then "" else "/"
  | name => String.ofList name.reverse

def Settings.templateFolder (s : Settings) (testFile : String) : String :=
  s.templateDir.getD (parentFolder testFile)

def LoadTest.ofFile (files : FileTree) (path : String) : Except ConfigError LoadTest :=
  match files.read path with
  | .ok s => LoadTest.ofYaml s
  | .error _ => .error .unreadable

def LoadTest.templatePaths (t : LoadTest) : List String :=
  t.steps.flatMap fun s => s.phases.flatMap fun p => p.bundle.map (·.path)

structure Assignment where
  testFile : String
  test : LoadTest
  settings : Settings

namespace Assignment

def read (files : FileTree) (vars : List (String × String)) (testFile : String)
    (settingsFile : Option String) (told : Settings.Override) : Except CommandError Assignment :=
  match LoadTest.ofFile files testFile with
  | .error e => .error (.badTest e)
  | .ok test => match Settings.load files vars settingsFile with
    | .error e => .error (.badSettings e)
    | .ok settings => .ok ⟨testFile, test, settings.override told⟩

def templateFiles (a : Assignment) : List String :=
  a.test.templatePaths.map (FileTree.join (a.settings.templateFolder a.testFile))

/-- The environment of a run with templates from files. -/
def environment (a : Assignment) (files : FileTree) (draws : Draws) : Environment where
  client := { latency := (a.settings.latency?).getD 0 }
  templates path :=
    let folder : TemplateFolder := { base := a.settings.templateFolder a.testFile }
    (folder.load files.read path).1
  scope := randomScope draws
  settings := a.settings
  draws

def run (a : Assignment) (files : FileTree) (draws : Draws) (stamp : Nat → String) : TestResult :=
  World.runTest {} (a.environment files draws) stamp files 0 a.test

def verdict (a : Assignment) (r : TestResult) : Except CommandError Unit :=
  if r.errors.isEmpty then .ok () else .error (.testFailed a.test.name r.errors.size)

end Assignment

structure CommandResult where
  /-- What it prints. -/
  outcome : Except CommandError String
  /-- The files after it. -/
  files : FileTree
  /-- The errors of a run. -/
  errors : ErrorList := {}
  elapsed : Millis := 0

def Command.execute (c : Command) (files : FileTree) (vars : List (String × String))
    (draws : Draws) (stamp : Nat → String) : CommandResult :=
  match c with
  | validate testFile =>
    let outcome := match LoadTest.ofFile files testFile with
      | .error e => .error (.badTest e)
      | .ok t => .ok (t.describe ++ "\n")
    { outcome, files }
  | run testFile settingsFile told =>
    match Assignment.read files vars testFile settingsFile told with
    | .error e => { outcome := .error e, files }
    | .ok a =>
      let r := a.run files draws stamp
      { outcome := (a.verdict r).map fun _ => ""
        files := r.files
        errors := r.errors
        elapsed := r.finished }

end ReplicaLoad
