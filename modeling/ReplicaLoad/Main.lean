-- The program. Reads the files that a command needs, carries the command out,
-- and writes what has come of it. The clock of a run is a simulated one, so a
-- run takes no longer than its computation.
import ReplicaLoad.Command.Execution
import ReplicaLoad.Command.Stamp
import Std.Time.DateTime.Timestamp

namespace ReplicaLoad.Program

def usage : String :=
  "\n".intercalate
    ["Usage: clusterload [--log-level LEVEL] [--json] COMMAND",
      "",
      "Commands:",
      "  run       Run a test config",
      "            --testconfig FILE [--report-dir DIR] [-c FILE | --config FILE]",
      "            [--latency-ms COUNT] [--abort-on-error]",
      "  validate  Parse and validate a test config without running it",
      "            --testconfig FILE"]

/-- The variables of the environment that have a meaning. -/
def variableNames : List String :=
  ["CLUSTERLOAD_LOG_LEVEL", "CLUSTERLOAD_LOG_JSON", "CLUSTERLOAD_CONFIG", "CLUSTERLOAD_REPORT_DIR",
    "CLUSTERLOAD_TEMPLATE_DIR", "CLUSTERLOAD_FATALITY_POLICY", "CLUSTERLOAD_SIMULATED_LATENCY_MS"]

def vars : IO (List (String × String)) :=
  variableNames.filterMapM fun name => do return (← IO.getEnv name).map fun s => (name, s)

def look (path : String) : IO (Option FileEntry) := do
  try
    return some (.file (String.fromUTF8? (← IO.FS.readBinFile path)))
  catch
    | .noFileOrDirectory _ _ _ => return none
    | _ => return some .folder

def lookAtAll (files : FileTree) (paths : List String) : IO FileTree :=
  paths.foldlM (fun files path => do
    match ← look path with
    | some entry => return files.place path entry
    | none => return files) files

/-- The files that a command reads before anything else. -/
def firstFiles : Command → List String
  | .validate testFile => [testFile]
  | .run testFile settingsFile _ =>
    testFile :: settingsFile.toList.flatMap fun path =>
      path :: Settings.endings.map fun (e, _) => path ++ "." ++ e

/-- The files that a run reads and the folder that it writes to. -/
def furtherFiles (a : Assignment) : List String := a.settings.reportDir.toList ++ a.templateFiles

def filesOf (c : Command) (vars : List (String × String)) : IO FileTree := do
  let files ← lookAtAll {} (firstFiles c)
  match c with
  | .validate _ => return files
  | .run testFile settingsFile told =>
    match Assignment.read files vars testFile settingsFile told with
    | .error _ => return files
    | .ok a => lookAtAll files (furtherFiles a)

def writeNew (before after : FileTree) : IO Unit :=
  (after.newTexts before).forM fun (path, text) => IO.FS.writeFile path text

def freshDraws : IO Draws := do
  let bytes ← IO.getRandomBytes 8
  return Draws.ofSeed (bytes.toList.foldl (fun n b => 256 * n + b.toNat) 0)

def carryOut (c : Command) (vars : List (String × String)) : IO UInt32 := do
  let files ← filesOf c vars
  let now ← Std.Time.Timestamp.now
  let stamp := Stamp.ofSeconds now.toSecondsSinceUnixEpoch.val.toNat
  let result := c.execute files vars (← freshDraws) fun _ => stamp
  writeNew files result.files
  match result.outcome with
  | .ok text =>
    IO.print text
    return 0
  | .error e =>
    unless result.errors.isEmpty do IO.println result.errors.display
    IO.eprintln s!"Error: {e.heading}{e.details}"
    return 1

end ReplicaLoad.Program

open ReplicaLoad in
def main (args : List String) : IO UInt32 := do
  let vars ← Program.vars
  match Command.ofArguments vars args with
  | .ok c => Program.carryOut c vars
  | .error .help =>
    IO.println Program.usage
    return 0
  | .error .misuse =>
    IO.eprintln Program.usage
    return 2
