-- The command line. A command line names a command and its options.
-- `Command.ofArguments` reads it from the left and stops at the first word that
-- asks for help or makes no sense. Some options can also be given by a variable
-- of the environment; the command line counts more.
import ReplicaLoad.Settings.Load

namespace ReplicaLoad

inductive Command where
  /-- Run the test in a file. -/
  | run (testFile : String) (settingsFile : Option String) (told : Settings.Override)
  /-- Check the test in a file. -/
  | validate (testFile : String)
  deriving DecidableEq

inductive Refusal where
  /-- The command line asks for help. -/
  | help
  /-- The command line makes no sense. -/
  | misuse
  deriving DecidableEq

structure CommandOption where
  name : String
  letter : Option Char := none
  /-- Which texts are its values, if it has one. -/
  accepts : Option (String → Bool) := none

/-- Options that were given, with their values. Those that have none are given an empty one. -/
abbrev Given := List (String × String)

def isFileName (s : String) : Bool := s ≠ ""

def isCount (s : String) : Bool := (Text.readWord s).toBool

namespace CommandOption

def shared : List CommandOption :=
  [{ name := "log-level", accepts := some fun _ => true }, { name := "json" },
    { name := "help", letter := some 'h' }]

def leading : List CommandOption := shared ++ [{ name := "version", letter := some 'V' }]

def ofCommand (command : String) : List CommandOption :=
  let testFile : CommandOption := { name := "testconfig", accepts := some isFileName }
  if command = "run" then
    shared ++ [testFile, { name := "report-dir", accepts := some isFileName },
      { name := "config", letter := some 'c', accepts := some isFileName },
      { name := "latency-ms", accepts := some isCount }, { name := "abort-on-error" }]
  else shared ++ [testFile]

/-- Whether an option asks for a text about the program. -/
def isQuestion (o : CommandOption) : Bool := o.name = "help" || o.name = "version"

/-- Note an option with its value. It is given at most once. -/
def note (o : CommandOption) (value : String) (given : Given) : Except Refusal Given :=
  if o.isQuestion then .error .help
  else if (given.lookup o.name).isSome then .error .misuse
  else match o.accepts with
    | none => .ok (given ++ [(o.name, "")])
    | some test => if test value then .ok (given ++ [(o.name, value)]) else .error .misuse

end CommandOption

/-- Whether a word is an option, or the mark after which there are none. -/
def isOptionWord (word : String) : Bool := word.startsWith "-" && word ≠ "-"

/-- The option that a word names by a letter, with the value that follows at once. -/
def letterOption (options : List CommandOption) : List Char →
    Except Refusal (CommandOption × Option String)
  | [] => .error .misuse
  | letter :: rest =>
    match options.find? (·.letter = some letter) with
    | none => .error .misuse
    | some o =>
      if o.isQuestion then .error .help
      else match rest with
        | [] => .ok (o, none)
        | '=' :: value => .ok (o, some (String.ofList value))
        | value => .ok (o, some (String.ofList value))

/-- The option that a word names, with the value that the word holds. -/
def wordOption (options : List CommandOption) (word : String) :
    Except Refusal (CommandOption × Option String) :=
  match word.toList with
  | '-' :: '-' :: rest =>
    let name := String.ofList (rest.takeWhile (· ≠ '='))
    match options.find? (·.name = name), rest.dropWhile (· ≠ '=') with
    | none, _ => .error .misuse
    | some o, [] => .ok (o, none)
    | some o, _ :: value => if o.accepts.isSome then .ok (o, some (String.ofList value)) else .error .misuse
  | '-' :: rest => letterOption options rest
  | _ => .error .misuse

/-- Read words up to a command, if there are any commands to name. `waiting` is the option whose
value is the next word. -/
def readWords (options : List CommandOption) (commands : List String) (given : Given)
    (waiting : Option CommandOption) : List String →
      Except Refusal (Given × Option (String × List String))
  | [] => if waiting.isSome then .error .misuse else .ok (given, none)
  | word :: rest =>
    match waiting with
    | some o =>
      if isOptionWord word then .error .misuse
      else match o.note word given with
        | .error r => .error r
        | .ok given => readWords options commands given none rest
    | none =>
      if word ∈ commands then .ok (given, some (word, rest))
      else if word = "--" then (if rest.isEmpty then .ok (given, none) else .error .misuse)
      else match wordOption options word with
        | .error r => .error r
        | .ok (o, none) =>
          if o.accepts.isSome then readWords options commands given (some o) rest
          else match o.note "" given with
            | .error r => .error r
            | .ok given => readWords options commands given none rest
        | .ok (o, some value) => match o.note value given with
          | .error r => .error r
          | .ok given => readWords options commands given none rest

namespace Command

def names : List String := ["run", "validate"]

/-- The value of an option that a variable can give, too. -/
def fromVariable (vars : List (String × String)) (given : Given) (option name : String)
    (accepts : String → Bool) : Except Refusal (Option String) :=
  match given.lookup option, vars.lookup name with
  | some value, _ => .ok (some value)
  | none, none => .ok none
  | none, some value => if accepts value then .ok (some value) else .error .misuse

def isBool (s : String) : Bool := s = "true" || s = "false"

def ofGiven (vars : List (String × String)) (name : String) (given : Given) :
    Except Refusal Command := do
  let _ ← fromVariable vars given "json" "CLUSTERLOAD_LOG_JSON" isBool
  let testFile ← match given.lookup "testconfig" with
    | some file => .ok file
    | none => .error .misuse
  if name = "run" then
    let reportDir ← fromVariable vars given "report-dir" "CLUSTERLOAD_REPORT_DIR" isFileName
    let settingsFile ← fromVariable vars given "config" "CLUSTERLOAD_CONFIG" isFileName
    let latencyMs := (given.lookup "latency-ms").bind Settings.countOfText?
    let abortOnError := (given.lookup "abort-on-error").isSome
    return run testFile settingsFile { reportDir, latencyMs, abortOnError }
  else return validate testFile

/-- What a question about a command is answered with: help, if there is such a command. -/
def helpOn (words : List String) : Refusal :=
  match words with
  | [] => .help
  | [name] => if name ∈ "help" :: names then .help else .misuse
  | _ => .misuse

def ofArguments (vars : List (String × String)) (words : List String) :
    Except Refusal Command := do
  let (leading, found) ← readWords CommandOption.leading ("help" :: names) [] none words
  match found with
  | none => .error .misuse
  | some ("help", rest) => .error (helpOn rest)
  | some (name, rest) =>
    let (given, _) ← readWords (CommandOption.ofCommand name) [] [] none rest
    let _ ← fromVariable vars leading "json" "CLUSTERLOAD_LOG_JSON" isBool
    ofGiven vars name given

end Command

end ReplicaLoad
