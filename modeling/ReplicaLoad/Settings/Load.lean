-- Loading settings. `Settings.load` puts the layers together: the defaults, a
-- file if one is named, the vars of the environment. What is told on the
-- command line lies over all of them.
import ReplicaLoad.Settings.Basic
import ReplicaLoad.Settings.Layer

namespace ReplicaLoad

inductive SettingsError where
  | noFile (path : String)
  | unknownEnding (path : String)
  | malformed (path : String)
  | badValue (name : String)
  deriving DecidableEq

def SettingsError.message : SettingsError → String
  | .noFile path => s!"no settings file {Text.quoted path}"
  | .unknownEnding path => s!"settings file {Text.quoted path} has an unknown ending"
  | .malformed path => s!"malformed settings file {Text.quoted path}"
  | .badValue name => s!"bad value of {name}"

namespace Settings

/-- The settings that hold unless something else is told. -/
def defaults : Layer :=
  Dict.ofList [("report_dir", .null), ("template_dir", .null), ("fatality_policy", .text "default"),
    ("simulated_latency_ms", .int 0)]

def policyOf? (name : String) : Option FatalityPolicy :=
  let name := Text.lower name
  if name = "default" then some .default
  else if name = "abort_on_any_error" then some .abortOnAnyError
  else none

/-- A value as a policy: its name, or a dictionary with its name alone. -/
def asPolicy? : Value → Option FatalityPolicy
  | .text s => policyOf? s
  | .dict [(k, _)] => policyOf? k
  | _ => none

def folder (l : Layer) (name : String) : Except SettingsError (Option String) :=
  match l.get? name with
  | none => .ok none
  | some .null => .ok none
  | some v => match v.asText? with
    | some s => .ok (some s)
    | none => .error (.badValue name)

def orElse {α : Type} (l : Layer) (name : String) (absent : α) (read : Value → Option α) :
    Except SettingsError α :=
  match l.get? name with
  | none => .ok absent
  | some v => match read v with
    | some a => .ok a
    | none => .error (.badValue name)

def ofLayer (l : Layer) : Except SettingsError Settings := do
  let reportDir ← folder l "report_dir"
  let templateDir ← folder l "template_dir"
  let policy ← orElse l "fatality_policy" .default asPolicy?
  let latencyMs ← orElse l "simulated_latency_ms" 0 Value.asCount?
  return { reportDir, templateDir, policy, latencyMs }

def dropMark (s : String) : String :=
  match s.toList with
  | '\ufeff' :: rest => String.ofList rest
  | _ => s

/-- The first of some files that can be read, with what is written in it. -/
def firstOf (files : FileTree) : List (String × Format) → Option (Format × String)
  | [] => none
  | (path, format) :: rest =>
    match files.read path with
    | .ok s => some (format, s)
    | .error _ => firstOf files rest

/-- Find a file of settings. The ending of its name may be left out when there is no such file. -/
def findFile (files : FileTree) (path : String) : Except SettingsError (Format × String) :=
  match files.read path with
  | .ok s =>
    match (ending? path).bind fun e => endings.lookup e with
    | some format => .ok (format, s)
    | none => .error (.unknownEnding path)
  | .error _ =>
    match firstOf files (endings.map fun (e, format) => (path ++ "." ++ e, format)) with
    | some found => .ok found
    | none => .error (.noFile path)

def layerOf (files : FileTree) (path : String) : Except SettingsError Layer :=
  match findFile files path with
  | .error e => .error e
  | .ok (format, s) =>
    match Layer.ofText? format (dropMark s) with
    | some l => .ok l
    | none => .error (.malformed path)

/-- Load settings from a file, if one is named, and from variables. -/
def load (files : FileTree) (vars : List (String × String)) (path : Option String) :
    Except SettingsError Settings := do
  let file ← match path with
    | none => .ok []
    | some path => layerOf files path
  ofLayer (coverAll (coverAll defaults file) (Layer.ofVariables vars))

structure Override where
  reportDir : Option String := none
  latencyMs : Option UInt64 := none
  abortOnError : Bool := false
  deriving DecidableEq

/-- Settings with what the command line tells over them. -/
def override (s : Settings) (o : Override) : Settings where
  reportDir := o.reportDir <|> s.reportDir
  templateDir := s.templateDir
  policy := if o.abortOnError then .abortOnAnyError else s.policy
  latencyMs := o.latencyMs.getD s.latencyMs

end Settings

end ReplicaLoad
