-- Object templates. A template becomes an object in two ways. With values it is
-- rendered strictly: every name that it prints has to mean something. Without
-- values, for its identity alone, its expression tags are dropped and the rest
-- is rendered leniently. Templates have paths; a `TemplateFolder` reads each
-- path at most once with success and keeps what it read.
import ReplicaLoad.FileTree
import ReplicaLoad.Object.Basic
import ReplicaLoad.Template.Render
import ReplicaLoad.Template.Span
import ReplicaLoad.Yaml.Reading

namespace ReplicaLoad

def Template.Fault.message : Template.Fault → String
  | .malformed => "malformed template"
  | .badEscape => "unknown escape in a text"
  | .undefinedValue => "undefined value"
  | .unknownFilter => "unknown filter"
  | .unknownTest => "unknown test"
  | .unknownFunction => "unknown function"
  | .unknownMethod => "unknown method"
  | .invalidOperation => "invalid operation"
  | .missingArgument => "missing argument"
  | .tooManyArguments => "too many arguments"
  | .cannotUnpack => "wrong number of values"
  | .templateNotFound => "no such template"

inductive TemplateError where
  | notFound (path : String)
  | unreadable (path : String)
  | render (fault : Template.Fault)
  | notYaml
  | notAnObject
  | missingKind
  deriving DecidableEq

namespace TemplateError

/-- What the text of an error says before the details. -/
def heading : TemplateError → String
  | notFound path => s!"template {path} not found"
  | unreadable path => s!"IO error reading template {path}: "
  | render _ => "template render error: "
  | notYaml => "rendered template is not valid YAML: "
  | notAnObject => "rendered template is not a mapping"
  | missingKind => "rendered object has no kind"

def details : TemplateError → String
  | unreadable _ => "not a text file"
  | render fault => fault.message
  | notYaml => "malformed document"
  | _ => ""

def message (e : TemplateError) : String := e.heading ++ e.details

end TemplateError

def Object.ofRendered (text : String) : Except TemplateError Object :=
  match Yaml.readValue? text with
  | none => .error .notYaml
  | some v => match Object.ofValue? v with
    | none => .error .notAnObject
    | some o => if o.kind = "" then .error .missingKind else .ok o

def Object.ofTemplate (values : Dict) (source : String) : Except TemplateError Object :=
  match Template.renderText .strict values source with
  | .error fault => .error (.render fault)
  | .ok text => Object.ofRendered text

def Object.ofBareTemplate (source : String) : Except TemplateError Object :=
  match Template.renderText .lenient [] (Template.dropSpans source) with
  | .error fault => .error (.render fault)
  | .ok text => Object.ofRendered text

abbrev TemplateSource := String → Except TemplateError String

abbrev TemplateTable := Table String String

def TemplateTable.source (t : TemplateTable) : TemplateSource := fun path =>
  match t.get? path with
  | some s => .ok s
  | none => .error (.notFound path)

abbrev Files := String → Except FileFault String

/-- The templates of a folder, with the sources that were read before. -/
structure TemplateFolder where
  base : String
  known : TemplateTable := Table.empty

/-- The source of a path. It is read from the files at most once with success. -/
def TemplateFolder.load (f : TemplateFolder) (files : Files) (path : String) :
    Except TemplateError String × TemplateFolder :=
  match f.known.get? path with
  | some s => (.ok s, f)
  | none =>
    let full := FileTree.join f.base path
    match files full with
    | .ok s => (.ok s, { f with known := f.known.put path s })
    | .error .notFound => (.error (.notFound full), f)
    | .error .unusable => (.error (.unreadable full), f)

end ReplicaLoad
