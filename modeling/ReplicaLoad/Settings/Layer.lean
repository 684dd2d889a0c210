-- Layers of settings. Settings come from a file and from the variables of the
-- environment. Each source is a layer of named values, and a layer lies over
-- those below it: its values count, and its dictionaries are merged with what
-- is there. Names differ in more than the case of their letters.
import ReplicaLoad.FileTree
import ReplicaLoad.Settings.Scalar
import ReplicaLoad.Toml.Reading
import ReplicaLoad.Value.JsonReader
import ReplicaLoad.Yaml.Node

namespace ReplicaLoad.Settings

/-- Named values, the names in small letters. -/
abbrev Layer := Dict

mutual

/-- A value over another one. An empty dictionary covers nothing. -/
def cover (below : Option Value) : Value → Value
  | .dict [] => below.getD (.dict [])
  | .dict (e :: es) => .dict (coverAll ((below.bind Value.dict?).getD []) (e :: es))
  | v => v

def coverAll (below : Dict) : List (String × Value) → Dict
  | [] => below
  | (k, v) :: rest =>
    let name := Text.lower k
    coverAll (below.insert name (cover (below.get? name) v)) rest

end

inductive Format where
  | toml
  | json
  | yaml
  deriving DecidableEq

/-- The endings of file names, with what is written in such files. -/
def endings : List (String × Format) :=
  [("toml", .toml), ("json", .json), ("yaml", .yaml), ("yml", .yaml)]

/-- The part of a file name after its last point, if there is something before it. -/
def ending? (path : String) : Option String :=
  let name := path.toList.reverse.takeWhile (· ≠ '/')
  match name.dropWhile (· ≠ '.') with
  | [] => none
  | [_] => none
  | _ :: _ :: _ => some (String.ofList (name.takeWhile (· ≠ '.')).reverse)

/-! ## Files -/

/-- The value of a plain scalar in a YAML file of settings. -/
def plainScalar (s : String) : Value :=
  if s = "" || s = "~" || s = "null" then .null
  else if s = "true" then .bool true
  else if s = "false" then .bool false
  else
    let whole := match s.toList with
      | '0' :: 'x' :: rest => signedIn? 16 rest
      | '0' :: 'o' :: rest => signedIn? 8 rest
      | '+' :: rest => signedIn? 10 rest
      | _ => none
    match whole, signedIn? 10 s.toList, float? s with
    | some n, _, _ => .int n
    | none, some n, _ => .int n
    | none, none, some x => .float x
    | none, none, none => .text s

/-- The value of a scalar in a YAML file of settings. Quoted scalars are texts. -/
def scalar (tag : Option String) (style : Yaml.Style) (s : String) : Value :=
  if style ≠ .plain then .text s
  else match tag with
    | none => plainScalar s
    | some t => if t = "tag:yaml.org,2002:str" || t.startsWith "!" then .text s else plainScalar s

def keyText : Value → Option String
  | .text s => some s
  | .bool b => some (if b then "true" else "false")
  | .int n => some (toString n)
  | .float x => some (numberText x)
  | _ => none

def distinct? (es : List (String × Value)) : Option Dict :=
  if (es.map (·.1)).Nodup then some (Dict.ofList es) else none

/-- A node of a YAML file of settings as a value, at most so deep. -/
def nodeValue (d : Yaml.Document) : Nat → Yaml.Node → Option Value
  | depth, .alias n => match d.anchored.get? n, depth with
    | some target, depth + 1 => nodeValue d depth target
    | _, _ => none
  | _, .scalar tag style s => some (scalar tag style s)
  | depth + 1, .sequence _ items => (items.mapM fun n => nodeValue d depth n).map .list
  | depth + 1, .mapping _ entries => do
    let es ← entries.mapM fun (k, v) => do
      let key ← nodeValue d depth k
      return ((← keyText key), (← nodeValue d depth v))
    return .dict (← distinct? es)
  | 0, _ => none

def depthLimit : Nat := 128

def Layer.ofYaml? (s : String) : Option Layer := do
  let d ← Yaml.Document.ofText? s
  match d.root with
  | none => some []
  | some n => (← nodeValue d depthLimit n).dict?

/-- A whole number that does not fit in 64 bits with a sign is a floating point number. -/
def withSign : Value → Value
  | .int n => if n < (twoTo 63 : Int) then .int n else .float (Float.ofInt n)
  | v => v

def Layer.ofJson? (s : String) : Option Layer :=
  ((Json.read? s).bind Value.dict?).map fun es => es.map fun (k, v) => (k, withSign v)

def Layer.ofText? (format : Format) (s : String) : Option Layer :=
  match format with
  | .toml => Toml.read? s
  | .json => Layer.ofJson? s
  | .yaml => Layer.ofYaml? s

/-! ## Variables -/

/-- What stands before the names of variables for settings, in small letters. -/
def variableLead : String := "clusterload_"

/-- The value of a variable: a boolean or a number if its text is one. -/
def variableValue (s : String) : Value :=
  match Text.lower s, signedIn? 10 s.toList, float? s with
  | "true", _, _ => .bool true
  | "false", _, _ => .bool false
  | _, some n, _ => .int n
  | _, none, some x => .float x
  | _, none, none => .text s

def Layer.ofVariables (vars : List (String × String)) : Layer :=
  Dict.ofList <| vars.filterMap fun (name, s) =>
    let name := Text.lower name
    if name.startsWith variableLead then
      some (String.ofList (name.toList.drop variableLead.length), variableValue s)
    else none

end ReplicaLoad.Settings
