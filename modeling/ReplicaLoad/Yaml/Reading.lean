-- Reading YAML documents. A document as a free value (`readValue?`), and as a
-- load test (`LoadTest.ofYaml`). Collections nest at most 128 deep, where what
-- an alias stands for counts as if it stood there.
import ReplicaLoad.LoadTest.Check
import ReplicaLoad.LoadTest.Schema
import ReplicaLoad.Yaml.Node
import ReplicaLoad.Yaml.Scalar

namespace ReplicaLoad.Yaml

def depthLimit : Nat := 128

namespace Document

/-- The node that an alias stands for, or the node itself. -/
def deref (d : Document) : Node → Option Node
  | .alias n => d.anchored.get? n
  | n => some n

def textOf (d : Document) (n : Node) : Option String :=
  match d.deref n with
  | some (.scalar _ _ s) => some s
  | _ => none

def isTagged (tag : Option String) : Bool := (tag.map (·.startsWith "!")).getD false

def value (d : Document) : Nat → Node → Option Value
  | depth, n =>
    match d.deref n, depth with
    | some (.scalar tag style s), _ => scalarValue tag style s
    | some (.sequence tag items), depth + 1 =>
      if isTagged tag then none else (items.mapM fun n => d.value depth n).map .list
    | some (.mapping tag entries), depth + 1 =>
      if isTagged tag then none
      else
        (entries.mapM fun (k, v) => do return ((← d.textOf k), (← d.value depth v))).map
          fun es => .dict (Dict.ofList es)
    | _, _ => none

/-- A scalar that can be read as a number: plain, or a literal block with the tag of the kind. -/
def numeral? (kind : String) : Node → Option String
  | .scalar tag style s =>
    if style = .plain || (style = .literal && tag = some (languageTag ++ kind)) then some s else none
  | _ => none

/-- Whether something is there, rather than null. A tag for null has to stand at a null. -/
def present? : Node → Option Bool
  | .scalar tag style s =>
    if style ≠ .plain then some true
    else match tag with
      | some t =>
        if t = languageTag ++ "null" then (if isNullWord s then some false else none) else some true
      | none => some (s ≠ "" && !isNullWord s)
  | _ => some true

/-- Whether a node is the empty plain scalar, which can be read as an empty collection. -/
def isBlank : Node → Bool
  | .scalar _ .plain "" => true
  | _ => false

/-- The fields of a record with one of the names, each of which comes once. -/
def pickFields (d : Document) (names : List String) (depth : Nat) (seen : List String) :
    List (Node × Node) → Option (List (String × (Nat × Node)))
  | [] => some []
  | (k, v) :: rest => do
    let name ← d.textOf k
    if !names.contains name then d.pickFields names depth seen rest
    else if seen.contains name then none
    else
      let fs ← d.pickFields names depth (name :: seen) rest
      return (name, (depth, v)) :: fs

/-- The reader for the nodes of a document, each with the depth that is left for it. -/
def reader (d : Document) : Reader (Nat × Node) where
  text n := d.textOf n.2
  natBelow bound n := do
    let s ← numeral? "int" (← d.deref n.2)
    let v ← natural? s
    if v < bound then some v else none
  number n := do
    let s ← numeral? "float" (← d.deref n.2)
    float? s
  items
    | (depth, n) => match d.deref n, depth with
      | some (.sequence _ items), depth + 1 => some (items.map fun n => (depth, n))
      | some n, _ => if isBlank n then some [] else none
      | none, _ => none
  fields names
    | (depth, n) => match d.deref n, depth with
      | some (.mapping _ entries), depth + 1 => d.pickFields names depth [] entries
      | some n, _ => if isBlank n then some [] else none
      | none, _ => none
  optional n := do
    let target ← d.deref n.2
    return if (← present? target) then some n else none
  dict
    | (depth, n) => match d.deref n, depth with
      | some (.mapping _ entries), depth + 1 =>
        (entries.mapM fun (k, v) => do return ((← d.textOf k), (← d.value depth v))).map Dict.ofList
      | some n, _ => if isBlank n then some [] else none
      | none, _ => none

end Document

/-- The value of a document. An empty text is null. -/
def readValue? (s : String) : Option Value := do
  let d ← Document.ofText? s
  match d.root with
  | none => some .null
  | some n => d.value depthLimit n

def readWith? {α : Type} (read : Reader (Nat × Node) → (Nat × Node) → Option α) (s : String) :
    Option α := do
  let d ← Document.ofText? s
  read d.reader (depthLimit, d.root.getD Node.nothing)

end ReplicaLoad.Yaml

namespace ReplicaLoad

def LoadTest.ofYaml (s : String) : Except ConfigError LoadTest :=
  match Yaml.readWith? LoadTest.decode s with
  | none => .error .notYaml
  | some t => match t.check with
    | .ok () => .ok t
    | .error d => .error (.invalid d)

end ReplicaLoad
