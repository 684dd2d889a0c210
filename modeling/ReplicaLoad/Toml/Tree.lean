-- Tables under construction. The tables of a TOML document grow while it is
-- read. Every name is given once: a header opens a table that no other header
-- and no key has opened, and a key gives a value to a name that has none. A
-- `Tree` remembers how its tables came about, since that decides what may still
-- be added to them.
import ReplicaLoad.Value.Basic

namespace ReplicaLoad.Toml

inductive Origin where
  /-- It has a header of its own. -/
  | header
  /-- It stands in the header of another table. -/
  | implied
  /-- It stands in a key with dots. -/
  | dotted
  deriving DecidableEq

inductive Tree where
  | leaf (v : Value)
  | table (origin : Origin) (entries : List (String × Tree))
  /-- A list of tables, each with a header. -/
  | tables (items : List (List (String × Tree)))

/-- Named trees in the order in which they were given. -/
abbrev Trees := List (String × Tree)

namespace Tree

def adjust (key : String) (f : Option Tree → Option Tree) : Trees → Option Trees
  | [] => (f none).map fun t => [(key, t)]
  | (k, t) :: rest =>
    if k = key then (f (some t)).map fun t => (k, t) :: rest
    else (adjust key f rest).map fun rest => (k, t) :: rest

def onLast (f : Trees → Option Trees) : List Trees → Option (List Trees)
  | [] => none
  | [es] => (f es).map fun es => [es]
  | es :: rest => (onLast f rest).map fun rest => es :: rest

/-- Change the entries of the table that the names of a header lead to. New tables on the way are
implied; of a list of tables the last one counts. -/
def underHeader (f : Trees → Option Trees) : List String → Trees → Option Trees
  | [], es => f es
  | k :: path, es => adjust k (fun
    | none => (underHeader f path []).map (table .implied)
    | some (table origin sub) => (underHeader f path sub).map (table origin)
    | some (tables items) => (onLast (underHeader f path) items).map tables
    | some (leaf _) => none) es

/-- Change the entries of the table that the names before the dots of a key lead to. A table with
a header of its own is closed to keys from elsewhere. -/
def underKey (f : Trees → Option Trees) : List String → Trees → Option Trees
  | [], es => f es
  | k :: path, es => adjust k (fun
    | none => (underKey f path []).map (table .dotted)
    | some (table .header _) => none
    | some (table origin sub) => (underKey f path sub).map (table origin)
    | some (tables _) => none
    | some (leaf _) => none) es

def openTable (path : List String) (es : Trees) : Option Trees :=
  match path.getLast? with
  | none => none
  | some name =>
    underHeader (adjust name fun
      | none => some (table .header [])
      | some (table .implied sub) => some (table .header sub)
      | some _ => none) path.dropLast es

def openItem (path : List String) (es : Trees) : Option Trees :=
  match path.getLast? with
  | none => none
  | some name =>
    underHeader (adjust name fun
      | none => some (tables [[]])
      | some (tables items) => some (tables (items ++ [[]]))
      | some _ => none) path.dropLast es

def give (key : List String) (v : Value) (es : Trees) : Option Trees :=
  match key.getLast? with
  | none => none
  | some name =>
    underKey (adjust name fun
      | none => some (leaf v)
      | some _ => none) key.dropLast es

def giveUnder (header key : List String) (v : Value) (es : Trees) : Option Trees :=
  underHeader (give key v) header es

mutual

def toValue : Tree → Value
  | leaf v => v
  | table _ entries => .dict (Dict.ofList (toEntries entries))
  | tables items => .list (toItems items)

def toEntries : List (String × Tree) → List (String × Value)
  | [] => []
  | (k, t) :: rest => (k, toValue t) :: toEntries rest

def toItems : List (List (String × Tree)) → List Value
  | [] => []
  | es :: rest => .dict (Dict.ofList (toEntries es)) :: toItems rest

end

end Tree

end ReplicaLoad.Toml
