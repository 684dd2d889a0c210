-- Reading TOML. A document is a sequence of lines: headers of tables, and keys
-- with their values. `Toml.read?` takes a whole text.
import ReplicaLoad.Toml.Scalar
import ReplicaLoad.Toml.Tree

namespace ReplicaLoad.Toml

/-- The rest of a text after a comment, if it begins with one. -/
def skipComment : List Char → List Char
  | '#' :: rest => rest.dropWhile isPlain
  | cs => cs

/-- The rest of a text after the end of a line: blanks, a comment, and a line break unless the text
ends. -/
def endLine? (cs : List Char) : Option (List Char) :=
  match skipComment (skipBlanks cs) with
  | [] => some []
  | cs => lineBreak? cs

/-- The rest of a text after white space, line breaks and comments. -/
def skipLines : Nat → List Char → List Char
  | 0, cs => cs
  | fuel + 1, cs =>
    let cs := skipBlanks cs
    match lineBreak? (skipComment cs) with
    | some rest => skipLines fuel rest
    | none => cs

/-- Whether a character can stand in a name without quotes. -/
def isNameChar (c : Char) : Bool := c.isAlphanum || c = '_' || c = '-'

def readName : List Char → Option (String × List Char)
  | '\x22' :: rest => readBasic (rest.length + 1) [] rest
  | '\'' :: rest => readLiteral [] rest
  | cs =>
    let name := cs.takeWhile isNameChar
    if name.isEmpty then none else some (String.ofList name, cs.dropWhile isNameChar)

def readKey : Nat → List Char → Option (List String × List Char)
  | 0, _ => none
  | fuel + 1, cs => do
    let (name, rest) ← readName (skipBlanks cs)
    match skipBlanks rest with
    | '.' :: rest => do
      let (names, rest) ← readKey fuel rest
      some (name :: names, rest)
    | rest => some ([name], rest)

mutual

def readValue (fuel : Nat) (cs : List Char) : Option (Value × List Char) :=
  match fuel with
  | 0 => none
  | fuel + 1 =>
    match cs with
    | '\x22' :: rest => (readQuoted '\x22' rest).map fun (s, r) => (.text s, r)
    | '\'' :: rest => (readQuoted '\'' rest).map fun (s, r) => (.text s, r)
    | '[' :: rest => readItems fuel [] rest
    | '\x7b' :: rest =>
      match skipBlanks rest with
      | '\x7d' :: rest => some (.dict [], rest)
      | rest => readEntries fuel [] rest
    | cs => readWord cs

/-- Read the items of a list, the earlier ones in `acc`, last one first. -/
def readItems (fuel : Nat) (acc : List Value) (cs : List Char) : Option (Value × List Char) :=
  match fuel with
  | 0 => none
  | fuel + 1 =>
    match skipLines (cs.length + 1) cs with
    | ']' :: rest => some (.list acc.reverse, rest)
    | cs => do
      let (v, rest) ← readValue fuel cs
      match skipLines (rest.length + 1) rest with
      | ',' :: rest => readItems fuel (v :: acc) rest
      | ']' :: rest => some (.list (v :: acc).reverse, rest)
      | _ => none

/-- Read the entries of a table on one line, the earlier ones in `acc`. -/
def readEntries (fuel : Nat) (acc : Trees) (cs : List Char) : Option (Value × List Char) :=
  match fuel with
  | 0 => none
  | fuel + 1 => do
    let (key, rest) ← readKey (cs.length + 1) cs
    let '=' :: rest := rest | none
    let (v, rest) ← readValue fuel (skipBlanks rest)
    let acc ← Tree.give key v acc
    match skipBlanks rest with
    | ',' :: rest => readEntries fuel acc rest
    | '\x7d' :: rest => some ((Tree.table .header acc).toValue, rest)
    | _ => none

end

/-- Read the names of a header after its opening bracket, up to its end. -/
def readHeader (close : List Char) (cs : List Char) : Option (List String × List Char) := do
  let (path, rest) ← readKey (cs.length + 1) cs
  if close.isPrefixOf rest then some (path, rest.drop close.length) else none

/-- Read the lines of a document. `header` leads to the table that keys belong to. -/
def readDocument (fuel : Nat) (header : List String) (es : Trees) (cs : List Char) : Option Trees :=
  match fuel with
  | 0 => none
  | fuel + 1 =>
    match skipBlanks cs with
    | [] => some es
    | '[' :: '[' :: rest => do
      let (path, rest) ← readHeader "]]".toList rest
      let es ← Tree.openItem path es
      readDocument fuel path es (← endLine? rest)
    | '[' :: rest => do
      let (path, rest) ← readHeader "]".toList rest
      let es ← Tree.openTable path es
      readDocument fuel path es (← endLine? rest)
    | cs =>
      match endLine? cs with
      | some rest => readDocument fuel header es rest
      | none => do
        let (key, rest) ← readKey (cs.length + 1) cs
        let '=' :: rest := rest | none
        let (v, rest) ← readValue (2 * rest.length + 2) (skipBlanks rest)
        let es ← Tree.giveUnder header key v es
        readDocument fuel header es (← endLine? rest)

def read? (s : String) : Option Dict :=
  let cs := s.toList
  (readDocument (cs.length + 1) [] [] cs).map fun es => Dict.ofList (Tree.toEntries es)

end ReplicaLoad.Toml
