-- YAML documents. `Document.ofText?` builds the tree of a text that holds at
-- most one document. Anchors are numbered by the count of different anchor
-- names before them, and an alias stands for the latest node with the number of
-- its name, so a document is a tree together with a table of its numbered
-- nodes.
import ReplicaLoad.Table
import ReplicaLoad.Yaml.Lexer

namespace ReplicaLoad.Yaml

inductive Node where
  | scalar (tag : Option String) (style : Style) (text : String)
  | sequence (tag : Option String) (items : List Node)
  | mapping (tag : Option String) (entries : List (Node × Node))
  | alias (number : Nat)
  deriving Inhabited

def Node.nothing : Node := .scalar none .plain ""

/-- A document with the nodes that its aliases stand for. -/
structure Document where
  /-- The root, unless the text is empty. -/
  root : Option Node
  anchored : Table Nat Node

structure Composer where
  tokens : List Token
  /-- What the handles of tags stand for. -/
  handles : Table String String
  /-- The number of each anchor name. -/
  numbers : Table String Nat := Table.empty
  /-- The latest anchored node of each number, by its place in the order of anchors. -/
  latest : Table Nat Nat := Table.empty
  /-- The anchored nodes by their place. -/
  finished : Table Nat Node := Table.empty
  /-- The count of anchored nodes. -/
  places : Nat := 0

namespace Composer

def defaultHandles : Table String String :=
  Table.ofList [("!", "!"), ("!!", "tag:yaml.org,2002:")]

/-- Give the node that begins a number, if it has an anchor. -/
def begin (s : Composer) : Option String → Option Nat × Composer
  | none => (none, s)
  | some name =>
    let number := s.numbers.size
    (some s.places, { s with
      numbers := s.numbers.put name number
      latest := s.latest.put number s.places
      places := s.places + 1 })

def finish (s : Composer) (place : Option Nat) (n : Node) : Node × Composer :=
  match place with
  | some p => (n, { s with finished := s.finished.put p n })
  | none => (n, s)

def resolveTag (s : Composer) (handle suffix : String) : Option String :=
  if handle = "" then some suffix else (s.handles.get? handle).map (· ++ suffix)

def go (s : Composer) (tokens : List Token) : Composer := { s with tokens }

/-- Read anchor and tag in front of a node, in either order. -/
def properties (s : Composer) : Option (Option String × Option String × Composer) :=
  match s.tokens with
  | .anchor a :: .tag h t :: rest => (s.resolveTag h t).map fun t => (some a, some t, s.go rest)
  | .tag h t :: .anchor a :: rest => (s.resolveTag h t).map fun t => (some a, some t, s.go rest)
  | .anchor a :: rest => some (some a, none, s.go rest)
  | .tag h t :: rest => (s.resolveTag h t).map fun t => (none, some t, s.go rest)
  | _ => some (none, none, s)

def nextIs (s : Composer) (ts : List Token) : Bool :=
  match s.tokens with
  | t :: _ => ts.contains t
  | [] => true

mutual

/-- Read a node. Block collections are read only where `block` allows them, and a sequence of the
same indentation as its key where `indentless` does. -/
def node (fuel : Nat) (block indentless : Bool) (s : Composer) : Option (Node × Composer) :=
  match fuel with
  | 0 => none
  | fuel + 1 =>
    match s.tokens with
    | .alias name :: rest => (s.numbers.get? name).map fun n => (.alias n, s.go rest)
    | _ => do
      let (anchor, tag, s) ← s.properties
      let (place, s) := s.begin anchor
      match s.tokens with
      | .scalar style text :: rest =>
        let tag := if tag = some "!" then none else tag
        return (s.go rest).finish place (.scalar tag style text)
      | .flowSequenceStart :: rest =>
        let (items, s) ← flowSequence fuel true [] (s.go rest)
        return s.finish place (.sequence tag items)
      | .flowMappingStart :: rest =>
        let (entries, s) ← flowMapping fuel true [] (s.go rest)
        return s.finish place (.mapping tag entries)
      | .blockEntry :: _ =>
        if indentless then
          let (items, s) ← indentlessSequence fuel [] s
          return s.finish place (.sequence tag items)
        else if anchor.isSome || tag.isSome then return s.finish place (.scalar tag .plain "")
        else none
      | .blockSequenceStart :: rest =>
        if block then
          let (items, s) ← blockSequence fuel [] (s.go rest)
          return s.finish place (.sequence tag items)
        else if anchor.isSome || tag.isSome then return s.finish place (.scalar tag .plain "")
        else none
      | .blockMappingStart :: rest =>
        if block then
          let (entries, s) ← blockMapping fuel [] (s.go rest)
          return s.finish place (.mapping tag entries)
        else if anchor.isSome || tag.isSome then return s.finish place (.scalar tag .plain "")
        else none
      | _ =>
        if anchor.isSome || tag.isSome then return s.finish place (.scalar tag .plain "")
        else none

/-- Read the entries of a block sequence; `acc` holds the earlier ones, last one first. -/
def blockSequence (fuel : Nat) (acc : List Node) (s : Composer) : Option (List Node × Composer) :=
  match fuel with
  | 0 => none
  | fuel + 1 =>
    match s.tokens with
    | .blockEntry :: rest => do
      let s := s.go rest
      let (n, s) ← if s.nextIs [.blockEntry, .blockEnd] then some (Node.nothing, s) else node fuel true false s
      blockSequence fuel (n :: acc) s
    | .blockEnd :: rest => some (acc.reverse, s.go rest)
    | _ => none

/-- Read the entries of a sequence that has no block of its own. -/
def indentlessSequence (fuel : Nat) (acc : List Node) (s : Composer) :
    Option (List Node × Composer) :=
  match fuel with
  | 0 => none
  | fuel + 1 =>
    match s.tokens with
    | .blockEntry :: rest => do
      let s := s.go rest
      let (n, s) ← if s.nextIs [.blockEntry, .key, .value, .blockEnd] then some (Node.nothing, s)
        else node fuel true false s
      indentlessSequence fuel (n :: acc) s
    | _ => some (acc.reverse, s)

def blockMapping (fuel : Nat) (acc : List (Node × Node)) (s : Composer) :
    Option (List (Node × Node) × Composer) :=
  match fuel with
  | 0 => none
  | fuel + 1 =>
    match s.tokens with
    | .key :: rest => do
      let s := s.go rest
      let (k, s) ← if s.nextIs [.key, .value, .blockEnd] then some (Node.nothing, s) else node fuel true true s
      let (v, s) ← match s.tokens with
        | .value :: rest =>
          let s := s.go rest
          if s.nextIs [.key, .value, .blockEnd] then some (Node.nothing, s) else node fuel true true s
        | _ => some (Node.nothing, s)
      blockMapping fuel ((k, v) :: acc) s
    | .blockEnd :: rest => some (acc.reverse, s.go rest)
    | _ => none

/-- Read the items of a flow sequence. An item with a key of its own is a mapping of one entry. -/
def flowSequence (fuel : Nat) (first : Bool) (acc : List Node) (s : Composer) :
    Option (List Node × Composer) :=
  match fuel with
  | 0 => none
  | fuel + 1 =>
    match s.tokens with
    | .flowSequenceEnd :: rest => some (acc.reverse, s.go rest)
    | tokens => do
      let tokens ← if first then some tokens else match tokens with
        | .flowEntry :: rest => some rest
        | _ => none
      match tokens with
      | .flowSequenceEnd :: rest => return (acc.reverse, s.go rest)
      | .key :: rest =>
        let (pair, s) ← flowPair fuel (s.go rest)
        flowSequence fuel false (pair :: acc) s
      | _ =>
        let (n, s) ← node fuel false false (s.go tokens)
        flowSequence fuel false (n :: acc) s

/-- Read a single pair of a flow sequence after its key mark. Where the key is missing, the token
in its place is passed over. -/
def flowPair (fuel : Nat) (s : Composer) : Option (Node × Composer) :=
  match fuel with
  | 0 => none
  | fuel + 1 => do
    let (k, s) ← if s.nextIs [.value, .flowEntry, .flowSequenceEnd] then some (Node.nothing, s.go (s.tokens.drop 1))
      else node fuel false false s
    let (v, s) ← match s.tokens with
      | .value :: rest =>
        let s := s.go rest
        if s.nextIs [.flowEntry, .flowSequenceEnd] then some (Node.nothing, s) else node fuel false false s
      | _ => some (Node.nothing, s)
    return (.mapping none [(k, v)], s)

def flowMapping (fuel : Nat) (first : Bool) (acc : List (Node × Node)) (s : Composer) :
    Option (List (Node × Node) × Composer) :=
  match fuel with
  | 0 => none
  | fuel + 1 =>
    match s.tokens with
    | .flowMappingEnd :: rest => some (acc.reverse, s.go rest)
    | tokens => do
      let tokens ← if first then some tokens else match tokens with
        | .flowEntry :: rest => some rest
        | _ => none
      match tokens with
      | .flowMappingEnd :: rest => return (acc.reverse, s.go rest)
      | .key :: rest =>
        let s := s.go rest
        let (k, s) ← if s.nextIs [.value, .flowEntry, .flowMappingEnd] then some (Node.nothing, s)
          else node fuel false false s
        let (v, s) ← match s.tokens with
          | .value :: rest =>
            let s := s.go rest
            if s.nextIs [.flowEntry, .flowMappingEnd] then some (Node.nothing, s) else node fuel false false s
          | _ => some (Node.nothing, s)
        flowMapping fuel false ((k, v) :: acc) s
      | _ =>
        let (k, s) ← node fuel false false (s.go tokens)
        flowMapping fuel false ((k, Node.nothing) :: acc) s

end

/-- Read the directives at the start of a document: one version, of 1.1 or 1.2, and one meaning
for each handle. -/
def directives (version : Bool) (own : List String) (s : Composer) : List Token → Option Composer
  | .versionDirective major minor :: rest =>
    if version || major ≠ 1 || (minor ≠ 1 && minor ≠ 2) then none else directives true own s rest
  | .tagDirective handle lead :: rest =>
    if own.contains handle then none
    else directives version (handle :: own) { s with handles := s.handles.put handle lead } rest
  | tokens => some (s.go tokens)

/-- Read the content of a document, and the end of the text after it. -/
def content (s : Composer) : Option Document := do
  let (root, s) ← match s.tokens with
    | .documentEnd :: _ | .documentStart :: _ | .streamEnd :: _
    | .versionDirective _ _ :: _ | .tagDirective _ _ :: _ => some (Node.nothing, s)
    | _ => node (3 * s.tokens.length + 8) true false s
  match s.tokens.dropWhile (· = .documentEnd) with
  | [.streamEnd] =>
    let anchored := s.latest.entries.filterMap fun (number, place) =>
      (s.finished.get? place).map fun n => (number, n)
    return ⟨some root, Table.ofList anchored⟩
  | _ => none

end Composer

def Document.ofText? (s : String) : Option Document := do
  let tokens ← tokens? s
  let start : Composer := { tokens, handles := Composer.defaultHandles }
  match tokens with
  | [.streamEnd] => return ⟨none, Table.empty⟩
  | .versionDirective _ _ :: _ | .tagDirective _ _ :: _ | .documentStart :: _ =>
    let s ← start.directives false [] tokens
    match s.tokens with
    | .documentStart :: rest => (s.go rest).content
    | _ => none
  | _ => start.content

end ReplicaLoad.Yaml
