-- The text of scalars. How the text of a scalar is read: plain, in single or
-- double quotes, or as a block. Line breaks inside a scalar are folded: one
-- break becomes a space, and of several the first one is dropped.
import ReplicaLoad.Text.Digits
import ReplicaLoad.Yaml.Cursor

namespace ReplicaLoad.Yaml

structure Gap where
  /-- Blanks on the line of the first piece, if there is no break. -/
  blanks : List Char := []
  /-- Whether there was a line break. -/
  broken : Bool := false
  /-- The first line break. -/
  leading : List Char := []
  /-- The further line breaks. -/
  trailing : List Char := []

def Gap.text (g : Gap) : List Char :=
  if g.broken then
    if g.leading.head? = some '\n' then (if g.trailing.isEmpty then [' '] else g.trailing)
    else g.leading ++ g.trailing
  else g.blanks

/-- Read the white space at the cursor into a gap. With `tabColumn` a tab before that column of a
later line is an error. -/
def readGap (tabColumn : Option Nat) : Nat → Gap → Cursor → Option (Gap × Cursor)
  | 0, g, c => some (g, c)
  | fuel + 1, g, c =>
    match c.peek with
    | none => some (g, c)
    | some x =>
      if isBlank x then
        let early : Bool := (tabColumn.map fun column => decide (c.column < column)).getD false
        if g.broken && x = '\t' && early then none
        else
          let g := if g.broken then g else { g with blanks := g.blanks ++ [x] }
          readGap tabColumn fuel g (c.advance 1)
      else if isBreak x then
        let g := if g.broken then { g with trailing := g.trailing ++ c.breakText }
          else { g with broken := true, leading := c.breakText }
        readGap tabColumn fuel g c.nextLine
      else some (g, c)

/-! ## Plain scalars -/

/-- Whether a character ends an item of a flow collection. -/
def isFlowEnd (c : Char) : Bool := c = ',' || c = '[' || c = ']' || c = '\x7b' || c = '\x7d'

/-- The characters of a plain scalar up to the next white space or the end of the scalar. -/
def plainPiece (flow : Bool) : List Char → Option (List Char)
  | [] => some []
  | c :: rest =>
    if isSpace c then some []
    else if flow && c = ':' && (rest.head?.map fun x => isFlowEnd x || x = '?').getD false then none
    else if c = ':' && (rest.head?.map isSpace).getD true then some []
    else if flow && isFlowEnd c then some []
    else (plainPiece flow rest).map (c :: ·)

/-- Read a plain scalar. `gap` is the white space before the cursor, which belongs to the scalar
only if another piece follows. The result also says whether a line break came at the end. -/
def readPlain (flow : Bool) (indent : Nat) :
    Nat → List Char → Gap → Cursor → Option (List Char × Bool × Cursor)
  | 0, _, _, _ => none
  | fuel + 1, acc, gap, c =>
    if c.atMarker || c.sees '#' then some (acc, gap.broken, c)
    else do
      let piece ← plainPiece flow c.rest
      let (acc, gap) := if piece.isEmpty then (acc, gap) else (acc ++ gap.text ++ piece, {})
      let c := c.advance piece.length
      if (c.peek.map isSpace).getD false then
        let (gap, c) ← readGap (some indent) (c.rest.length + 1) gap c
        if !flow && c.column < indent then some (acc, gap.broken, c)
        else readPlain flow indent fuel acc gap c
      else some (acc, gap.broken, c)

/-! ## Quoted scalars -/

def escapeLetter? (c : Char) : Option Char :=
  match c with
  | '0' => some '\x00'
  | 'a' => some '\x07'
  | 'b' => some '\x08'
  | 't' => some '\t'
  | '\t' => some '\t'
  | 'n' => some '\n'
  | 'v' => some '\x0b'
  | 'f' => some '\x0c'
  | 'r' => some '\r'
  | 'e' => some '\x1b'
  | ' ' => some ' '
  | '\x22' => some '\x22'
  | '/' => some '/'
  | '\\' => some '\\'
  | 'N' => some '\u0085'
  | '_' => some '\u00a0'
  | 'L' => some '\u2028'
  | 'P' => some '\u2029'
  | _ => none

def escapeDigits? (c : Char) : Option Nat :=
  match c with
  | 'x' => some 2
  | 'u' => some 4
  | 'U' => some 8
  | _ => none

inductive PieceEnd where
  | closed
  | space
  | foldedBreak

/-- Read a piece of a quoted scalar: up to white space, to the closing quote, or to a break that a
backslash hides. -/
def quotedPiece (single : Bool) : Nat → List Char → Cursor → Option (List Char × PieceEnd × Cursor)
  | 0, _, _ => none
  | fuel + 1, acc, c =>
    match c.rest with
    | [] => some (acc, .space, c)
    | x :: rest =>
      if isSpace x then some (acc, .space, c)
      else if single && x = '\x27' then
        if rest.head? = some '\x27' then quotedPiece single fuel (acc ++ ['\x27']) (c.advance 2)
        else some (acc, .closed, c)
      else if !single && x = '\x22' then some (acc, .closed, c)
      else if !single && x = '\\' then
        match rest with
        | [] => none
        | y :: digits =>
          if isBreak y then some (acc, .foldedBreak, (c.advance 1).nextLine)
          else match escapeLetter? y, escapeDigits? y with
            | some e, _ => quotedPiece single fuel (acc ++ [e]) (c.advance 2)
            | none, some n => do
              let ds := digits.take n
              if ds.length < n then none
              else
                let e ← Text.charOfCode? (← Text.digitsIn? 16 ds)
                quotedPiece single fuel (acc ++ [e]) (c.advance (2 + n))
            | none, none => none
      else quotedPiece single fuel (acc ++ [x]) (c.advance 1)

def readQuoted (single : Bool) : Nat → List Char → Cursor → Option (List Char × Cursor)
  | 0, _, _ => none
  | fuel + 1, acc, c =>
    if c.atMarker || c.rest.isEmpty then none
    else do
      let (acc, ending, c) ← quotedPiece single (c.rest.length + 1) acc c
      match ending with
      | .closed => some (acc, c.advance 1)
      | .space =>
        let (gap, c) ← readGap none (c.rest.length + 1) {} c
        readQuoted single fuel (acc ++ gap.text) c
      | .foldedBreak =>
        if c.sees (if single then '\x27' else '\x22') then some (acc, c.advance 1)
        else
          let (gap, c) ← readGap none (c.rest.length + 1) { broken := true } c
          readQuoted single fuel (acc ++ gap.text) c

/-! ## Block scalars -/

/-- What happens to the line breaks at the end of a block. -/
inductive Chomping where
  | strip
  | clip
  | keep
  deriving DecidableEq

def chomping? (c : Option Char) : Option Chomping :=
  match c with
  | some '+' => some .keep
  | some '-' => some .strip
  | _ => none

/-- Read the header of a block after its indicator: chomping and indentation in either order. -/
def readBlockHeader (c : Cursor) : Option (Chomping × Option Nat × Cursor) :=
  let digit (c : Cursor) : Option (Option Nat × Cursor) :=
    match c.peek with
    | some x =>
      if x = '0' then none
      else if x.isDigit then some (some (x.toNat - 48), c.advance 1)
      else some (none, c)
    | none => some (none, c)
  match chomping? c.peek with
  | some chomping => do
    let (increment, c) ← digit (c.advance 1)
    return (chomping, increment, c)
  | none => do
    let (increment, c) ← digit c
    match increment, chomping? c.peek with
    | some _, some chomping => return (chomping, increment, c.advance 1)
    | _, _ => return (.clip, increment, c)

/-- Pass the empty lines of a block and the indentation of the line after them. An indentation of
zero is not known yet; `deepest` is the greatest one seen. A tab in the indentation is an error. -/
def readBlockBreaks (indent : Nat) : Nat → Nat → List Char → Cursor → Option (Nat × List Char × Cursor)
  | 0, _, _, _ => none
  | fuel + 1, deepest, breaks, c =>
    let spaces := (c.rest.takeWhile (· = ' ')).length
    let spaces := if indent = 0 then spaces else min spaces (indent - c.column)
    let c := c.advance spaces
    let deepest := max deepest c.column
    if (indent = 0 || c.column < indent) && c.sees '\t' then none
    else if (c.peek.map isBreak).getD false then
      readBlockBreaks indent fuel deepest (breaks ++ c.breakText) c.nextLine
    else some (deepest, breaks, c)

structure Block where
  text : List Char := []
  /-- The break after the last line. -/
  leading : List Char := []
  /-- The breaks of the empty lines after it. -/
  trailing : List Char := []
  /-- Whether the last line began with a blank. -/
  indented : Bool := false

def Block.addLine (literal : Bool) (b : Block) (line lineBreak : List Char) : Block :=
  let blank := (line.head?.map Yaml.isBlank).getD false
  let joined := !literal && b.leading.head? = some '\n' && !b.indented && !blank
  let between :=
    if joined then (if b.trailing.isEmpty then [' '] else b.trailing) else b.leading ++ b.trailing
  ⟨b.text ++ between ++ line, lineBreak, [], blank⟩

/-- Read the lines of a block that are indented as deep as the first one. -/
def readBlockLines (literal : Bool) (indent : Nat) : Nat → Block → Cursor → Option (Block × Cursor)
  | 0, _, _ => none
  | fuel + 1, b, c =>
    if c.column = indent && !c.rest.isEmpty then do
      let line := c.run fun x => !isBreak x
      let c := c.advance line.length
      let b := b.addLine literal line c.breakText
      let c := if c.rest.isEmpty then c else c.nextLine
      let (_, trailing, c) ← readBlockBreaks indent (c.rest.length + 1) 0 [] c
      readBlockLines literal indent fuel { b with trailing } c
    else some (b, c)

/-- Read a block scalar after its indicator, inside a block at `parent` columns, which is negative
at the top of a document. -/
def readBlock (literal : Bool) (parent : Int) (c : Cursor) : Option (List Char × Cursor) := do
  let (chomping, increment, c) ← readBlockHeader c
  let c := c.passWhile isBlank
  let c := if c.sees '#' then c.passLine else c
  if (c.peek.map fun x => !isBreak x).getD false then none
  else
    let c := if c.rest.isEmpty then c else c.nextLine
    let fixed := match increment with
      | some n => (max parent 0).toNat + n
      | none => 0
    let (deepest, breaks, c) ← readBlockBreaks fixed (c.rest.length + 1) 0 [] c
    let indent := if fixed = 0 then max deepest (max (parent + 1).toNat 1) else fixed
    let (b, c) ← readBlockLines literal indent (c.rest.length + 1) { trailing := breaks } c
    let tail := match chomping with
      | .strip => []
      | .clip => b.leading
      | .keep => b.leading ++ b.trailing
    return (b.text ++ tail, c)

end ReplicaLoad.Yaml
