-- The tokens of a YAML text. `tokens?` splits a text into tokens, or refuses
-- it. The indentation of a block is the column of its first entry, and the
-- blocks around a position form a stack. A scalar or collection that could turn
-- out to be a key is remembered as a candidate; when a colon follows on the
-- same line, the tokens for the key are put in front of it.
import ReplicaLoad.Yaml.ScalarText
import ReplicaLoad.Yaml.Token

namespace ReplicaLoad.Yaml

structure Candidate where
  /-- The number of tokens before it. -/
  position : Nat
  line : Nat
  column : Nat
  index : Nat
  /-- Whether a key has to begin here, since an entry of the current block does. -/
  required : Bool

structure Lexer where
  cursor : Cursor
  tokens : Array Token := #[]
  /-- The column of the current block, -1 outside of all blocks. -/
  indent : Int := -1
  /-- The columns of the blocks around it. -/
  outer : List Int := []
  /-- Whether a key may begin here. -/
  keyAllowed : Bool := true
  /-- The candidates: that of the innermost flow collection first, that of the block last. -/
  candidates : List (Option Candidate) := [none]

namespace Lexer

def inFlow (l : Lexer) : Bool := l.candidates.length > 1

def emit (l : Lexer) (t : Token) : Lexer := { l with tokens := l.tokens.push t }

def moveTo (l : Lexer) (c : Cursor) : Lexer := { l with cursor := c }

def pass (l : Lexer) (n : Nat) : Lexer := l.moveTo (l.cursor.advance n)

def allowKey (l : Lexer) (allowed : Bool) : Lexer := { l with keyAllowed := allowed }

/-- Drop the candidates that are on an earlier line or more than 1024 characters back. A required
one may not be dropped. -/
def dropStale (l : Lexer) : Option Lexer := do
  let keep (k : Option Candidate) : Option (Option Candidate) :=
    match k with
    | none => some none
    | some k =>
      if k.line < l.cursor.line || k.index + 1024 < l.cursor.index then
        if k.required then none else some none
      else some (some k)
  let candidates ← l.candidates.mapM keep
  return { l with candidates }

def dropCandidate (l : Lexer) : Option Lexer :=
  match l.candidates with
  | some k :: rest => if k.required then none else some { l with candidates := none :: rest }
  | _ => some l

/-- Remember the next token as a candidate, if a key is allowed there. -/
def addCandidate (l : Lexer) : Option Lexer :=
  if l.keyAllowed then do
    let l ← l.dropCandidate
    let c := l.cursor
    let required := !l.inFlow && l.indent = c.column
    return { l with
      candidates := some ⟨l.tokens.size, c.line, c.column, c.index, required⟩ :: l.candidates.drop 1 }
  else some l

/-- Open a block at a column, unless the current one is as deep. `position` is the place of its
token among the tokens. -/
def openBlock (l : Lexer) (column : Nat) (position : Nat) (t : Token) : Lexer :=
  if !l.inFlow && l.indent < column then
    { l with
      outer := l.indent :: l.outer
      indent := column
      tokens := l.tokens.insertIdxIfInBounds position t }
  else l

def closeBlocksAfter (l : Lexer) (column : Int) : List Int → Lexer
  | [] => l
  | next :: outer =>
    if column < l.indent then
      closeBlocksAfter { l with tokens := l.tokens.push .blockEnd, indent := next, outer } column outer
    else l

/-- Close the blocks that are deeper than a column. Flow collections have no such blocks. -/
def closeBlocks (l : Lexer) (column : Int) : Lexer :=
  if l.inFlow then l else l.closeBlocksAfter column l.outer

/-- Pass blanks, comments and line breaks. A tab counts as a blank where no key may begin. After a
line break of a block a key may begin. -/
def passSpace : Nat → Lexer → Lexer
  | 0, l => l
  | fuel + 1, l =>
    let c := l.cursor.passWhile fun x => x = ' ' || (x = '\t' && (l.inFlow || !l.keyAllowed))
    let c := if c.sees '#' then c.passLine else c
    if (c.peek.map isBreak).getD false then
      passSpace fuel ((l.moveTo c.nextLine).allowKey (l.keyAllowed || !l.inFlow))
    else l.moveTo c

/-! ## Directives, anchors and tags -/

def readVersionPart (c : Cursor) : Option (Nat × Cursor) :=
  let ds := c.run Char.isDigit
  if ds.isEmpty || ds.length > 9 then none
  else some (ds.foldl (fun n d => 10 * n + (d.toNat - 48)) 0, c.advance ds.length)

/-- Read a tag handle: an exclamation mark, which may be followed by a word and another mark. In a
directive the word has to be closed. -/
def readHandle (directive : Bool) (c : Cursor) : Option (String × Cursor) :=
  if c.sees '!' then
    let word := (c.advance 1).run isWordChar
    let c := c.advance (1 + word.length)
    if c.sees '!' then some (String.ofList (('!' :: word) ++ ['!']), c.advance 1)
    else if directive && !word.isEmpty then none
    else some (String.ofList ('!' :: word), c)
  else none

def isTagChar (verbatim : Bool) (c : Char) : Bool :=
  isWordChar c || ";/?:@&=+$.!~*\x27()%".toList.contains c || (verbatim && ",[]".toList.contains c)

def readEscapedBytes : Nat → Cursor → Option (List UInt8 × Cursor)
  | 0, c => some ([], c)
  | fuel + 1, c =>
    match c.rest with
    | '%' :: a :: b :: _ => do
      let n ← Text.digitsIn? 16 [a, b]
      let (bytes, c) ← readEscapedBytes fuel (c.advance 3)
      return (n.toUInt8 :: bytes, c)
    | '%' :: _ => none
    | _ => some ([], c)

def readTagText (verbatim : Bool) : Nat → List Char → Cursor → Option (List Char × Cursor)
  | 0, acc, c => some (acc, c)
  | fuel + 1, acc, c =>
    match c.peek with
    | none => some (acc, c)
    | some x =>
      if x = '%' then do
        let (bytes, c) ← readEscapedBytes c.rest.length c
        let s ← String.fromUTF8? (ByteArray.mk bytes.toArray)
        readTagText verbatim fuel (acc ++ s.toList) c
      else if isTagChar verbatim x then readTagText verbatim fuel (acc ++ [x]) (c.advance 1)
      else some (acc, c)

def readDirective (c : Cursor) : Option (Token × Cursor) := do
  let c := c.advance 1
  let name := c.run isWordChar
  let c := c.advance name.length
  if name.isEmpty || !c.spaceAt 0 then none
  else
    let c := c.passWhile isBlank
    let (token, c) : Token × Cursor ←
      if name = "YAML".toList then do
        let (major, c) ← readVersionPart c
        if !c.sees '.' then none
        else
          let (minor, c) ← readVersionPart (c.advance 1)
          return (Token.versionDirective major minor, c)
      else if name = "TAG".toList then do
        let (handle, c) ← readHandle true c
        if !((c.peek.map isBlank).getD false) then none
        else
          let c := c.passWhile isBlank
          let (lead, c) ← readTagText true (c.rest.length + 1) [] c
          if lead.isEmpty || !c.spaceAt 0 then none
          else return (Token.tagDirective handle (String.ofList lead), c)
      else none
    let c := c.passWhile isBlank
    let c := if c.sees '#' then c.passLine else c
    if (c.peek.map fun x => !isBreak x).getD false then none
    else return (token, if c.rest.isEmpty then c else c.nextLine)

/-- Read the name of an anchor or alias after its indicator. -/
def readAnchorName (c : Cursor) : Option (String × Cursor) :=
  let name := c.run isWordChar
  let c := c.advance name.length
  let ends := (c.peek.map fun x => isSpace x || "?:,]\x7d%@\x60".toList.contains x).getD true
  if name.isEmpty || !ends then none else some (String.ofList name, c)

/-- Read a tag: verbatim between angle brackets, or a handle and a suffix. -/
def readTag (flow : Bool) (c : Cursor) : Option (Token × Cursor) := do
  let (token, c) : Token × Cursor ←
    if c.peekAt 1 = some '<' then do
      let (text, c) ← readTagText true (c.rest.length + 1) [] (c.advance 2)
      if text.isEmpty || !c.sees '>' then none
      else return (Token.tag "" (String.ofList text), c.advance 1)
    else do
      let (handle, c) ← readHandle false c
      if handle.length > 1 && handle.toList.getLast? = some '!' then
        let (suffix, c) ← readTagText false (c.rest.length + 1) [] c
        if suffix.isEmpty then none else return (Token.tag handle (String.ofList suffix), c)
      else
        let (suffix, c) ← readTagText false (c.rest.length + 1) (handle.toList.drop 1) c
        if suffix.isEmpty then return (Token.tag "" "!", c)
        else return (Token.tag "!" (String.ofList suffix), c)
  if c.spaceAt 0 || (flow && c.sees ',') then return (token, c) else none

/-! ## One token -/

def openFlow (l : Lexer) (t : Token) : Option Lexer := do
  let l ← l.addCandidate
  return (({ l with candidates := none :: l.candidates }.allowKey true).emit t).pass 1

def closeFlow (l : Lexer) (t : Token) : Option Lexer := do
  let l ← l.dropCandidate
  let candidates := match l.candidates with
    | [only] => [only]
    | _ :: rest => rest
    | [] => []
  return (({ l with candidates }.allowKey false).emit t).pass 1

def blockEntry (l : Lexer) : Option Lexer := do
  if !l.inFlow && !l.keyAllowed then none
  else
    let l := l.openBlock l.cursor.column l.tokens.size .blockSequenceStart
    let l ← l.dropCandidate
    return ((l.allowKey true).emit .blockEntry).pass 1

def explicitKey (l : Lexer) : Option Lexer := do
  if !l.inFlow && !l.keyAllowed then none
  else
    let l := l.openBlock l.cursor.column l.tokens.size .blockMappingStart
    let l ← l.dropCandidate
    return ((l.allowKey (!l.inFlow)).emit .key).pass 1

/-- A colon before a value. If there is a candidate, it was the key. -/
def valueMark (l : Lexer) : Option Lexer :=
  match l.candidates with
  | some k :: rest =>
    let l := { l with
      candidates := none :: rest
      tokens := l.tokens.insertIdxIfInBounds k.position .key }
    let l := l.openBlock k.column k.position .blockMappingStart
    some (((l.allowKey false).emit .value).pass 1)
  | _ =>
    if !l.inFlow && !l.keyAllowed then none
    else
      let l := l.openBlock l.cursor.column l.tokens.size .blockMappingStart
      some (((l.allowKey (!l.inFlow)).emit .value).pass 1)

/-- A directive or document marker, which ends all blocks. -/
def outside (l : Lexer) : Option Lexer := do
  let l ← (l.closeBlocks (-1)).dropCandidate
  return l.allowKey false

/-- A token that a reader makes, which can begin a key. -/
def keyToken (l : Lexer) (read : Cursor → Option (Token × Cursor)) : Option Lexer := do
  let l ← l.addCandidate
  let (t, c) ← read l.cursor
  return ((l.allowKey false).emit t).moveTo c

/-- A plain scalar. After a line break in its trailing space a key may begin. -/
def plainScalar (l : Lexer) : Option Lexer := do
  let l ← l.addCandidate
  let c := l.cursor
  let (text, broken, c) ← readPlain l.inFlow (l.indent + 1).toNat (c.rest.length + 1) [] {} c
  return ((l.allowKey broken).emit (.scalar .plain (String.ofList text))).moveTo c

def blockScalar (l : Lexer) (literal : Bool) : Option Lexer := do
  let l ← l.dropCandidate
  let (text, c) ← readBlock literal l.indent (l.cursor.advance 1)
  let style := if literal then Style.literal else Style.folded
  return ((l.allowKey true).emit (.scalar style (String.ofList text))).moveTo c

def quotedScalar (single : Bool) (c : Cursor) : Option (Token × Cursor) := do
  let (text, c) ← readQuoted single (c.rest.length + 1) [] (c.advance 1)
  return (.scalar .quoted (String.ofList text), c)

/-- Whether a plain scalar can begin with a character before `next`. -/
def beginsPlain (flow : Bool) (x : Char) (next : Option Char) : Bool :=
  if "-?:,[]\x7b\x7d#&*!|>\x27\x22%@\x60".toList.contains x then
    (x = '-' && !(next.map Yaml.isBlank).getD false)
      || (!flow && (x = '?' || x = ':') && !(next.map isSpace).getD true)
  else !isSpace x

/-- Read the next token, with everything that goes before it. -/
def next (l : Lexer) : Option Lexer := do
  let l ← (l.passSpace (l.cursor.rest.length + 1)).dropStale
  let l := l.closeBlocks l.cursor.column
  let c := l.cursor
  match c.peek with
  | none => return (← l.outside).emit .streamEnd
  | some x =>
    if c.column = 0 && x = '%' then
      let l ← l.outside
      let (t, c) ← readDirective l.cursor
      return (l.emit t).moveTo c
    else if c.atMarker then
      return ((← l.outside).emit (if x = '-' then .documentStart else .documentEnd)).pass 3
    else if x = '[' then l.openFlow .flowSequenceStart
    else if x = '\x7b' then l.openFlow .flowMappingStart
    else if x = ']' then l.closeFlow .flowSequenceEnd
    else if x = '\x7d' then l.closeFlow .flowMappingEnd
    else if x = ',' then return (((← l.dropCandidate).allowKey true).emit .flowEntry).pass 1
    else if x = '-' && c.spaceAt 1 then l.blockEntry
    else if x = '?' && (l.inFlow || c.spaceAt 1) then l.explicitKey
    else if x = ':' && (l.inFlow || c.spaceAt 1) then l.valueMark
    else if x = '*' then
      l.keyToken fun c => (readAnchorName (c.advance 1)).map fun (n, c) => (.alias n, c)
    else if x = '&' then
      l.keyToken fun c => (readAnchorName (c.advance 1)).map fun (n, c) => (.anchor n, c)
    else if x = '!' then l.keyToken (readTag l.inFlow)
    else if x = '|' && !l.inFlow then l.blockScalar true
    else if x = '>' && !l.inFlow then l.blockScalar false
    else if x = '\x27' then l.keyToken (quotedScalar true)
    else if x = '\x22' then l.keyToken (quotedScalar false)
    else if beginsPlain l.inFlow x (c.peekAt 1) then l.plainScalar
    else none

def readAll : Nat → Lexer → Option (List Token)
  | 0, _ => none
  | fuel + 1, l => do
    let l ← l.next
    if l.tokens.back? = some .streamEnd then some l.tokens.toList else readAll fuel l

end Lexer

/-- The tokens of a text. A mark of the byte order at its start is passed over. -/
def tokens? (s : String) : Option (List Token) :=
  let cs := match s.toList with
    | '\ufeff' :: rest => rest
    | cs => cs
  if cs.all isAllowed then Lexer.readAll (cs.length + 2) { cursor := { rest := cs } } else none

end ReplicaLoad.Yaml
