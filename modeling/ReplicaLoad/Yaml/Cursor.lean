-- Positions in a YAML text. The rest of a text with the line, column and index
-- at which it begins, and the classes of characters that the syntax of YAML
-- distinguishes.

namespace ReplicaLoad.Yaml

structure Cursor where
  rest : List Char
  line : Nat := 0
  column : Nat := 0
  index : Nat := 0

def isAllowed (c : Char) : Bool :=
  let n := c.toNat
  n = 0x09 || n = 0x0A || n = 0x0D || (0x20 ≤ n && n ≤ 0x7E) || n = 0x85 || (0xA0 ≤ n && n ≤ 0xD7FF)
    || (0xE000 ≤ n && n ≤ 0xFFFD) || 0x10000 ≤ n

def isBlank (c : Char) : Bool := c = ' ' || c = '\t'

/-- A line break, of which two characters can make one. -/
def isBreak (c : Char) : Bool :=
  c = '\n' || c = '\r' || c.toNat = 0x85 || c.toNat = 0x2028 || c.toNat = 0x2029

def isSpace (c : Char) : Bool := isBlank c || isBreak c

def isWordChar (c : Char) : Bool := c.isAlphanum || c = '-' || c = '_'

namespace Cursor

def peek (c : Cursor) : Option Char := c.rest.head?

def peekAt (c : Cursor) (n : Nat) : Option Char := c.rest[n]?

def sees (c : Cursor) (x : Char) : Bool := c.peek = some x

/-- Whether the character some places further is a space, a break or the end. -/
def spaceAt (c : Cursor) (n : Nat) : Bool := ((c.peekAt n).map isSpace).getD true

def advance (c : Cursor) (n : Nat) : Cursor :=
  { c with rest := c.rest.drop n, column := c.column + n, index := c.index + n }

def passWhile (p : Char → Bool) (c : Cursor) : Cursor := c.advance (c.rest.takeWhile p).length

def run (p : Char → Bool) (c : Cursor) : List Char := c.rest.takeWhile p

def nextLine (c : Cursor) : Cursor :=
  let n := match c.rest with
    | '\r' :: '\n' :: _ => 2
    | _ => 1
  { rest := c.rest.drop n, line := c.line + 1, column := 0, index := c.index + n }

/-- The line break at the cursor as it stands in a value: all forms are one newline, but for the
line and paragraph separators, which stand for themselves. -/
def breakText (c : Cursor) : List Char :=
  match c.peek with
  | some x => if x.toNat = 0x2028 || x.toNat = 0x2029 then [x] else ['\n']
  | none => []

def passLine (c : Cursor) : Cursor := c.passWhile fun x => !isBreak x

/-- Whether a document marker begins here: three dashes or three dots at the start of a line, with
a space after them. -/
def atMarker (c : Cursor) : Bool :=
  c.column = 0 && (['-', '-', '-'].isPrefixOf c.rest || ['.', '.', '.'].isPrefixOf c.rest) && c.spaceAt 3

end Cursor

end ReplicaLoad.Yaml
