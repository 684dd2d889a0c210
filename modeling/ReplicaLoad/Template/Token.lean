-- The pieces of a template. A template is text with tags in it: double braces
-- print an expression, a brace with a percent sign holds a statement, a brace
-- with a hash sign a comment. A dash inside a tag removes the white space on
-- that side of it. `pieces` cuts a template into its texts and the tokens of
-- its tags.
import ReplicaLoad.Decimal.Notation
import ReplicaLoad.Template.Datum
import ReplicaLoad.Text.Blank
import ReplicaLoad.Text.Digits

namespace ReplicaLoad.Template

inductive Token where
  | name (s : String)
  | text (s : String)
  | int (n : Nat)
  | float (x : Float)
  /-- An operator, a bracket or a separator. -/
  | mark (s : String)
  deriving Inhabited

inductive Piece where
  | text (s : String)
  | print (tokens : List Token)
  | statement (tokens : List Token)

namespace Token

def isSpace (c : Char) : Bool := c = ' ' || c = '\t' || c = '\n' || c = '\r' || c = '\x0c'

def startsName (c : Char) : Bool := c.isAlpha || c = '_'

def continuesName (c : Char) : Bool := c.isAlphanum || c = '_'

def longMarks : List String := ["//", "**", "==", "!=", ">=", "<="]

def shortMarks : List Char :=
  ['+', '-', '*', '/', '%', '~', '=', '.', ',', ':', '|', '>', '<', '(', ')', '[', ']', '\x7b', '\x7d']

def mark? : List Char → Option (String × List Char)
  | a :: b :: rest =>
    if longMarks.contains (String.ofList [a, b]) then some (String.ofList [a, b], rest)
    else if shortMarks.contains a then some (String.singleton a, b :: rest) else none
  | [a] => if shortMarks.contains a then some (String.singleton a, []) else none
  | [] => none

def balance (open_ : Int) (m : String) : Int :=
  if m = "(" || m = "[" || m = "\x7b" then open_ + 1
  else if m = ")" || m = "]" || m = "\x7d" then open_ - 1
  else open_

/-! ## Numbers -/

inductive NumberPart where
  | based
  | whole
  | fraction
  | exponent
  | exponentDigits
  deriving DecidableEq

/-- The part of a number that a character begins or goes on with. -/
def NumberPart.next? (base : Nat) (part : NumberPart) (c : Char) : Option NumberPart :=
  if c.isDigit then some (if part = .exponent then .exponentDigits else part)
  else if part = .based && base = 16 && (Text.hexDigit? c).isSome then some part
  else if c = '.' && part = .whole then some .fraction
  else if (c = 'e' || c = 'E') && (part = .whole || part = .fraction) then some .exponent
  else if (c = '+' || c = '-') && part = .exponent then some .exponentDigits
  else if c = '_' then some part
  else none

/-- The longest number at the start of a text, its last part, and the rest. -/
def spanNumber (base : Nat) (part : NumberPart) : List Char → List Char × NumberPart × List Char
  | [] => ([], part, [])
  | c :: rest => match part.next? base c with
    | some next =>
      let (ds, last, rest) := spanNumber base next rest
      (c :: ds, last, rest)
    | none => ([], part, c :: rest)

/-- The value of a decimal with a point or an exponent. -/
def decimal? (ds : List Char) : Option Float := do
  let (n, rest) ← Decimal.readNumeral false ds
  if rest.isEmpty then some n.toFloat else none

/-- Read a number. Underscores may stand between its digits. -/
def readNumber (cs : List Char) : Except Fault (Token × List Char) :=
  let (base, start) := match cs with
    | '0' :: 'b' :: rest | '0' :: 'B' :: rest => (2, rest)
    | '0' :: 'o' :: rest | '0' :: 'O' :: rest => (8, rest)
    | '0' :: 'x' :: rest | '0' :: 'X' :: rest => (16, rest)
    | _ => (10, cs)
  let (ds, last, rest) := spanNumber base (if base = 10 then .whole else .based) start
  if ds.getLast? = some '_' then .error .malformed
  else
    let ds := ds.filter (· ≠ '_')
    if last = .whole || last = .based then
      match Text.digitsIn? base ds with
      | some n => if n < twoTo 128 then .ok (.int n, rest) else .error .malformed
      | none => .error .malformed
    else match decimal? ds with
      | some x => .ok (.float x, rest)
      | none => .error .malformed

/-! ## Quoted texts -/

/-- The characters up to a closing quote and the rest; a backslash takes the character after it
along. -/
def spanQuoted (quote : Char) : List Char → Option (List Char × List Char)
  | [] => none
  | ['\\'] => none
  | '\\' :: c :: rest => (spanQuoted quote rest).map fun (s, rest) => ('\\' :: c :: s, rest)
  | c :: rest =>
    if c = quote then some ([], rest) else (spanQuoted quote rest).map fun (s, rest) => (c :: s, rest)

def escape? : Char → Option Char
  | '\x22' => some '\x22'
  | '\\' => some '\\'
  | '/' => some '/'
  | '\'' => some '\''
  | 'b' => some '\x08'
  | 'f' => some '\x0c'
  | 'n' => some '\n'
  | 'r' => some '\r'
  | 't' => some '\t'
  | _ => none

def unescape : List Char → Option (List Char)
  | [] => some []
  | '\\' :: 'u' :: a :: b :: c :: d :: rest => do
    let n ← Text.digitsIn? 16 [a, b, c, d]
    if n < 0xD800 || 0xDFFF < n then (unescape rest).map (Char.ofNat n :: ·)
    else match rest with
      | '\\' :: 'u' :: e :: f :: g :: h :: rest => do
        let m ← Text.digitsIn? 16 [e, f, g, h]
        if n < 0xDC00 && 0xDC00 ≤ m && m ≤ 0xDFFF then
          (unescape rest).map (Char.ofNat (0x10000 + (n - 0xD800) * 0x400 + (m - 0xDC00)) :: ·)
        else none
      | _ => none
  | '\\' :: c :: rest => do return (← escape? c) :: (← unescape rest)
  | c :: rest => (unescape rest).map (c :: ·)

def readQuoted (quote : Char) (cs : List Char) : Except Fault (Token × List Char) :=
  match spanQuoted quote cs with
  | none => .error .malformed
  | some (s, rest) => match unescape s with
    | some s => .ok (.text (String.ofList s), rest)
    | none => .error .badEscape

/-! ## Tags -/

def read (cs : List Char) : Except Fault (Token × List Char) :=
  match mark? cs with
  | some (m, rest) => .ok (.mark m, rest)
  | none => match cs with
    | '\'' :: rest => readQuoted '\'' rest
    | '\x22' :: rest => readQuoted '\x22' rest
    | c :: rest =>
      if c.isDigit then readNumber (c :: rest)
      else if startsName c then
        let (s, rest) := (c :: rest).span continuesName
        .ok (.name (String.ofList s), rest)
      else .error .malformed
    | [] => .error .malformed

/-- The end of a tag at the start of a text: whether it removes white space, and the rest. -/
def tagEnd? (mark : Char) : List Char → Option (Bool × List Char)
  | '-' :: c :: '\x7d' :: rest => if c = mark then some (true, rest) else none
  | '+' :: c :: '\x7d' :: rest => if c = mark then some (false, rest) else none
  | c :: '\x7d' :: rest => if c = mark then some (false, rest) else none
  | _ => none

/-- The tokens of a tag, whether its end removes white space, and what follows it. The end is looked
for only where no bracket is open. -/
def readTag (mark : Char) (fuel : Nat) (open_ : Int) (cs : List Char) :
    Except Fault (List Token × Bool × List Char) :=
  match fuel with
  | 0 => .error .malformed
  | fuel + 1 =>
    let cs := cs.dropWhile isSpace
    match if open_ = 0 then tagEnd? mark cs else none with
    | some (trims, rest) => .ok ([], trims, rest)
    | none => do
      let (t, rest) ← read cs
      let open_ := match t with
        | .mark m => balance open_ m
        | _ => open_
      let (ts, trims, rest) ← readTag mark fuel open_ rest
      return (t :: ts, trims, rest)

end Token

/-! ## Pieces -/

/-- Whether a tag begins with a brace and a character. -/
def opensTag (c : Char) : Bool := c = '\x7b' || c = '%' || c = '#'

def spanText : List Char → List Char × List Char
  | '\x7b' :: c :: rest =>
    if opensTag c then ([], '\x7b' :: c :: rest)
    else
      let (s, rest) := spanText (c :: rest)
      ('\x7b' :: s, rest)
  | c :: rest =>
    let (s, rest) := spanText rest
    (c :: s, rest)
  | [] => ([], [])

def trimRight (cs : List Char) : List Char := (cs.reverse.dropWhile Text.isBlank).reverse

def trimLeft (cs : List Char) : List Char := cs.dropWhile Text.isBlank

/-- The text inside a tag without the sign at its start. -/
def dropSign : List Char → List Char
  | '-' :: rest => rest
  | '+' :: rest => rest
  | cs => cs

/-- A tag that holds a word and nothing else, read after its opening: whether its end removes white
space, and the rest. -/
def wordTag? (word : String) (cs : List Char) : Option (Bool × List Char) :=
  let cs := (dropSign cs).dropWhile Token.isSpace
  if word.toList.isPrefixOf cs then
    Token.tagEnd? '%' ((cs.drop word.length).dropWhile Token.isSpace)
  else none

/-- The text up to the end of a raw block, whether that end removes white space before and after
it, and the rest. -/
def spanRaw : List Char → Option (List Char × Bool × Bool × List Char)
  | [] => none
  | '\x7b' :: '%' :: rest => match wordTag? "endraw" rest with
    | some (after, tail) => some ([], rest.head? = some '-', after, tail)
    | none => (spanRaw ('%' :: rest)).map fun (s, more) => ('\x7b' :: s, more)
  | c :: rest => (spanRaw rest).map fun (s, more) => (c :: s, more)

/-- What follows a comment, and whether its end removes white space. `before` is the character
before the text. -/
def afterComment? (before : Char) : List Char → Option (Bool × List Char)
  | '#' :: '\x7d' :: rest => some (before = '-', rest)
  | c :: rest => afterComment? c rest
  | [] => none

/-- Cut a template into pieces. `trims` says that white space is to be removed from the next
text. -/
def cut (fuel : Nat) (trims : Bool) (cs : List Char) : Except Fault (List Piece) :=
  match fuel with
  | 0 => .error .malformed
  | fuel + 1 =>
    match cs with
    | [] => .ok []
    | '\x7b' :: '\x7b' :: rest => do
      let (ts, t, rest) ← Token.readTag '\x7d' (rest.length + 1) 0 (dropSign rest)
      return .print ts :: (← cut fuel (trims || t) rest)
    | '\x7b' :: '%' :: rest => match wordTag? "raw" rest with
      | some (trimsInside, rest) => match spanRaw rest with
        | some (s, trimsEnd, t, rest) => do
          let s := if trimsInside then trimLeft s else s
          let s := if trimsEnd then trimRight s else s
          return .text (String.ofList s) :: (← cut fuel (trims || t) rest)
        | none => .error .malformed
      | none => do
        let (ts, t, rest) ← Token.readTag '%' (rest.length + 1) 0 (dropSign rest)
        return .statement ts :: (← cut fuel (trims || t) rest)
    | '\x7b' :: '#' :: rest => match afterComment? '#' rest with
      | some (t, rest) => cut fuel (trims || t) rest
      | none => .error .malformed
    | cs =>
      let (s, rest) := spanText (if trims then trimLeft cs else cs)
      let s := match rest with
        | _ :: _ :: '-' :: _ => trimRight s
        | _ => s
      do return .text (String.ofList s) :: (← cut fuel false rest)

def dropLastBreak (cs : List Char) : List Char :=
  let cs := if cs.getLast? = some '\n' then cs.dropLast else cs
  if cs.getLast? = some '\r' then cs.dropLast else cs

/-- The pieces of a template. One line break at its end does not count. -/
def pieces (source : String) : Except Fault (List Piece) :=
  let cs := dropLastBreak source.toList
  cut (cs.length + 1) false cs

end ReplicaLoad.Template
