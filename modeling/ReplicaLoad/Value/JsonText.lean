-- JSON text. Values as JSON: `Value.compact` without blanks, `Value.pretty`
-- with one entry a line. Numbers that JSON cannot hold are written as `null`.
import ReplicaLoad.Decimal.Notation
import ReplicaLoad.Value.Basic

namespace ReplicaLoad

def hexDigit (n : Nat) : Char := if n < 10 then Char.ofNat (48 + n) else Char.ofNat (87 + n)

namespace Json

/-- Floating point numbers in JSON have a point or an exponent with a sign, and are positional
while the exponent of the leading digit is between -5 and 15. -/
def numbers : Decimal.Notation where
  plainFrom := -5
  plainBelow := 16
  plusSign := true
  tie := .toEven
  nan := "null"
  infinite := "null"

def number (x : Float) : String := if Decimal.isFinite x then numbers.render x else "null"

def escape (c : Char) : List Char :=
  match c with
  | '\x22' => ['\\', '\x22']
  | '\\' => ['\\', '\\']
  | '\x08' => ['\\', 'b']
  | '\x0c' => ['\\', 'f']
  | '\n' => ['\\', 'n']
  | '\r' => ['\\', 'r']
  | '\t' => ['\\', 't']
  | _ =>
    if c.toNat < 0x20 then
      ['\\', 'u', '0', '0', hexDigit (c.toNat / 16), hexDigit (c.toNat % 16)]
    else [c]

def quoted (s : String) : String := "\"" ++ String.ofList (s.toList.flatMap escape) ++ "\""

def newline (depth : Nat) : String := "\n" ++ String.ofList (List.replicate (2 * depth) ' ')

end Json

namespace Value

mutual

def compact : Value → String
  | null => "null"
  | bool b => if b then "true" else "false"
  | int n => toString n
  | float x => Json.number x
  | text s => Json.quoted s
  | list items => "[" ++ compactItems items ++ "]"
  | dict entries => "\x7b" ++ compactEntries entries ++ "\x7d"

def compactItems : List Value → String
  | [] => ""
  | [v] => compact v
  | v :: rest => compact v ++ "," ++ compactItems rest

def compactEntries : List (String × Value) → String
  | [] => ""
  | [(k, v)] => Json.quoted k ++ ":" ++ compact v
  | (k, v) :: rest => Json.quoted k ++ ":" ++ compact v ++ "," ++ compactEntries rest

end

mutual

/-- JSON with one entry a line, indented by two blanks a level. -/
def pretty (depth : Nat) : Value → String
  | list [] => "[]"
  | dict [] => "\x7b\x7d"
  | list items => "[" ++ prettyItems (depth + 1) items ++ Json.newline depth ++ "]"
  | dict entries => "\x7b" ++ prettyEntries (depth + 1) entries ++ Json.newline depth ++ "\x7d"
  | null => compact null
  | bool b => compact (bool b)
  | int n => compact (int n)
  | float x => compact (float x)
  | text s => compact (text s)

def prettyItems (depth : Nat) : List Value → String
  | [] => ""
  | [v] => Json.newline depth ++ pretty depth v
  | v :: rest => Json.newline depth ++ pretty depth v ++ "," ++ prettyItems depth rest

def prettyEntries (depth : Nat) : List (String × Value) → String
  | [] => ""
  | [(k, v)] => Json.newline depth ++ Json.quoted k ++ ": " ++ pretty depth v
  | (k, v) :: rest =>
    Json.newline depth ++ Json.quoted k ++ ": " ++ pretty depth v ++ "," ++ prettyEntries depth rest

end

end Value

end ReplicaLoad
