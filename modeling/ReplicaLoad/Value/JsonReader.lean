-- Reading JSON. `Json.read?` takes a whole text. Whole numbers from -2^63 up to
-- 2^64 - 1 are read exactly, all other numbers as floating point. Of two
-- entries with one key the later one counts. Lists and dictionaries nest at
-- most 127 deep.
import ReplicaLoad.Decimal.Notation
import ReplicaLoad.Text.Digits
import ReplicaLoad.Value.Basic

namespace ReplicaLoad.Json

def skipBlanks (cs : List Char) : List Char :=
  cs.dropWhile fun c => c = ' ' || c = '\n' || c = '\r' || c = '\t'

def readFour : List Char → Option (Nat × List Char)
  | a :: b :: c :: d :: rest => (Text.digitsIn? 16 [a, b, c, d]).map fun n => (n, rest)
  | _ => none

def unescape? : Char → Option Char
  | '\x22' => some '\x22'
  | '\\' => some '\\'
  | '/' => some '/'
  | 'b' => some '\x08'
  | 'f' => some '\x0c'
  | 'n' => some '\n'
  | 'r' => some '\r'
  | 't' => some '\t'
  | _ => none

/-- Read a quoted text after its opening quote; `acc` holds its characters, last one first. -/
def readText : Nat → List Char → List Char → Option (String × List Char)
  | 0, _, _ => none
  | _, _, [] => none
  | _ + 1, acc, '\x22' :: rest => some (String.ofList acc.reverse, rest)
  | fuel + 1, acc, '\\' :: 'u' :: rest => do
    let (n, rest) ← readFour rest
    if 0xD800 ≤ n && n < 0xDC00 then
      match rest with
      | '\\' :: 'u' :: rest =>
        let (m, rest) ← readFour rest
        if 0xDC00 ≤ m && m < 0xE000 then
          readText fuel (Char.ofNat (0x10000 + (n - 0xD800) * 0x400 + (m - 0xDC00)) :: acc) rest
        else none
      | _ => none
    else if 0xDC00 ≤ n && n < 0xE000 then none
    else readText fuel (Char.ofNat n :: acc) rest
  | fuel + 1, acc, '\\' :: c :: rest => do
    let c ← unescape? c
    readText fuel (c :: acc) rest
  | fuel + 1, acc, c :: rest => if c.toNat < 0x20 || c = '\\' then none else readText fuel (c :: acc) rest

def numeralValue (n : Decimal.Numeral) : Value :=
  let exact : Option Int :=
    if n.fraction.isSome || n.exponent.isSome then none
    else
      let v := Decimal.digitsValue 0 n.whole
      if n.negative then if 0 < v && v ≤ twoTo 63 then some (-v) else none
      else if v < twoTo 64 then some v else none
  match exact with
  | some i => .int i
  | none => .float n.toFloat

/-- Read a number. It has no leading zeros, and digits on both sides of its point. -/
def readNumber (cs : List Char) : Option (Value × List Char) := do
  let (negative, rest) := match cs with
    | '-' :: rest => (true, rest)
    | _ => (false, cs)
  let (n, rest) ← Decimal.readNumeral negative rest
  if n.whole.isEmpty || n.fraction = some [] then none
  else if n.whole.length > 1 && n.whole.head? = some '0' then none
  else if Decimal.isFinite n.toFloat then some (numeralValue n, rest)
  else none

def expect (word : String) (cs : List Char) : Option (List Char) :=
  if word.toList.isPrefixOf cs then some (cs.drop word.length) else none

mutual

def readValue (fuel depth : Nat) (cs : List Char) : Option (Value × List Char) :=
  match fuel, depth with
  | 0, _ => none
  | fuel + 1, depth =>
    match skipBlanks cs with
    | 'n' :: rest => (expect "ull" rest).map fun r => (.null, r)
    | 't' :: rest => (expect "rue" rest).map fun r => (.bool true, r)
    | 'f' :: rest => (expect "alse" rest).map fun r => (.bool false, r)
    | '\x22' :: rest => (readText (rest.length + 1) [] rest).map fun (s, r) => (.text s, r)
    | '[' :: rest =>
      if depth = 0 then none
      else match skipBlanks rest with
        | ']' :: rest => some (.list [], rest)
        | rest => readItems fuel (depth - 1) [] rest
    | '\x7b' :: rest =>
      if depth = 0 then none
      else match skipBlanks rest with
        | '\x7d' :: rest => some (.dict [], rest)
        | rest => readEntries fuel (depth - 1) [] rest
    | cs => readNumber cs

/-- Read the items of a list, the earlier ones in `acc`, last one first. -/
def readItems (fuel depth : Nat) (acc : List Value) (cs : List Char) : Option (Value × List Char) :=
  match fuel with
  | 0 => none
  | fuel + 1 => do
    let (v, rest) ← readValue fuel depth cs
    match skipBlanks rest with
    | ',' :: rest => readItems fuel depth (v :: acc) rest
    | ']' :: rest => return (.list (v :: acc).reverse, rest)
    | _ => none

/-- Read the entries of a dictionary, the earlier ones in `acc`. -/
def readEntries (fuel depth : Nat) (acc : Dict) (cs : List Char) : Option (Value × List Char) :=
  match fuel with
  | 0 => none
  | fuel + 1 =>
    match skipBlanks cs with
    | '\x22' :: rest => do
      let (k, rest) ← readText (rest.length + 1) [] rest
      let rest ← expect ":" (skipBlanks rest)
      let (v, rest) ← readValue fuel depth rest
      match skipBlanks rest with
      | ',' :: rest => readEntries fuel depth (acc.insert k v) rest
      | '\x7d' :: rest => return (.dict (acc.insert k v), rest)
      | _ => none
    | _ => none

end

def read? (s : String) : Option Value := do
  let cs := s.toList
  let (v, rest) ← readValue (2 * cs.length + 2) 127 cs
  if (skipBlanks rest).isEmpty then some v else none

end ReplicaLoad.Json
