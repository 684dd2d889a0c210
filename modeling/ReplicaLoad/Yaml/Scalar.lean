-- The meaning of scalars. Which plain scalars are null, booleans, whole numbers
-- or floating point numbers. Everything else is a text.
import ReplicaLoad.Decimal.Notation
import ReplicaLoad.Value.Basic
import ReplicaLoad.Yaml.ScalarText
import ReplicaLoad.Yaml.Token

namespace ReplicaLoad.Yaml

/-- The plain scalars for null, apart from the empty one. -/
def isNullWord (s : String) : Bool := s = "null" || s = "Null" || s = "NULL" || s = "~"

def boolWord? (s : String) : Option Bool :=
  if s = "true" || s = "True" || s = "TRUE" then some true
  else if s = "false" || s = "False" || s = "FALSE" then some false
  else none

/-- Digits after a leading zero, which make a text and no number. -/
def isPaddedNumber (cs : List Char) : Bool :=
  match cs with
  | '0' :: rest => !rest.isEmpty && rest.all Char.isDigit
  | _ => false

/-- The value of a whole number without a sign: decimal, or with a base in front. -/
def wholeNumber? (cs : List Char) : Option Nat :=
  let based := match cs with
    | '0' :: 'x' :: rest => Text.digitsIn? 16 rest
    | '0' :: 'o' :: rest => Text.digitsIn? 8 rest
    | '0' :: 'b' :: rest => Text.digitsIn? 2 rest
    | _ => none
  match based with
  | some n => some n
  | none => if isPaddedNumber cs then none else Text.digitsIn? 10 cs

def natural? (s : String) : Option Nat :=
  match s.toList with
  | '+' :: rest => wholeNumber? rest
  | cs => wholeNumber? cs

def negative? (s : String) : Option Int :=
  match s.toList with
  | '-' :: rest => (wholeNumber? rest).map fun n => -(n : Int)
  | _ => none

/-- The value of a decimal with digits on at least one side of its point. -/
def finiteFloat? (cs : List Char) : Option Float := do
  let (negative, rest) := match cs with
    | '-' :: rest => (true, rest)
    | '+' :: rest => (false, rest)
    | _ => (false, cs)
  let (n, rest) ← Decimal.readNumeral negative rest
  if !rest.isEmpty || (n.whole.isEmpty && (n.fraction.getD []).isEmpty) then none
  else if Decimal.isFinite n.toFloat then some n.toFloat
  else none

def isInfinity (s : String) : Bool := s = ".inf" || s = ".Inf" || s = ".INF"

def float? (s : String) : Option Float :=
  let unsigned := match s.toList with
    | '+' :: rest => String.ofList rest
    | _ => s
  if isInfinity unsigned then some (1.0 / 0.0)
  else if s = "-.inf" || s = "-.Inf" || s = "-.INF" then some (-(1.0 / 0.0))
  else if s = ".nan" || s = ".NaN" || s = ".NAN" then some (0.0 / 0.0)
  else match s.toList with
    | '+' :: '+' :: _ | '+' :: '-' :: _ => none
    | _ => finiteFloat? unsigned.toList

/-- The value of a scalar that is a whole number: `none` if it is none, and no value if it fits in
64 bits neither with nor without a sign. Beyond 128 bits it counts as no whole number. -/
def whole? (s : String) : Option (Option Value) :=
  match natural? s, negative? s with
  | some n, _ =>
    if n < twoTo 64 then some (some (.int n)) else if n < twoTo 128 then some none else none
  | none, some i =>
    if -(twoTo 63 : Int) ≤ i then some (some (.int i))
    else if -(twoTo 127 : Int) ≤ i then some none else none
  | none, none => none

/-- A floating point number as a value; those that are not finite become null. -/
def floatValue (x : Float) : Value := if Decimal.isFinite x then .float x else .null

def plainValue (s : String) : Option Value :=
  if s = "" || isNullWord s then some .null
  else match boolWord? s with
    | some b => some (.bool b)
    | none => match whole? s with
      | some v => v
      | none =>
        let digits := match s.toList with
          | '-' :: rest => rest
          | '+' :: rest => rest
          | cs => cs
        if isPaddedNumber digits then some (.text s)
        else match float? s with
          | some x => some (floatValue x)
          | none => some (.text s)

def taggedValue (kind s : String) : Option Value :=
  match kind with
  | "bool" => (boolWord? s).map .bool
  | "int" => (whole? s).join
  | "float" => (float? s).map floatValue
  | "null" => if isNullWord s then some .null else none
  | _ => some (.text s)

/-- What stands before the name of a tag of the language. -/
def languageTag : String := "tag:yaml.org,2002:"

/-- The value of a scalar. A tag that is not one of the language is refused. -/
def scalarValue (tag : Option String) (style : Style) (s : String) : Option Value :=
  match tag with
  | some t =>
    if t.startsWith "!" then none
    else if t.startsWith languageTag then taggedValue (String.ofList (t.toList.drop languageTag.length)) s
    else some (.text s)
  | none => if style = .plain then plainValue s else some (.text s)

end ReplicaLoad.Yaml
