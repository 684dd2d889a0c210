-- Scalars in settings. A setting may be written in more ways than one: a count
-- as a number, as a text that holds one, or as a word for yes or no, and a text
-- also as a number. `Value.asText?` and `Value.asCount?` read a value as what a
-- setting needs.
import ReplicaLoad.Decimal.Notation
import ReplicaLoad.Text.Digits
import ReplicaLoad.Text.LetterCase
import ReplicaLoad.Value.Basic

namespace ReplicaLoad

namespace Settings

def signedIn? (base : Nat) (cs : List Char) : Option Int := do
  let n : Int ← match cs with
    | '-' :: rest => (Text.digitsIn? base rest).map fun n => -(n : Int)
    | '+' :: rest => (Text.digitsIn? base rest).map fun n => (n : Int)
    | _ => (Text.digitsIn? base cs).map fun n => (n : Int)
  if -(twoTo 63 : Int) ≤ n && n < (twoTo 63 : Int) then some n else none

/-- A decimal with a digit on at least one side of its point, or a word for infinity or for no
number. -/
def float? (s : String) : Option Float :=
  let (negative, rest) := match s.toList with
    | '-' :: rest => (true, rest)
    | '+' :: rest => (false, rest)
    | cs => (false, cs)
  let word := Text.lower (String.ofList rest)
  if word = "inf" || word = "infinity" then some (if negative then -(1.0 / 0.0) else 1.0 / 0.0)
  else if word = "nan" then some (0.0 / 0.0)
  else match Decimal.readNumeral negative rest with
    | some (n, []) =>
      if n.whole.isEmpty && (n.fraction.getD []).isEmpty then none else some n.toFloat
    | _ => none

/-- Floating point numbers without an exponent. -/
def plainNumbers : Decimal.Notation where
  plainFrom := -400
  plainBelow := 400
  plusSign := false
  tie := .toEven
  nan := "NaN"
  infinite := "inf"

/-- The text of a floating point number. A whole number has no point. -/
def numberText (x : Float) : String :=
  let cs := (plainNumbers.render x).toList
  if ".0".toList.isSuffixOf cs then String.ofList (cs.take (cs.length - 2)) else String.ofList cs

def countOfText? (s : String) : Option UInt64 :=
  let word := Text.lower s
  if word = "true" || word = "on" || word = "yes" then some 1
  else if word = "false" || word = "off" || word = "no" then some 0
  else (Text.readWord s).toOption.map UInt64.ofNat

end Settings

def Value.asText? : Value → Option String
  | .text s => some s
  | .bool b => some (if b then "true" else "false")
  | .int n => some (toString n)
  | .float x => some (Settings.numberText x)
  | _ => none

/-- A value as a count of 64 bits. A floating point number is rounded and cut off at the ends. -/
def Value.asCount? : Value → Option UInt64
  | .text s => Settings.countOfText? s
  | .bool b => some (if b then 1 else 0)
  | .int (.ofNat n) => if n < twoTo 64 then some (UInt64.ofNat n) else none
  | .float x => some x.round.toUInt64
  | _ => none

end ReplicaLoad
