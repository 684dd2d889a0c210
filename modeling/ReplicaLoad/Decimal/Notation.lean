-- How numbers are written. A `Notation` lists the choices that are left once
-- the digits of a number are known. `render` lays a number out by it, and
-- `toFloat` reads digits and an exponent back.
import ReplicaLoad.Decimal.Shortest

namespace ReplicaLoad.Decimal

/-- The choices in the text of a floating point number. -/
structure Notation where
  /-- The least exponent of the leading digit that is written with leading zeros. -/
  plainFrom : Int
  /-- The first exponent of the leading digit that is written with an exponent. -/
  plainBelow : Int
  /-- Whether a positive exponent carries a plus sign. -/
  plusSign : Bool
  tie : Tie
  nan : String
  infinite : String

def zeros (n : Nat) : String := String.ofList (List.replicate n '0')

/-- The text of a decimal other than zero. A positional text always has a point. -/
def Notation.layout (n : Notation) (d : Digits) : String :=
  let ds := toString d.digits
  let count := ds.length
  let leading := d.exponent + count - 1
  if n.plainFrom ≤ leading && leading < n.plainBelow then
    if leading < 0 then "0." ++ zeros (-leading - 1).toNat ++ ds
    else if d.exponent ≥ 0 then ds ++ zeros d.exponent.toNat ++ ".0"
    else
      let cut := leading.toNat + 1
      String.ofList (ds.toList.take cut) ++ "." ++ String.ofList (ds.toList.drop cut)
  else
    let digits := if count = 1 then ds
      else String.ofList (ds.toList.take 1) ++ "." ++ String.ofList (ds.toList.drop 1)
    let sign := if leading < 0 then "-" else if n.plusSign then "+" else ""
    digits ++ "e" ++ sign ++ toString leading.natAbs

def Notation.render (n : Notation) (x : Float) : String :=
  let sign := if isNegative x then "-" else ""
  if x.isNaN then n.nan
  else if !isFinite x then sign ++ n.infinite
  else if (Binary.ofFloat x).m = 0 then sign ++ "0.0"
  else sign ++ n.layout (shortest n.tie x)

/-- The number nearest to `digits * 10 ^ exponent`. Exponents far outside the range of the
floating point numbers are cut off before the exact arithmetic starts. -/
def toFloat (negative : Bool) (digits : Nat) (exponent : Int) : Float :=
  let leading := exponent + (digits.log2 : Int) * 30103 / 100000
  let x :=
    if digits = 0 || leading < -400 then 0.0
    else if leading > 400 then 1.0 / 0.0
    else Float.ofScientific digits (exponent < 0) exponent.natAbs
  if negative then -x else x

/-- The value of a string of decimal digits, read after `acc`. -/
def digitsValue (acc : Nat) (cs : List Char) : Nat :=
  cs.foldl (fun a c => 10 * a + (c.toNat - '0'.toNat)) acc

structure Numeral where
  negative : Bool
  whole : List Char
  /-- The digits after the point, or `none` without a point. -/
  fraction : Option (List Char)
  /-- The exponent, or `none` without one. -/
  exponent : Option Int

def spanDigits (cs : List Char) : List Char × List Char := cs.span Char.isDigit

def readExponent (cs : List Char) : Option (Int × List Char) :=
  let (negative, rest) := match cs with
    | '-' :: rest => (true, rest)
    | '+' :: rest => (false, rest)
    | _ => (false, cs)
  match spanDigits rest with
  | ([], _) => none
  | (ds, rest) =>
    let n : Int := digitsValue 0 (ds.dropWhile (· = '0') |>.take 9)
    some (if negative then -n else n, rest)

/-- Split a numeral after its sign into digits, point and exponent. An exponent mark that no
digits follow is an error; whether digits are missing elsewhere is left to the reader. -/
def readNumeral (negative : Bool) (cs : List Char) : Option (Numeral × List Char) :=
  let (whole, rest) := spanDigits cs
  let (fraction, rest) := match rest with
    | '.' :: rest => let (ds, rest) := spanDigits rest; (some ds, rest)
    | _ => (none, rest)
  match rest with
  | 'e' :: rest | 'E' :: rest => match readExponent rest with
    | some (e, rest) => some (⟨negative, whole, fraction, some e⟩, rest)
    | none => none
  | _ => some (⟨negative, whole, fraction, none⟩, rest)

def Numeral.toFloat (n : Numeral) : Float :=
  let fraction := n.fraction.getD []
  Decimal.toFloat n.negative (digitsValue 0 (n.whole ++ fraction))
    (n.exponent.getD 0 - fraction.length)

end ReplicaLoad.Decimal
