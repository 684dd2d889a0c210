-- Operators on data. Arithmetic is exact on whole numbers of 128 bits, and on
-- floating point numbers as soon as one of the operands is one. Division by `/`
-- is always on floating point numbers; the whole quotient rounds so that the
-- remainder is not negative.
import ReplicaLoad.Template.Expression

namespace ReplicaLoad.Template

abbrev Outcome := Except Fault Datum

namespace Datum

/-- A whole number, if it fits in 128 bits. -/
def ofInt (n : Int) : Outcome := if fits n then .ok (.int n) else .error .invalidOperation

/-- The items of a list many times over. -/
def repeatItems {α : Type} (n : Nat) (items : List α) : List α := (List.replicate n items).flatten

/-- The sum of numbers, or two texts or lists after one another. -/
def add (a b : Datum) : Outcome :=
  match a, b with
  | .list xs, .list ys => .ok (.list (xs ++ ys))
  | a, b => match pair? true a b with
    | some (.ints m n) => ofInt (m + n)
    | some (.floats x y) => .ok (.float (x + y))
    | some (.texts s t) => .ok (.text (s ++ t))
    | Option.none => .error .invalidOperation

def subtract (a b : Datum) : Outcome :=
  match pair? true a b with
  | some (.ints m n) => ofInt (m - n)
  | some (.floats x y) => .ok (.float (x - y))
  | _ => .error .invalidOperation

/-- How often a text or a list is repeated. -/
def times? (d : Datum) : Option Nat :=
  d.int?.bind fun n => if 0 ≤ n then some n.toNat else Option.none

/-- The product of numbers, or a text or a list many times over. -/
def multiply (a b : Datum) : Outcome :=
  match a, b with
  | .text s, d | d, .text s => match d.times? with
    | some n => .ok (.text (String.ofList (repeatItems n s.toList)))
    | Option.none => .error .invalidOperation
  | .list xs, d | d, .list xs => match d.times? with
    | some n => .ok (.list (repeatItems n xs))
    | Option.none => .error .invalidOperation
  | a, b => match pair? true a b with
    | some (.ints m n) => ofInt (m * n)
    | some (.floats x y) => .ok (.float (x * y))
    | _ => .error .invalidOperation

/-- The quotient of numbers as a floating point number. -/
def divide (a b : Datum) : Outcome :=
  match a.float? true, b.float? true with
  | some x, some y => .ok (.float (x / y))
  | _, _ => .error .invalidOperation

def truncate (x : Float) : Float := if x < 0.0 then x.ceil else x.floor

/-- The remainder of floating point numbers, with the sign of the dividend. It is computed exactly
on the binary fractions that the numbers are. -/
def floatRemainder (x y : Float) : Float :=
  let a := Decimal.Binary.ofFloat x
  let b := Decimal.Binary.ofFloat y
  if x.isNaN || y.isNaN || !Decimal.isFinite x || b.m = 0 then 0.0 / 0.0
  else if !Decimal.isFinite y then x
  else
    let q := min a.q b.q
    let r := (a.m * twoTo (a.q - q).toNat) % (b.m * twoTo (b.q - q).toNat)
    let magnitude := Float.scaleB (Float.ofNat r) q
    if Decimal.isNegative x then -magnitude else magnitude

/-- The whole quotient of floating point numbers whose remainder is not negative. -/
def floatQuotient (x y : Float) : Float :=
  let q := truncate (x / y)
  if floatRemainder x y < 0.0 then (if y > 0.0 then q - 1.0 else q + 1.0) else q

/-- The whole quotient whose remainder is not negative. -/
def floorDivide (a b : Datum) : Outcome :=
  match pair? true a b with
  | some (.ints m n) => if n = 0 then .error .invalidOperation else ofInt (Int.ediv m n)
  | some (.floats x y) => .ok (.float (floatQuotient x y))
  | _ => .error .invalidOperation

/-- The remainder, which is not negative for whole numbers. -/
def remainder (a b : Datum) : Outcome :=
  match pair? true a b with
  | some (.ints m n) => if n = 0 then .error .invalidOperation else ofInt (Int.emod m n)
  | some (.floats x y) => .ok (.float (floatRemainder x y))
  | _ => .error .invalidOperation

/-- The power of numbers. The exponent of a whole number is a natural number of 32 bits. -/
def power (a b : Datum) : Outcome :=
  match pair? true a b with
  | some (.ints m n) =>
    if n < 0 || twoTo 32 ≤ n then .error .invalidOperation
    else if m.natAbs < 2 then ofInt (if m = -1 && n % 2 = 1 then -1 else if m = 0 && n ≠ 0 then 0 else 1)
    else if 128 ≤ n then .error .invalidOperation
    else ofInt (Int.pow m n.toNat)
  | some (.floats x y) => .ok (.float (x.pow y))
  | _ => .error .invalidOperation

def negate : Datum → Outcome
  | .int n => ofInt (-n)
  | .float x => .ok (.float (-x))
  | _ => .error .invalidOperation

/-- Whether characters occur one after another in a text. -/
def occursIn (part : List Char) : List Char → Bool
  | [] => part.isEmpty
  | c :: rest => part.isPrefixOf (c :: rest) || occursIn part rest

/-- Whether a datum is a part of a text, an item of a list or a key of a dictionary. -/
def contains (mode : Mode) (value container : Datum) : Outcome :=
  if container.isRefused mode then .error .undefinedValue
  else match container with
    | .undefined _ => .ok (.bool false)
    | .text s => .ok (.bool (occursIn value.print.toList s.toList))
    | .list items => .ok (.bool (items.any fun d => d.same value))
    | .dict entries => .ok (.bool (lookup? value entries).isSome)
    | .turn _ _ _ => .ok (.bool false)
    | _ => .error .invalidOperation

end Datum

def Operator.apply (mode : Mode) (op : Operator) (a b : Datum) : Outcome :=
  match op with
  | .add => a.add b
  | .subtract => a.subtract b
  | .multiply => a.multiply b
  | .divide => a.divide b
  | .floorDivide => a.floorDivide b
  | .remainder => a.remainder b
  | .power => a.power b
  | .join => .ok (.text (a.print ++ b.print))
  | .equal => .ok (.bool (a.same b))
  | .different => .ok (.bool (!a.same b))
  | .less => .ok (.bool (a.order b = .lt))
  | .lessEqual => .ok (.bool (a.order b ≠ .gt))
  | .greater => .ok (.bool (a.order b = .gt))
  | .greaterEqual => .ok (.bool (a.order b ≠ .lt))
  | .contained => Datum.contains mode a b

/-! ## Slices -/

namespace Datum

/-- A bound of a slice, counted from the end if it is negative, within a range. -/
def clamp (length : Nat) (low high : Int) (i : Int) : Int :=
  max low (min high (if i < 0 then i + length else i))

/-- The places of a slice of a sequence: from a start on by a step other than zero up to a stop. -/
def slicePlaces (length : Nat) (start stop : Option Int) (step : Int) : List Nat :=
  if 0 < step then
    let first := (start.map (clamp length 0 length)).getD 0
    let last := (stop.map (clamp length 0 length)).getD length
    let count := (last - first + step - 1) / step
    (List.range count.toNat).map fun (i : Nat) => (first + i * step).toNat
  else
    let first := (start.map (clamp length (-1) (length - 1))).getD (length - 1)
    let last := (stop.map (clamp length (-1) (length - 1))).getD (-1)
    let count := (first - last - step - 1) / (-step)
    (List.range count.toNat).map fun (i : Nat) => (first + i * step).toNat

/-- A bound of a slice: the null datum leaves it open. -/
def bound : Datum → Except Fault (Option Int)
  | .none => .ok Option.none
  | d => match d.int? with
    | some n => .ok (some n)
    | Option.none => .error .invalidOperation

def slice (d start stop step : Datum) : Outcome := do
  let start ← start.bound
  let stop ← stop.bound
  let step := (← step.bound).getD 1
  if step = 0 then .error .invalidOperation
  else match d with
    | .text s =>
      let cs := s.toList
      .ok (.text (String.ofList ((slicePlaces cs.length start stop step).filterMap fun i => cs[i]?)))
    | .list items => .ok (.list ((slicePlaces items.length start stop step).filterMap fun i => items[i]?))
    | .undefined _ => .ok (.list [])
    | .none => .ok (.list [])
    | _ => .error .invalidOperation

end Datum

end ReplicaLoad.Template
