-- Shortest decimals. A floating point number stands for an interval of reals,
-- those that round to it. This module finds the decimal with the fewest digits
-- in that interval, and of several the closest one. All comparisons are exact,
-- on natural numbers.
import ReplicaLoad.Bits

namespace ReplicaLoad.Decimal

/-- A finite number `m * 2 ^ q`, without its sign. -/
structure Binary where
  m : Nat
  q : Int
  /-- The number is a power of two, so its lower neighbour is half as far as its upper one. -/
  narrowBelow : Bool

def Binary.ofFloat (x : Float) : Binary :=
  let bits : Nat := x.toBits.toNat % twoTo 63
  let exponent : Nat := bits / twoTo 52
  let fraction : Nat := bits % twoTo 52
  if exponent = 0 then ⟨fraction, -1074, false⟩
  else ⟨twoTo 52 + fraction, (exponent : Int) - 1075, fraction = 0 && exponent > 1⟩

def isNegative (x : Float) : Bool := x.toBits.toNat ≥ twoTo 63

/-- Whether a number is neither infinite nor undefined. -/
def isFinite (x : Float) : Bool := x.toBits.toNat % twoTo 63 < 2047 * twoTo 52

/-- The decimal `digits * 10 ^ exponent`. -/
structure Digits where
  digits : Nat
  exponent : Int
  deriving Repr, DecidableEq

/-- Which of two equally close decimals counts. -/
inductive Tie where
  | toEven
  | up
  deriving DecidableEq

/-- The ratio `a * 10 ^ i / (n * 2 ^ j)` as two natural numbers. -/
def ratio (a : Nat) (i : Int) (n : Nat) (j : Int) : Nat × Nat :=
  (a * Nat.pow 10 i.toNat * twoTo (-j).toNat, n * twoTo j.toNat * Nat.pow 10 (-i).toNat)

/-- Compare `a * 10 ^ i` with `n * 2 ^ j`. -/
def compareScaled (a : Nat) (i : Int) (n : Nat) (j : Int) : Ordering :=
  compare (ratio a i n j).1 (ratio a i n j).2

/-- Whether a decimal lies among the reals that round to the number. The ends of the interval
belong to it exactly when `m` is even. -/
def Binary.readsBack (b : Binary) (d : Digits) : Bool :=
  let low := 4 * b.m - if b.narrowBelow then 1 else 2
  let high := 4 * b.m + 2
  let closed := b.m % 2 = 0
  let atLow := compareScaled d.digits d.exponent low (b.q - 2)
  let atHigh := compareScaled d.digits d.exponent high (b.q - 2)
  (atLow = .gt || (closed && atLow = .eq)) && (atHigh = .lt || (closed && atHigh = .eq))

/-- The least exponent `k ≥ start` with `b < 10 ^ k`, looked for in a few steps. -/
def Binary.scaleFrom (b : Binary) : Nat → Int → Int
  | 0, k => k
  | fuel + 1, k => if compareScaled 1 k b.m b.q = .gt then k else b.scaleFrom fuel (k + 1)

/-- The least exponent `k` with `b < 10 ^ k`, from an estimate one or two steps below it. -/
def Binary.scale (b : Binary) : Int :=
  b.scaleFrom 5 (((b.m.log2 : Int) + b.q) * 30103 / 100000 - 1)

/-- The decimal of `n` digits that reads back, if there is one. -/
def Binary.withDigits (tie : Tie) (b : Binary) (k : Int) (n : Nat) : Option Digits :=
  let grid := k - n
  let (den, num) := ratio 1 grid b.m b.q
  let below := num / den
  let lower : Digits := ⟨below, grid⟩
  let upper : Digits := ⟨below + 1, grid⟩
  match b.readsBack lower, b.readsBack upper with
  | false, false => none
  | true, false => some lower
  | false, true => some upper
  | true, true =>
    match compare (2 * (num % den)) den with
    | .lt => some lower
    | .gt => some upper
    | .eq => match tie with
      | .up => some upper
      | .toEven => some (if below % 2 = 0 then lower else upper)

def Digits.strip (fuel : Nat) (d : Digits) : Digits :=
  match fuel with
  | 0 => d
  | fuel + 1 =>
    if d.digits % 10 = 0 then Digits.strip fuel ⟨d.digits / 10, d.exponent + 1⟩ else d

/-- The fewest digits that read back to a finite number other than zero. -/
def shortest (tie : Tie) (x : Float) : Digits :=
  let b := Binary.ofFloat x
  let k := b.scale
  match (List.range 17).findSome? fun n => b.withDigits tie k (n + 1) with
  | some d => d.strip 17
  | none => if b.q < 0 then ⟨b.m * Nat.pow 5 (-b.q).toNat, b.q⟩ else ⟨b.m * twoTo b.q.toNat, 0⟩

end ReplicaLoad.Decimal
