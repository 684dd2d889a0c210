-- Digits. The numbers that digits stand for. `digitsIn?` reads digits of any
-- base up to sixteen, and `readWord` a decimal number of 64 bits.
import ReplicaLoad.Bits

namespace ReplicaLoad.Text

def hexDigit? (c : Char) : Option Nat :=
  if c.isDigit then some (c.toNat - 48)
  else if 'a' ≤ c && c ≤ 'f' then some (c.toNat - 87)
  else if 'A' ≤ c && c ≤ 'F' then some (c.toNat - 55)
  else none

/-- The value of digits in a base, if there are any and no other characters. -/
def digitsIn? (base : Nat) (ds : List Char) : Option Nat :=
  if ds.isEmpty then none
  else ds.foldlM (fun n c => do
    let d ← hexDigit? c
    if d < base then some (base * n + d) else none) 0

def charOfCode? (n : Nat) : Option Char :=
  if n < 0xD800 || (0xE000 ≤ n && n < 0x110000) then some (Char.ofNat n) else none

inductive WordFault where
  | empty
  | badDigit
  | tooLarge
  deriving DecidableEq

def WordFault.message : WordFault → String
  | .empty => "cannot parse integer from empty string"
  | .badDigit => "invalid digit found in string"
  | .tooLarge => "number too large to fit in target type"

/-- The first number that does not fit in 64 bits. -/
def wordBound : Nat := twoTo 64

/-- Read digits after those whose value is `acc`. The first character that is no digit, or that
makes the number too large, decides. -/
def readWordDigits (acc : Nat) : List Char → Except WordFault Nat
  | [] => .ok acc
  | c :: rest =>
    if c.isDigit then
      let next := 10 * acc + (c.toNat - '0'.toNat)
      if next < wordBound then readWordDigits next rest else .error .tooLarge
    else .error .badDigit

/-- Read a number of 64 bits: an optional plus sign and decimal digits. -/
def readWord (s : String) : Except WordFault Nat :=
  match s.toList with
  | [] => .error .empty
  | '+' :: [] => .error .badDigit
  | '+' :: digits => readWordDigits 0 digits
  | digits => readWordDigits 0 digits

end ReplicaLoad.Text
