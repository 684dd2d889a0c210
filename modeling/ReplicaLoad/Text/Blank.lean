-- White space. The characters with the Unicode property White_Space, and the
-- text between them.

namespace ReplicaLoad.Text

/-- Whether a code point lies in one of the closed ranges. -/
def inRanges (ranges : List (Nat × Nat)) (n : Nat) : Bool := ranges.any fun r => r.1 ≤ n && n ≤ r.2

/-- White space as closed ranges of code points. -/
def blankRanges : List (Nat × Nat) :=
  [(0x09, 0x0D), (0x20, 0x20), (0x85, 0x85), (0xA0, 0xA0), (0x1680, 0x1680), (0x2000, 0x200A),
   (0x2028, 0x2029), (0x202F, 0x202F), (0x205F, 0x205F), (0x3000, 0x3000)]

def isBlank (c : Char) : Bool := inRanges blankRanges c.toNat

/-- The text without the characters of a class at its start and end. -/
def trimBy (drop : Char → Bool) (s : String) : String :=
  String.ofList (((s.toList.dropWhile drop).reverse.dropWhile drop).reverse)

/-- The text without white space at its start and end. -/
def trim (s : String) : String := trimBy isBlank s

end ReplicaLoad.Text
