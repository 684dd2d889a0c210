-- Draws. Random choices come from a numbered sequence of draws. Nothing but the
-- range of a choice may depend on the sequence, so every statement about a
-- choice is made for all sequences.
import ReplicaLoad.Bits

namespace ReplicaLoad

/-- A sequence of arbitrary natural numbers. -/
abbrev Draws := Nat → Nat

/-- A sequence that looks irregular, one for each seed. -/
def Draws.ofSeed (seed : Nat) : Draws := fun i =>
  let mixed := (seed * 6364136223846793005 + (i + 1) * 1442695040888963407) % twoTo 64
  (mixed * 2862933555777941757 + 3037000493) % twoTo 64 / twoTo 20

/-- A choice among the numbers below a bound; zero if there is none. -/
def Draws.below (draws : Draws) (i bound : Nat) : Nat := if bound = 0 then 0 else draws i % bound

end ReplicaLoad
