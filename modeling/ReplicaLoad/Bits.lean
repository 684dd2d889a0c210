-- Bits. How many values fit in so many bits.

namespace ReplicaLoad

def twoTo (bits : Nat) : Nat := Nat.pow 2 bits

end ReplicaLoad
