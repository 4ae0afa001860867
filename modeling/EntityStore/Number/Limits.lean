/-!
# Limits

The largest numbers that a program keeps in one machine word.
-/

namespace EntityStore

/-- The largest number of thirty-two bits. -/
def maxWord32 : Nat := Nat.pow 2 32 - 1

/-- The largest number of sixty-four bits, which is also the largest count. -/
def maxCount : Nat := Nat.pow 2 64 - 1

end EntityStore
