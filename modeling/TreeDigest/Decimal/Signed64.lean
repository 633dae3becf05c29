/-!
Whole numbers that fit sixty-four bits with a sign.
-/

namespace TreeDigest.Signed64

/-- The first number that is too large. -/
def limit : Nat := 0x8000000000000000

/-- The number fits. -/
def fits (n : Int) : Bool := -limit ≤ n && n < limit

/-- The number itself if it fits. -/
def check? (n : Int) : Option Int := if fits n then some n else none

/-- The number that fits and has the same last sixty-four bits. -/
def wrap (n : Int) : Int := Int.bmod n (2 * limit)

end TreeDigest.Signed64
