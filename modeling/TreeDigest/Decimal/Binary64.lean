import TreeDigest.Json.Reader

/-!
Binary floating-point numbers of 64 bits, as they are read and written.

* `Binary64.ofDecimal` is the number nearest to a decimal.
* `Binary64.parse?` reads the usual decimal notation, with `inf`, `infinity` and
  `nan` in any case.
* `Binary64.shortest` gives the fewest digits that read back to the number, and
  of those the nearest; `Binary64.text` lays them out without an exponent.

A finite number is `m · 2 ^ q`. The reals that round to it reach half way to its
neighbours; the lower neighbour is nearer when `m` is the least of its binade.
-/

namespace TreeDigest

/-- A floating-point number, given by its bits. -/
structure Binary64 where
  bits : UInt64
  deriving DecidableEq

namespace Binary64

/-- The number that is nearest to `± digits · 10 ^ exponent`. -/
def ofDecimal (negative : Bool) (digits : Nat) (exponent : Int) : Binary64 :=
  let size : Int := (Nat.toDigits 10 digits).length
  let magnitude : Float :=
    if digits = 0 ∨ size + exponent < -400 then 0.0
    else if 400 < size + exponent then 1.0 / 0.0
    else if exponent < 0 then Float.ofScientific digits true exponent.natAbs
    else Float.ofScientific digits false exponent.natAbs
  ⟨(if negative then -magnitude else magnitude).toBits⟩

/-- The sign bit. -/
def isNegative (x : Binary64) : Bool := x.bits >>> 63 != 0

/-- The exponent field. -/
def exponentField (x : Binary64) : Nat := ((x.bits >>> 52) &&& 0x7FF).toNat

/-- The fraction field. -/
def fractionField (x : Binary64) : Nat := (x.bits &&& 0xFFFFFFFFFFFFF).toNat

/-- Neither infinite nor undefined. -/
def isFinite (x : Binary64) : Bool := x.exponentField != 0x7FF

/-- Undefined. -/
def isNaN (x : Binary64) : Bool := !x.isFinite && x.fractionField != 0

/-- Equal to zero, of either sign. -/
def isZero (x : Binary64) : Bool := x.exponentField == 0 && x.fractionField == 0

/-- The `m` of `m · 2 ^ q`. -/
def mantissa (x : Binary64) : Nat :=
  if x.exponentField = 0 then x.fractionField else 0x10000000000000 + x.fractionField

/-- The `q` of `m · 2 ^ q`. -/
def scale (x : Binary64) : Int := (max x.exponentField 1 : Nat) - 1075

/-- A quotient of natural numbers, multiplied by a power of ten. -/
def tenTimes (num den : Nat) (k : Int) : Nat × Nat :=
  if 0 ≤ k then (num * Nat.pow 10 k.natAbs, den) else (num, den * Nat.pow 10 k.natAbs)

/-- The number of digits before the point of a quotient; a value below one has
minus the number of zeros after the point. -/
def wholeDigits (num den : Nat) : Int :=
  if den ≤ num then ((Nat.toDigits 10 (num / den)).length : Int)
  else
    -- the least power of ten that lifts the quotient to one or more
    let lift := ((List.range 400).find? fun k => den ≤ num * Nat.pow 10 k).getD 0
    1 - (lift : Int)

/-- The nearest decimal with the given number of digits that lies between the
bounds, the upper of two equally near ones; the numbers are counted in parts of
`den`. -/
def candidate? (value low high den : Nat) (closed : Bool) (digits : Nat) : Option (Nat × Int) :=
  let exponent := wholeDigits value den - digits
  let inside (n : Nat) : Bool :=
    let (a, b) := tenTimes n 1 exponent
    if closed then low * b ≤ a * den && a * den ≤ high * b
    else low * b < a * den && a * den < high * b
  let (num, d) := tenTimes value den (-exponent)
  let below := num / d
  let rest := num % d
  let nearer := if 2 * rest < d then [below, below + 1] else [below + 1, below]
  (nearer.find? inside).map fun n => (n, exponent)

/-- The digits and the power of ten of the shortest decimal that reads back to
the given finite number. -/
def shortest (x : Binary64) : Nat × Int :=
  if x.isZero then (0, 0)
  else
    let m := x.mantissa
    let lowest : Bool := x.fractionField == 0 && 1 < x.exponentField
    let two : Nat × Nat :=
      if 2 ≤ x.scale then (Nat.pow 2 (x.scale - 2).natAbs, 1) else (1, Nat.pow 2 (2 - x.scale).natAbs)
    let value := 4 * m * two.1
    let low := (4 * m - if lowest then 1 else 2) * two.1
    let high := (4 * m + 2) * two.1
    let found := (List.range 17).findSome? fun n =>
      candidate? value low high two.2 (m % 2 == 0) (n + 1)
    found.getD (0, 0)

/-- Digits with the point set by a power of ten. -/
def positional (digits : Nat) (exponent : Int) : List Char :=
  let ds := Nat.toDigits 10 digits
  if 0 ≤ exponent then ds ++ List.replicate exponent.natAbs '0'
  else
    let places := exponent.natAbs
    let padded := List.replicate (places + 1 - ds.length) '0' ++ ds
    let whole := padded.length - places
    let fraction := ((padded.drop whole).reverse.dropWhile (· == '0')).reverse
    padded.take whole ++ if fraction.isEmpty then [] else '.' :: fraction

/-- The text of a number: no exponent, and no point for a whole number. -/
def text (x : Binary64) : String :=
  if x.isNaN then "NaN"
  else
    let sign := if x.isNegative then ['-'] else []
    if !x.isFinite then .ofList (sign ++ ['i', 'n', 'f'])
    else
      let (digits, exponent) := x.shortest
      if digits = 0 then .ofList (sign ++ ['0']) else .ofList (sign ++ positional digits exponent)

/-- The text of a number with a point in every finite one. -/
def pointedText (x : Binary64) : String :=
  let s := x.text
  if x.isFinite && !s.toList.contains '.' then s ++ ".0" else s

/-! ### Reading -/

/-- The number of an unsigned decimal: digits with at most one point and at
least one digit, then perhaps an exponent. -/
def unsigned? (negative : Bool) (cs : List Char) : Option Binary64 := do
  let (whole, rest) := Json.splitDigits cs
  let (fraction, rest) := match rest with
    | '.' :: rest => Json.splitDigits rest
    | _ => ([], rest)
  if whole.isEmpty && fraction.isEmpty then none
  else
    let (exponent, rest) ← Json.exponent? rest
    if rest.isEmpty then
      return ofDecimal negative (Json.digitsValue (whole ++ fraction))
        (exponent.getD 0 - fraction.length)
    else none

/-- The number that a text spells. -/
def parse? (s : String) : Option Binary64 :=
  let (negative, cs) : Bool × List Char := match s.toList with
    | '-' :: rest => (true, rest)
    | '+' :: rest => (false, rest)
    | cs => (false, cs)
  let word := cs.map Char.toLower
  if word = ['i', 'n', 'f'] ∨ word = ['i', 'n', 'f', 'i', 'n', 'i', 't', 'y'] then
    some ⟨if negative then 0xFFF0000000000000 else 0x7FF0000000000000⟩
  else if word = ['n', 'a', 'n'] then
    some ⟨if negative then 0xFFF8000000000000 else 0x7FF8000000000000⟩
  else unsigned? negative cs

end Binary64

end TreeDigest
