/-!
# Floating-point numbers in text

A binary floating-point number of 64 bits is written with the fewest decimal digits that identify
it, always positionally and always with a point. The digits are found by exact arithmetic: of the
decimal grids, from coarse to fine, the first with a point among the numbers that round to the given
one; of two such points the nearer, and of two that are equally near the greater.
-/

namespace EndToEnd

/-- A binary floating-point number. -/
inductive Binary64 where
  | nan
  | infinite (isNegative : Bool)
  /-- The number `m * 2 ^ q`, with a sign. -/
  | finite (isNegative : Bool) (m : Nat) (q : Int)
  deriving DecidableEq, Repr

namespace Binary64

-- ---------------------------------------------------------------------------
-- Bits
-- ---------------------------------------------------------------------------

/-- The least power of two in a number of 64 bits. -/
def leastPower : Int := -1074

/-- The same number with as many of the 53 leading binary places in `m` as its size allows. -/
def normal (m : Nat) (q : Int) : Nat × Int :=
  let places := min (52 - m.log2) (q - leastPower).toNat
  (m <<< places, q - Int.ofNat places)

/-- The number of a sign, an exponent and a fraction, which have the given numbers of bits. -/
def ofFields (exponentBits fractionBits : Nat) (bits : Nat) : Binary64 :=
  let fraction := bits % (1 <<< fractionBits)
  let exponent := (bits >>> fractionBits) % (1 <<< exponentBits)
  let isNegative := (bits >>> (fractionBits + exponentBits)) % 2 = 1
  let least := 2 - Int.ofNat (1 <<< (exponentBits - 1)) - Int.ofNat fractionBits
  if exponent + 1 = 1 <<< exponentBits then
    if fraction = 0 then infinite isNegative else nan
  else if exponent = 0 then
    let (m, q) := normal fraction least
    finite isNegative m q
  else
    let (m, q) := normal (fraction + (1 <<< fractionBits)) (least + Int.ofNat exponent - 1)
    finite isNegative m q

/-- The number that 64 bits stand for. -/
def ofBits64 (bits : Nat) : Binary64 := ofFields 11 52 bits

/-- The number that 32 bits stand for. -/
def ofBits32 (bits : Nat) : Binary64 := ofFields 8 23 bits

-- ---------------------------------------------------------------------------
-- Digits
-- ---------------------------------------------------------------------------

/-- The point next to `m * 2 ^ q` on the grid of the multiples of `10 ^ e`, as a multiple, if it
is among the numbers that round to `m * 2 ^ q`. Everything is measured in quarters of the last
binary place; below a power of two the numbers are twice as dense. -/
def onGrid? (m : Nat) (q e : Int) : Option Nat :=
  let quarter := (1 <<< (q - 2).toNat) * Nat.pow 10 (-e).toNat
  let step := Nat.pow 10 e.toNat * (1 <<< (2 - q).toNat)
  let below := if m = 1 <<< 52 ∧ leastPower < q then 1 else 2
  let least := (4 * m - below) * quarter
  let greatest := (4 * m + 2) * quarter
  let rounds (x : Nat) : Bool :=
    if m % 2 = 0 then least ≤ x && x ≤ greatest else least < x && x < greatest
  let exact := 4 * m * quarter
  let d := exact / step
  match rounds (d * step), rounds ((d + 1) * step) with
  | true, true => some (if 2 * exact < (2 * d + 1) * step then d else d + 1)
  | true, false => some d
  | false, true => some (d + 1)
  | false, false => none

/-- The digits of `m * 2 ^ q` and the power of ten that they count. -/
def decimal (m : Nat) (q : Int) : Nat × Int :=
  if m = 0 then (0, 0)
  else
    let grids := (List.range 633).map fun i => 308 - Int.ofNat i
    (grids.findSome? fun e => (onGrid? m q e).map (·, e)).getD (0, 0)

/-- The text of `d * 10 ^ e`. -/
def positional (d : Nat) (e : Int) : List Char :=
  let digits := Nat.toDigits 10 d
  if 0 ≤ e then digits ++ List.replicate e.toNat '0' ++ ['.', '0']
  else
    let places := (-e).toNat
    if digits.length ≤ places then
      ['0', '.'] ++ List.replicate (places - digits.length) '0' ++ digits
    else
      digits.take (digits.length - places) ++ ['.'] ++ digits.drop (digits.length - places)

/-- The text of a number. -/
def text : Binary64 → String
  | nan => "NaN"
  | infinite isNegative => if isNegative then "-inf" else "inf"
  | finite isNegative m q =>
    let (d, e) := decimal m q
    String.ofList ((if isNegative then ['-'] else []) ++ positional d e)

end Binary64

end EndToEnd
