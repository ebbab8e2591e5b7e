/-!
# The prime field of the curve

Numbers below `2 ^ 255 - 19`, with the operations reduced after each step.
-/

namespace EndToEnd.Curve

/-- The characteristic of the field. -/
def prime : Nat := 0x7fffffffffffffffffffffffffffffffffffffffffffffffffffffffffffffed

/-- Raises `base` to the low `bits` bits of an exponent, modulo `m`, times `acc`. -/
def powMod (m acc base exponent : Nat) : Nat → Nat
  | 0 => acc % m
  | bits + 1 =>
    let acc := if exponent % 2 = 1 then acc * base % m else acc
    powMod m acc (base * base % m) (exponent / 2) bits

namespace Field

def add (x y : Nat) : Nat := (x + y) % prime

def sub (x y : Nat) : Nat := (x + prime - y % prime) % prime

def mul (x y : Nat) : Nat := x * y % prime

def neg (x : Nat) : Nat := sub 0 x

def pow (x exponent : Nat) : Nat := powMod prime 1 x exponent 256

/-- The inverse; zero goes to zero. -/
def inv (x : Nat) : Nat := pow x (prime - 2)

/-- A square root of minus one. -/
def sqrtMinusOne : Nat := pow 2 ((prime - 1) / 4)

/-- A square root of a quotient, if it has one; one of a number over zero only when it is zero. -/
def sqrtQuotient? (u v : Nat) : Option Nat :=
  let candidate := mul (mul u (pow v 3)) (pow (mul u (pow v 7)) ((prime - 5) / 8))
  let square := mul v (mul candidate candidate)
  if square = u % prime then some candidate
  else if square = neg u then some (mul candidate sqrtMinusOne)
  else none

end Field

end EndToEnd.Curve
