import EndToEnd.Bytes.Basic
import EndToEnd.Curve.Field

/-!
# X25519 key agreement

A private key is a scalar and a public key the first coordinate of a point on the Montgomery curve.
The shared secret is the coordinate of the scalar multiple, found by the ladder that carries two
neighbouring multiples. A point of small order gives zero, which tells nothing about the keys.
-/

namespace EndToEnd.X25519

open Curve.Field

/-- Two neighbouring multiples of a point, as fractions of coordinates. -/
structure Ladder where
  x2 : Nat
  z2 : Nat
  x3 : Nat
  z3 : Nat

namespace Ladder

/-- Exchanges the two multiples. -/
def swap (l : Ladder) : Ladder := ⟨l.x3, l.z3, l.x2, l.z2⟩

/-- Doubles the first multiple and adds the two, for a point with coordinate `x1`. -/
def step (x1 : Nat) (l : Ladder) : Ladder :=
  let a := add l.x2 l.z2
  let b := sub l.x2 l.z2
  let aa := mul a a
  let bb := mul b b
  let e := sub aa bb
  let da := mul (sub l.x3 l.z3) a
  let cb := mul (add l.x3 l.z3) b
  let sum := add da cb
  let difference := sub da cb
  ⟨mul aa bb, mul e (add aa (mul 121665 e)), mul sum sum, mul x1 (mul difference difference)⟩

/-- Works through the low `bits` bits of a scalar, highest first. -/
def climb (x1 scalar : Nat) (l : Ladder) : Nat → Ladder
  | 0 => l
  | bit + 1 =>
    let next := if scalar.testBit bit then (step x1 l.swap).swap else step x1 l
    climb x1 scalar next bit

end Ladder

/-- A private key as a scalar: a multiple of eight with bit 254 set. -/
def scalar (key : Bytes) : Nat :=
  (Bytes.ofLittleEndian key / 8 * 8) % (1 <<< 254) + 1 <<< 254

/-- The coordinate of the multiple of a point by a private key. -/
def multiply (key : Key) (point : Nat) : Key :=
  let x1 := point % Curve.prime
  let l := Ladder.climb x1 (scalar key.bytes) ⟨1, 0, x1, 1⟩ 255
  .ofNat 32 (mul l.x2 (inv l.z2))

/-- The public key of a private key. -/
def publicKey (key : Key) : Key := multiply key 9

/-- The shared secret; `none` when the other key is a point of small order. -/
def agree? (key peer : Key) : Option Key :=
  let shared := multiply key (Bytes.ofLittleEndian peer.bytes % (1 <<< 255))
  if shared.bytes.all (· == 0) then none else some shared

end EndToEnd.X25519
