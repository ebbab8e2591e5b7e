import EndToEnd.Curve.Field
import EndToEnd.Hash.Sha2

/-!
# Ed25519 signatures

Points on the twisted Edwards curve are kept in extended coordinates, for which one addition
formula serves all pairs. Verification is strict: the scalar must be reduced, neither the key nor
the commitment may have small order, and the commitment is compared in its written form.
-/

namespace EndToEnd.Ed25519

open Curve.Field

/-- A point: affine coordinates are `x / z` and `y / z`, and `t` is their product times `z`. -/
structure Point where
  x : Nat
  y : Nat
  z : Nat
  t : Nat

/-- The curve constant. -/
def d : Nat := mul (neg 121665) (inv 121666)

/-- The order of the base point. -/
def order : Nat := 0x1000000000000000000000000000000014def9dea2f79cd65812631a5cf5d3ed

namespace Point

/-- The place of the sign in a written form. -/
def signBit : Nat := 1 <<< 255

/-- The neutral point. -/
def zero : Point := ⟨0, 1, 1, 0⟩

/-- The sum of two points. -/
def plus (p q : Point) : Point :=
  let a := mul (sub p.y p.x) (sub q.y q.x)
  let b := mul (add p.y p.x) (add q.y q.x)
  let c := mul (mul p.t q.t) (mul 2 d)
  let e := mul 2 (mul p.z q.z)
  let f := sub b a
  let g := sub e c
  let h := add e c
  let i := add b a
  ⟨mul f g, mul h i, mul g h, mul f i⟩

/-- The opposite point. -/
def opposite (p : Point) : Point := ⟨neg p.x, p.y, p.z, neg p.t⟩

/-- Adds to twice `acc`, bit after bit, a point for each set bit of a scalar, highest first. -/
def multiplyInto (p : Point) (scalar : Nat) (acc : Point) : Nat → Point
  | 0 => acc
  | bit + 1 =>
    let twice := acc.plus acc
    multiplyInto p scalar (if scalar.testBit bit then twice.plus p else twice) bit

/-- The multiple of a point by a scalar below `2 ^ 256`. -/
def multiply (p : Point) (scalar : Nat) : Point := multiplyInto p scalar zero 256

/-- Whether eight times the point is neutral. -/
def isSmall (p : Point) : Bool :=
  let q := multiplyInto p 8 zero 4
  q.x == 0 && q.y == q.z

/-- The written form: the second coordinate, with the parity of the first as its highest bit. -/
def encode (p : Point) : Key :=
  let scale := inv p.z
  .ofNat 32 (mul p.y scale + mul p.x scale % 2 * signBit)

/-- The point of a written form. -/
def decode? (bytes : Bytes) : Option Point :=
  let n := Bytes.ofLittleEndian bytes
  let y := n % signBit % Curve.prime
  let square := mul y y
  (sqrtQuotient? (sub square 1) (add (mul d square) 1)).map fun root =>
    let x := if root % 2 = n / signBit % 2 then root else neg root
    ⟨x, y, 1, mul x y⟩

end Point

/-- The base point: its second coordinate is four fifths, its first is even. -/
def base : Point := (Point.decode? (Bytes.littleEndian 32 (mul 4 (inv 5)))).getD Point.zero

/-- The two halves of an expanded private key: the scalar, and the seed of commitments. -/
def expand (key : Key) : Nat × Bytes :=
  let hash := Sha2.sha512 key.bytes
  ((Bytes.ofLittleEndian (hash.take 32) / 8 * 8) % (1 <<< 254) + 1 <<< 254, hash.drop 32)

/-- The hash of a byte string as a scalar. -/
def hashScalar (bytes : Bytes) : Nat := Bytes.ofLittleEndian (Sha2.sha512 bytes) % order

/-- The public key of a private key. -/
def publicKey (key : Key) : Key := (base.multiply (expand key).1).encode

/-- The signature of a message: a commitment and a scalar. -/
def sign (key : Key) (message : Bytes) : FixedBytes 64 :=
  let (secret, seed) := expand key
  let nonce := hashScalar (seed ++ message)
  let commitment := (base.multiply nonce).encode
  let challenge := hashScalar (commitment.bytes ++ (publicKey key).bytes ++ message)
  let response := FixedBytes.ofNat 32 ((nonce + challenge * secret) % order)
  ⟨commitment.bytes ++ response.bytes, by simp [commitment.length_eq, response.length_eq]⟩

/-- Whether a byte string is a signature of the message under a public key. -/
def verify (key : Key) (message signature : Bytes) : Bool :=
  let commitment := signature.take 32
  let response := Bytes.ofLittleEndian (signature.drop 32)
  if signature.length ≠ 64 ∨ order ≤ response then false
  else
    match Point.decode? key.bytes, Point.decode? commitment with
    | some a, some r =>
      let challenge := hashScalar (commitment ++ key.bytes ++ message)
      !a.isSmall && !r.isSmall &&
        ((base.multiply response).plus (a.opposite.multiply challenge)).encode.bytes == commitment
    | _, _ => false

end EndToEnd.Ed25519
