import EndToEnd.Bytes.Basic

/-!
# Poly1305

A message is a polynomial whose coefficients are its sixteen-byte blocks, each with a one bit
behind it. The code is its value at a secret point modulo `2 ^ 130 - 5`, plus a secret pad.
-/

namespace EndToEnd.Poly1305

/-- The modulus. -/
def modulus : Nat := 0x3fffffffffffffffffffffffffffffffb

/-- Clears the bits of an evaluation point that must be zero. -/
def clamp (point : Nat) : Nat := point &&& 0x0ffffffc0ffffffc0ffffffc0fffffff

/-- The coefficient of one block. -/
def coefficient (block : Bytes) : Nat := Bytes.ofLittleEndian block + Bytes.capacity block.length

/-- The value of a message at a point. -/
def value (point : Nat) (message : Bytes) : Nat :=
  (Bytes.chunks 16 message).foldl (fun acc block => (acc + coefficient block) * point % modulus) 0

/-- The code of a message under a one-time key: sixteen bytes of point, sixteen of pad. -/
def code (key message : Bytes) : FixedBytes 16 :=
  let point := clamp (Bytes.ofLittleEndian (key.take 16))
  .ofNat 16 (value point message + Bytes.ofLittleEndian ((key.drop 16).take 16))

end EndToEnd.Poly1305
