import EndToEnd.Bytes.Basic

/-!
# Writing MessagePack

The forms that envelopes use. Every number and every length takes the shortest form that holds it.
The longest form of a length has 32 bits: of a length that needs more, the upper bits are lost, and
what was written cannot be read back. Writing does not fail.
-/

namespace EndToEnd.MessagePack

/-- Nothing. -/
def nil : Bytes := [0xc0]

/-- A number below `2 ^ 64`. -/
def unsigned (n : Nat) : Bytes :=
  if n < 0x80 then [UInt8.ofNat n]
  else if n < 256 then 0xcc :: Bytes.bigEndian 1 n
  else if n < UInt16.size then 0xcd :: Bytes.bigEndian 2 n
  else if n < UInt32.size then 0xce :: Bytes.bigEndian 4 n
  else 0xcf :: Bytes.bigEndian 8 n

/-- A string, with the lower 32 bits of its length if it is longer than these can count. -/
def str (bytes : Bytes) : Bytes :=
  let n := bytes.length
  (if n < 32 then [UInt8.ofNat (0xa0 + n)]
    else if n < 256 then 0xd9 :: Bytes.bigEndian 1 n
    else if n < UInt16.size then 0xda :: Bytes.bigEndian 2 n
    else 0xdb :: Bytes.bigEndian 4 n) ++ bytes

/-- Bytes, with the lower 32 bits of their number if it is more than these can count. -/
def bin (bytes : Bytes) : Bytes :=
  let n := bytes.length
  (if n < 256 then 0xc4 :: Bytes.bigEndian 1 n
    else if n < UInt16.size then 0xc5 :: Bytes.bigEndian 2 n
    else 0xc6 :: Bytes.bigEndian 4 n) ++ bytes

/-- The beginning of an array of fewer than sixteen values. -/
def shortArray (n : Nat) : Bytes := [UInt8.ofNat (0x90 + n)]

end EndToEnd.MessagePack
