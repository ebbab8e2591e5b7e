import EndToEnd.Cipher.Aes256

/-!
# AES-256 in Galois/counter mode

The key stream is the encryption of a counter behind the nonce. The code of associated data and
ciphertext is a polynomial over the field of `2 ^ 128` elements, whose elements are numbers with
the coefficient of the lowest power as their highest bit, masked with the encryption of the first
counter.
-/

namespace EndToEnd.Gcm

/-- Multiplies a field element by the indeterminate. -/
def double (x : Nat) : Nat :=
  (x >>> 1) ^^^ (if x % 2 = 1 then 0xe1000000000000000000000000000000 else 0)

/-- Adds to `acc` the product of `x` and the low `bits` coefficients of `y`, highest bit first. -/
def mulInto (acc x y : Nat) : Nat → Nat
  | 0 => acc
  | bit + 1 => mulInto (if y.testBit bit then acc ^^^ x else acc) (double x) y bit

/-- Multiplication in the field. -/
def mul (x y : Nat) : Nat := mulInto 0 x y 128

/-- A string with zeros behind it up to a whole number of blocks. -/
def padded (bytes : Bytes) : Bytes := bytes ++ List.replicate (Bytes.padding 16 bytes.length) 0

/-- What is hashed: associated data and ciphertext, each padded, and both lengths in bits. -/
def hashInput (associated ciphertext : Bytes) : Bytes :=
  padded associated ++ padded ciphertext
    ++ Bytes.bigEndian 8 (8 * associated.length) ++ Bytes.bigEndian 8 (8 * ciphertext.length)

/-- The value of a string of blocks at the hash key. -/
def hash (hashKey : Nat) (bytes : Bytes) : Nat :=
  (Bytes.chunks 16 bytes).foldl (fun acc block => mul (acc ^^^ Bytes.ofBigEndian block) hashKey) 0

/-- Block number `counter` under a twelve-byte nonce. -/
def counterBlock (keys : List Bytes) (nonce : Bytes) (counter : Nat) : Bytes :=
  Aes256.encryptBlock keys (nonce ++ Bytes.bigEndian 4 counter)

/-- Key stream for `length` bytes; the first counter is kept for the code. -/
def stream (key : Key) (nonce : Bytes) (length : Nat) : Bytes :=
  let keys := Aes256.roundKeys key
  (List.range ((length + 15) / 16)).flatMap fun i => counterBlock keys nonce (i + 2)

/-- The code of associated data and ciphertext. -/
def code (key : Key) (nonce associated ciphertext : Bytes) : FixedBytes 16 :=
  let keys := Aes256.roundKeys key
  let hashKey := Bytes.ofBigEndian (Aes256.encryptBlock keys (List.replicate 16 0))
  let value := Bytes.bigEndian 16 (hash hashKey (hashInput associated ciphertext))
  .leading 16 (Bytes.xorWith value (counterBlock keys nonce 1))

end EndToEnd.Gcm
