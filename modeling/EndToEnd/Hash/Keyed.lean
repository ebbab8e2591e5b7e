import EndToEnd.Hash.Sha2

/-!
# Keyed uses of the hash functions

HMAC, and the two key derivations built on it: HKDF, which extracts a key from a secret and expands
it under a context, and PBKDF2, which makes guessing a passphrase slow. HMAC keeps the two
midstates of its key, so a derivation that repeats the key absorbs it only once.
-/

namespace EndToEnd

/-- The hash functions in use. -/
inductive HashFunction where
  | sha256
  | sha512
  deriving DecidableEq, Repr

namespace HashFunction

/-- The name of a hash function. -/
def name : HashFunction → String
  | sha256 => "Sha256"
  | sha512 => "Sha512"

/-- The digest of a byte string. -/
def digest : HashFunction → Bytes → Bytes
  | sha256 => Sha2.sha256
  | sha512 => Sha2.sha512

/-- Bytes in a digest. -/
def digestSize : HashFunction → Nat
  | sha256 => 32
  | sha512 => 64

end HashFunction

namespace Hmac

/-- A key ready for use: the hash after the inner and after the outer padded key. -/
structure Prepared (α : Type) where
  inner : Sha2.Midstate α
  outer : Sha2.Midstate α

/-- A key brought to the length of a block; a longer one is hashed first. -/
def blockKey (hash : HashFunction) (blockSize : Nat) (key : Bytes) : Bytes :=
  let short := if key.length ≤ blockSize then key else hash.digest key
  short ++ List.replicate (blockSize - short.length) 0

/-- Absorbs both padded forms of a key of block length. -/
@[specialize] def prepare {α : Type} [Sha2.Word α] (constants : List α) (start : Sha2.Midstate α)
    (key : Bytes) : Prepared α :=
  ⟨Sha2.absorb constants start (key.map (· ^^^ 0x36)),
    Sha2.absorb constants start (key.map (· ^^^ 0x5c))⟩

/-- The code of a message under a prepared key. -/
@[specialize] def Prepared.code {α : Type} [Sha2.Word α] (constants : List α) (p : Prepared α)
    (message : Bytes) : Bytes :=
  Sha2.finish constants p.outer (Sha2.finish constants p.inner message)

/-- A key prepared for HMAC-SHA-256. -/
def prepare256 (key : Bytes) : Prepared UInt32 :=
  prepare Sha2.constants256 Sha2.start256 (blockKey .sha256 (Sha2.blockSize UInt32) key)

/-- A key prepared for HMAC-SHA-512. -/
def prepare512 (key : Bytes) : Prepared UInt64 :=
  prepare Sha2.constants512 Sha2.start512 (blockKey .sha512 (Sha2.blockSize UInt64) key)

/-- HMAC-SHA-256 under a prepared key. -/
def code256 (p : Prepared UInt32) (message : Bytes) : Bytes := p.code Sha2.constants256 message

/-- HMAC-SHA-512 under a prepared key. -/
def code512 (p : Prepared UInt64) (message : Bytes) : Bytes := p.code Sha2.constants512 message

end Hmac

/-- The message authentication code of a message under a key. -/
def hmac (hash : HashFunction) (key message : Bytes) : Bytes :=
  match hash with
  | .sha256 => Hmac.code256 (Hmac.prepare256 key) message
  | .sha512 => Hmac.code512 (Hmac.prepare512 key) message

namespace Hkdf

/-- Concentrates a secret into one key. -/
def extract (hash : HashFunction) (salt secret : Bytes) : Bytes := hmac hash salt secret

/-- `count` blocks of output from number `index` on, each chained to the one before it. -/
def expandBlocks (hash : HashFunction) (key info previous : Bytes) (index : Nat) : Nat → Bytes
  | 0 => []
  | count + 1 =>
    let block := hmac hash key (previous ++ info ++ [UInt8.ofNat index])
    block ++ expandBlocks hash key info block (index + 1) count

/-- Spreads a key to `length` bytes under a context. -/
def expand (hash : HashFunction) (key info : Bytes) (length : Nat) : Bytes :=
  let count := (length + hash.digestSize - 1) / hash.digestSize
  (expandBlocks hash key info [] 1 count).take length

/-- A 256-bit key from a secret, a salt and a context. -/
def deriveKey (hash : HashFunction) (salt secret info : Bytes) : Key :=
  .leading 32 (expand hash (extract hash salt secret) info 32)

end Hkdf

namespace Pbkdf2

/-- Folds `count` further codes of the previous code into the sum. -/
def iterate (p : Hmac.Prepared UInt32) (code sum : Bytes) : Nat → Bytes
  | 0 => sum
  | count + 1 =>
    let next := Hmac.code256 p code
    iterate p next (Bytes.xorWith sum next) count

/-- A 256-bit key from a passphrase: the sum of `iterations` chained codes, at least one. -/
def deriveKey (passphrase salt : Bytes) (iterations : Nat) : Key :=
  let p := Hmac.prepare256 passphrase
  let first := Hmac.code256 p (salt ++ Bytes.bigEndian 4 1)
  .leading 32 (iterate p first first (iterations - 1))

end Pbkdf2

end EndToEnd
