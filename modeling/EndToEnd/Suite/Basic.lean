import EndToEnd.Failure
import EndToEnd.Level
import EndToEnd.Suite.Primitives

/-!
# Suites

Each level stands for one choice of primitives: an authenticated cipher, a hash function behind key
derivation and message codes, whether envelopes are signed, and whether keys pass a second stage of
derivation. Key agreement is the same at every level.

Main facts: `encrypt_eq_ok_iff` (encryption succeeds exactly for a nonce of the right length),
`decrypt?_encrypt` and `decrypt?_eq_none_of_length`.
-/

namespace EndToEnd

/-- A choice of primitives. -/
structure Suite where
  level : Level
  aead : Aead
  hash : HashFunction
  /-- Whether envelopes carry a signature. -/
  isSigned : Bool
  /-- Whether keys pass a second stage of derivation, where a further secret could join. -/
  isStaged : Bool
  deriving DecidableEq, Repr

/-- The choice that a level stands for. -/
def Level.suite : Level → Suite
  | basic => ⟨basic, .chaCha20Poly1305, .sha256, false, false⟩
  | enhanced => ⟨enhanced, .aes256Gcm, .sha256, false, false⟩
  | military => ⟨military, .aes256Gcm, .sha512, true, false⟩
  | quantumSafe => ⟨quantumSafe, .xChaCha20Poly1305, .sha512, true, true⟩

namespace Suite

variable (P : Primitives)

/-- Bytes in a nonce. -/
def nonceSize (s : Suite) : Nat := s.aead.nonceSize

/-- Bytes in a tag. -/
def tagSize (_ : Suite) : Nat := Aead.tagSize

-- ---------------------------------------------------------------------------
-- Keys
-- ---------------------------------------------------------------------------

/-- The salt of every derivation. -/
def derivationSalt : Bytes := Bytes.ofText "palisade/kdf/v1"

/-- The salt of the second stage. -/
def stageSalt : Bytes := Bytes.ofText "palisade/hybrid-stage/v1"

/-- The secret shared with the holder of a public key. -/
def agree (privateKey publicKey : Bytes) : Except CryptoFault Key :=
  match FixedBytes.ofBytes? 32 privateKey, FixedBytes.ofBytes? 32 publicKey with
  | none, _ => .error (.invalidInput "Invalid X25519 private key length")
  | some _, none => .error (.invalidInput "Invalid X25519 public key length")
  | some a, some b =>
    match P.agree? a b with
    | some shared => .ok shared
    | none => .error (.keyAgreement "peer public key produced a non-contributory secret")

/-- A key from a shared secret, bound to a context. -/
def deriveKey (s : Suite) (secret context : Bytes) : Key :=
  let key := P.deriveKey s.hash derivationSalt secret context
  if s.isStaged then P.deriveKey .sha512 stageSalt key.bytes context else key

/-- The message authentication code of the suite. -/
def mac (s : Suite) (key : Key) (data : Bytes) : Bytes := P.mac s.hash key data

/-- What a message key is the code of. -/
def messageLabel : Bytes := Bytes.ofText "palisade/ratchet/message"

/-- What the next chain key is the code of. -/
def chainLabel : Bytes := Bytes.ofText "palisade/ratchet/chain"

/-- One step of a key chain: the message key, and the chain key that follows. -/
def ratchetStep (s : Suite) (chainKey : Key) : Key × Key :=
  (.leading 32 (s.mac P chainKey messageLabel), .leading 32 (s.mac P chainKey chainLabel))

-- ---------------------------------------------------------------------------
-- Encryption
-- ---------------------------------------------------------------------------

/-- Encrypts under a nonce of the right length. -/
def encrypt (s : Suite) (key : Key) (nonce plaintext associated : Bytes) :
    Except CryptoFault Aead.Sealed :=
  if nonce.length = s.nonceSize then .ok (P.encrypt s.aead key nonce plaintext associated)
  else .error (.invalidInput s!"nonce must be {s.nonceSize} bytes, got {nonce.length}")

/-- Decrypts; a wrong length, a wrong tag and any forgery look the same. -/
def decrypt? (s : Suite) (key : Key) (nonce : Bytes) (box : Aead.Sealed) (associated : Bytes) :
    Option Bytes :=
  if nonce.length = s.nonceSize ∧ box.tag.length = s.tagSize then
    P.decrypt? s.aead key nonce box associated
  else none

variable {P}

/-- Encryption succeeds exactly for a nonce of the right length. -/
theorem encrypt_eq_ok_iff {s : Suite} {key : Key} {nonce plaintext associated : Bytes}
    {box : Aead.Sealed} :
    s.encrypt P key nonce plaintext associated = .ok box ↔
      nonce.length = s.nonceSize ∧ P.encrypt s.aead key nonce plaintext associated = box := by
  unfold encrypt
  split <;> simp_all

/-- What was encrypted is decrypted. -/
theorem decrypt?_of_encrypt (hP : P.Lawful) {s : Suite} {key : Key}
    {nonce plaintext associated : Bytes} {box : Aead.Sealed}
    (h : s.encrypt P key nonce plaintext associated = .ok box) :
    s.decrypt? P key nonce box associated = some plaintext := by
  obtain ⟨hn, rfl⟩ := encrypt_eq_ok_iff.1 h
  simp only [decrypt?, hn, tagSize, hP.length_tag, and_self, if_true]
  exact hP.decrypt?_encrypt s.aead key nonce plaintext associated hn

/-- A nonce or tag of another length is refused. -/
theorem decrypt?_eq_none_of_length {s : Suite} {key : Key} {nonce associated : Bytes}
    {box : Aead.Sealed} (h : nonce.length ≠ s.nonceSize ∨ box.tag.length ≠ s.tagSize) :
    s.decrypt? P key nonce box associated = none := by
  unfold decrypt?
  split <;> simp_all

end Suite

/-- A key from the front of longer material. -/
def keyOfMaterial (material : Bytes) : Except CryptoFault Key :=
  if material.length < 32 then
    .error (.keyDerivation s!"need 32 bytes of key material, got {material.length}")
  else .ok (.leading 32 material)

end EndToEnd
