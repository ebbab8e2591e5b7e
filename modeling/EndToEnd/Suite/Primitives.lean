import EndToEnd.Cipher.Aead
import EndToEnd.Curve.Ed25519
import EndToEnd.Curve.X25519
import EndToEnd.Hash.Keyed

/-!
# Cryptographic primitives

The protocol is written over a record of primitives and never looks inside them. What it may rely
on is `Primitives.Lawful`; the primitives that run are `Primitives.standard`.
-/

namespace EndToEnd

/-- The operations that the protocol is built from. -/
structure Primitives where
  /-- The public key of a key agreement key. -/
  agreementPublic : Key → Key
  /-- The secret shared with the holder of a public key, unless that key is degenerate. -/
  agree? : Key → Key → Option Key
  /-- The public key of a signing key. -/
  signingPublic : Key → Key
  sign : Key → Bytes → FixedBytes 64
  verify : Key → Bytes → Bytes → Bool
  encrypt : Aead → Key → Bytes → Bytes → Bytes → Aead.Sealed
  decrypt? : Aead → Key → Bytes → Aead.Sealed → Bytes → Option Bytes
  mac : HashFunction → Key → Bytes → Bytes
  /-- A key from a salt, a secret and a context. -/
  deriveKey : HashFunction → Bytes → Bytes → Bytes → Key
  /-- The digest behind fingerprints and the audit log. -/
  digest : Bytes → FixedBytes 32
  /-- A key from a passphrase, a salt and a number of iterations. -/
  passphraseKey : Bytes → Bytes → Nat → Key

namespace Primitives

/-- The primitives that run. -/
def standard : Primitives where
  agreementPublic := X25519.publicKey
  agree? := X25519.agree?
  signingPublic := Ed25519.publicKey
  sign := Ed25519.sign
  verify := Ed25519.verify
  encrypt := Aead.encrypt
  decrypt? := Aead.decrypt?
  mac hash key := hmac hash key.bytes
  deriveKey := Hkdf.deriveKey
  digest bytes := .leading 32 (Sha2.sha256 bytes)
  passphraseKey := Pbkdf2.deriveKey

/-- What the protocol relies on. -/
structure Lawful (P : Primitives) : Prop where
  /-- Both ends of an agreement find the same secret, or both find none. -/
  agree_comm (a b : Key) : P.agree? a (P.agreementPublic b) = P.agree? b (P.agreementPublic a)
  /-- A signature is accepted under the public key of its signer. -/
  verify_sign (key : Key) (message : Bytes) :
    P.verify (P.signingPublic key) message (P.sign key message).bytes = true
  /-- Decryption undoes encryption under a nonce of the right length. -/
  decrypt?_encrypt (alg : Aead) (key : Key) (nonce plaintext associated : Bytes) :
    nonce.length = alg.nonceSize →
      P.decrypt? alg key nonce (P.encrypt alg key nonce plaintext associated) associated
        = some plaintext
  /-- A ciphertext is as long as its plaintext. -/
  length_encrypt (alg : Aead) (key : Key) (nonce plaintext associated : Bytes) :
    (P.encrypt alg key nonce plaintext associated).ciphertext.length = plaintext.length
  /-- Every tag has the same length. -/
  length_tag (alg : Aead) (key : Key) (nonce plaintext associated : Bytes) :
    (P.encrypt alg key nonce plaintext associated).tag.length = Aead.tagSize

end Primitives

end EndToEnd
