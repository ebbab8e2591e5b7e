import EndToEnd.Cipher.ChaCha20
import EndToEnd.Cipher.Gcm
import EndToEnd.Cipher.Poly1305

/-!
# Authenticated encryption

The three algorithms share one shape: the plaintext is masked with a key stream, and a code of
sixteen bytes is computed over associated data and ciphertext. Decryption computes the code again
and compares, so for a given ciphertext exactly one tag is accepted.

Main facts: `decrypt?_encrypt` (decryption undoes encryption), `length_encrypt` (the ciphertext is
as long as the plaintext) and `decrypt?_eq_some_iff` (what is accepted, and what it gives).
-/

namespace EndToEnd

/-- The algorithms in use. -/
inductive Aead where
  | chaCha20Poly1305
  | aes256Gcm
  | xChaCha20Poly1305
  deriving DecidableEq, Repr

namespace Aead

/-- Bytes in a tag, the same for every algorithm. -/
def tagSize : Nat := 16

/-- Bytes in a nonce. -/
def nonceSize : Aead → Nat
  | chaCha20Poly1305 => 12
  | aes256Gcm => 12
  | xChaCha20Poly1305 => 24

/-- The name of an algorithm. -/
def name : Aead → String
  | chaCha20Poly1305 => "ChaCha20Poly1305"
  | aes256Gcm => "Aes256Gcm"
  | xChaCha20Poly1305 => "XChaCha20Poly1305"

-- ---------------------------------------------------------------------------
-- Key stream and code
-- ---------------------------------------------------------------------------

/-- What ChaCha20-Poly1305 authenticates: both strings padded, and both lengths. -/
def polyInput (associated ciphertext : Bytes) : Bytes :=
  Gcm.padded associated ++ Gcm.padded ciphertext
    ++ Bytes.littleEndian 8 associated.length ++ Bytes.littleEndian 8 ciphertext.length

/-- The code of ChaCha20-Poly1305; block zero of the key stream is its one-time key. -/
def polyCode (key : Key) (nonce associated ciphertext : Bytes) : FixedBytes 16 :=
  Poly1305.code ((ChaCha20.block key nonce 0).take 32) (polyInput associated ciphertext)

/-- The short nonce that is left of a long one. -/
def shortNonce (nonce : Bytes) : Bytes := List.replicate 4 0 ++ nonce.drop 16

/-- Key stream for a text of the given length. -/
def stream (alg : Aead) (key : Key) (nonce : Bytes) (length : Nat) : Bytes :=
  match alg with
  | chaCha20Poly1305 => ChaCha20.stream key nonce 1 length
  | aes256Gcm => Gcm.stream key nonce length
  | xChaCha20Poly1305 =>
    ChaCha20.stream (ChaCha20.subkey key (nonce.take 16)) (shortNonce nonce) 1 length

/-- The code over associated data and ciphertext. -/
def code (alg : Aead) (key : Key) (nonce associated ciphertext : Bytes) : FixedBytes 16 :=
  match alg with
  | chaCha20Poly1305 => polyCode key nonce associated ciphertext
  | aes256Gcm => Gcm.code key nonce associated ciphertext
  | xChaCha20Poly1305 =>
    polyCode (ChaCha20.subkey key (nonce.take 16)) (shortNonce nonce) associated ciphertext

-- ---------------------------------------------------------------------------
-- Encryption
-- ---------------------------------------------------------------------------

/-- What encryption yields. -/
structure Sealed where
  ciphertext : Bytes
  tag : Bytes
  deriving DecidableEq

/-- Encrypts a plaintext and authenticates it together with associated data. -/
def encrypt (alg : Aead) (key : Key) (nonce plaintext associated : Bytes) : Sealed :=
  let ciphertext := Bytes.xorWith plaintext (alg.stream key nonce plaintext.length)
  ⟨ciphertext, (alg.code key nonce associated ciphertext).bytes⟩

/-- Gives the plaintext back if nonce and tag have their lengths and the tag is the right one. -/
def decrypt? (alg : Aead) (key : Key) (nonce : Bytes) (box : Sealed) (associated : Bytes) :
    Option Bytes :=
  if nonce.length = alg.nonceSize ∧ box.tag = (alg.code key nonce associated box.ciphertext).bytes then
    some (Bytes.xorWith box.ciphertext (alg.stream key nonce box.ciphertext.length))
  else none

/-- The ciphertext is as long as the plaintext. -/
@[simp] theorem length_encrypt (alg : Aead) (key : Key) (nonce plaintext associated : Bytes) :
    (alg.encrypt key nonce plaintext associated).ciphertext.length = plaintext.length := by
  simp [encrypt]

/-- The tag has sixteen bytes. -/
@[simp] theorem length_tag_encrypt (alg : Aead) (key : Key) (nonce plaintext associated : Bytes) :
    (alg.encrypt key nonce plaintext associated).tag.length = tagSize :=
  (alg.code key nonce associated _).length_eq

/-- Decryption undoes encryption. -/
theorem decrypt?_encrypt (alg : Aead) (key : Key) {nonce : Bytes} (plaintext associated : Bytes)
    (h : nonce.length = alg.nonceSize) :
    alg.decrypt? key nonce (alg.encrypt key nonce plaintext associated) associated
      = some plaintext := by
  simp [decrypt?, encrypt, h]

/-- Exactly the recomputed tag is accepted, and the plaintext is then the unmasked ciphertext. -/
theorem decrypt?_eq_some_iff {alg : Aead} {key : Key} {nonce associated plaintext : Bytes}
    {box : Sealed} :
    alg.decrypt? key nonce box associated = some plaintext ↔
      nonce.length = alg.nonceSize ∧
        box.tag = (alg.code key nonce associated box.ciphertext).bytes ∧
        Bytes.xorWith box.ciphertext (alg.stream key nonce box.ciphertext.length) = plaintext := by
  unfold decrypt?
  split <;> simp_all

end Aead

end EndToEnd
