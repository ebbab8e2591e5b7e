import EndToEnd.Failure
import EndToEnd.Identity.Basic

/-!
# Sealed identities

The private keys of a device, encrypted under a key from a passphrase. The device id is
authenticated with them, so a sealed identity cannot be passed off as that of another device. A
wrong passphrase looks like a forgery.

Main facts: `unlock_lock` (what was sealed is recovered with the same passphrase).
-/

namespace EndToEnd

/-- An identity whose private keys are encrypted. -/
structure SealedIdentity where
  deviceId : String
  createdAt : UInt64
  publicKeys : PublicKeys
  salt : Bytes
  iterations : UInt32
  nonce : Bytes
  /-- The encrypted keys and the tag behind them. -/
  ciphertext : Bytes
  deriving DecidableEq

namespace SealedIdentity

/-- Bytes in the nonce. -/
def nonceSize : Nat := 12

variable (P : Primitives)

/-- The key that a passphrase stands for. -/
def masterKey (passphrase : String) (salt : Bytes) (iterations : UInt32) : Except Failure Key :=
  if passphrase.isEmpty then .error (.invalidInput "Passphrase cannot be empty")
  else if salt.length < 16 ∨ iterations = 0 then
    .error (.invalidInput "Invalid PBKDF2 parameters")
  else .ok (P.passphraseKey (Bytes.ofText passphrase) salt iterations.toNat)

/-- Encrypts the keys of an identity. The salt is drawn first, and the nonce once the key is
known. -/
def lock (identity : Identity) (passphrase : String) (iterations : UInt32) (saltLength : Nat)
    (random : RandomSource) : Except Failure SealedIdentity × RandomSource :=
  let (salt, random) := random.draw saltLength
  match masterKey P passphrase salt iterations with
  | .error failure => (.error failure, random)
  | .ok key =>
    let (nonce, random) := random.draw nonceSize
    let box := P.encrypt .aes256Gcm key nonce identity.keys.toBytes (Bytes.ofText identity.deviceId)
    (.ok ⟨identity.deviceId, identity.createdAt, identity.publicKeys P, salt, iterations, nonce,
      box.ciphertext ++ box.tag⟩, random)

/-- An encrypted text taken apart from its tag, if it is long enough to have one. -/
def splitTag (bytes : Bytes) : Option Aead.Sealed :=
  if bytes.length < Aead.tagSize then none
  else
    let size := bytes.length - Aead.tagSize
    some ⟨bytes.take size, bytes.drop size⟩

/-- Reads the keys from what was encrypted. -/
def readKeys (bytes : Bytes) : Except Failure PrivateKeys :=
  match PrivateKeys.ofBytes? bytes with
  | some keys => .ok keys
  | none => .error (.serialization "Deserialization failed: fewer bytes than two keys have")

/-- Decrypts the keys. -/
def unlock (stored : SealedIdentity) (passphrase : String) : Except Failure PrivateKeys :=
  if stored.nonce.length ≠ nonceSize then
    .error (.serialization "Invalid sealed identity nonce")
  else
    match masterKey P passphrase stored.salt stored.iterations with
    | .error failure => .error failure
    | .ok key =>
      match (splitTag stored.ciphertext).bind fun box =>
          P.decrypt? .aes256Gcm key stored.nonce box (Bytes.ofText stored.deviceId) with
      | none => .error .authentication
      | some plaintext => readKeys plaintext

variable {P}

theorem splitTag_append {a b : Bytes} (h : b.length = Aead.tagSize) :
    splitTag (a ++ b) = some ⟨a, b⟩ := by
  simp [splitTag, h]

/-- What was sealed is recovered with the same passphrase. -/
theorem unlock_lock (hP : P.Lawful) {identity : Identity} {passphrase : String}
    {iterations : UInt32} {saltLength : Nat} {random rest : RandomSource} {stored : SealedIdentity}
    (h : lock P identity passphrase iterations saltLength random = (.ok stored, rest)) :
    stored.unlock P passphrase = .ok identity.keys := by
  unfold lock at h
  cases hk : masterKey P passphrase (random.draw saltLength).1 iterations with
  | error failure => simp [hk] at h
  | ok key =>
    simp only [hk, Prod.mk.injEq, Except.ok.injEq] at h
    obtain ⟨rfl, -⟩ := h
    have tag := hP.length_tag .aes256Gcm key (((random.draw saltLength).2).draw nonceSize).1
      identity.keys.toBytes (Bytes.ofText identity.deviceId)
    have back := hP.decrypt?_encrypt .aes256Gcm key (((random.draw saltLength).2).draw nonceSize).1
      identity.keys.toBytes (Bytes.ofText identity.deviceId) (by simp [nonceSize, Aead.nonceSize])
    have read := PrivateKeys.ofBytes?_toBytes_append identity.keys []
    rw [List.append_nil] at read
    simp [unlock, readKeys, hk, splitTag_append tag, back, read]

end SealedIdentity

end EndToEnd
