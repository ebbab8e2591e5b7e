import EndToEnd.Bytes.Hex
import EndToEnd.Suite.Primitives

/-!
# Lasting keys

A device has two lasting key pairs: one signs, the other agrees on epoch keys. The public halves
are handed to peers; their digest is the fingerprint that two people compare by eye.
-/

namespace EndToEnd

/-- The public halves of a device's lasting keys. -/
structure PublicKeys where
  signing : Key
  encryption : Key
  deriving DecidableEq, Inhabited

/-- The private halves of a device's lasting keys. -/
structure PrivateKeys where
  signing : Key
  encryption : Key
  deriving DecidableEq, Inhabited

/-- The digest of both public keys. -/
abbrev Fingerprint := FixedBytes 32

namespace Fingerprint

/-- The first bytes of what a fingerprint digests. -/
def domain : Bytes := Bytes.ofText "palisade/fingerprint/v1"

/-- A fingerprint as people compare it: groups of four hexadecimal digits. -/
def text (f : Fingerprint) : String :=
  " ".intercalate ((Bytes.chunks 2 f.bytes).map Hex.encode)

end Fingerprint

namespace PublicKeys

/-- The fingerprint of the keys. -/
def fingerprint (P : Primitives) (keys : PublicKeys) : Fingerprint :=
  P.digest (Fingerprint.domain ++ keys.signing.bytes ++ keys.encryption.bytes)

/-- Whether a signature was made with the private half of the signing key. -/
def verify (P : Primitives) (keys : PublicKeys) (message signature : Bytes) : Bool :=
  P.verify keys.signing message signature

end PublicKeys

namespace PrivateKeys

/-- The public halves. -/
def publicKeys (P : Primitives) (keys : PrivateKeys) : PublicKeys :=
  ⟨P.signingPublic keys.signing, P.agreementPublic keys.encryption⟩

/-- Signs a message. -/
def sign (P : Primitives) (keys : PrivateKeys) (message : Bytes) : Bytes :=
  (P.sign keys.signing message).bytes

/-- Both keys one behind the other, the form that is sealed on disk. -/
def toBytes (keys : PrivateKeys) : Bytes := keys.signing.bytes ++ keys.encryption.bytes

/-- Reads both keys; what follows them is passed over. -/
def ofBytes? (bytes : Bytes) : Option PrivateKeys :=
  if bytes.length < 64 then none
  else some ⟨.leading 32 bytes, .leading 32 (bytes.drop 32)⟩

@[simp] theorem length_toBytes (keys : PrivateKeys) : keys.toBytes.length = 64 := by
  simp [toBytes, keys.signing.length_eq, keys.encryption.length_eq]

/-- What was written is read back, whatever follows. -/
theorem ofBytes?_toBytes_append (keys : PrivateKeys) (rest : Bytes) :
    ofBytes? (keys.toBytes ++ rest) = some keys := by
  have hs := keys.signing.length_eq
  have he := keys.encryption.length_eq
  have front : FixedBytes.leading 32 (keys.toBytes ++ rest) = keys.signing := by
    ext1
    simp [FixedBytes.leading, toBytes, hs]
  have back : FixedBytes.leading 32 ((keys.toBytes ++ rest).drop 32) = keys.encryption := by
    ext1
    simp [FixedBytes.leading, toBytes, hs, he]
  simp only [ofBytes?, List.length_append, length_toBytes, front, back]
  rw [if_neg (by omega)]

end PrivateKeys

end EndToEnd
