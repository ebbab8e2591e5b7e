import EndToEnd.Identity.Keys
import EndToEnd.Random
import EndToEnd.Text.Quoted
import EndToEnd.Text.Uuid

/-!
# Identities

A device is known by an id and by its lasting keys. A new identity takes a random id and random
keys.
-/

namespace EndToEnd

/-- A device with its lasting keys. -/
structure Identity where
  deviceId : String
  createdAt : UInt64
  keys : PrivateKeys
  deriving DecidableEq, Inhabited

namespace Identity

variable (P : Primitives)

/-- The public halves of the lasting keys. -/
def publicKeys (identity : Identity) : PublicKeys := identity.keys.publicKeys P

/-- The fingerprint of the public keys. -/
def fingerprint (identity : Identity) : Fingerprint := (identity.publicKeys P).fingerprint P

/-- Signs a message. -/
def sign (identity : Identity) (message : Bytes) : Bytes := identity.keys.sign P message

/-- A new identity: first the id is drawn, then the signing key, then the agreement key. -/
def generate (createdAt : UInt64) (random : RandomSource) : Identity × RandomSource :=
  let (id, random) := random.draw 16
  let (signing, random) := random.drawKey
  let (encryption, random) := random.drawKey
  (⟨Uuid.text (Uuid.ofRandom (Bytes.ofLittleEndian id)), createdAt, ⟨signing, encryption⟩⟩, random)

/-- A description that shows no private key. -/
def describe (identity : Identity) : String :=
  "DeviceIdentity \x7b device_id: " ++ Text.quote identity.deviceId ++ ", created_at: "
    ++ toString identity.createdAt.toNat ++ ", fingerprint: "
    ++ Text.quote (identity.fingerprint P).text ++ ", .. \x7d"

end Identity

end EndToEnd
