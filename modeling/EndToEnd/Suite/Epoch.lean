import EndToEnd.Random
import EndToEnd.Suite.Basic

/-!
# Epoch keys

An epoch begins with a key that both ends find on their own. The initiator draws a key pair and
mixes two agreements with the responder: that of the fresh key and that of its lasting key. The
responder finds both from its own lasting key and the fresh public key. The epoch key is bound to
who speaks to whom, the number of the epoch and its level.
-/

namespace EndToEnd

/-- What an epoch key is bound to besides the agreements. -/
structure EpochContext where
  initiator : String
  responder : String
  epoch : UInt64
  level : Level
  deriving DecidableEq, Repr

namespace EpochContext

/-- The first bytes of every context. -/
def domain : Bytes := Bytes.ofText "palisade/epoch/v1"

/-- The bytes of a context together with the fresh public key. -/
def bytes (c : EpochContext) (ephemeral : Bytes) : Bytes :=
  domain ++ Bytes.counted 2 (Bytes.ofText c.initiator) ++ Bytes.counted 2 (Bytes.ofText c.responder)
    ++ Bytes.bigEndian 8 c.epoch.toNat ++ [c.level.tag] ++ ephemeral

end EpochContext

/-- What the initiator obtains. -/
structure EpochKeys where
  /-- The fresh public key, which travels in every envelope of the epoch. -/
  ephemeral : Key
  key : Key
  deriving DecidableEq

namespace EpochKeys

variable (P : Primitives)

/-- The epoch key of the initiator with a given fresh private key. -/
def initiateWith (suite : Suite) (ephemeral : Key) (ownStatic : Bytes) (peerStatic : Key)
    (context : EpochContext) : Except CryptoFault EpochKeys := do
  let freshPublic := P.agreementPublic ephemeral
  let first ← Suite.agree P ephemeral.bytes peerStatic.bytes
  let second ← Suite.agree P ownStatic peerStatic.bytes
  return ⟨freshPublic, suite.deriveKey P (first.bytes ++ second.bytes) (context.bytes freshPublic.bytes)⟩

/-- The epoch key of the responder. -/
def respond (suite : Suite) (ownStatic : Bytes) (peerStatic : Key) (ephemeral : Bytes)
    (context : EpochContext) : Except CryptoFault Key := do
  if ephemeral.length ≠ 32 then
    throw (.invalidInput "Invalid ephemeral public key length")
  let first ← Suite.agree P ownStatic ephemeral
  let second ← Suite.agree P ownStatic peerStatic.bytes
  return suite.deriveKey P (first.bytes ++ second.bytes) (context.bytes ephemeral)

end EpochKeys

end EndToEnd
