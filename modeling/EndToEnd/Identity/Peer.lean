import EndToEnd.Identity.Keys
import EndToEnd.Trust.Basic

/-!
# Peers

What a device keeps on file about another device. Keys and the time of the first meeting are
written once; trust changes with evidence, and the reason of a revocation is kept with it.
-/

namespace EndToEnd

/-- The record of another device. -/
structure Peer where
  deviceId : String
  keys : PublicKeys
  trust : Trust
  firstSeen : UInt64
  updatedAt : UInt64
  revocationReason : Option String
  deriving DecidableEq

namespace Peer

/-- The record of a device that was met just now. -/
def met (deviceId : String) (keys : PublicKeys) (now : UInt64) : Peer :=
  ⟨deviceId, keys, .unverified, now, now, none⟩

/-- Whether the device was revoked. -/
def isRevoked (p : Peer) : Bool := p.trust = .revoked

end Peer

end EndToEnd
