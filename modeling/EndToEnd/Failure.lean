/-!
# Failures

Everything that can go wrong in an operation, with the wording shown to the owner of the device and
the advice for the caller. A remote peer learns only that its envelope was rejected.
-/

namespace EndToEnd

/-- Faults of the cryptographic layer. -/
inductive CryptoFault where
  | keyGeneration (reason : String)
  | keyAgreement (reason : String)
  | signing (reason : String)
  | signatureVerification
  | encryption (reason : String)
  | keyDerivation (reason : String)
  | invalidInput (reason : String)
  deriving DecidableEq, Repr

/-- The name of a kind of cryptographic fault. -/
def CryptoFault.name : CryptoFault → String
  | keyGeneration _ => "KeyGenerationError"
  | keyAgreement _ => "KeyAgreementError"
  | signing _ => "SigningError"
  | signatureVerification => "SignatureVerificationError"
  | encryption _ => "AeadEncryptionError"
  | keyDerivation _ => "KeyDerivationError"
  | invalidInput _ => "InvalidInputError"

/-- The wording of a cryptographic fault. -/
def CryptoFault.message : CryptoFault → String
  | keyGeneration reason => "Failed to generate keys: " ++ reason
  | keyAgreement reason => "Key agreement failed: " ++ reason
  | signing reason => "Signing failed: " ++ reason
  | signatureVerification => "Signature verification failed"
  | encryption reason => "AEAD encryption failed: " ++ reason
  | keyDerivation reason => "Key derivation failed: " ++ reason
  | invalidInput reason => "Invalid input: " ++ reason

/-- Why an operation of a device failed. -/
inductive Failure where
  /-- A tag or a signature is wrong. -/
  | authentication
  /-- A message number was used before, or lies below one that was. -/
  | replay (sequence lastAccepted : UInt64)
  | malformedEnvelope (reason : String)
  | unknownPeer (peer : String)
  | sessionExpired (peer : String) (epoch : UInt64)
  | establishmentTimeout (peer : String)
  | untrustedPeer (peer : String)
  | peerRevoked (peer : String)
  /-- Keys were presented that differ from those on file. -/
  | keyMismatch (device : String)
  | storage (reason : String)
  | serialization (reason : String)
  | crypto (reason : String)
  | invalidInput (reason : String)
  deriving DecidableEq, Repr

namespace Failure

/-- The name of a kind of failure. -/
def name : Failure → String
  | authentication => "AuthenticationFailure"
  | replay _ _ => "ReplayRejected"
  | malformedEnvelope _ => "MalformedEnvelope"
  | unknownPeer _ => "UnknownPeer"
  | sessionExpired _ _ => "SessionExpired"
  | establishmentTimeout _ => "EstablishmentTimeout"
  | untrustedPeer _ => "UntrustedPeer"
  | peerRevoked _ => "PeerRevoked"
  | keyMismatch _ => "KeyMismatch"
  | storage _ => "StorageError"
  | serialization _ => "SerializationError"
  | crypto _ => "CryptoError"
  | invalidInput _ => "InvalidInput"

/-- The wording of a failure. -/
def message : Failure → String
  | authentication => "authentication failure"
  | replay sequence lastAccepted =>
    s!"replay rejected: sequence {sequence.toNat} is not above {lastAccepted.toNat}"
  | malformedEnvelope reason => "malformed envelope: " ++ reason
  | unknownPeer peer => "unknown peer: " ++ peer
  | sessionExpired peer epoch => s!"session expired: peer {peer}, epoch {epoch.toNat}"
  | establishmentTimeout peer => s!"session establishment with {peer} timed out"
  | untrustedPeer peer => s!"peer {peer} is not verified"
  | peerRevoked peer => s!"peer {peer} is revoked"
  | keyMismatch device => s!"public keys for device {device} do not match the keys on file"
  | storage reason => "Storage error: " ++ reason
  | serialization reason => "Serialization error: " ++ reason
  | crypto reason => "Cryptography error: " ++ reason
  | invalidInput reason => "Invalid input: " ++ reason

/-- A text does not spell the record that is asked for. -/
def unreadable : Failure := serialization "the text is not a record of the expected form"

/-- A cryptographic fault as a failure; a wrong signature is told apart from no other forgery. -/
def ofCrypto : CryptoFault → Failure
  | .signatureVerification => authentication
  | fault => crypto fault.message

/-- What the caller may do about a failure. -/
inductive Recovery where
  /-- Report it; never repeat the operation unasked. -/
  | neverRetry
  /-- Ask for the identity of the peer again, then repeat. -/
  | refreshIdentity
  /-- Repeat after a growing delay. -/
  | retryWithBackoff
  /-- Look for the cause on this device. -/
  | ownSide
  deriving DecidableEq, Repr

/-- The name of an advice. -/
def Recovery.name : Recovery → String
  | neverRetry => "NeverRetry"
  | refreshIdentity => "RefreshIdentity"
  | retryWithBackoff => "RetryWithBackoff"
  | ownSide => "Local"

/-- The advice for a failure. -/
def recovery : Failure → Recovery
  | authentication | replay _ _ | sessionExpired _ _ | untrustedPeer _ | peerRevoked _
  | keyMismatch _ => .neverRetry
  | malformedEnvelope _ | unknownPeer _ => .refreshIdentity
  | establishmentTimeout _ => .retryWithBackoff
  | storage _ | serialization _ | crypto _ | invalidInput _ => .ownSide

/-- All that a remote peer learns about its envelope. -/
inductive RemoteCode where
  | accepted
  | rejected
  deriving DecidableEq, Repr

/-- The name of what a remote peer learns. -/
def RemoteCode.name : RemoteCode → String
  | accepted => "Accepted"
  | rejected => "Rejected"

/-- Every failure looks the same from outside. -/
def remoteCode (_ : Failure) : RemoteCode := .rejected

end Failure

end EndToEnd
