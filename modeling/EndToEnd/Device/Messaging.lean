import EndToEnd.Device.Basic
import EndToEnd.Envelope.Codec

/-!
# Messages

Sending looks at what is on file about the peer before any key is touched. Receiving checks the
envelope, who it is for, who it is from, and the signature where there is one, before it is
decrypted; whatever is wrong is put on record, and the caller may tell the remote side no more than
that its envelope was rejected.
-/

namespace EndToEnd

/-- A message that was received. -/
structure ReceivedMessage where
  sender : String
  level : Level
  epoch : UInt64
  sequence : UInt64
  /-- How far the sender is trusted. -/
  trust : Trust
  plaintext : Bytes
  deriving DecidableEq

namespace Device

variable (P : Primitives)

-- ---------------------------------------------------------------------------
-- Sending
-- ---------------------------------------------------------------------------

/-- Refuses to send, for a reason that is put on record. -/
def refuseSend (peer reason : String) (failure : Failure) (d : Device) :
    Except Failure Bytes × Device :=
  (.error failure, d.note P ⟨.sendRefused, [d.id, peer], .failure, reason⟩)

/-- Refuses to send to a peer that is not on file. An establishment that was asked for may have run
out in the meantime; then that is reported. -/
def refuseUnknown (peer : String) (d : Device) : Except Failure Bytes × Device :=
  match d.onPairs P fun s => Pairs.checkEstablishment s peer with
  | (.error failure, d) => (.error failure, d)
  | (.ok (), d) =>
    (.error (.unknownPeer peer),
      d.note P ⟨.unknownPeer, [d.id, peer], .failure, "send to unknown peer"⟩)

/-- Makes the written envelope of a message to a peer on file. -/
def sendTo (peer : Peer) (level : Level) (plaintext : Bytes) (d : Device) :
    Except Failure Bytes × Device :=
  match d.onPairs P fun s => Pairs.encrypt P s peer level plaintext with
  | (.error failure, d) => (.error failure, d)
  | (.ok e, d) => (e.encode d.config.limits, d)

/-- Makes the written envelope of a message. -/
def send (peer : String) (level : Level) (plaintext : Bytes) (d : Device) :
    Except Failure Bytes × Device :=
  match d.contacts.get? peer with
  | none => d.refuseUnknown P peer
  | some record =>
    if record.isRevoked then d.refuseSend P peer "peer is revoked" (.peerRevoked peer)
    else if record.trust = .unverified ∧ d.config.requireVerification then
      d.refuseSend P peer "peer is not verified" (.untrustedPeer peer)
    else d.sendTo P record level plaintext

/-- Makes the written envelope of a message at the level of the configuration. -/
def sendDefault (peer : String) (plaintext : Bytes) (d : Device) : Except Failure Bytes × Device :=
  d.send P peer d.config.level plaintext

-- ---------------------------------------------------------------------------
-- Receiving
-- ---------------------------------------------------------------------------

/-- The kind of entry that a rejected envelope leaves. -/
def rejectionKind : Failure → Audit.Kind
  | .authentication => .authenticationFailure
  | .replay _ _ => .replayRejected
  | .malformedEnvelope _ => .malformedEnvelope
  | .sessionExpired _ _ => .sessionExpired
  | .unknownPeer _ => .unknownPeer
  | _ => .messageRejected

/-- Rejects an envelope and puts it on record, with the sender if one could be read. -/
def reject (sender : Option String) (failure : Failure) (d : Device) :
    Except Failure ReceivedMessage × Device :=
  match d.record P ⟨rejectionKind failure, d.id :: sender.toList, .failure, failure.message⟩ with
  | (.error refused, d) => (.error refused, d)
  | (.ok (), d) => (.error failure, d)

/-- The sender of an envelope, if the envelope is for this device, from a peer that is not revoked,
and signed by it where its level signs. -/
def authenticate (e : Envelope) (d : Device) : Except Failure Peer :=
  if e.recipient ≠ d.id then .error (.malformedEnvelope "envelope addressed to another device")
  else
    match d.contacts.lookup e.sender with
    | .error failure => .error failure
    | .ok sender =>
      if sender.isRevoked then .error (.peerRevoked sender.deviceId)
      else if e.level.suite.isSigned then
        match e.signature with
        | none => .error (.malformedEnvelope "missing signature")
        | some signature =>
          if sender.keys.verify P e.signingBytes signature then .ok sender
          else .error .authentication
      else .ok sender

/-- Opens an envelope that was read. -/
def receiveEnvelope (e : Envelope) (d : Device) : Except Failure ReceivedMessage × Device :=
  match d.authenticate P e with
  | .error failure => d.reject P (some e.sender) failure
  | .ok sender =>
    match d.onPairs P fun s => Pairs.decrypt P s sender e with
    | (.error failure, d) => d.reject P (some e.sender) failure
    | (.ok plaintext, d) =>
      (.ok ⟨sender.deviceId, e.level, e.epoch, e.sequence, sender.trust, plaintext⟩, d)

/-- Opens a written envelope. -/
def receive (bytes : Bytes) (d : Device) : Except Failure ReceivedMessage × Device :=
  match Envelope.decode d.config.limits bytes with
  | .error failure => d.reject P none failure
  | .ok e => d.receiveEnvelope P e

end Device

end EndToEnd
