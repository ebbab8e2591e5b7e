import EndToEnd.Bytes.Basic
import EndToEnd.Level

/-!
# Envelopes

What one device hands to the transport for another: who sends to whom, the epoch and the number of
the message in it, and the encrypted text. The header is authenticated with the text; at levels
that sign, a signature covers everything.
-/

namespace EndToEnd

/-- A message on its way. -/
structure Envelope where
  sender : String
  recipient : String
  epoch : UInt64
  /-- The number of the message in its epoch; the first is one. -/
  sequence : UInt64
  level : Level
  /-- The fresh public key of the epoch. -/
  ephemeral : Key
  nonce : Bytes
  ciphertext : Bytes
  tag : Bytes
  signature : Option Bytes
  deriving DecidableEq

namespace Envelope

/-- The version of the format. -/
def version : UInt8 := 1

/-- The first bytes of every header. -/
def domain : Bytes := Bytes.ofText "palisade/envelope/v1"

/-- The header, which the cipher authenticates. -/
def associatedData (e : Envelope) : Bytes :=
  domain ++ [version] ++ Bytes.counted 2 (Bytes.ofText e.sender)
    ++ Bytes.counted 2 (Bytes.ofText e.recipient) ++ Bytes.bigEndian 8 e.epoch.toNat
    ++ Bytes.bigEndian 8 e.sequence.toNat ++ [e.level.tag] ++ e.ephemeral.bytes

/-- What a signature covers. -/
def signingBytes (e : Envelope) : Bytes :=
  e.associatedData ++ Bytes.counted 2 e.nonce ++ Bytes.counted 8 e.ciphertext ++ e.tag

end Envelope

end EndToEnd
