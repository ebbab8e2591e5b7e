import EndToEnd.Envelope.Basic
import EndToEnd.Failure
import EndToEnd.Suite.Basic

/-!
# Well-formed envelopes

The checks that an envelope passes before any key is touched. They are made in a fixed order, and
the first that fails is reported.
-/

namespace EndToEnd

/-- What bounds the size of envelopes. Both are machine words, of 64 bits, and written as numbers here:
the checks only compare with them, and the one sum that is made of them, `Envelope.maxSize`, wraps
around as theirs does. That memory may run out long before such a bound is not modelled. -/
structure Envelope.Limits where
  /-- Bytes that a text may have. -/
  maxCiphertext : Nat
  /-- Bytes that a device id may have. -/
  maxDeviceId : Nat
  deriving DecidableEq, Repr

namespace Envelope

/-- What is wrong with a device id. -/
inductive IdFault where
  | empty
  | tooLong (limit : Nat)
  | controlCharacters
  deriving DecidableEq, Repr

/-- The wording of a fault. -/
def IdFault.message : IdFault → String
  | empty => "device id is empty"
  | tooLong limit => s!"device id longer than {limit} bytes"
  | controlCharacters => "device id contains control characters"

/-- Whether a character is a control character: the first two rows of either half of Latin-1. -/
def isControl (c : Char) : Bool :=
  c.toNat < 0x20 || (0x7f ≤ c.toNat && c.toNat < 0xa0)

/-- What is wrong with a device id, if anything is. -/
def idFault? (limit : Nat) (id : String) : Option IdFault :=
  if id.utf8ByteSize = 0 then some .empty
  else if limit < id.utf8ByteSize then some (.tooLong limit)
  else if id.toList.any isControl then some .controlCharacters
  else none

/-- What is wrong with an envelope. -/
inductive Fault where
  | id (fault : IdFault)
  | sequence
  | nonceSize (expected : Nat) (level : Level)
  | tagSize (expected : Nat)
  | ciphertextSize (limit : Nat)
  | signatureSize
  | signatureMissing (level : Level)
  | signatureUnexpected (level : Level)
  deriving DecidableEq, Repr

/-- The wording of a fault. -/
def Fault.message : Fault → String
  | id fault => fault.message
  | sequence => "sequence must be at least 1"
  | nonceSize expected level => s!"nonce must be {expected} bytes for level {level.name}"
  | tagSize expected => s!"tag must be {expected} bytes"
  | ciphertextSize limit => s!"ciphertext exceeds {limit} bytes"
  | signatureSize => "signature has wrong length"
  | signatureMissing level => s!"level {level.name} requires a signature"
  | signatureUnexpected level => s!"level {level.name} does not carry signatures"

/-- What is wrong with the signature, if anything is: it stands exactly at the levels that sign. -/
def signatureFault? (e : Envelope) : Option Fault :=
  match e.signature, e.level.suite.isSigned with
  | some signature, true => if signature.length = 64 then none else some .signatureSize
  | none, true => some (.signatureMissing e.level)
  | some _, false => some (.signatureUnexpected e.level)
  | none, false => none

/-- The first thing that is wrong with an envelope, if anything is. -/
def fault? (limits : Limits) (e : Envelope) : Option Fault :=
  match idFault? limits.maxDeviceId e.sender, idFault? limits.maxDeviceId e.recipient with
  | some fault, _ => some (.id fault)
  | none, some fault => some (.id fault)
  | none, none =>
    let suite := e.level.suite
    if e.sequence = 0 then some .sequence
    else if e.nonce.length ≠ suite.nonceSize then some (.nonceSize suite.nonceSize e.level)
    else if e.tag.length ≠ suite.tagSize then some (.tagSize suite.tagSize)
    else if limits.maxCiphertext < e.ciphertext.length then some (.ciphertextSize limits.maxCiphertext)
    else e.signatureFault?

/-- Accepts a device id or says what is wrong with it. -/
def checkId (limit : Nat) (id : String) : Except Failure Unit :=
  match idFault? limit id with
  | some fault => .error (.malformedEnvelope fault.message)
  | none => .ok ()

/-- Accepts an envelope or says what is wrong with it. -/
def check (limits : Limits) (e : Envelope) : Except Failure Unit :=
  match e.fault? limits with
  | some fault => .error (.malformedEnvelope fault.message)
  | none => .ok ()

end Envelope

end EndToEnd
