import EndToEnd.MessagePack.Reader

/-!
# The body of a written envelope

A record of ten fields, as an array of their values in order or as a map from their names or
numbers. In an array the signature, which comes last, may be missing; in a map fields come in any
order, unknown ones are passed over, and a field that is given twice is a fault.
-/

namespace EndToEnd.Envelope

open MessagePack (Reader)

/-- A field of the record. -/
inductive Field where
  | sender
  | recipient
  | epoch
  | sequence
  | level
  | ephemeral
  | nonce
  | ciphertext
  | tag
  | signature
  deriving DecidableEq, Repr

namespace Field

/-- All fields in the order of writing. -/
def all : List Field :=
  [sender, recipient, epoch, sequence, level, ephemeral, nonce, ciphertext, tag, signature]

/-- The name of a field. -/
def name : Field → String
  | sender => "sender"
  | recipient => "recipient"
  | epoch => "epoch"
  | sequence => "sequence"
  | level => "level"
  | ephemeral => "ephemeral_public"
  | nonce => "nonce"
  | ciphertext => "ciphertext"
  | tag => "tag"
  | signature => "signature"

/-- The field that some bytes name. -/
def named? (bytes : Bytes) : Option Field := all.find? fun f => Bytes.ofText f.name = bytes

/-- A key of a map: the field of a name or a number, or nothing for an unknown one. -/
def read : Reader (Option Field) := do
  match ← MessagePack.header with
  | .number (.unsigned n) => return all[n]?
  | .str length | .bin length => return named? (← MessagePack.content length)
  | h => MessagePack.refuse .fieldName h

end Field

/-- An envelope as its body says it, with level and key not yet looked at. -/
structure Draft where
  sender : String
  recipient : String
  epoch : UInt64
  sequence : UInt64
  levelTag : UInt8
  ephemeral : Bytes
  nonce : Bytes
  ciphertext : Bytes
  tag : Bytes
  signature : Option Bytes
  deriving DecidableEq

/-- The fields that were read so far. -/
structure Parts where
  sender : Option String := none
  recipient : Option String := none
  epoch : Option Nat := none
  sequence : Option Nat := none
  level : Option Nat := none
  ephemeral : Option Bytes := none
  nonce : Option Bytes := none
  ciphertext : Option Bytes := none
  tag : Option Bytes := none
  signature : Option (Option Bytes) := none
  deriving DecidableEq

namespace Parts

/-- Reads a field that was not given before. -/
def fresh {α : Type} (field : Field) (given : Option α) (read : Reader α) : Reader (Option α) :=
  if given.isSome then throw (.duplicateField field.name) else some <$> read

/-- Reads the value of a field. -/
def read (p : Parts) (field : Field) : Reader Parts :=
  match field with
  | .sender => return { p with sender := ← fresh field p.sender MessagePack.text }
  | .recipient => return { p with recipient := ← fresh field p.recipient MessagePack.text }
  | .epoch => return { p with epoch := ← fresh field p.epoch (MessagePack.natural 8) }
  | .sequence => return { p with sequence := ← fresh field p.sequence (MessagePack.natural 8) }
  | .level => return { p with level := ← fresh field p.level (MessagePack.natural 1) }
  | .ephemeral => return { p with ephemeral := ← fresh field p.ephemeral MessagePack.bytes }
  | .nonce => return { p with nonce := ← fresh field p.nonce MessagePack.bytes }
  | .ciphertext => return { p with ciphertext := ← fresh field p.ciphertext MessagePack.bytes }
  | .tag => return { p with tag := ← fresh field p.tag MessagePack.bytes }
  | .signature => return { p with signature := ← fresh field p.signature MessagePack.bytes? }

/-- The value of a field that must be given. -/
def need {α : Type} (field : Field) : Option α → Except MessagePack.Fault α
  | some a => .ok a
  | none => .error (.missingField field.name)

/-- The draft that the fields make; only the signature may be missing. -/
def complete (p : Parts) : Except MessagePack.Fault Draft := do
  return {
    sender := ← need .sender p.sender
    recipient := ← need .recipient p.recipient
    epoch := UInt64.ofNat (← need .epoch p.epoch)
    sequence := UInt64.ofNat (← need .sequence p.sequence)
    levelTag := UInt8.ofNat (← need .level p.level)
    ephemeral := ← need .ephemeral p.ephemeral
    nonce := ← need .nonce p.nonce
    ciphertext := ← need .ciphertext p.ciphertext
    tag := ← need .tag p.tag
    signature := p.signature.getD none }

end Parts

/-- What a body should be. -/
def bodyType : MessagePack.Expected := .record "WireEnvelope" Field.all.length

/-- Reads the fields of an array of some length. -/
def readItems (length : Nat) : Reader Parts := do
  let parts ← (Field.all.take length).foldlM Parts.read {}
  if length + 1 < Field.all.length then throw (.tooFewItems length bodyType)
  else if Field.all.length < length then throw (.tooManyItems Field.all.length)
  else return parts

/-- Reads an entry of a map. -/
def readEntry (p : Parts) : Reader Parts := do
  match ← Field.read with
  | some field => p.read field
  | none =>
    MessagePack.skip (MessagePack.maxDepth - 1)
    return p

/-- Reads as many entries of a map. -/
def readEntries (p : Parts) : Nat → Reader Parts
  | 0, bytes => .ok (p, bytes)
  | n + 1, bytes =>
    match readEntry p bytes with
    | .ok (p, rest) => readEntries p n rest
    | .error fault => .error fault

/-- Reads the body of an envelope. -/
def readBody : Reader Draft := do
  match ← MessagePack.header with
  | .array length => (← readItems length).complete
  | .map length => (← readEntries {} length).complete
  | h => MessagePack.refuse bodyType h

end EndToEnd.Envelope
