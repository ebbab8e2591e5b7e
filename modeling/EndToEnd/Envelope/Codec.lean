import EndToEnd.Envelope.Body
import EndToEnd.Envelope.Wellformed
import EndToEnd.MessagePack.Writer

/-!
# The written form of envelopes

Two letters, a version, and a MessagePack array of ten values. Writing takes one form; reading
accepts every form of the body. What is read passes the same checks as what is written.
-/

namespace EndToEnd.Envelope

/-- The letters at the start of every envelope. -/
def magic : Bytes := Bytes.ofText "PS"

/-- The envelope with its parts in the order of writing. -/
def write (e : Envelope) : Bytes :=
  magic ++ [version] ++ MessagePack.shortArray 10
    ++ MessagePack.str (Bytes.ofText e.sender) ++ MessagePack.str (Bytes.ofText e.recipient)
    ++ MessagePack.unsigned e.epoch.toNat ++ MessagePack.unsigned e.sequence.toNat
    ++ MessagePack.unsigned e.level.tag.toNat ++ MessagePack.bin e.ephemeral.bytes
    ++ MessagePack.bin e.nonce ++ MessagePack.bin e.ciphertext ++ MessagePack.bin e.tag
    ++ (match e.signature with
        | some signature => MessagePack.bin signature
        | none => MessagePack.nil)

/-- Writes an envelope that passes the checks. -/
def encode (limits : Limits) (e : Envelope) : Except Failure Bytes :=
  match e.check limits with
  | .ok () => .ok e.write
  | .error failure => .error failure

-- ---------------------------------------------------------------------------
-- Reading
-- ---------------------------------------------------------------------------

/-- Why bytes are no envelope. -/
inductive Unreadable where
  | magic
  | version (found : UInt8)
  | tooLarge
  | body (fault : MessagePack.Fault)
  | trailingBytes
  | level (tag : UInt8)
  | ephemeralSize
  deriving DecidableEq, Repr

/-- The wording for bytes that are no envelope. -/
def Unreadable.message : Unreadable → String
  | magic => "bad magic"
  | version found => s!"unsupported version {found.toNat}"
  | tooLarge => "envelope too large"
  | body fault => "MessagePack unpack error: " ++ fault.message
  | trailingBytes => "trailing bytes"
  | level tag => s!"unknown level tag {tag.toNat}"
  | ephemeralSize => "ephemeral key must be 32 bytes"

/-- The envelope of a draft. -/
def ofDraft (d : Draft) : Except Unreadable Envelope :=
  match Level.ofTag? d.levelTag, FixedBytes.ofBytes? 32 d.ephemeral with
  | none, _ => .error (.level d.levelTag)
  | some _, none => .error .ephemeralSize
  | some level, some ephemeral =>
    .ok ⟨d.sender, d.recipient, d.epoch, d.sequence, level, ephemeral, d.nonce, d.ciphertext, d.tag,
      d.signature⟩

/-- Bytes that an envelope may have to be read: its ids and text, and room for everything else.

The limits are machine words, and so is the sum, which is not checked: limits close to the end of 64
bits wrap it around, and leave room for next to nothing. (Where a build checks its sums, such a
device stops with the first envelope that it is given.) -/
def maxSize (limits : Limits) : Nat :=
  (3 + limits.maxCiphertext + 2 * limits.maxDeviceId + 512) % UInt64.size

/-- Reads an envelope without checking its parts. -/
def read (limits : Limits) (bytes : Bytes) : Except Unreadable Envelope :=
  match bytes with
  | a :: b :: v :: body =>
    if [a, b] ≠ magic then .error .magic
    else if v ≠ version then .error (.version v)
    else if maxSize limits < bytes.length then .error .tooLarge
    else
      match readBody body with
      | .error fault => .error (.body fault)
      | .ok (draft, rest) => if rest ≠ [] then .error .trailingBytes else ofDraft draft
  | _ => .error .magic

/-- Reads an envelope and checks it. -/
def decode (limits : Limits) (bytes : Bytes) : Except Failure Envelope :=
  match read limits bytes with
  | .error reason => .error (.malformedEnvelope reason.message)
  | .ok e =>
    match e.check limits with
    | .ok () => .ok e
    | .error failure => .error failure

end EndToEnd.Envelope
