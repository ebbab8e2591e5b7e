import EndToEnd.Bytes.Hex
import EndToEnd.Json.Printer
import EndToEnd.Json.Reader
import EndToEnd.Suite.Primitives
import EndToEnd.Text.Short
import EndToEnd.Time.Calendar

/-!
# Audit entries

One event that matters for security: what happened, to which devices, when, and whether it went
well. Each entry carries the digest of the one before it, and its own digest covers that and all
its other fields, so an entry cannot be changed or taken out without a trace.
-/

namespace EndToEnd.Audit

/-- What happened. -/
inductive Kind where
  | sessionEstablished
  /-- An epoch ended by itself. -/
  | keyRotated
  /-- An epoch was ended on demand. -/
  | forcedRotation
  | sessionRetired
  | authenticationFailure
  | replayRejected
  | malformedEnvelope
  | sessionExpired
  | unknownPeer
  /-- An envelope was refused for any other reason. -/
  | messageRejected
  | verificationFailed
  | trustChanged
  | peerRevoked
  | keyMismatch
  | establishmentTimeout
  | sendRefused
  deriving DecidableEq, Repr

namespace Kind

/-- All kinds. -/
def all : List Kind :=
  [sessionEstablished, keyRotated, forcedRotation, sessionRetired, authenticationFailure,
    replayRejected, malformedEnvelope, sessionExpired, unknownPeer, messageRejected,
    verificationFailed, trustChanged, peerRevoked, keyMismatch, establishmentTimeout, sendRefused]

/-- The name of a kind. -/
def name : Kind → String
  | sessionEstablished => "SessionEstablished"
  | keyRotated => "KeyRotated"
  | forcedRotation => "ForcedRotation"
  | sessionRetired => "SessionRetired"
  | authenticationFailure => "AuthenticationFailure"
  | replayRejected => "ReplayRejected"
  | malformedEnvelope => "MalformedEnvelope"
  | sessionExpired => "SessionExpired"
  | unknownPeer => "UnknownPeer"
  | messageRejected => "MessageRejected"
  | verificationFailed => "VerificationFailed"
  | trustChanged => "TrustChanged"
  | peerRevoked => "PeerRevoked"
  | keyMismatch => "KeyMismatch"
  | establishmentTimeout => "EstablishmentTimeout"
  | sendRefused => "SendRefused"

/-- The kind of a name. -/
def ofName? (text : String) : Option Kind := all.find? (·.name = text)

/-- Whether an entry of the kind is delivered before its operation returns. -/
def isCritical : Kind → Bool
  | authenticationFailure | replayRejected | peerRevoked | verificationFailed | forcedRotation
  | keyMismatch => true
  | _ => false

end Kind

/-- Whether it went well. -/
inductive Outcome where
  | success
  | failure
  deriving DecidableEq, Repr

namespace Outcome

/-- The name of an outcome. -/
def name : Outcome → String
  | success => "Success"
  | failure => "Failure"

/-- The outcome of a name. -/
def ofName? (text : String) : Option Outcome := [success, failure].find? (·.name = text)

end Outcome

/-- Something to be put on record. -/
structure Event where
  kind : Kind
  devices : List String
  outcome : Outcome
  detail : String
  deriving DecidableEq, Repr

/-- An event on record. -/
structure Entry extends Event where
  sequence : UInt64
  timestamp : UInt64
  /-- The digest of the entry before this one, in hexadecimal. -/
  previous : String
  /-- The digest of this entry, in hexadecimal. -/
  digest : String
  deriving DecidableEq, Repr

namespace Entry

-- ---------------------------------------------------------------------------
-- Digests
-- ---------------------------------------------------------------------------

/-- The bytes that the digest of an entry covers: all of its fields but the digest itself. -/
def digestedBytes (e : Entry) : Bytes :=
  Bytes.ofText e.previous ++ Bytes.bigEndian 8 e.sequence.toNat ++ Bytes.bigEndian 8 e.timestamp.toNat
    ++ Bytes.ofText e.kind.name ++ e.devices.flatMap (fun d => Bytes.counted 4 (Bytes.ofText d))
    ++ [if e.outcome = .success then 1 else 0] ++ Bytes.ofText e.detail

/-- The digest that an entry should carry. -/
def computeDigest (P : Primitives) (e : Entry) : String :=
  Hex.encode (P.digest e.digestedBytes).bytes

/-- What the first entry carries for the digest of the one before it. -/
def origin : String := String.ofList (List.replicate 64 '0')

/-- Puts an event on record behind the entry with a given digest. -/
def ofEvent (P : Primitives) (event : Event) (sequence timestamp : UInt64) (previous : String) : Entry :=
  let e : Entry := ⟨event, sequence, timestamp, previous, ""⟩
  { e with digest := e.computeDigest P }

-- ---------------------------------------------------------------------------
-- Written forms
-- ---------------------------------------------------------------------------

/-- An entry on one line for people. -/
def text (e : Entry) : String :=
  s!"#{e.sequence.toNat} {Calendar.text e.timestamp} {e.kind.name} {e.outcome.name} ["
    ++ ",".intercalate (e.devices.map Text.short) ++ "] " ++ e.detail

/-- The record of an entry. -/
def toJson (e : Entry) : Json :=
  .ofFields [("sequence", .ofNat e.sequence.toNat), ("timestamp_ms", .ofNat e.timestamp.toNat),
    ("kind", .ofText e.kind.name), ("devices", .array (e.devices.map .ofText)),
    ("outcome", .ofText e.outcome.name), ("detail", .ofText e.detail),
    ("prev_digest", .ofText e.previous), ("digest", .ofText e.digest)]

/-- The fields of the record. -/
def fields : List Json.Field :=
  ["sequence", "timestamp_ms", "kind", "devices", "outcome", "detail", "prev_digest",
    "digest"].map fun name => ⟨name, .required⟩

/-- The entry of a record. -/
def ofJson? (v : Json) : Option Entry := do
  match ← v.fields? fields with
  | [some sequence, some timestamp, some kind, some devices, some outcome, some detail,
      some previous, some digest] =>
    return {
      sequence := UInt64.ofNat (← sequence.natural? UInt64.size)
      timestamp := UInt64.ofNat (← timestamp.natural? UInt64.size)
      kind := ← kind.name? >>= Kind.ofName?
      devices := ← (← devices.items?).mapM Json.text?
      outcome := ← outcome.name? >>= Outcome.ofName?
      detail := ← detail.text?
      previous := ← previous.text?
      digest := ← digest.text? }
  | _ => none

/-- An entry as a line of a file. -/
def line (e : Entry) : Bytes := e.toJson.print ++ [0x0a]

/-- The entry that a text spells. -/
def parse? (text : Bytes) : Option Entry := Json.parse? text >>= ofJson?

end Entry

end EndToEnd.Audit
