import EndToEnd.Identity.Peer
import EndToEnd.Json.Printer
import EndToEnd.Json.Reader
import EndToEnd.Storage.SealedIdentity
import EndToEnd.Table

/-!
# Saved states

What survives a restart: the sealed identity, the peers on file, the trusted roots, and the number
of the next epoch for each peer. Sessions and their keys do not. A state is written as an indented
JSON record.
-/

namespace EndToEnd

/-- A trusted root on file. -/
structure SavedRoot where
  deviceId : String
  keys : PublicKeys
  deriving DecidableEq

/-- What survives a restart. -/
structure SavedState where
  version : UInt32
  identity : Option SealedIdentity
  peers : List Peer
  roots : List SavedRoot
  /-- The number of the next epoch for sending, by peer. -/
  nextEpochs : Table String UInt64
  deriving DecidableEq

/-- The version that is written. -/
def SavedState.currentVersion : UInt32 := 1

/-- Nothing saved. -/
def SavedState.blank : SavedState := ⟨SavedState.currentVersion, none, [], [], .empty⟩

-- ---------------------------------------------------------------------------
-- Writing
-- ---------------------------------------------------------------------------

/-- A number of 64 bits as a value. -/
def Json.ofWord (n : UInt64) : Json := .ofNat n.toNat

/-- A value or null. -/
def Json.ofOption {α : Type} (write : α → Json) : Option α → Json
  | some a => write a
  | none => .null

/-- The record of two keys. -/
def PublicKeys.toJson (keys : PublicKeys) : Json :=
  .ofFields [("signing", .ofBytes keys.signing.bytes), ("encryption", .ofBytes keys.encryption.bytes)]

/-- The record of a sealed identity. -/
def SealedIdentity.toJson (s : SealedIdentity) : Json :=
  .ofFields [("device_id", .ofText s.deviceId), ("created_at", .ofWord s.createdAt),
    ("public_keys", s.publicKeys.toJson), ("salt", .ofBytes s.salt),
    ("iterations", .ofNat s.iterations.toNat), ("nonce", .ofBytes s.nonce),
    ("ciphertext", .ofBytes s.ciphertext)]

/-- The record of a peer. -/
def Peer.toJson (p : Peer) : Json :=
  .ofFields [("device_id", .ofText p.deviceId), ("public_keys", p.keys.toJson),
    ("trust", .ofText p.trust.word), ("first_seen", .ofWord p.firstSeen),
    ("updated_at", .ofWord p.updatedAt),
    ("revocation_reason", .ofOption .ofText p.revocationReason)]

/-- The record of a trusted root. -/
def SavedRoot.toJson (r : SavedRoot) : Json :=
  .ofFields [("device_id", .ofText r.deviceId), ("public_keys", r.keys.toJson)]

namespace SavedState

/-- The record of a state. -/
def toJson (s : SavedState) : Json :=
  .ofFields [("version", .ofNat s.version.toNat), ("identity", .ofOption (·.toJson) s.identity),
    ("peers", .array (s.peers.map (·.toJson))), ("trusted_roots", .array (s.roots.map (·.toJson))),
    ("next_epochs", .ofFields (s.nextEpochs.toList.map fun e => (e.1, .ofWord e.2)))]

/-- The written form of a state. -/
def print (s : SavedState) : Bytes := s.toJson.printIndented 0

end SavedState

-- ---------------------------------------------------------------------------
-- Reading
-- ---------------------------------------------------------------------------

/-- A number of 64 bits. -/
def Json.word? (v : Json) : Option UInt64 := (v.natural? UInt64.size).map UInt64.ofNat

/-- A number of 32 bits. -/
def Json.word32? (v : Json) : Option UInt32 := (v.natural? UInt32.size).map UInt32.ofNat

/-- A list of values of one form. -/
def Json.list? {α : Type} (read : Json → Option α) (v : Json) : Option (List α) :=
  v.items? >>= fun items => items.mapM read

/-- A key as a list of its bytes. -/
def Json.key? (v : Json) : Option Key := v.bytes? >>= FixedBytes.ofBytes? 32

/-- Two keys of a record. -/
def PublicKeys.ofJson? (v : Json) : Option PublicKeys := do
  match ← v.fields? [⟨"signing", .required⟩, ⟨"encryption", .required⟩] with
  | [some signing, some encryption] => return ⟨← signing.key?, ← encryption.key?⟩
  | _ => none

/-- The sealed identity of a record. -/
def SealedIdentity.ofJson? (v : Json) : Option SealedIdentity := do
  let spec : List Json.Field := ["device_id", "created_at", "public_keys", "salt", "iterations",
    "nonce", "ciphertext"].map fun name => ⟨name, .required⟩
  match ← v.fields? spec with
  | [some id, some created, some keys, some salt, some iterations, some nonce, some ciphertext] =>
    return ⟨← id.text?, ← created.word?, ← PublicKeys.ofJson? keys, ← salt.bytes?,
      ← iterations.word32?, ← nonce.bytes?, ← ciphertext.bytes?⟩
  | _ => none

/-- The peer of a record. -/
def Peer.ofJson? (v : Json) : Option Peer := do
  let spec : List Json.Field := [⟨"device_id", .required⟩, ⟨"public_keys", .required⟩,
    ⟨"trust", .required⟩, ⟨"first_seen", .required⟩, ⟨"updated_at", .required⟩,
    ⟨"revocation_reason", .defaulted⟩]
  match ← v.fields? spec with
  | [some id, some keys, some trust, some first, some updated, reason] =>
    return ⟨← id.text?, ← PublicKeys.ofJson? keys, ← trust.name? >>= Trust.ofWord?, ← first.word?,
      ← updated.word?, ← Json.nullable? Json.text? (reason.getD .null)⟩
  | _ => none

/-- The trusted root of a record. -/
def SavedRoot.ofJson? (v : Json) : Option SavedRoot := do
  match ← v.fields? [⟨"device_id", .required⟩, ⟨"public_keys", .required⟩] with
  | [some id, some keys] => return ⟨← id.text?, ← PublicKeys.ofJson? keys⟩
  | _ => none

namespace SavedState

/-- Numbers by name; of two with one name the later stays. -/
def epochs? : Json → Option (Table String UInt64)
  | .object fields => do
    let entries ← fields.mapM fun (name, v) => do return (← Bytes.toText? name, ← v.word?)
    return .ofList entries
  | _ => none

/-- A list of records, empty if it is missing. -/
def listOrEmpty? {α : Type} (read : Json → Option α) : Option Json → Option (List α)
  | some v => v.list? read
  | none => some []

/-- The fields of the record. -/
def fields : List Json.Field :=
  [⟨"version", .required⟩, ⟨"identity", .nullable⟩, ⟨"peers", .defaulted⟩,
    ⟨"trusted_roots", .defaulted⟩, ⟨"next_epochs", .defaulted⟩]

/-- The state of a record. -/
def ofJson? (v : Json) : Option SavedState := do
  match ← v.fields? fields with
  | [some version, some identity, peers, roots, epochs] =>
    return ⟨← version.word32?, ← Json.nullable? SealedIdentity.ofJson? identity,
      ← listOrEmpty? Peer.ofJson? peers, ← listOrEmpty? SavedRoot.ofJson? roots,
      ← epochs? (epochs.getD (.object []))⟩
  | _ => none

/-- Reads a state. -/
def parse (text : Bytes) : Except Failure SavedState :=
  match Json.parse? text >>= ofJson? with
  | some s => .ok s
  | none => .error .unreadable

end SavedState

end EndToEnd
