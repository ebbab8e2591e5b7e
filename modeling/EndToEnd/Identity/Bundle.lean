import EndToEnd.Failure
import EndToEnd.Identity.Basic
import EndToEnd.Json.Printer
import EndToEnd.Json.Reader
import EndToEnd.Text.Base64

/-!
# Key bundles

The text in which a device hands its id and public keys to its peers: a JSON record with both keys
in base64.
-/

namespace EndToEnd

/-- A device id with two public keys, the keys still in written form. -/
structure Bundle where
  deviceId : String
  signingKey : String
  encryptionKey : String
  deriving DecidableEq, Repr

namespace Bundle

/-- The bundle of an id and keys. -/
def ofKeys (deviceId : String) (keys : PublicKeys) : Bundle :=
  ⟨deviceId, Base64.encode keys.signing.bytes, Base64.encode keys.encryption.bytes⟩

/-- The record of a bundle. -/
def toJson (b : Bundle) : Json :=
  .ofFields [("deviceId", .ofText b.deviceId), ("signingKey", .ofText b.signingKey),
    ("encryptionKey", .ofText b.encryptionKey)]

/-- The written form of a bundle. -/
def print (b : Bundle) : Bytes := b.toJson.print

/-- The fields of the record. -/
def fields : List Json.Field :=
  [⟨"deviceId", .required⟩, ⟨"signingKey", .required⟩, ⟨"encryptionKey", .required⟩]

/-- The bundle of a record. -/
def ofJson? (v : Json) : Option Bundle := do
  match ← v.fields? fields with
  | [some id, some signing, some encryption] =>
    return ⟨← id.text?, ← signing.text?, ← encryption.text?⟩
  | _ => none

/-- Reads a bundle. -/
def parse (text : Bytes) : Except Failure Bundle :=
  match Json.parse? text >>= ofJson? with
  | some b => .ok b
  | none => .error .unreadable

/-- Bytes in base64. -/
def readBase64 (text : String) : Except Failure Bytes :=
  match Base64.decode text with
  | .error fault => .error (.invalidInput ("Base64 decode failed: " ++ fault.message))
  | .ok bytes => .ok bytes

/-- A key in base64. -/
def readKey (text what : String) : Except Failure Key :=
  match readBase64 text with
  | .error failure => .error failure
  | .ok bytes =>
    match FixedBytes.ofBytes? 32 bytes with
    | some key => .ok key
    | none => .error (.invalidInput s!"{what} key must be 32 bytes")

/-- The keys of a bundle. -/
def publicKeys (b : Bundle) : Except Failure PublicKeys := do
  let signing ← readKey b.signingKey "signing"
  let encryption ← readKey b.encryptionKey "encryption"
  return ⟨signing, encryption⟩

end Bundle

/-- The bundle that a device hands out. -/
def Identity.bundle (P : Primitives) (identity : Identity) : Bundle :=
  .ofKeys identity.deviceId (identity.publicKeys P)

end EndToEnd
