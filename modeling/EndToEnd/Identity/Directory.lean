import EndToEnd.Identity.Basic
import EndToEnd.Identity.Contacts

/-!
# Directories

A device that may not have an identity yet, and the peers it has on file. The identity is made the
first time it is asked for, unless one was installed before.
-/

namespace EndToEnd

/-- A device's own identity, if it has one yet, and the peers on file. -/
structure Directory where
  own : Option Identity
  contacts : Contacts
  deriving Inhabited

namespace Directory

/-- The directory of a device that knows nobody, not even itself. -/
def empty (idLimit : Nat) : Directory := ⟨none, .empty idLimit⟩

/-- The own identity, made now if there is none yet. -/
def identity (d : Directory) (now : UInt64) (random : RandomSource) :
    Identity × Directory × RandomSource :=
  match d.own with
  | some identity => (identity, d, random)
  | none =>
    let (identity, random) := Identity.generate now random
    (identity, { d with own := some identity }, random)

/-- Gives the device an identity, unless it has one. -/
def install (d : Directory) (identity : Identity) : Except Failure Directory :=
  match d.own with
  | some _ => .error (.invalidInput "local identity already initialized")
  | none => .ok { d with own := some identity }

/-- Puts a peer on file, or finds it there with the same keys. -/
def remember (d : Directory) (id : String) (keys : PublicKeys) (now : UInt64) :
    Except Failure (Peer × Directory) :=
  (d.contacts.remember (d.own.map (·.deviceId)) id keys now).map fun (peer, contacts) =>
    (peer, { d with contacts := contacts })

/-- A short description. -/
def describe (d : Directory) : String :=
  let own := match d.own with
    | some identity => "Some(" ++ Text.quote identity.deviceId ++ ")"
    | none => "None"
  "IdentityStore \x7b local: " ++ own ++ ", peers: " ++ toString d.contacts.peers.size ++ " \x7d"

end Directory

end EndToEnd
