import EndToEnd.Device.Basic
import EndToEnd.Identity.Bundle

/-!
# Peers and trust

Putting peers on file, moving the trust in them by evidence, and revoking them. A peer that becomes
revoked loses its sessions at once, even if the log could not deliver the entry about it.
-/

namespace EndToEnd.Device

variable (P : Primitives)

-- ---------------------------------------------------------------------------
-- Putting peers on file
-- ---------------------------------------------------------------------------

/-- The bundle to hand to peers. -/
def exportBundle (d : Device) : Bytes := (d.identity.bundle P).print

/-- Puts a peer on file. Other keys than those on file are refused and put on record. -/
def remember (id : String) (keys : PublicKeys) (d : Device) : Except Failure Peer × Device :=
  match d.contacts.remember (some d.id) id keys d.now with
  | .ok (peer, contacts) => (.ok peer, { d with contacts := contacts })
  | .error (.keyMismatch id) =>
    match d.record P ⟨.keyMismatch, [d.id, id], .failure,
        "presented fingerprint " ++ (keys.fingerprint P).text⟩ with
    | (.error refused, d) => (.error refused, d)
    | (.ok (), d) => (.error (.keyMismatch id), d)
  | .error failure => (.error failure, d)

/-- Puts the peer of a bundle on file. -/
def importBundle (text : Bytes) (d : Device) : Except Failure Peer × Device :=
  match Bundle.parse text with
  | .error failure => (.error failure, d)
  | .ok bundle =>
    match bundle.publicKeys with
    | .error failure => (.error failure, d)
    | .ok keys => d.remember P bundle.deviceId keys

/-- How far a peer is trusted. -/
def trustState (id : String) (d : Device) : Except Failure Trust := (d.contacts.lookup id).map (·.trust)

-- ---------------------------------------------------------------------------
-- Evidence
-- ---------------------------------------------------------------------------

/-- Assesses evidence about a peer and moves the trust in it. Evidence that does not hold is put on
record and leaves the trust as it is. -/
def verify (id : String) (evidence : Evidence) (d : Device) : Except Failure Trust × Device :=
  match d.contacts.lookup id with
  | .error failure => (.error failure, d)
  | .ok peer =>
    match evidence.assess P d.contacts d.roots peer with
    | .error fault =>
      match d.record P ⟨.verificationFailed, [id], .failure,
          evidence.name ++ ": " ++ fault.message⟩ with
      | (.error refused, d) => (.error refused, d)
      | (.ok (), d) => (.ok peer.trust, d)
    | .ok proposed =>
      let d := { d with contacts := d.contacts.update id d.now (evidence.apply proposed) }
      let after := peer.trust.merge proposed
      if after = peer.trust then (.ok after, d)
      else
        let kind := if after = .revoked then .peerRevoked else .trustChanged
        match d.record P ⟨kind, [id], .success,
            s!"{peer.trust.name} -> {after.name} ({evidence.name})"⟩ with
        | (.error refused, d) => (.error refused, d)
        | (.ok (), d) => (.ok after, d)

/-- Whether a peer on file is revoked. -/
def isRevoked (id : String) (d : Device) : Bool := (d.contacts.get? id).any (·.isRevoked)

/-- Moves the trust in a peer; if it is then revoked, its sessions are dropped and counted. -/
def applyEvidence (id : String) (evidence : Evidence) (d : Device) :
    Except Failure (Trust × Nat) × Device :=
  let (verified, d) := d.verify P id evidence
  let (dropped, d) := if d.isRevoked id then d.onPairs P fun s => Pairs.revoke s id else (0, d)
  (verified.map (·, dropped), d)

/-- Moves the trust in a peer and says how far it is then trusted. -/
def verifyPeer (id : String) (evidence : Evidence) (d : Device) : Except Failure Trust × Device :=
  let (result, d) := d.applyEvidence P id evidence
  (result.map (·.1), d)

/-- Revokes a peer and gives the number of sessions that were dropped. -/
def revoke (id reason : String) (d : Device) : Except Failure Nat × Device :=
  let (result, d) := d.applyEvidence P id (.revocation reason)
  (result.map (·.2), d)

-- ---------------------------------------------------------------------------
-- Signatures
-- ---------------------------------------------------------------------------

/-- Vouches for the keys on file of a peer. -/
def crossSign (id : String) (d : Device) : Except Failure TrustLink :=
  (d.contacts.lookup id).map fun peer => .make P d.identity id peer.keys

/-- Vouches for a peer, and takes this as evidence. -/
def crossSignPeer (id : String) (d : Device) : Except Failure Trust × Device :=
  match d.crossSign P id with
  | .error failure => (.error failure, d)
  | .ok link => d.verifyPeer P id (.crossSignature [link])

/-- Trusts the word of a device, instead of any other keys under its id. -/
def addRoot (id : String) (keys : PublicKeys) (d : Device) : Device :=
  { d with roots := d.roots.insert id keys }

end EndToEnd.Device
