import EndToEnd.Identity.Basic
import EndToEnd.Identity.Contacts
import EndToEnd.Text.Short

/-!
# Evidence

What can move the trust in a peer: that it was met at all, that its fingerprint was compared, that
devices vouched for it one after the other up to a trusted root, or that it was revoked. Evidence is
assessed against the records and roots of the device; evidence that does not hold moves nothing.

Main fact: `assess_crossSignature_eq_ok_iff` (which chains of signatures raise the trust in a
peer).
-/

namespace EndToEnd

/-- The devices whose word is taken, with their keys. -/
abbrev Roots := Table String PublicKeys

/-- One device's signature on the keys of another. -/
structure TrustLink where
  signer : String
  keys : PublicKeys
  signature : Bytes
  deriving DecidableEq

namespace TrustLink

/-- The first bytes of what is signed. -/
def domain : Bytes := Bytes.ofText "palisade/cross-sign/v1"

/-- What is signed to vouch for the keys of a device. -/
def payload (subject : String) (keys : PublicKeys) : Bytes :=
  domain ++ Bytes.counted 2 (Bytes.ofText subject) ++ keys.signing.bytes ++ keys.encryption.bytes

variable (P : Primitives)

/-- Vouches for the keys of a device. -/
def make (signer : Identity) (subject : String) (keys : PublicKeys) : TrustLink :=
  ⟨signer.deviceId, signer.publicKeys P, signer.sign P (payload subject keys)⟩

/-- Whether a link vouches for the keys of a device. -/
def vouchesFor (link : TrustLink) (subject : String) (keys : PublicKeys) : Bool :=
  link.keys.verify P (payload subject keys) link.signature

end TrustLink

/-- What can move the trust in a peer. -/
inductive Evidence where
  | firstContact
  | fingerprint (expected : Fingerprint)
  | crossSignature (links : List TrustLink)
  | revocation (reason : String)
  deriving DecidableEq

namespace Evidence

/-- The name of a kind of evidence. -/
def name : Evidence → String
  | firstContact => "first-contact"
  | fingerprint _ => "fingerprint"
  | crossSignature _ => "cross-signature"
  | revocation _ => "revocation"

/-- How many links a chain may have. -/
def maxLinks : Nat := 8

/-- Why evidence does not hold. -/
inductive Fault where
  | peerRevoked
  | fingerprintMismatch
  | emptyChain
  | longChain
  | signerRevoked (signer : String)
  | signerKeys (signer : String)
  | badSignature (signer : String)
  | noRoot
  deriving DecidableEq, Repr

/-- The wording of a fault. -/
def Fault.message : Fault → String
  | peerRevoked => "peer is revoked"
  | fingerprintMismatch => "fingerprint mismatch"
  | emptyChain => "empty signature chain"
  | longChain => s!"chain longer than {maxLinks}"
  | signerRevoked signer => s!"signer {Text.short signer} is revoked"
  | signerKeys signer => s!"signer {Text.short signer} keys do not match record"
  | badSignature signer => s!"bad signature from {Text.short signer}"
  | noRoot => "chain does not end at a trusted root"

variable (P : Primitives)

/-- What the records say against a signer, if anything. -/
def signerFault? (c : Contacts) (link : TrustLink) : Option Fault :=
  match c.get? link.signer with
  | none => none
  | some signer =>
    if signer.isRevoked then some (.signerRevoked link.signer)
    else if signer.keys ≠ link.keys then some (.signerKeys link.signer)
    else none

/-- Follows a chain that starts at the keys of a device. Each link vouches for the signer of the one
before it, and the last signer is a root. -/
def checkLinks (c : Contacts) (roots : Roots) (subject : String) (keys : PublicKeys) :
    List TrustLink → Except Fault Unit
  | [] => if roots.get? subject = some keys then .ok () else .error .noRoot
  | link :: rest =>
    match signerFault? c link with
    | some fault => .error fault
    | none =>
      if link.vouchesFor P subject keys then checkLinks c roots link.signer link.keys rest
      else .error (.badSignature link.signer)

/-- The trust that evidence proposes for a peer, if it holds. -/
def assess (c : Contacts) (roots : Roots) (peer : Peer) : Evidence → Except Fault Trust
  | revocation _ => .ok .revoked
  | firstContact => if peer.isRevoked then .error .peerRevoked else .ok .tofuAccepted
  | fingerprint expected =>
    if peer.isRevoked then .error .peerRevoked
    else if expected = peer.keys.fingerprint P then .ok .tofuAccepted
    else .error .fingerprintMismatch
  | crossSignature links =>
    if peer.isRevoked then .error .peerRevoked
    else if links.isEmpty then .error .emptyChain
    else if maxLinks < links.length then .error .longChain
    else (checkLinks P c roots peer.deviceId peer.keys links).map fun () => .crossSigned

/-- A peer after evidence that proposes some trust: the reason of a revocation is kept once. -/
def apply (evidence : Evidence) (proposed : Trust) (peer : Peer) : Peer :=
  let trust := peer.trust.merge proposed
  match evidence with
  | revocation reason =>
    if trust = .revoked ∧ peer.trust ≠ .revoked then
      { peer with trust := trust, revocationReason := some reason }
    else { peer with trust := trust }
  | _ => { peer with trust := trust }

variable {P}

/-- Which chains of signatures raise the trust in a peer. -/
theorem assess_crossSignature_eq_ok_iff {c : Contacts} {roots : Roots} {peer : Peer}
    {links : List TrustLink} {trust : Trust} :
    assess P c roots peer (.crossSignature links) = .ok trust ↔
      peer.isRevoked = false ∧ links ≠ [] ∧ links.length ≤ maxLinks ∧
        checkLinks P c roots peer.deviceId peer.keys links = .ok () ∧ trust = .crossSigned := by
  unfold assess
  cases hr : peer.isRevoked
  · by_cases he : links = []
    · simp [he]
    · by_cases hl : maxLinks < links.length
      · simp [he, hl, Nat.not_le.2 hl]
      · have : links.isEmpty = false := by simpa using he
        cases hc : checkLinks P c roots peer.deviceId peer.keys links with
        | error fault => simp [this, hl, hc, Except.map]
        | ok u => simp [this, hl, hc, Except.map, Nat.not_lt.1 hl, he, eq_comm]
  · simp

end Evidence

end EndToEnd
