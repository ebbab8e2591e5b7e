import EndToEnd.Device.Basic
import EndToEnd.Storage.Store

/-!
# Saving and restoring devices

A device is saved with its private keys sealed, and restored without sessions. The numbers of its
epochs go on where they were, so no epoch is used twice.
-/

namespace EndToEnd.Device

variable (P : Primitives)

/-- What survives a restart, except the identity. -/
def savedState (sealedIdentity : SealedIdentity) (d : Device) : SavedState where
  version := SavedState.currentVersion
  identity := some sealedIdentity
  peers := d.contacts.snapshot
  roots := (d.roots.toList.filter (·.1 ≠ d.id)).map fun e => ⟨e.1, e.2⟩
  nextEpochs := d.pairs.counters

/-- Saves the device, its private keys sealed under a passphrase. -/
def save (store : Store) (passphrase : String) (d : Device) : Except Failure Store × Device :=
  let (locked, random) := SealedIdentity.lock P d.identity passphrase d.config.iterations
    d.config.saltLength d.random
  let d := { d with random := random }
  match locked with
  | .error failure => (.error failure, d)
  | .ok sealedIdentity => (store.save (d.savedState sealedIdentity), d)

/-- Opens a sealed identity and checks that its public keys are those that were sealed with it. -/
def openIdentity (stored : SealedIdentity) (passphrase : String) : Except Failure Identity :=
  match stored.unlock P passphrase with
  | .error failure => .error failure
  | .ok keys =>
    if keys.publicKeys P = stored.publicKeys then .ok ⟨stored.deviceId, stored.createdAt, keys⟩
    else .error (.storage "sealed identity does not match its public keys")

/-- Brings back what was saved besides the identity. -/
def resume (state : SavedState) (d : Device) : Device :=
  { d with
    contacts := d.contacts.restore state.peers
    pairs := d.pairs.raiseCounters state.nextEpochs
    roots := state.roots.foldl (fun roots root => roots.insert root.deviceId root.keys) d.roots }

/-- The identity of a saved state, if it holds one. -/
def identityOf (state : SavedState) (passphrase : String) : Except Failure (Option Identity) :=
  match state.identity with
  | none => .ok none
  | some stored => (openIdentity P stored passphrase).map some

/-- Brings back a saved device; a new one if nothing was saved. -/
def restore (config : Config) (sink : Audit.Sink) (store : Store) (passphrase : String) (now : UInt64)
    (random : RandomSource) : Except Failure Device :=
  match store.load with
  | .error failure => .error failure
  | .ok none => create P config sink none now random
  | .ok (some state) =>
    match identityOf P state passphrase with
    | .error failure => .error failure
    | .ok identity => (create P config sink identity now random).map (resume state)

end EndToEnd.Device
