import EndToEnd.Audit.Log
import EndToEnd.Identity.Directory
import EndToEnd.Session.Maintenance
import EndToEnd.Trust.Evidence

/-!
# Devices

A device holds its identity, the peers and roots it knows, its sessions with their deadlines, and
its audit log. It reads the time from `now` and random bytes from `random`, and an operation gives
its result together with the device as it then is; a failure leaves behind whatever was done before
it.
-/

namespace EndToEnd

/-- A device and everything it keeps. -/
structure Device where
  config : Config
  identity : Identity
  contacts : Contacts
  roots : Roots
  pairs : Pairs
  deadlines : Rotation.Deadlines
  audit : Audit.Log
  /-- The time in milliseconds. -/
  now : UInt64
  random : RandomSource

namespace Device

variable (P : Primitives)

/-- A device that has done nothing yet, with an identity of its own unless one is given. It trusts
itself. -/
def fresh (config : Config) (sink : Audit.Sink) (identity : Option Identity) (now : UInt64)
    (random : RandomSource) : Device :=
  let directory : Directory := ⟨identity, .empty config.limits.maxDeviceId⟩
  let (own, directory, random) := directory.identity now random
  { config := config
    identity := own
    contacts := directory.contacts
    roots := .ofList [(own.deviceId, own.publicKeys P)]
    pairs := .empty
    deadlines := .empty
    audit := .empty sink
    now := now
    random := random }

/-- A new device, if its configuration can be used. -/
def create (config : Config) (sink : Audit.Sink) (identity : Option Identity) (now : UInt64)
    (random : RandomSource) : Except Failure Device :=
  match config.validate with
  | .error failure => .error failure
  | .ok () => .ok (fresh P config sink identity now random)

/-- The id of the device. -/
def id (d : Device) : String := d.identity.deviceId

-- ---------------------------------------------------------------------------
-- Putting on record
-- ---------------------------------------------------------------------------

/-- Puts an event on record that can wait for delivery. -/
def note (event : Audit.Event) (d : Device) : Device :=
  { d with audit := d.audit.append P event d.now }

/-- Puts an event on record, and delivers it if it is critical. -/
def record (event : Audit.Event) (d : Device) : Except Failure Unit × Device :=
  let (result, audit) := d.audit.record P event d.now
  (result.map fun _ => (), { d with audit := audit })

/-- Delivers what waits, and counts it. -/
def flushAudit (d : Device) : Except Failure Nat × Device :=
  let (result, audit) := d.audit.flush
  (result, { d with audit := audit })

/-- Drops entries that are older than a span of time, and counts them. -/
def sweepAuditOlder (age : Duration) (d : Device) : Except Failure Nat × Device :=
  let (result, audit) := d.audit.sweep age d.now
  (result, { d with audit := audit })

/-- Drops entries that were kept as long as the configuration says, and counts them. -/
def sweepAudit (d : Device) : Except Failure Nat × Device := d.sweepAuditOlder d.config.retention

-- ---------------------------------------------------------------------------
-- Sessions
-- ---------------------------------------------------------------------------

/-- Who acts, under which configuration, at some time. -/
def setting (d : Device) (now : UInt64) : Setting := ⟨d.identity, d.config, now⟩

/-- Works on the sessions as of some time, and puts on record what the work has to say. -/
def onPairsAt {α : Type} (now : UInt64) (op : Setting → Work Pairs → α × Work Pairs) (d : Device) :
    α × Device :=
  let (result, w) := op (d.setting now) ⟨d.pairs, d.deadlines, d.random, []⟩
  (result, { d with
    pairs := w.part
    deadlines := w.deadlines
    random := w.random
    audit := d.audit.appendAll P w.events d.now })

/-- Works on the sessions as of now. -/
def onPairs {α : Type} (op : Setting → Work Pairs → α × Work Pairs) (d : Device) : α × Device :=
  d.onPairsAt P d.now op

/-- Ends the session that sends to a peer on demand, and gives its epoch. -/
def rotate (peer : String) (d : Device) : Except Failure (Option UInt64) × Device :=
  match d.onPairs P fun s => Pairs.rotate s peer with
  | (none, d) => (.ok none, d)
  | (some epoch, d) =>
    match d.record P ⟨.forcedRotation, [d.id, peer], .success,
        s!"epoch {epoch.toNat} ({Rotation.Reason.forced.text})"⟩ with
    | (.error failure, d) => (.error failure, d)
    | (.ok (), d) => (.ok (some epoch), d)

/-- Asks for a session with a peer. -/
def requestEstablishment (peer : String) (d : Device) : SessionState × Device :=
  d.onPairs P fun s => Pairs.request s peer

/-- One sweep, at a given time. -/
def maintain (now : UInt64) (d : Device) : SweepReport × Device := d.onPairsAt P now Pairs.sweep

/-- Drops all sessions and delivers what waits; gives the number of sessions. -/
def shutdown (d : Device) : Except Failure Nat × Device :=
  let (dropped, d) := d.onPairs P Pairs.shutdown
  match d.flushAudit with
  | (.error failure, d) => (.error failure, d)
  | (.ok _, d) => (.ok dropped, d)

/-- A short description. -/
def describe (d : Device) : String :=
  "SecureCore \x7b device: " ++ Text.quote d.id ++ ", sessions: " ++ d.pairs.describe d.identity
    ++ ", .. \x7d"

end Device

end EndToEnd
