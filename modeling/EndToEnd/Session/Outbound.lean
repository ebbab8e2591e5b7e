import EndToEnd.Identity.Peer
import EndToEnd.Session.Work

/-!
# The sending side of a pair

At most one session sends to a peer. It is made when a message needs it, at the level of that
message, and ends by the rotation policy or on demand; what has ended waits for its deadline, or
for the next session, to be dropped. An establishment that was asked for and not begun in time is
given up.
-/

namespace EndToEnd

/-- What a device keeps for sending to a peer. -/
structure Outbound where
  current : Option Session
  expiring : List Session
  nextEpoch : UInt64
  /-- When an establishment was asked for that has not begun yet. -/
  requestedAt : Option UInt64
  /-- Once set, no session is ever made again. -/
  isRevoked : Bool
  deriving DecidableEq

namespace Outbound

/-- Nothing sent yet. -/
def initial : Outbound := ⟨none, [], 0, none, false⟩

/-- The sessions that are kept. -/
def live (o : Outbound) : List Session := o.current.toList ++ o.expiring

/-- Without its sessions, and with nothing asked for. -/
def cleared (o : Outbound) : Outbound := { o with current := none, expiring := [], requestedAt := none }

/-- Whether an establishment was asked for too long ago. -/
def hasTimedOut (s : Setting) (o : Outbound) : Bool :=
  o.current.isNone
    && o.requestedAt.any fun since =>
      s.config.establishmentTimeout.millis ≤ saturatingSub s.now since

/-- Gives up an establishment. -/
def timeOut (s : Setting) (peer : String) (w : Work Outbound) : Work Outbound :=
  { w with part := { w.part with requestedAt := none } }.note
    ⟨.establishmentTimeout, [s.own.deviceId, peer], .failure, s!"epoch {w.part.nextEpoch.toNat}"⟩

/-- Asks for an establishment, unless one was asked for or there is a session. -/
def request (now : UInt64) (o : Outbound) : SessionState × Outbound :=
  if o.current.isSome then (.active, o)
  else (.establishing, { o with requestedAt := some (o.requestedAt.getD now) })

-- ---------------------------------------------------------------------------
-- The end of a session
-- ---------------------------------------------------------------------------

/-- Ends the current session and gives its epoch. -/
def expireCurrent (s : Setting) (w : Work Outbound) : Option UInt64 × Work Outbound :=
  match w.part.current with
  | none => (none, w)
  | some session =>
    let (ended, w) := w.expire s session
    (some session.epoch,
      { w with part := { w.part with current := none, expiring := w.part.expiring ++ [ended] } })

/-- Ends the current session because its time has come. -/
def rotate (s : Setting) (peer : String) (reason : Rotation.Reason) (w : Work Outbound) :
    Bool × Work Outbound :=
  match expireCurrent s w with
  | (none, w) => (false, w)
  | (some epoch, w) =>
    (true, w.note ⟨.keyRotated, [s.own.deviceId, peer], .success,
      s!"epoch {epoch.toNat} ({reason.text})"⟩)

/-- Ends the current session if it should not carry a message at some level. -/
def rotateIfDue (s : Setting) (peer : String) (level : Level) (w : Work Outbound) : Work Outbound :=
  match w.part.current.bind fun session =>
      s.config.rotation.evaluate session.usage level s.now with
  | some reason => (rotate s peer reason w).2
  | none => w

-- ---------------------------------------------------------------------------
-- Sending
-- ---------------------------------------------------------------------------

variable (P : Primitives)

/-- The session that a fresh private key begins. -/
def beginSession (s : Setting) (peer : Peer) (level : Level) (epoch : UInt64) (ephemeral : Key) :
    Except Failure Session :=
  let context : EpochContext := ⟨s.own.deviceId, peer.deviceId, epoch, level⟩
  match EpochKeys.initiateWith P level.suite ephemeral s.own.keys.encryption.bytes
      peer.keys.encryption context with
  | .error fault => .error (.ofCrypto fault)
  | .ok keys =>
    .ok (.begin ⟨s.own.deviceId, peer.deviceId, epoch, .outbound⟩ level keys.key keys.ephemeral s.now)

/-- Makes a session; those that have ended are dropped, as nothing is received with them. -/
def establish (s : Setting) (peer : Peer) (level : Level) (w : Work Outbound) :
    Except Failure Session × Work Outbound :=
  let (ephemeral, random) := w.random.drawKey
  let w := { w with random := random, part := { w.part with requestedAt := none } }
  match beginSession P s peer level w.part.nextEpoch ephemeral with
  | .error failure => (.error failure, w)
  | .ok session =>
    let ended := w.part.expiring
    let part := { w.part with
      current := some session, expiring := [], nextEpoch := w.part.nextEpoch + 1 }
    let w := { w with
      part := part, deadlines := w.deadlines.schedule s.config.rotation session.id s.now }
    let w := w.note ⟨.sessionEstablished, [s.own.deviceId, peer.deviceId], .success,
      s!"outbound epoch {session.epoch.toNat} at {level.name}"⟩
    (.ok session, w.retireAll s "superseded by new epoch" ended)

/-- The session for the next message, made now if there is none. -/
def ready (s : Setting) (peer : Peer) (level : Level) (w : Work Outbound) :
    Except Failure Session × Work Outbound :=
  match w.part.current with
  | some session => (.ok session, w)
  | none => establish P s peer level w

/-- Makes the envelope of a message. -/
def encrypt (s : Setting) (peer : Peer) (level : Level) (plaintext : Bytes) (w : Work Outbound) :
    Except Failure Envelope × Work Outbound :=
  if w.part.isRevoked then (.error (.peerRevoked peer.deviceId), w)
  else if w.part.hasTimedOut s then
    (.error (.establishmentTimeout peer.deviceId), timeOut s peer.deviceId w)
  else
    match ready P s peer level (rotateIfDue s peer.deviceId level w) with
    | (.error failure, w) => (.error failure, w)
    | (.ok session, w) =>
      match session.encrypt P s.own plaintext w.random with
      | .error failure => (.error failure, w)
      | .ok (e, session, random) =>
        (.ok e, { w with random := random, part := { w.part with current := some session } })

-- ---------------------------------------------------------------------------
-- Questions
-- ---------------------------------------------------------------------------

/-- The state of the pair. -/
def state (o : Outbound) : SessionState :=
  match o.current, o.requestedAt with
  | some session, _ => session.state
  | none, some _ => .establishing
  | none, none => .noSession

/-- The state of an epoch. -/
def stateOf (o : Outbound) (epoch : UInt64) : SessionState :=
  match o.live.find? (·.epoch = epoch) with
  | some session => session.state
  | none =>
    if epoch < o.nextEpoch then .retired
    else if epoch = o.nextEpoch ∧ o.requestedAt.isSome then .establishing
    else .noSession

end Outbound

end EndToEnd
