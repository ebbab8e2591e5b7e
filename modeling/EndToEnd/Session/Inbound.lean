import EndToEnd.Identity.Peer
import EndToEnd.Session.Work

/-!
# The receiving side of a pair

The sender decides when an epoch begins: an envelope of a later epoch than any before begins it
here, provided the envelope proves genuine. All older epochs then end, and can still be received
until their grace is over. An epoch that was dropped never comes back.
-/

namespace EndToEnd

/-- What a device keeps for receiving from a peer. -/
structure Inbound where
  epochs : Table UInt64 Session
  /-- The latest epoch that was ever begun. -/
  latest : Option UInt64
  /-- Once set, nothing is received any more. -/
  isRevoked : Bool
  deriving DecidableEq

namespace Inbound

/-- Nothing received yet. -/
def initial : Inbound := ⟨.empty, none, false⟩

/-- The sessions that are kept, by epoch. -/
def live (i : Inbound) : List Session := i.epochs.values

/-- Without its sessions. -/
def cleared (i : Inbound) : Inbound := { i with epochs := .empty }

/-- Whether an epoch is no later than one that was begun. -/
def isPast (i : Inbound) (epoch : UInt64) : Bool := i.latest.any (epoch ≤ ·)

/-- Ends the session of an epoch, if it has not ended. -/
def expire (s : Setting) (w : Work Inbound) (epoch : UInt64) : Bool × Work Inbound :=
  match w.part.epochs.get? epoch with
  | some session =>
    if session.isActive then
      let (ended, w) := w.expire s session
      (true, { w with part := { w.part with epochs := w.part.epochs.insert epoch ended } })
    else (false, w)
  | none => (false, w)

/-- Ends every session. -/
def expireAll (s : Setting) (w : Work Inbound) : Work Inbound :=
  w.part.epochs.keys.foldl (fun w epoch => (expire s w epoch).2) w

-- ---------------------------------------------------------------------------
-- Receiving
-- ---------------------------------------------------------------------------

variable (P : Primitives)

/-- The session that an envelope would begin. Whatever is wrong with its key, it looks like a
forgery. -/
def beginSession (s : Setting) (sender : Peer) (e : Envelope) : Except Failure Session :=
  let context : EpochContext := ⟨sender.deviceId, s.own.deviceId, e.epoch, e.level⟩
  match EpochKeys.respond P e.level.suite s.own.keys.encryption.bytes sender.keys.encryption
      e.ephemeral.bytes context with
  | .error _ => .error .authentication
  | .ok key =>
    .ok (.begin ⟨s.own.deviceId, sender.deviceId, e.epoch, .inbound⟩ e.level key e.ephemeral s.now)

/-- Opens an envelope of an epoch that is kept. If the grace of the epoch is over, the epoch is
dropped. -/
def continueEpoch (s : Setting) (sender : Peer) (e : Envelope) (session : Session)
    (w : Work Inbound) : Except Failure Bytes × Work Inbound :=
  if session.canDecrypt s.now then
    match session.decrypt P s.config.maxSkip e with
    | .error failure => (.error failure, w)
    | .ok (plaintext, session) =>
      (.ok plaintext,
        { w with part := { w.part with epochs := w.part.epochs.insert e.epoch session } })
  else
    (.error (.sessionExpired sender.deviceId e.epoch),
      { w with
        part := { w.part with epochs := w.part.epochs.erase e.epoch }
        deadlines := w.deadlines.remove session.id })

/-- Opens the first envelope of an epoch, which begins only if the envelope proves genuine. -/
def beginEpoch (s : Setting) (sender : Peer) (e : Envelope) (w : Work Inbound) :
    Except Failure Bytes × Work Inbound :=
  match beginSession P s sender e with
  | .error failure => (.error failure, w)
  | .ok session =>
    match session.decrypt P s.config.maxSkip e with
    | .error failure => (.error failure, w)
    | .ok (plaintext, session) =>
      let w := expireAll s w
      let part := { w.part with
        epochs := w.part.epochs.insert e.epoch session, latest := some e.epoch }
      let w := { w with
        part := part, deadlines := w.deadlines.schedule s.config.rotation session.id s.now }
      (.ok plaintext, w.note ⟨.sessionEstablished, [s.own.deviceId, sender.deviceId], .success,
        s!"inbound epoch {e.epoch.toNat} at {e.level.name}"⟩)

/-- Opens an envelope. -/
def decrypt (s : Setting) (sender : Peer) (e : Envelope) (w : Work Inbound) :
    Except Failure Bytes × Work Inbound :=
  if w.part.isRevoked then (.error (.peerRevoked sender.deviceId), w)
  else
    match w.part.epochs.get? e.epoch with
    | some session => continueEpoch P s sender e session w
    | none =>
      if w.part.isPast e.epoch then (.error (.sessionExpired sender.deviceId e.epoch), w)
      else beginEpoch P s sender e w

-- ---------------------------------------------------------------------------
-- Questions
-- ---------------------------------------------------------------------------

/-- The state of an epoch. -/
def stateOf (i : Inbound) (epoch : UInt64) : SessionState :=
  match i.epochs.get? epoch with
  | some session => session.state
  | none => if i.isPast epoch then .retired else .noSession

end Inbound

end EndToEnd
