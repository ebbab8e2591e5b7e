import EndToEnd.Session.Inbound
import EndToEnd.Session.Outbound

/-!
# Pairs

The sending and receiving sides of every pair that a device has begun to form, by the id of the
peer. Each operation works on the sides of one peer and leaves those of all others as they are.

Main facts: `outbound_onOutbound` and `inbound_onInbound` (an operation changes one side of one
pair).
-/

namespace EndToEnd

/-- The sessions of a device. -/
structure Pairs where
  outbound : Table String Outbound
  inbound : Table String Inbound
  deriving DecidableEq

namespace Pairs

/-- No sessions. -/
def empty : Pairs := ⟨.empty, .empty⟩

/-- The sending side of a pair, if there is one. -/
def outbound? (p : Pairs) (peer : String) : Option Outbound := p.outbound.get? peer

/-- The receiving side of a pair, if there is one. -/
def inbound? (p : Pairs) (peer : String) : Option Inbound := p.inbound.get? peer

variable {α : Type}

/-- Works on the sending side of a pair. -/
def onOutbound (peer : String) (op : Work Outbound → α × Work Outbound) (w : Work Pairs) :
    α × Work Pairs :=
  let (result, done) := op (w.withPart ((w.part.outbound? peer).getD .initial))
  (result, done.withPart { w.part with outbound := w.part.outbound.insert peer done.part })

/-- Works on the receiving side of a pair. -/
def onInbound (peer : String) (op : Work Inbound → α × Work Inbound) (w : Work Pairs) :
    α × Work Pairs :=
  let (result, done) := op (w.withPart ((w.part.inbound? peer).getD .initial))
  (result, done.withPart { w.part with inbound := w.part.inbound.insert peer done.part })

/-- Works on the sending side of a pair, if there is one. -/
def onExistingOutbound (peer : String) (otherwise : α) (op : Work Outbound → α × Work Outbound)
    (w : Work Pairs) : α × Work Pairs :=
  if (w.part.outbound? peer).isSome then onOutbound peer op w else (otherwise, w)

/-- Works on the receiving side of a pair, if there is one. -/
def onExistingInbound (peer : String) (otherwise : α) (op : Work Inbound → α × Work Inbound)
    (w : Work Pairs) : α × Work Pairs :=
  if (w.part.inbound? peer).isSome then onInbound peer op w else (otherwise, w)

-- ---------------------------------------------------------------------------
-- Messages
-- ---------------------------------------------------------------------------

variable (P : Primitives)

/-- Makes the envelope of a message to a peer. -/
def encrypt (s : Setting) (peer : Peer) (level : Level) (plaintext : Bytes) (w : Work Pairs) :
    Except Failure Envelope × Work Pairs :=
  onOutbound peer.deviceId (Outbound.encrypt P s peer level plaintext) w

/-- Opens an envelope of a peer. -/
def decrypt (s : Setting) (sender : Peer) (e : Envelope) (w : Work Pairs) :
    Except Failure Bytes × Work Pairs :=
  onInbound sender.deviceId (Inbound.decrypt P s sender e) w

-- ---------------------------------------------------------------------------
-- Establishment and rotation
-- ---------------------------------------------------------------------------

/-- Asks for a session with a peer. -/
def request (s : Setting) (peer : String) (w : Work Pairs) : SessionState × Work Pairs :=
  onOutbound peer (fun w =>
    let (state, part) := w.part.request s.now
    (state, { w with part := part })) w

/-- Gives up an establishment that was asked for too long ago. -/
def checkEstablishment (s : Setting) (peer : String) (w : Work Pairs) :
    Except Failure Unit × Work Pairs :=
  onExistingOutbound peer (.ok ()) (fun w =>
    if w.part.hasTimedOut s then (.error (.establishmentTimeout peer), Outbound.timeOut s peer w)
    else (.ok (), w)) w

/-- Ends the session that sends to a peer on demand, and gives its epoch. -/
def rotate (s : Setting) (peer : String) (w : Work Pairs) : Option UInt64 × Work Pairs :=
  onExistingOutbound peer none (Outbound.expireCurrent s) w

-- ---------------------------------------------------------------------------
-- Dropping sessions
-- ---------------------------------------------------------------------------

/-- Bars a peer for ever and drops its sessions; gives their number. -/
def revoke (s : Setting) (peer : String) (w : Work Pairs) : Nat × Work Pairs :=
  let (sent, w) := onOutbound peer (fun w =>
    (w.part.live, { w with part := { w.part.cleared with isRevoked := true } })) w
  let (received, w) := onInbound peer (fun w =>
    (w.part.live, { w with part := { w.part.cleared with isRevoked := true } })) w
  let dropped := sent ++ received
  (dropped.length, w.retireAll s "peer revoked" dropped)

/-- Drops the sessions with a peer; gives their number. -/
def retire (s : Setting) (reason : String) (peer : String) (w : Work Pairs) : Nat × Work Pairs :=
  let (sent, w) := onExistingOutbound peer [] (fun w =>
    (w.part.live, { w with part := w.part.cleared })) w
  let (received, w) := onExistingInbound peer [] (fun w =>
    (w.part.live, { w with part := w.part.cleared })) w
  let dropped := sent ++ received
  (dropped.length, w.retireAll s reason dropped)

/-- The ids of all peers, in increasing order. -/
def peers (p : Pairs) : List String :=
  (Table.ofList ((p.outbound.keys ++ p.inbound.keys).map (·, ()))).keys

/-- Drops all sessions; gives their number. -/
def shutdown (s : Setting) (w : Work Pairs) : Nat × Work Pairs :=
  w.part.peers.foldl (fun (n, w) peer =>
    let (dropped, w) := retire s "shutdown" peer w
    (n + dropped, w)) (0, w)

-- ---------------------------------------------------------------------------
-- Epoch counters
-- ---------------------------------------------------------------------------

/-- The number of the next epoch for sending, for every peer that had one. -/
def counters (p : Pairs) : Table String UInt64 :=
  (p.outbound.mapValues (·.nextEpoch)).filter fun _ next => next ≠ 0

/-- Raises the number of the next epoch for sending to at least what is given. -/
def raiseCounter (p : Pairs) (peer : String) (next : UInt64) : Pairs :=
  let o := (p.outbound? peer).getD .initial
  { p with outbound := p.outbound.insert peer { o with nextEpoch := max o.nextEpoch next } }

/-- Raises the counters of several peers. -/
def raiseCounters (p : Pairs) (counters : Table String UInt64) : Pairs :=
  counters.toList.foldl (fun p e => p.raiseCounter e.1 e.2) p

-- ---------------------------------------------------------------------------
-- Questions
-- ---------------------------------------------------------------------------

/-- The state of the sending side of a pair. -/
def outboundState (p : Pairs) (peer : String) : SessionState :=
  ((p.outbound? peer).map (·.state)).getD .noSession

/-- The state of a session. -/
def stateOf (p : Pairs) (id : SessionId) : SessionState :=
  match id.direction with
  | .outbound => ((p.outbound? id.peer).map (·.stateOf id.epoch)).getD .noSession
  | .inbound => ((p.inbound? id.peer).map (·.stateOf id.epoch)).getD .noSession

/-- The epoch of the session that sends to a peer. -/
def currentEpoch (p : Pairs) (peer : String) : Option UInt64 :=
  ((p.outbound? peer).bind (·.current)).map (·.epoch)

/-- The sessions with a peer. -/
def liveWith (p : Pairs) (peer : String) : List Session :=
  ((p.outbound? peer).map (·.live)).getD [] ++ ((p.inbound? peer).map (·.live)).getD []

/-- All sessions. -/
def live (p : Pairs) : List Session :=
  p.outbound.values.flatMap (·.live) ++ p.inbound.values.flatMap (·.live)

/-- A short description. -/
def describe (own : Identity) (p : Pairs) : String :=
  "SessionManager \x7b local: " ++ Text.quote own.deviceId
    ++ s!", outbound_peers: {p.outbound.size}, inbound_peers: {p.inbound.size}, .. "
    ++ "\x7d"

-- ---------------------------------------------------------------------------
-- One pair at a time
-- ---------------------------------------------------------------------------

/-- Work on the sending side of a pair changes nothing else. -/
theorem outbound_onOutbound (peer other : String) (op : Work Outbound → α × Work Outbound)
    (w : Work Pairs) (h : other ≠ peer) :
    (onOutbound peer op w).2.part.outbound? other = w.part.outbound? other
      ∧ (onOutbound peer op w).2.part.inbound = w.part.inbound := by
  refine ⟨?_, rfl⟩
  simp [onOutbound, outbound?, Work.withPart, Table.get?_insert, h]

/-- Work on the receiving side of a pair changes nothing else. -/
theorem inbound_onInbound (peer other : String) (op : Work Inbound → α × Work Inbound)
    (w : Work Pairs) (h : other ≠ peer) :
    (onInbound peer op w).2.part.inbound? other = w.part.inbound? other
      ∧ (onInbound peer op w).2.part.outbound = w.part.outbound := by
  refine ⟨?_, rfl⟩
  simp [onInbound, inbound?, Work.withPart, Table.get?_insert, h]

end Pairs

end EndToEnd
