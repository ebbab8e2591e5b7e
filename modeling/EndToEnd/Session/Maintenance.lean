import EndToEnd.Session.Pairs

/-!
# Maintenance

One sweep does what has become due: it ends sessions that are old enough, drops those whose grace is
over, and gives up establishments that were asked for too long ago. A deadline that belongs to no
session is forgotten.
-/

namespace EndToEnd

open Rotation (DueAction)

/-- What a sweep did. -/
structure SweepReport where
  expired : Nat
  retired : Nat
  timedOut : Nat
  deriving DecidableEq, Repr

namespace Pairs

/-- Does what is due for a session that sends; says whether it was there. -/
def applyOutbound (s : Setting) (id : SessionId) (action : DueAction) (w : Work Outbound) :
    Bool × Work Outbound :=
  match action with
  | .expire =>
    if w.part.current.any (·.epoch = id.epoch) then Outbound.rotate s id.peer .intervalElapsed w
    else (false, w)
  | .retire =>
    match w.part.expiring.find? (·.epoch = id.epoch) with
    | some session =>
      let kept := w.part.expiring.eraseP (·.epoch = id.epoch)
      (true, { w with part := { w.part with expiring := kept } }.retire s "grace window elapsed" session)
    | none => (false, w)

/-- Does what is due for a session that receives; says whether it was there. -/
def applyInbound (s : Setting) (id : SessionId) (action : DueAction) (w : Work Inbound) :
    Bool × Work Inbound :=
  match action with
  | .expire => Inbound.expire s w id.epoch
  | .retire =>
    match w.part.epochs.get? id.epoch with
    | some session =>
      let kept := w.part.epochs.erase id.epoch
      (true, { w with part := { w.part with epochs := kept } }.retire s "grace window elapsed" session)
    | none => (false, w)

/-- Does what is due for a session, and counts it. -/
def applyDue (s : Setting) (r : SweepReport) (w : Work Pairs) (id : SessionId) (action : DueAction) :
    SweepReport × Work Pairs :=
  let (done, w) := match id.direction with
    | .outbound => onExistingOutbound id.peer false (applyOutbound s id action) w
    | .inbound => onExistingInbound id.peer false (applyInbound s id action) w
  match done, action with
  | true, .expire => ({ r with expired := r.expired + 1 }, w)
  | true, .retire => ({ r with retired := r.retired + 1 }, w)
  | false, _ => (r, { w with deadlines := w.deadlines.remove id })

/-- Gives up the establishment with a peer if it was asked for too long ago, and counts it. -/
def sweepEstablishment (s : Setting) (r : SweepReport) (w : Work Pairs) (peer : String) :
    SweepReport × Work Pairs :=
  match checkEstablishment s peer w with
  | (.ok (), w) => (r, w)
  | (.error _, w) => ({ r with timedOut := r.timedOut + 1 }, w)

/-- One sweep: first what is due, in the order of the session ids, then the establishments.

The establishments that are given up are found in a hash map, and the order in which they are reported
to the audit log is the order of that map, which nothing fixes. Sorted by peer, as here, is one of the
orders there can be; what one peer's establishment comes to does not depend on the others. -/
def sweep (s : Setting) (w : Work Pairs) : SweepReport × Work Pairs :=
  let (r, w) := (w.deadlines.due s.now).foldl (fun (r, w) d => applyDue s r w d.1 d.2) (⟨0, 0, 0⟩, w)
  w.part.outbound.keys.foldl (fun (r, w) peer => sweepEstablishment s r w peer) (r, w)

end Pairs

end EndToEnd
