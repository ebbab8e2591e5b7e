import EndToEnd.Audit.Entry
import EndToEnd.Config
import EndToEnd.Rotation.Deadlines
import EndToEnd.Session.Basic

/-!
# Working on sessions

An operation on sessions reads who acts, under which configuration and when, and changes a part of
the sessions, the deadlines and the random bytes. What it has to say goes into a list of events,
which the device puts on record afterwards: no operation on sessions can see the audit log, let
alone depend on it.
-/

namespace EndToEnd

/-- Who acts, under which configuration, and when. -/
structure Setting where
  own : Identity
  config : Config
  now : UInt64

/-- What an operation on sessions changes; `σ` is the part of the sessions that it works on. -/
structure Work (σ : Type) where
  part : σ
  deadlines : Rotation.Deadlines
  random : RandomSource
  /-- What is to be put on record, earliest first. -/
  events : List Audit.Event

namespace Work

variable {σ τ : Type}

/-- The same work on another part. -/
def withPart (w : Work σ) (part : τ) : Work τ := ⟨part, w.deadlines, w.random, w.events⟩

/-- Adds an event. -/
def note (w : Work σ) (event : Audit.Event) : Work σ := { w with events := w.events ++ [event] }

/-- Drops a session that has been taken out of its place. -/
def retire (s : Setting) (reason : String) (w : Work σ) (session : Session) : Work σ :=
  { w with deadlines := w.deadlines.remove session.id }.note
    ⟨.sessionRetired, [s.own.deviceId, session.id.peer], .success,
      s!"epoch {session.epoch.toNat} ({reason})"⟩

/-- Drops sessions one after the other. -/
def retireAll (s : Setting) (reason : String) (w : Work σ) (sessions : List Session) : Work σ :=
  sessions.foldl (retire s reason) w

/-- Ends a session that is not in its place at the moment. -/
def expire (s : Setting) (w : Work σ) (session : Session) : Session × Work σ :=
  let policy := s.config.rotation
  (session.expire (w.deadlines.retirement policy session.id s.now),
    { w with deadlines := w.deadlines.markExpiring policy session.id s.now })

@[simp] theorem part_note (w : Work σ) (event : Audit.Event) : (w.note event).part = w.part := rfl

@[simp] theorem part_retire (s : Setting) (reason : String) (w : Work σ) (session : Session) :
    (retire s reason w session).part = w.part := rfl

@[simp] theorem part_retireAll (s : Setting) (reason : String) (w : Work σ)
    (sessions : List Session) : (retireAll s reason w sessions).part = w.part := by
  induction sessions generalizing w with
  | nil => rfl
  | cons session rest ih => exact ih _

@[simp] theorem random_retireAll (s : Setting) (reason : String) (w : Work σ)
    (sessions : List Session) : (retireAll s reason w sessions).random = w.random := by
  induction sessions generalizing w with
  | nil => rfl
  | cons session rest ih => exact ih _

end Work

end EndToEnd
