import EndToEnd.Rotation.Policy
import EndToEnd.Session.Id
import EndToEnd.Table

/-!
# Deadlines

An index of the sessions that something will happen to: an active session ends when it is old
enough, and one that has ended is dropped when its grace is over. Marking a session again never
moves its deadline back.

Main facts: `get?_schedule`, `get?_markExpiring` and `get?_remove` (what an operation does to the
deadline of each session).
-/

namespace EndToEnd.Rotation

/-- When something happens to a session. -/
structure Deadline where
  expireAt : UInt64
  /-- Set once the session has ended. -/
  retireAt : Option UInt64
  deriving DecidableEq, Repr

/-- What is to be done with a session. -/
inductive DueAction where
  | expire
  | retire
  deriving DecidableEq, Repr

/-- The name of what is to be done. -/
def DueAction.name : DueAction → String
  | expire => "Expire"
  | retire => "Retire"

/-- What is to be done at some time, if anything is. -/
def Deadline.due? (d : Deadline) (now : UInt64) : Option DueAction :=
  match d.retireAt with
  | some retireAt => if retireAt ≤ now then some .retire else none
  | none => if d.expireAt ≤ now then some .expire else none

/-- The deadlines of all sessions. -/
abbrev Deadlines := Table SessionId Deadline

namespace Deadlines

variable (p : Policy)

/-- Enters a session that began at some time. -/
def schedule (t : Deadlines) (id : SessionId) (createdAt : UInt64) : Deadlines :=
  t.insert id ⟨p.expiry createdAt, none⟩

/-- When a session that ends now is to be dropped. -/
def retirement (t : Deadlines) (id : SessionId) (now : UInt64) : UInt64 :=
  match (t.get? id).bind (·.retireAt) with
  | some earlier => min earlier (p.graceDeadline now)
  | none => p.graceDeadline now

/-- Notes that a session ends now; one that is not in the index is entered. -/
def markExpiring (t : Deadlines) (id : SessionId) (now : UInt64) : Deadlines :=
  let expireAt := ((t.get? id).map (·.expireAt)).getD now
  t.insert id ⟨expireAt, some (t.retirement p id now)⟩

/-- Forgets a session. -/
def remove (t : Deadlines) (id : SessionId) : Deadlines := Table.erase t id

/-- What is to be done at some time, in the order of the ids. -/
def due (t : Deadlines) (now : UInt64) : List (SessionId × DueAction) :=
  t.toList.filterMap fun e => (e.2.due? now).map (e.1, ·)

variable {p}

theorem get?_schedule (t : Deadlines) (id other : SessionId) (createdAt : UInt64) :
    (t.schedule p id createdAt).get? other =
      if other = id then some ⟨p.expiry createdAt, none⟩ else t.get? other :=
  Table.get?_insert t id other _

theorem get?_markExpiring (t : Deadlines) (id other : SessionId) (now : UInt64) :
    (t.markExpiring p id now).get? other =
      if other = id then
        some ⟨((t.get? id).map (·.expireAt)).getD now, some (t.retirement p id now)⟩
      else t.get? other :=
  Table.get?_insert t id other _

theorem get?_remove (t : Deadlines) (id other : SessionId) :
    (t.remove id).get? other = if other = id then none else t.get? other :=
  Table.get?_erase t id other

end Deadlines

end EndToEnd.Rotation
