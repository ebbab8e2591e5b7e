import EndToEnd.Proofs.Naming

/-!
# Entries of the index

The index of deadlines has one entry for each session that is kept, under the id of the session. It
says when the session ends, or when it is dropped if it has ended; and the session says the latter
itself. `Deadlines.entries` is the part of the index that belongs to one side of one pair.
-/

namespace EndToEnd

/-- When a session is to be dropped, if it has ended. -/
def Session.retireAt (s : Session) : Option UInt64 :=
  match s.phase with
  | .active => none
  | .expiring deadline => some deadline

theorem Session.retireAt_of_active {s : Session} (h : s.phase = .active) : s.retireAt = none := by
  unfold retireAt
  rw [h]

theorem Session.retireAt_of_expiring {s : Session} {deadline : UInt64}
    (h : s.phase = .expiring deadline) : s.retireAt = some deadline := by
  unfold retireAt
  rw [h]

/-- A session that ends takes the deadline, unless it has one already. -/
theorem Session.retireAt_expire (s : Session) (deadline : UInt64) :
    (s.expire deadline).retireAt = some (s.retireAt.getD deadline) := by
  unfold expire retireAt
  cases h : s.phase with
  | active => simp
  | expiring earlier => simp [h]

/-- A session is active exactly as long as it has no deadline. -/
theorem Session.isActive_iff {s : Session} : s.isActive = true ↔ s.retireAt = none := by
  unfold isActive retireAt
  cases s.phase <;> simp

/-- An id of a session with a peer, in one direction. -/
def SessionId.Of (own peer : String) (direction : Direction) (id : SessionId) : Prop :=
  ∃ epoch, id = ⟨own, peer, epoch, direction⟩

/-- What is due says whether the session has ended. -/
theorem Rotation.Deadline.retireAt_of_due {d : Deadline} {now : UInt64} {action : DueAction}
    (h : d.due? now = some action) :
    (action = .expire ∧ d.retireAt = none) ∨
      (action = .retire ∧ ∃ retireAt, d.retireAt = some retireAt ∧ retireAt ≤ now) := by
  unfold due? at h
  split at h
  · rename_i retireAt hEnded
    split at h
    · cases h
      exact .inr ⟨rfl, retireAt, hEnded, ‹_›⟩
    · cases h
  · rename_i hActive
    split at h
    · cases h
      exact .inl ⟨rfl, hActive⟩
    · cases h

/-- When a session that ends now is to be dropped, by its entry. -/
def Rotation.Policy.retirement (p : Policy) (now : UInt64) (entry : Option Deadline) : UInt64 :=
  match entry.bind (·.retireAt) with
  | some earlier => min earlier (p.graceDeadline now)
  | none => p.graceDeadline now

namespace Rotation.Deadlines

variable {own peer : String} {direction : Direction} {p : Policy}

theorem retirement_eq (t : Deadlines) (id : SessionId) (now : UInt64) :
    t.retirement p id now = p.retirement now (t.get? id) := rfl

/-- What the index has on the epochs of one direction of a pair. -/
def entries (t : Deadlines) (own peer : String) (direction : Direction) (epoch : UInt64) :
    Option Deadline :=
  t.get? ⟨own, peer, epoch, direction⟩

/-- Scheduling a session writes its entry and no other. -/
theorem entries_schedule (t : Deadlines) (epoch other createdAt : UInt64) :
    (t.schedule p ⟨own, peer, epoch, direction⟩ createdAt).entries own peer direction other =
      if other = epoch then some ⟨p.expiry createdAt, none⟩
      else t.entries own peer direction other := by
  simp [entries, get?_schedule]

/-- Marking a session as ended moves its deadline at most to an earlier time. -/
theorem entries_markExpiring (t : Deadlines) (epoch other now : UInt64) :
    (t.markExpiring p ⟨own, peer, epoch, direction⟩ now).entries own peer direction other =
      if other = epoch then
        some ⟨((t.entries own peer direction epoch).map (·.expireAt)).getD now,
          some (p.retirement now (t.entries own peer direction epoch))⟩
      else t.entries own peer direction other := by
  simp [entries, get?_markExpiring, retirement_eq]

/-- Removing a session takes its entry and no other. -/
theorem entries_remove (t : Deadlines) (epoch other : UInt64) :
    (t.remove ⟨own, peer, epoch, direction⟩).entries own peer direction other =
      if other = epoch then none else t.entries own peer direction other := by
  simp [entries, get?_remove]

/-- An index that differs elsewhere has the same on a pair. -/
theorem entries_of_differs {ids : SessionId → Prop} {t t' : Deadlines} (h : t.Differs ids t')
    (hIds : ∀ epoch, ¬ids ⟨own, peer, epoch, direction⟩) :
    t'.entries own peer direction = t.entries own peer direction :=
  funext fun epoch => h _ (hIds epoch)

end Rotation.Deadlines

/-- Dropping sessions takes the entries of these. -/
theorem Work.get?_retireAll {σ : Type} (s : Setting) (reason : String) (w : Work σ)
    (sessions : List Session) (id : SessionId) :
    (w.retireAll s reason sessions).deadlines.get? id =
      if id ∈ sessions.map (·.id) then none else w.deadlines.get? id := by
  induction sessions generalizing w with
  | nil => rfl
  | cons session rest ih =>
    have hRest := ih (w.retire s reason session)
    have hFirst : (w.retire s reason session).deadlines.get? id =
        if id = session.id then none else w.deadlines.get? id :=
      Rotation.Deadlines.get?_remove ..
    show ((w.retire s reason session).retireAll s reason rest).deadlines.get? id = _
    rw [hRest, hFirst]
    by_cases hMem : id ∈ rest.map (·.id)
    · simp [hMem]
    · by_cases hId : id = session.id <;> simp [hMem, hId]

end EndToEnd
