import EndToEnd.Proofs.SettledReceiving
import EndToEnd.Proofs.SettledSending

/-!
# Sides that have shed sessions

A session whose grace is over opens nothing any more, and whether it is still there makes no
difference. Two devices are compared here, of which the second has shed some such sessions; whatever
is asked of both, they answer alike.

Sending sides are the same in both, and the entries that were shed are not theirs
(`Outbound.concur_encrypt`). A receiving side has shed epochs that lie behind it
(`Inbound.Sheds`); both sides refuse all envelopes of those epochs, in the same words
(`Inbound.concur_decrypt`).
-/

namespace EndToEnd

-- ---------------------------------------------------------------------------
-- The same, done to both
-- ---------------------------------------------------------------------------

/-- Two results with the same answer, and with states that are related. -/
structure Concur {α σ : Type} (Related : σ → σ → Prop) (x x' : α × σ) : Prop where
  answer : x'.1 = x.1
  states : Related x.2 x'.2

/-- Both results, taken apart. -/
theorem Concur.exists_eq {α σ : Type} {Related : σ → σ → Prop} {x x' : α × σ}
    (h : Concur Related x x') :
    ∃ answer w w', x = (answer, w) ∧ x' = (answer, w') ∧ Related w w' :=
  ⟨x.1, x.2, x'.2, rfl, Prod.ext h.answer rfl, h.states⟩

namespace Rotation.Deadlines.Differs

variable {ids : SessionId → Prop} {t t' : Deadlines} (h : Differs ids t t') (p : Policy)
  (id : SessionId) (now : UInt64)

include h

/-- Scheduling the same session leaves two indexes to differ where they did. -/
theorem schedule_both : Differs ids (t.schedule p id now) (t'.schedule p id now) := by
  intro other hOther
  rw [get?_schedule, get?_schedule, h other hOther]

/-- Marking the same session leaves two indexes to differ where they did. -/
theorem markExpiring_both : Differs ids (t.markExpiring p id now) (t'.markExpiring p id now) := by
  intro other hOther
  rw [get?_markExpiring, get?_markExpiring, h other hOther]
  split
  · rename_i hSame
    subst hSame
    rw [retirement_eq, retirement_eq, h other hOther]
  · rfl

/-- Removing the same session leaves two indexes to differ where they did. -/
theorem remove_both : Differs ids (t.remove id) (t'.remove id) := by
  intro other hOther
  rw [get?_remove, get?_remove, h other hOther]

end Rotation.Deadlines.Differs

namespace Work

variable {σ : Type} {lost : SessionId → Prop}

/-- Work on the same part, when the index may have shed some entries. -/
structure Alike (lost : SessionId → Prop) (w w' : Work σ) : Prop where
  part : w'.part = w.part
  deadlines : w.deadlines.Differs lost w'.deadlines
  random : w'.random = w.random

/-- The same sessions are dropped from both. -/
theorem Alike.retireAll {w w' : Work σ} (h : Alike lost w w') (s : Setting) (reason : String)
    (sessions : List Session) :
    Alike lost (w.retireAll s reason sessions) (w'.retireAll s reason sessions) := by
  induction sessions generalizing w w' with
  | nil => exact h
  | cons session rest ih =>
    have hFirst : Alike lost (w.retire s reason session) (w'.retire s reason session) :=
      ⟨h.part, h.deadlines.remove_both session.id, h.random⟩
    exact ih hFirst

/-- A session ends alike, if its own entry was not shed. -/
theorem fst_expire_of_differs {w w' : Work σ} (h : w.deadlines.Differs lost w'.deadlines)
    (s : Setting) {session : Session} (hKept : ¬lost session.id) :
    (w'.expire s session).1 = (w.expire s session).1 := by
  show session.expire (w'.deadlines.retirement _ _ _) =
    session.expire (w.deadlines.retirement _ _ _)
  rw [Rotation.Deadlines.retirement_eq, Rotation.Deadlines.retirement_eq, h _ hKept]

end Work

-- ---------------------------------------------------------------------------
-- Sending sides
-- ---------------------------------------------------------------------------

namespace Outbound

open Work (Alike)

/-- Sessions that agree with the index go by ids of their direction. -/
theorem Settled.named {own peer : String} {may : Prop} {w : Work Outbound}
    (h : Settled own peer may w) : w.part.Named own := by
  intro session hLive
  rcases h.live_cases with ⟨hNone, -⟩ | ⟨only, hOnly, -, hHolds⟩
  · rw [hNone] at hLive
    cases hLive
  · rw [hOnly] at hLive
    obtain rfl := List.mem_singleton.1 hLive
    rw [hHolds.id]
    exact ⟨rfl, rfl⟩

variable {lost : SessionId → Prop} {w w' : Work Outbound} {own : String}
  (hLost : ∀ id, lost id → id.direction = .inbound) (s : Setting)

section

include hLost

/-- The session in use ends on both sides; its entry was never shed. -/
theorem concur_expireCurrent (h : Alike lost w w') (hNamed : w.part.Named own) :
    Concur (Alike lost) (expireCurrent s w) (expireCurrent s w') := by
  unfold expireCurrent
  rw [h.part]
  cases hCurrent : w.part.current with
  | none => exact ⟨rfl, h⟩
  | some session =>
    have hKept : ¬lost session.id := by
      intro hShed
      have hSends : session.id.Sends own := hNamed session (by simp [live, hCurrent])
      exact Direction.noConfusion ((hLost _ hShed).symm.trans hSends.2)
    have hEnded := Work.fst_expire_of_differs h.deadlines s hKept
    let behind (o : Outbound) (ended : Session) : Outbound :=
      { o with current := none, expiring := o.expiring ++ [ended] }
    have hPart : behind w'.part (w'.expire s session).1 = behind w.part (w.expire s session).1 := by
      rw [h.part, hEnded]
    exact ⟨rfl, hPart,
      h.deadlines.markExpiring_both s.config.rotation session.id s.now, h.random⟩

/-- A rotation gives the same on both sides. -/
theorem concur_rotate (h : Alike lost w w') (hNamed : w.part.Named own) (peer : String)
    (reason : Rotation.Reason) :
    Concur (Alike lost) (rotate s peer reason w) (rotate s peer reason w') := by
  obtain ⟨epoch, v, v', hv, hv', hAlike⟩ := (concur_expireCurrent hLost s h hNamed).exists_eq
  unfold rotate
  rw [hv, hv']
  cases epoch with
  | none => exact ⟨rfl, hAlike⟩
  | some epoch => exact ⟨rfl, hAlike.part, hAlike.deadlines, hAlike.random⟩

/-- Whether a rotation is due does not depend on the index. -/
theorem alike_rotateIfDue (h : Alike lost w w') (hNamed : w.part.Named own) (peer : String)
    (level : Level) : Alike lost (rotateIfDue s peer level w) (rotateIfDue s peer level w') := by
  unfold rotateIfDue
  rw [h.part]
  split
  · exact (concur_rotate hLost s h hNamed peer _).states
  · exact h

end

theorem alike_timeOut (h : Alike lost w w') (peer : String) :
    Alike lost (timeOut s peer w) (timeOut s peer w') := by
  let behind (o : Outbound) : Outbound := { o with requestedAt := none }
  exact ⟨congrArg behind h.part, h.deadlines, h.random⟩

variable (P : Primitives)

/-- The same session begins on both sides. -/
theorem concur_establish (h : Alike lost w w') (peer : Peer) (level : Level) :
    Concur (Alike lost) (establish P s peer level w) (establish P s peer level w') := by
  obtain ⟨part, deadlines, random, events⟩ := w
  obtain ⟨part', deadlines', random', events'⟩ := w'
  obtain ⟨hPart, hDeadlines, hRandom⟩ := h
  obtain rfl : part' = part := hPart
  obtain rfl : random' = random := hRandom
  unfold establish
  dsimp only
  split
  · exact ⟨rfl, rfl, hDeadlines, rfl⟩
  · rename_i session _
    refine ⟨rfl, Alike.retireAll ?_ s _ _⟩
    exact ⟨rfl, hDeadlines.schedule_both s.config.rotation session.id s.now, rfl⟩

/-- The same session is made ready on both sides. -/
theorem concur_ready (h : Alike lost w w') (peer : Peer) (level : Level) :
    Concur (Alike lost) (ready P s peer level w) (ready P s peer level w') := by
  unfold ready
  rw [h.part]
  split
  · exact ⟨rfl, h⟩
  · exact concur_establish s P h peer level

/-- The same envelope is written on both sides. -/
theorem concur_encryptWith {x x' : Except Failure Session × Work Outbound}
    (h : Concur (Alike lost) x x') (plaintext : Bytes) :
    Concur (Alike lost) (encryptWith P s plaintext x) (encryptWith P s plaintext x') := by
  obtain ⟨made, v, v', rfl, rfl, hAlike⟩ := h.exists_eq
  cases made with
  | error failure => exact ⟨rfl, hAlike⟩
  | ok session =>
    unfold encryptWith
    dsimp only
    rw [hAlike.random]
    split
    · exact ⟨rfl, hAlike⟩
    · rename_i e session' random _
      let behind (o : Outbound) : Outbound := { o with current := some session' }
      exact ⟨rfl, congrArg behind hAlike.part, hAlike.deadlines, rfl⟩

include hLost

/-- **A message is made alike.** -/
theorem concur_encrypt (h : Alike lost w w') (hNamed : w.part.Named own) (peer : Peer)
    (level : Level) (plaintext : Bytes) :
    Concur (Alike lost) (encrypt P s peer level plaintext w)
      (encrypt P s peer level plaintext w') := by
  by_cases hBarred : w.part.isRevoked = true
  · unfold encrypt
    rw [h.part, if_pos hBarred, if_pos hBarred]
    exact ⟨rfl, h⟩
  by_cases hTimedOut : w.part.hasTimedOut s = true
  · unfold encrypt
    rw [h.part, if_neg hBarred, if_pos hTimedOut, if_neg hBarred, if_pos hTimedOut]
    exact ⟨rfl, alike_timeOut s h peer.deviceId⟩
  rw [Bool.not_eq_true] at hBarred hTimedOut
  have hBarred' : w'.part.isRevoked = false := h.part ▸ hBarred
  have hTimedOut' : w'.part.hasTimedOut s = false := h.part ▸ hTimedOut
  rw [encrypt_eq_encryptWith hBarred hTimedOut, encrypt_eq_encryptWith hBarred' hTimedOut']
  have hDue := alike_rotateIfDue hLost s h hNamed peer.deviceId level
  exact concur_encryptWith s P (concur_ready s P hDue peer level) plaintext

/-- **What is due for a session that sends is done alike.** -/
theorem concur_applyOutbound (h : Alike lost w w') (hNamed : w.part.Named own) (id : SessionId)
    (action : Rotation.DueAction) :
    Concur (Alike lost) (Pairs.applyOutbound s id action w)
      (Pairs.applyOutbound s id action w') := by
  unfold Pairs.applyOutbound
  rw [h.part]
  cases action with
  | expire =>
    dsimp only
    split
    · exact concur_rotate hLost s h hNamed id.peer _
    · exact ⟨rfl, h⟩
  | retire =>
    dsimp only
    split
    · rename_i session _
      exact ⟨rfl, rfl, h.deadlines.remove_both session.id, h.random⟩
    · exact ⟨rfl, h⟩

end Outbound

-- ---------------------------------------------------------------------------
-- Receiving sides
-- ---------------------------------------------------------------------------

/-- A session whose grace is over. -/
def Session.IsOver (s : Session) (now : UInt64) : Prop :=
  ∃ deadline, s.phase = .expiring deadline ∧ deadline ≤ now

/-- The grace of a session is over exactly if nothing can be decrypted in it. -/
theorem Session.isOver_iff {s : Session} {now : UInt64} :
    s.IsOver now ↔ s.canDecrypt now = false := by
  unfold IsOver canDecrypt
  cases s.phase <;> simp

/-- An active session has no grace that could be over. -/
theorem Session.IsOver.isActive {s : Session} {now : UInt64} (h : s.IsOver now) :
    s.isActive = false := by
  obtain ⟨deadline, hEnded, -⟩ := h
  simp [Session.isActive, hEnded]

namespace Inbound

/-- A receiving side that is another without some epochs. These lie behind it, and where the other
still keeps one, its grace is over. -/
structure Lighter (lost : UInt64 → Prop) (now : UInt64) (i i' : Inbound) : Prop where
  latest : i'.latest = i.latest
  isRevoked : i'.isRevoked = i.isRevoked
  kept : ∀ epoch, ¬lost epoch → i'.epochs.get? epoch = i.epochs.get? epoch
  past : ∀ epoch, lost epoch → i.isPast epoch = true
  gone : ∀ epoch, lost epoch → i'.epochs.get? epoch = none
  outlived : ∀ epoch session, lost epoch → i.epochs.get? epoch = some session → session.IsOver now

namespace Lighter

variable {lost : UInt64 → Prop} {now now' : UInt64} {i i' : Inbound}

/-- Whether an epoch lies behind does not depend on what was shed. -/
theorem isPast (h : Lighter lost now i i') (epoch : UInt64) : i'.isPast epoch = i.isPast epoch := by
  unfold Inbound.isPast
  rw [h.latest]

theorem refl (i : Inbound) (now : UInt64) (hNone : ∀ epoch, ¬lost epoch) :
    Lighter lost now i i where
  latest := rfl
  isRevoked := rfl
  kept _ _ := rfl
  past epoch hLost := absurd hLost (hNone epoch)
  gone epoch hLost := absurd hLost (hNone epoch)
  outlived epoch _ hLost := absurd hLost (hNone epoch)

/-- What was over stays so as the clock goes on. -/
theorem later (h : Lighter lost now i i') (hLater : now ≤ now') : Lighter lost now' i i' where
  latest := h.latest
  isRevoked := h.isRevoked
  kept := h.kept
  past := h.past
  gone := h.gone
  outlived epoch session hLost hSession := by
    obtain ⟨deadline, hEnded, hOver⟩ := h.outlived epoch session hLost hSession
    exact ⟨deadline, hEnded, UInt64.le_trans hOver hLater⟩

/-- A session is put in its place on both sides. -/
theorem insert (h : Lighter lost now i i') {epoch : UInt64} (hKept : ¬lost epoch)
    (session : Session) : Lighter lost now { i with epochs := i.epochs.insert epoch session }
      { i' with epochs := i'.epochs.insert epoch session } where
  latest := h.latest
  isRevoked := h.isRevoked
  kept other hOther := by
    rw [Table.get?_insert, Table.get?_insert, h.kept other hOther]
  past := h.past
  gone other hOther := by
    rw [Table.get?_insert, if_neg, h.gone other hOther]
    rintro rfl
    exact hKept hOther
  outlived other session' hOther hSession := by
    rw [Table.get?_insert, if_neg] at hSession
    · exact h.outlived other session' hOther hSession
    · rintro rfl
      exact hKept hOther

/-- An epoch is dropped on both sides. -/
theorem erase (h : Lighter lost now i i') (epoch : UInt64) :
    Lighter lost now { i with epochs := i.epochs.erase epoch }
      { i' with epochs := i'.epochs.erase epoch } where
  latest := h.latest
  isRevoked := h.isRevoked
  kept other hOther := by
    rw [Table.get?_erase, Table.get?_erase, h.kept other hOther]
  past := h.past
  gone other hOther := by
    rw [Table.get?_erase, h.gone other hOther, ite_self]
  outlived other session hOther hSession := by
    rw [Table.get?_erase] at hSession
    split at hSession
    · cases hSession
    · exact h.outlived other session hOther hSession

/-- An epoch that one side lacks is dropped on the other. -/
theorem erase_left (h : Lighter lost now i i') {epoch : UInt64} (hLost : lost epoch) :
    Lighter lost now { i with epochs := i.epochs.erase epoch } i' where
  latest := h.latest
  isRevoked := h.isRevoked
  kept other hOther := by
    rw [Table.get?_erase, if_neg, h.kept other hOther]
    rintro rfl
    exact hOther hLost
  past := h.past
  gone := h.gone
  outlived other session hOther hSession := by
    rw [Table.get?_erase] at hSession
    split at hSession
    · cases hSession
    · exact h.outlived other session hOther hSession

/-- An epoch whose grace is over is dropped on one side. -/
theorem erase_right {epoch : UInt64} (hLost : ∀ other, lost other ↔ other = epoch)
    (hPast : i.isPast epoch = true) {session : Session}
    (hSession : i.epochs.get? epoch = some session)
    (hOver : session.IsOver now) :
    Lighter lost now i { i with epochs := i.epochs.erase epoch } where
  latest := rfl
  isRevoked := rfl
  kept other hOther := by
    rw [Table.get?_erase, if_neg fun hSame => hOther ((hLost other).2 hSame)]
  past other hOther := by
    rw [(hLost other).1 hOther]
    exact hPast
  gone other hOther := by
    rw [Table.get?_erase, if_pos ((hLost other).1 hOther)]
  outlived other session' hOther hSession' := by
    rw [(hLost other).1 hOther, hSession] at hSession'
    cases hSession'
    exact hOver

/-- Sides that keep nothing differ in nothing. -/
theorem cleared (h : Lighter lost now i i') (barred : Bool) :
    Lighter lost now { i.cleared with isRevoked := barred || i.isRevoked }
      { i'.cleared with isRevoked := barred || i'.isRevoked } where
  latest := h.latest
  isRevoked := congrArg (barred || ·) h.isRevoked
  kept _ _ := rfl
  past := h.past
  gone _ _ := rfl
  outlived _ _ _ hSession := by cases hSession

end Lighter

/-- Work on a receiving side of which some sessions and their entries may have been shed. -/
structure Sheds (own peer : String) (lost : SessionId → Prop) (now : UInt64) (w w' : Work Inbound) :
    Prop where
  part : Lighter (fun epoch => lost ⟨own, peer, epoch, .inbound⟩) now w.part w'.part
  deadlines : w.deadlines.Differs lost w'.deadlines
  random : w'.random = w.random

variable {own peer : String} {lost : SessionId → Prop} {now : UInt64} {w w' : Work Inbound}
  (s : Setting)

/-- A session that is shed on one side is dropped on the other. -/
theorem Sheds.drop_left (h : Sheds own peer lost now w w') {v : Work Inbound} {epoch : UInt64}
    (hLost : lost ⟨own, peer, epoch, .inbound⟩)
    (hPart : v.part = { w.part with epochs := w.part.epochs.erase epoch })
    (hDeadlines : v.deadlines = w.deadlines.remove ⟨own, peer, epoch, .inbound⟩)
    (hRandom : v.random = w.random) : Sheds own peer lost now v w' := by
  refine ⟨?_, fun id hKept => ?_, h.random.trans hRandom.symm⟩
  · rw [hPart]
    exact h.part.erase_left hLost
  · rw [hDeadlines, Rotation.Deadlines.get?_remove, if_neg, h.deadlines id hKept]
    rintro rfl
    exact hKept hLost

/-- One epoch ends on both sides. -/
theorem concur_expire (h : Sheds own peer lost now w w') (hNamed : w.part.Named own peer)
    {epoch : UInt64} (hKept : ¬lost ⟨own, peer, epoch, .inbound⟩) :
    Concur (Sheds own peer lost now) (expire s w epoch) (expire s w' epoch) := by
  unfold expire
  rw [h.part.kept epoch hKept]
  cases hSession : w.part.epochs.get? epoch with
  | none => exact ⟨rfl, h⟩
  | some session =>
    have hId := hNamed epoch session hSession
    dsimp only
    split
    · have hEnded := Work.fst_expire_of_differs h.deadlines s (hId ▸ hKept)
      refine ⟨rfl, ?_, h.deadlines.markExpiring_both s.config.rotation session.id s.now, h.random⟩
      have hInserted := h.part.insert hKept (w.expire s session).1
      rw [← hEnded] at hInserted
      rw [← hEnded]
      exact hInserted
    · exact ⟨rfl, h⟩

/-- Ending epochs changes nothing but the sessions and their entries. -/
theorem expireAll_rest (w : Work Inbound) :
    (expireAll s w).part.latest = w.part.latest ∧
      (expireAll s w).part.isRevoked = w.part.isRevoked ∧ (expireAll s w).random = w.random := by
  have hExpire (v : Work Inbound) (epoch : UInt64) :
      (expire s v epoch).2.part.latest = v.part.latest ∧
        (expire s v epoch).2.part.isRevoked = v.part.isRevoked ∧
        (expire s v epoch).2.random = v.random := by
    unfold expire
    split
    · split <;> exact ⟨rfl, rfl, rfl⟩
    · exact ⟨rfl, rfl, rfl⟩
  unfold expireAll
  generalize w.part.epochs.keys = epochs
  induction epochs generalizing w with
  | nil => exact ⟨rfl, rfl, rfl⟩
  | cons epoch rest ih =>
    obtain ⟨hLatest, hRevoked, hRandom⟩ := hExpire w epoch
    obtain ⟨hLatest', hRevoked', hRandom'⟩ := ih (expire s w epoch).2
    exact ⟨hLatest'.trans hLatest, hRevoked'.trans hRevoked, hRandom'.trans hRandom⟩

/-- **Every epoch ends on both sides.** -/
theorem sheds_expireAll (h : Sheds own peer lost now w w') (hNamed : w.part.Named own peer)
    (hNamed' : w'.part.Named own peer) :
    Sheds own peer lost now (expireAll s w) (expireAll s w') := by
  obtain ⟨hLatest, hRevoked, hRandom⟩ := expireAll_rest s w
  obtain ⟨hLatest', hRevoked', hRandom'⟩ := expireAll_rest s w'
  -- epoch by epoch
  have hKept (epoch : UInt64) (hEpoch : ¬lost ⟨own, peer, epoch, .inbound⟩) :
      cell own peer (expireAll s w') epoch = cell own peer (expireAll s w) epoch := by
    have hSame : cell own peer w' epoch = cell own peer w epoch :=
      Prod.ext (h.part.kept epoch hEpoch) (h.deadlines _ hEpoch)
    rw [cell_expireAll s hNamed, cell_expireAll s hNamed', hSame]
  refine ⟨⟨?_, ?_, fun epoch hEpoch => congrArg Prod.fst (hKept epoch hEpoch), ?_, ?_, ?_⟩, ?_, ?_⟩
  · rw [hLatest, hLatest', h.part.latest]
  · rw [hRevoked, hRevoked', h.part.isRevoked]
  · intro epoch hLost
    unfold isPast
    rw [hLatest]
    exact h.part.past epoch hLost
  · intro epoch hLost
    have hCell := congrArg Prod.fst (cell_expireAll s hNamed' epoch)
    unfold cell at hCell
    rw [h.part.gone epoch hLost] at hCell
    exact hCell
  · intro epoch session hLost hSession
    have hCell := congrArg Prod.fst (cell_expireAll s hNamed epoch)
    unfold cell at hCell
    dsimp only at hCell
    rw [hSession] at hCell
    cases hBefore : w.part.epochs.get? epoch with
    | none =>
      rw [hBefore] at hCell
      cases hCell
    | some before =>
      -- it had ended before
      have hOver := h.part.outlived epoch before hLost hBefore
      rw [hBefore] at hCell
      unfold Cell.expire at hCell
      simp only [hOver.isActive, Bool.false_eq_true, if_false, Option.some.injEq] at hCell
      rw [hCell]
      exact hOver
  · intro id hId
    by_cases hOf : ∃ epoch, True ∧ id = ⟨own, peer, epoch, .inbound⟩
    · obtain ⟨epoch, -, rfl⟩ := hOf
      exact congrArg Prod.snd (hKept epoch hId)
    · have hFrame := (keeps_expireAll s hNamed).deadlines id hOf
      have hFrame' := (keeps_expireAll s hNamed').deadlines id hOf
      rw [hFrame, hFrame', h.deadlines id hId]
  · rw [hRandom, hRandom', h.random]

/-- An epoch above all earlier ones begins on both sides, and what was shed stays behind it. -/
theorem concur_beginEpoch {s : Setting} {P : Primitives} {sender : Peer} {e : Envelope}
    (h : Sheds s.own.deviceId sender.deviceId lost s.now w w')
    (hNamed : w.part.Named s.own.deviceId sender.deviceId)
    (hNamed' : w'.part.Named s.own.deviceId sender.deviceId)
    (hKept : ¬lost ⟨s.own.deviceId, sender.deviceId, e.epoch, .inbound⟩)
    (hAbove : w.part.isPast e.epoch = false) :
    Concur (Sheds s.own.deviceId sender.deviceId lost s.now) (beginEpoch P s sender e w)
      (beginEpoch P s sender e w') := by
  unfold beginEpoch
  split
  · exact ⟨rfl, h⟩
  split
  · exact ⟨rfl, h⟩
  rename_i session _ plaintext session' _
  have hAged := sheds_expireAll s h hNamed hNamed'
  have hInserted := hAged.part.insert hKept session'
  have hPast (epoch : UInt64) (hShed : lost ⟨s.own.deviceId, sender.deviceId, epoch, .inbound⟩) :
      epoch ≤ e.epoch := by
    obtain ⟨latest, hLatest, hLe⟩ := isPast_iff.1 (h.part.past epoch hShed)
    have hAbove : ¬e.epoch ≤ latest := by
      intro hBelow
      rw [isPast_iff.2 ⟨latest, hLatest, hBelow⟩] at hAbove
      cases hAbove
    exact UInt64.le_trans hLe (UInt64.le_of_lt (UInt64.not_le.1 hAbove))
  exact ⟨rfl, ⟨rfl, hInserted.isRevoked, hInserted.kept,
    fun epoch hShed => isPast_iff.2 ⟨e.epoch, rfl, hPast epoch hShed⟩, hInserted.gone,
    hInserted.outlived⟩, hAged.deadlines.schedule_both s.config.rotation session'.id s.now,
    hAged.random⟩

/-- **Both sides answer an envelope alike.** -/
theorem concur_decrypt {s : Setting} {P : Primitives} {sender : Peer}
    (h : Sheds s.own.deviceId sender.deviceId lost s.now w w')
    (hNamed : w.part.Named s.own.deviceId sender.deviceId)
    (hNamed' : w'.part.Named s.own.deviceId sender.deviceId) (e : Envelope) :
    Concur (Sheds s.own.deviceId sender.deviceId lost s.now) (decrypt P s sender e w)
      (decrypt P s sender e w') := by
  unfold decrypt
  rw [h.part.isRevoked]
  split
  · exact ⟨rfl, h⟩
  by_cases hLost : lost ⟨s.own.deviceId, sender.deviceId, e.epoch, .inbound⟩
  · -- an epoch that was shed is refused on both sides
    have hPast := h.part.past e.epoch hLost
    rw [h.part.gone e.epoch hLost]
    cases hKnown : w.part.epochs.get? e.epoch with
    | none =>
      simp only [h.part.isPast, hPast, if_true]
      exact ⟨rfl, h⟩
    | some session =>
      have hOver := Session.isOver_iff.1 (h.part.outlived e.epoch session hLost hKnown)
      unfold continueEpoch
      simp only [h.part.isPast, hPast, hOver, Bool.false_eq_true, if_false, if_true]
      refine ⟨rfl, h.drop_left hLost rfl ?_ rfl⟩
      rw [hNamed e.epoch session hKnown]
  · -- an epoch that was not shed has the same session on both sides
    rw [h.part.kept e.epoch hLost]
    cases hKnown : w.part.epochs.get? e.epoch with
    | some session =>
      unfold continueEpoch
      dsimp only
      split
      · split
        · exact ⟨rfl, h⟩
        · rename_i plaintext session' _
          exact ⟨rfl, h.part.insert hLost session', h.deadlines, h.random⟩
      · exact ⟨rfl, h.part.erase e.epoch, h.deadlines.remove_both session.id, h.random⟩
    | none =>
      dsimp only
      rw [h.part.isPast]
      split
      · exact ⟨rfl, h⟩
      rename_i hAbove
      rw [Bool.not_eq_true] at hAbove
      exact concur_beginEpoch h hNamed hNamed' hLost hAbove

/-- **An envelope that is refused** changes nothing, except that an epoch whose grace was over may
be dropped. -/
theorem refused_cases {s : Setting} {P : Primitives} {sender : Peer} {e : Envelope}
    {failure : Failure} (h : decrypt P s sender e w = (.error failure, w')) :
    w' = w ∨
      ∃ session, w.part.epochs.get? e.epoch = some session ∧ session.IsOver s.now ∧
        w' = { w with
          part := { w.part with epochs := w.part.epochs.erase e.epoch }
          deadlines := w.deadlines.remove session.id } := by
  unfold decrypt at h
  split at h
  · cases h
    exact .inl rfl
  split at h
  · -- an epoch that is kept loses its session exactly when this has run out
    rename_i session hKnown
    unfold continueEpoch at h
    split at h
    · split at h
      · cases h
        exact .inl rfl
      · cases h
    · rename_i hOver
      rw [Bool.not_eq_true] at hOver
      cases h
      exact .inr ⟨session, hKnown, Session.isOver_iff.2 hOver, rfl⟩
  · split at h
    · cases h
      exact .inl rfl
    -- an epoch that would begin is refused without a trace
    unfold beginEpoch at h
    split at h
    · cases h
      exact .inl rfl
    split at h
    · cases h
      exact .inl rfl
    · cases h

/-- The session that is shed when an envelope is refused, if there is one. -/
theorem sheds_refused {may : Prop} {s : Setting} {P : Primitives} {sender : Peer} {e : Envelope}
    {failure : Failure} (hSettled : Settled s.own.deviceId sender.deviceId may w)
    (h : decrypt P s sender e w = (.error failure, w')) :
    ∃ lost : SessionId → Prop,
      (∀ id, lost id → id.Of s.own.deviceId sender.deviceId .inbound) ∧
        Sheds s.own.deviceId sender.deviceId lost s.now w w' := by
  rcases refused_cases h with rfl | ⟨session, hKnown, hOver, rfl⟩
  · exact ⟨fun _ => False, fun _ h => h.elim, .refl _ _ fun _ h => h, .refl _, rfl⟩
  · have hHolds := hSettled.holds e.epoch session hKnown
    refine ⟨(· = session.id), ?_, .erase_right (fun other => ?_) hHolds.past hKnown hOver, ?_, rfl⟩
    · rintro id rfl
      exact ⟨e.epoch, hHolds.id⟩
    · rw [hHolds.id]
      simp
    · intro id hOther
      exact (Rotation.Deadlines.get?_remove ..).trans (if_neg hOther)

/-- **What is due for a session that both sides keep is done alike.** -/
theorem concur_applyInbound (h : Sheds own peer lost now w w') (hNamed : w.part.Named own peer)
    {id : SessionId} (hKept : ¬lost ⟨own, peer, id.epoch, .inbound⟩) (action : Rotation.DueAction) :
    Concur (Sheds own peer lost now) (Pairs.applyInbound s id action w)
      (Pairs.applyInbound s id action w') := by
  unfold Pairs.applyInbound
  cases action with
  | expire => exact concur_expire s h hNamed hKept
  | retire =>
    dsimp only
    rw [h.part.kept id.epoch hKept]
    split
    · rename_i session _
      exact ⟨rfl, h.part.erase id.epoch, h.deadlines.remove_both session.id, h.random⟩
    · exact ⟨rfl, h⟩

/-- What is due for a session that was shed on one side is done on the other. -/
theorem sheds_applyInbound_left (h : Sheds own peer lost now w w') (hNamed : w.part.Named own peer)
    {id : SessionId} (hLost : lost ⟨own, peer, id.epoch, .inbound⟩) (action : Rotation.DueAction) :
    Sheds own peer lost now (Pairs.applyInbound s id action w).2 w' := by
  unfold Pairs.applyInbound
  cases action with
  | expire =>
    dsimp only
    unfold expire
    split
    · rename_i session hSession
      rw [(h.part.outlived id.epoch session hLost hSession).isActive]
      exact h
    · exact h
  | retire =>
    dsimp only
    split
    · rename_i session hSession
      have hId := hNamed id.epoch session hSession
      refine h.drop_left hLost rfl ?_ rfl
      show w.deadlines.remove session.id = _
      rw [hId]
    · exact h

end Inbound

end EndToEnd
