import EndToEnd.Proofs.Bookkeeping
import Mathlib.Data.List.Chain

/-!
# The lifetimes of sessions

Between two operations a session shows its state and, once it has ended, its deadline
(`Device.sight`). Neither is kept under the id of the session: both are worked out from the side of
its pair, that is from the sessions that are kept there, the number of the next epoch or the latest
one, and what was asked for. Whatever an operation does to a side, each of its epochs, those that
were never used included, moves on from one state to a later one or stays where it is.

What no message is needed for is `Outbound.Lapses` and `Inbound.Wanes`: a session stays, ends or is
dropped. Besides, a message may begin one epoch on a sending side, and one on a receiving side.

Main results:

* `Outbound.retains_encrypt` — a message that could not be made leaves all sessions there.
* `Outbound.Settled.moves_of_makes`, `Inbound.Settled.moves_of_accepts` — a message.
* `Device.moves_step` — every operation.
* `Device.sessions_move_forward` — every run.
-/

namespace EndToEnd

-- ---------------------------------------------------------------------------
-- What is seen of a session
-- ---------------------------------------------------------------------------

/-- What is seen of a session. -/
structure Sight where
  state : SessionState
  /-- When the session is to be dropped, if it has ended. -/
  deadline : Option UInt64
  deriving DecidableEq, Repr

/-- The states that a session may move to. -/
def SessionState.next : Direction → SessionState → List SessionState
  | .outbound, noSession => [establishing, active, retired]
  | .inbound, noSession => [active, retired]
  | .outbound, establishing => [active, noSession]
  | .inbound, establishing => []
  | _, active => [expiring, retired]
  | _, expiring => [retired]
  | _, retired => []

namespace Sight

/-- From one look at a session to the next: nothing has changed, or the session has moved on. -/
def Moves (direction : Direction) (a b : Sight) : Prop :=
  b = a ∨ b.state ∈ a.state.next direction

instance (direction : Direction) (a b : Sight) : Decidable (Moves direction a b) :=
  inferInstanceAs (Decidable (_ ∨ _))

/-- From one look at a session to any later one: what was retired stays so, and what has ended keeps
its deadline until it is retired. -/
structure Abides (a b : Sight) : Prop where
  retired : a.state = .retired → b = a
  expiring : a.state = .expiring → b = a ∨ b.state = .retired

/-- What abides from look to look abides from the first to the last. -/
theorem Abides.trans {a b c : Sight} (h : a.Abides b) (h' : b.Abides c) : a.Abides c where
  retired hRetired := by
    obtain rfl := h.retired hRetired
    exact h'.retired hRetired
  expiring hEnded := by
    rcases h.expiring hEnded with rfl | hRetired
    · exact h'.expiring hEnded
    · rw [h'.retired hRetired]
      exact .inr hRetired

instance : Trans Abides Abides Abides := ⟨Abides.trans⟩

/-- A single move leaves what was retired, and the deadline of what has ended. -/
theorem Moves.abides {direction : Direction} {a b : Sight} (h : Moves direction a b) :
    a.Abides b := by
  rcases h with rfl | hNext
  · exact ⟨fun _ => rfl, fun _ => .inl rfl⟩
  · refine ⟨fun hRetired => ?_, fun hEnded => ?_⟩
    · rw [hRetired] at hNext
      cases direction <;> cases hNext
    · rw [hEnded] at hNext
      exact .inr (by cases direction <;> simpa [SessionState.next] using hNext)

end Sight

namespace Session

/-- What is seen of a session that is kept. -/
def sight (s : Session) : Sight := ⟨s.state, s.retireAt⟩

/-- A session keeps its epoch as it ages. -/
theorem Ages.epoch {s s' : Session} (h : s.Ages s') : s'.epoch = s.epoch := by
  rw [h.eq]
  rfl

/-- A session that ages is seen as it was, or moves from active to expiring. -/
theorem moves_of_ages {s s' : Session} (h : s.Ages s') (direction : Direction) :
    s.sight.Moves direction s'.sight := by
  rcases h with rfl | ⟨deadline, hActive, rfl⟩
  · exact .inl rfl
  · right
    show SessionState.expiring ∈ s.state.next direction
    unfold state
    rw [hActive]
    cases direction <;> simp [SessionState.next]

/-- A session that is kept may be dropped. -/
theorem moves_retired (s : Session) (direction : Direction) :
    s.sight.Moves direction ⟨.retired, none⟩ := by
  right
  show SessionState.retired ∈ s.state.next direction
  unfold state
  cases s.phase <;> cases direction <;> simp [SessionState.next]

/-- What is seen of a session does not show how far its chain has moved. -/
theorem sight_congr {s s' : Session} (h : s'.phase = s.phase) : s'.sight = s.sight := by
  unfold sight state retireAt
  rw [h]

/-- Opening an envelope neither ends a session nor moves its deadline. -/
theorem phase_of_decrypt {P : Primitives} {maxSkip : UInt64} {e : Envelope} {s s' : Session}
    {plaintext : Bytes} (h : s.decrypt P maxSkip e = .ok (plaintext, s')) : s'.phase = s.phase := by
  obtain ⟨-, -, -, -, -, -, rfl⟩ := decrypt_eq_ok_iff.1 h
  rfl

end Session

-- ---------------------------------------------------------------------------
-- Sending sides
-- ---------------------------------------------------------------------------

namespace Outbound

/-- The session of an epoch, if it is kept. -/
def kept? (o : Outbound) (epoch : UInt64) : Option Session := o.live.find? (·.epoch = epoch)

/-- What is seen of an epoch. -/
def sight (o : Outbound) (epoch : UInt64) : Sight :=
  ⟨o.stateOf epoch, (o.kept? epoch).bind (·.retireAt)⟩

/-- Of an epoch whose session is kept, the session is what is seen. -/
theorem sight_of_kept {o : Outbound} {epoch : UInt64} {s : Session} (h : o.kept? epoch = some s) :
    o.sight epoch = s.sight := by
  unfold sight stateOf
  rw [h]
  unfold kept? at h
  rw [h]
  rfl

/-- Of an epoch without a session, what is seen depends on the number of the next epoch and on
whether one is waited for. -/
theorem sight_of_not_kept {o : Outbound} {epoch : UInt64} (h : o.kept? epoch = none) :
    o.sight epoch = ⟨if epoch < o.nextEpoch then .retired
      else if epoch = o.nextEpoch ∧ o.requestedAt.isSome then .establishing else .noSession,
        none⟩ := by
  unfold sight stateOf
  rw [h]
  unfold kept? at h
  rw [h]
  rfl

/-- A session that is kept for an epoch is live and of this epoch. -/
theorem mem_of_kept {o : Outbound} {epoch : UInt64} {s : Session} (h : o.kept? epoch = some s) :
    s ∈ o.live ∧ s.epoch = epoch :=
  ⟨List.mem_of_find?_eq_some h, by simpa using List.find?_some h⟩

/-- A sending side on which nothing has begun: each session it has is one it had, and has at most
ended since. -/
structure Lapses (o o' : Outbound) : Prop where
  nextEpoch : o'.nextEpoch = o.nextEpoch
  kept : ∀ s' ∈ o'.live, ∃ s ∈ o.live, s.Ages s'

/-- A sending side on which nothing has begun and nothing was dropped. -/
structure Retains (o o' : Outbound) : Prop extends Lapses o o' where
  all : ∀ s ∈ o.live, ∃ s' ∈ o'.live, s.Ages s'

theorem Lapses.refl (o : Outbound) : o.Lapses o := ⟨rfl, fun s hs => ⟨s, hs, .refl s⟩⟩

/-- Nothing has begun in two stretches in which nothing has begun. -/
theorem Lapses.trans {o o' o'' : Outbound} (h : o.Lapses o') (h' : o'.Lapses o'') :
    o.Lapses o'' := by
  refine ⟨h'.nextEpoch.trans h.nextEpoch, fun s'' hs'' => ?_⟩
  obtain ⟨s', hs', hAges'⟩ := h'.kept s'' hs''
  obtain ⟨s, hs, hAges⟩ := h.kept s' hs'
  exact ⟨s, hs, hAges.trans hAges'⟩

/-- A side that has lost its sessions. -/
theorem Lapses.of_live_eq_nil {o o' : Outbound} (hNext : o'.nextEpoch = o.nextEpoch)
    (hLive : o'.live = []) : o.Lapses o' := by
  refine ⟨hNext, fun s' hs' => ?_⟩
  rw [hLive] at hs'
  cases hs'

/-- A side of which only the request is another. -/
theorem Retains.of_live_eq {o o' : Outbound} (hNext : o'.nextEpoch = o.nextEpoch)
    (hLive : o'.live = o.live) : o.Retains o' := by
  refine ⟨⟨hNext, fun s hs => ⟨s, ?_, .refl s⟩⟩, fun s hs => ⟨s, ?_, .refl s⟩⟩
  · exact hLive ▸ hs
  · exact hLive ▸ hs

theorem Retains.refl (o : Outbound) : o.Retains o := .of_live_eq rfl rfl

/-- Nothing was dropped in two stretches in which nothing was dropped. -/
theorem Retains.trans {o o' o'' : Outbound} (h : o.Retains o') (h' : o'.Retains o'') : o.Retains o'' := by
  refine ⟨h.toLapses.trans h'.toLapses, fun s hs => ?_⟩
  obtain ⟨s', hs', hAges⟩ := h.all s hs
  obtain ⟨s'', hs'', hAges'⟩ := h'.all s' hs'
  exact ⟨s'', hs'', hAges.trans hAges'⟩

variable (s : Setting)

/-- Asking for an establishment drops nothing. -/
theorem retains_request (now : UInt64) (o : Outbound) : o.Retains (o.request now).2 := by
  unfold request
  split
  · exact .refl o
  · exact .of_live_eq rfl rfl

theorem retains_timeOut (peer : String) (w : Work Outbound) :
    w.part.Retains (timeOut s peer w).part := .of_live_eq rfl rfl

/-- Ending the session that sends. -/
theorem retains_expireCurrent (w : Work Outbound) : w.part.Retains (expireCurrent s w).2.part := by
  unfold expireCurrent
  cases hCurrent : w.part.current with
  | none => exact .refl _
  | some session =>
    let ended := (w.expire s session).1
    have hAges : session.Ages ended := .expire ..
    -- the current session moves to the end of the past ones, and nothing else happens
    have hBefore : w.part.live = session :: w.part.expiring := by
      unfold live
      rw [hCurrent]
      rfl
    refine ⟨⟨rfl, fun t ht => ?_⟩, fun t ht => ?_⟩
    · have ht : t ∈ w.part.expiring ++ [ended] := ht
      rw [hBefore]
      rcases List.mem_append.1 ht with ht | ht
      · exact ⟨t, .tail _ ht, .refl t⟩
      · rw [List.mem_singleton.1 ht]
        exact ⟨session, .head _, hAges⟩
    · show ∃ t' ∈ w.part.expiring ++ [ended], t.Ages t'
      rw [hBefore] at ht
      rcases List.mem_cons.1 ht with rfl | ht
      · exact ⟨ended, by simp, hAges⟩
      · exact ⟨t, List.mem_append_left _ ht, .refl t⟩

/-- A rotation ends the session in use and keeps it. -/
theorem retains_rotate (peer : String) (reason : Rotation.Reason) (w : Work Outbound) :
    w.part.Retains (rotate s peer reason w).2.part := by
  have h := retains_expireCurrent s w
  unfold rotate
  split <;> simp_all

/-- A rotation that is due drops nothing. -/
theorem retains_rotateIfDue (peer : String) (level : Level) (w : Work Outbound) :
    w.part.Retains (rotateIfDue s peer level w).part := by
  unfold rotateIfDue
  split
  · exact retains_rotate ..
  · exact .refl _

/-- What is due for a session that sends begins nothing. -/
theorem lapses_applyOutbound (id : SessionId) (action : Rotation.DueAction) (w : Work Outbound) :
    w.part.Lapses (Pairs.applyOutbound s id action w).2.part := by
  unfold Pairs.applyOutbound
  split
  · split
    · exact (retains_rotate ..).toLapses
    · exact .refl _
  · split
    · -- one that has ended is dropped
      refine ⟨rfl, fun t ht => ⟨t, ?_, .refl t⟩⟩
      rcases List.mem_append.1 ht with ht | ht
      · exact List.mem_append_left _ ht
      · exact List.mem_append_right _ (List.mem_of_mem_eraseP ht)
    · exact .refl _

variable {P : Primitives} {s}

/-- **A message that could not be made** leaves the sessions as they were, or as the rotation before
it did. -/
theorem live_of_encrypt_error {peer : Peer} {level : Level} {plaintext : Bytes}
    {w w' : Work Outbound} {failure : Failure}
    (h : encrypt P s peer level plaintext w = (.error failure, w')) :
    ∃ o, (o = w.part ∨ o = (rotateIfDue s peer.deviceId level w).part) ∧
      w'.part.nextEpoch = o.nextEpoch ∧ w'.part.live = o.live := by
  -- held back before anything was touched
  by_cases hBarred : w.part.isRevoked = true
  · unfold encrypt at h
    rw [if_pos hBarred] at h
    cases h
    exact ⟨_, .inl rfl, rfl, rfl⟩
  -- given up before anything was touched
  by_cases hTimedOut : w.part.hasTimedOut s = true
  · unfold encrypt at h
    rw [if_neg hBarred, if_pos hTimedOut] at h
    cases h
    exact ⟨_, .inl rfl, rfl, rfl⟩
  rw [Bool.not_eq_true] at hBarred hTimedOut
  rw [encrypt_eq_encryptWith hBarred hTimedOut] at h
  refine ⟨_, .inr rfl, ?_⟩
  generalize rotateIfDue s peer.deviceId level w = w₁ at h ⊢
  unfold ready at h
  cases hCurrent : w₁.part.current with
  | some session =>
    -- the chain of the session is at its end
    rw [hCurrent] at h
    dsimp only [encryptWith] at h
    split at h
    · cases h
      exact ⟨rfl, rfl⟩
    · cases h
  -- no session to send with, so one is to begin
  | none =>
    rw [hCurrent] at h
    dsimp only at h
    rcases hBegun : establish P s peer level w₁ with ⟨result, w₂⟩
    rw [hBegun] at h
    rcases establish_cases hBegun with ⟨failure', rfl, hPart⟩ | ⟨session, rfl, ⟨ephemeral, hStart⟩, -⟩
    · cases h
      rw [hPart]
      exact ⟨rfl, rfl⟩
    · -- a session that has just begun has a key for the message
      obtain ⟨keys, -, hSession⟩ := beginSession_eq_ok hStart
      have hNext : session.ratchet.next ≠ UInt64.ofNat (UInt64.size - 1) := by
        rw [hSession]
        show (1 : UInt64) ≠ _
        decide
      obtain ⟨e, session', random', hMade⟩ :=
        Session.exists_encrypt_eq_ok P s.own plaintext w₂.random hNext
      dsimp only [encryptWith] at h
      rw [hMade] at h
      cases h

/-- All sessions are there behind a message that could not be made, one of which may have ended. -/
theorem retains_encrypt {peer : Peer} {level : Level} {plaintext : Bytes} {w w' : Work Outbound}
    {failure : Failure} (h : encrypt P s peer level plaintext w = (.error failure, w')) :
    w.part.Retains w'.part := by
  obtain ⟨o, rfl | rfl, hNext, hLive⟩ := live_of_encrypt_error h
  · exact .of_live_eq hNext hLive
  · exact (retains_rotateIfDue s peer.deviceId level w).trans (.of_live_eq hNext hLive)

-- ---------------------------------------------------------------------------
-- Sending sides move forward
-- ---------------------------------------------------------------------------

variable {own peer : String} {may : Prop} {w : Work Outbound} {o' : Outbound}

/-- A session that is kept is the one of its epoch, and this lies behind. -/
theorem Settled.kept?_of_mem (h : Settled own peer may w) {t : Session} (ht : t ∈ w.part.live) :
    w.part.kept? t.epoch = some t ∧ t.epoch.toNat + 1 = w.part.nextEpoch.toNat := by
  rcases h.only with hNone | ⟨session, hOnly, hLast, -⟩
  · rw [hNone] at ht
    cases ht
  · rw [hOnly] at ht
    obtain rfl := List.mem_singleton.1 ht
    refine ⟨?_, hLast⟩
    unfold kept?
    rw [hOnly]
    simp

/-- **Where nothing has begun,** every epoch moves on or stays where it is. -/
theorem Settled.moves_of_lapses (h : Settled own peer may w) (hLapses : w.part.Lapses o')
    (epoch : UInt64) : (w.part.sight epoch).Moves .outbound (o'.sight epoch) := by
  cases hAfter : o'.kept? epoch with
  | some t' =>
    obtain ⟨hMem, rfl⟩ := mem_of_kept hAfter
    obtain ⟨t, ht, hAges⟩ := hLapses.kept t' hMem
    have hBefore := (h.kept?_of_mem ht).1
    rw [← hAges.epoch] at hBefore
    rw [sight_of_kept hAfter, sight_of_kept hBefore]
    exact Session.moves_of_ages hAges _
  | none =>
    rw [sight_of_not_kept hAfter, hLapses.nextEpoch]
    cases hBefore : w.part.kept? epoch with
    | some t =>
      -- the session was dropped
      obtain ⟨hMem, rfl⟩ := mem_of_kept hBefore
      have hLast := (h.kept?_of_mem hMem).2
      have hBehind : t.epoch < w.part.nextEpoch := by
        rw [UInt64.lt_iff_toNat_lt]
        omega
      rw [sight_of_kept hBefore, if_pos hBehind]
      exact t.moves_retired _
    | none =>
      -- an epoch without a session may be asked for, and given up
      rw [sight_of_not_kept hBefore]
      unfold Sight.Moves
      split
      · exact .inl rfl
      · split <;> split <;> simp [SessionState.next]

/-- **A message to a peer** is one of its session, and nothing is seen of it, or it begins the next
epoch. -/
theorem Settled.moves_of_makes (h : Settled own peer may w) {record : Peer} {level : Level}
    {plaintext : Bytes} {e : Envelope} (hMakes : Makes P s record level plaintext w.part e o')
    (hReturns : w.part.nextEpoch ≤ o'.nextEpoch) (epoch : UInt64) :
    (w.part.sight epoch).Moves .outbound (o'.sight epoch) := by
  cases hMakes with
  | @continues session session' random random' current fits made =>
    obtain ⟨-, hMoved, -⟩ := Session.encrypt_cases made
    have hEpoch : session'.epoch = session.epoch := by rw [hMoved]; rfl
    have hSight : session'.sight = session.sight := Session.sight_congr (by rw [hMoved])
    -- the session that goes on is the only one
    have hOnly : w.part.live = [session] := by
      cases h with
      | sends sends current' expiring =>
        rw [current] at current'
        cases current'
        unfold live
        rw [current, expiring]
        rfl
      | idle current' => rw [current] at current'; cases current'
      | ended ended deadline current' => rw [current] at current'; cases current'
    have hOnly' : ({ w.part with current := some session' } : Outbound).live = [session'] := by
      unfold live at hOnly ⊢
      rw [current] at hOnly
      simpa using hOnly
    -- nothing is seen to change: the session keeps its place and its state
    left
    by_cases hThis : session.epoch = epoch
    · have hBefore : w.part.kept? epoch = some session := by simp [kept?, hOnly, hThis]
      rw [sight_of_kept hBefore, ← hSight]
      refine sight_of_kept ?_
      simp [kept?, hOnly', hEpoch, hThis]
    · rw [sight_of_not_kept (o := w.part) (by simp [kept?, hOnly, hThis])]
      exact sight_of_not_kept (by simp [kept?, hOnly', hEpoch, hThis])
  | @begins session session' ephemeral random random' begun made =>
    obtain ⟨-, hMoved, -⟩ := Session.encrypt_cases made
    obtain ⟨keys, -, hBegin⟩ := beginSession_eq_ok begun
    have hEpoch : session'.epoch = w.part.nextEpoch := by rw [hMoved, hBegin]; rfl
    have hSight : session'.sight = ⟨.active, none⟩ := by rw [hMoved, hBegin]; rfl
    -- the counter does not wrap, so the epoch that begins was not used before
    have hNext : (w.part.nextEpoch + 1).toNat = w.part.nextEpoch.toNat + 1 := by
      have hLater := UInt64.le_iff_toNat_le.1 hReturns
      have hSize := w.part.nextEpoch.toNat_lt
      have hOne : (1 : UInt64).toNat = 1 := rfl
      rw [UInt64.toNat_add] at hLater ⊢
      omega
    have hUnused : w.part.kept? w.part.nextEpoch = none := by
      refine Option.eq_none_iff_forall_ne_some.2 fun t ht => ?_
      obtain ⟨hMem, hSame⟩ := mem_of_kept ht
      have hLast := (h.kept?_of_mem hMem).2
      rw [hSame] at hLast
      omega
    -- behind the message only the session of the new epoch is there
    generalize hAfter : { w.part with
      current := some session', expiring := [], nextEpoch := w.part.nextEpoch + 1,
      requestedAt := none } = o'
    have hKept (other : UInt64) : o'.kept? other =
        if w.part.nextEpoch = other then some session' else none := by
      rw [← hAfter]
      simp [kept?, live, hEpoch]
    by_cases hThis : w.part.nextEpoch = epoch
    · -- the epoch that begins
      subst hThis
      rw [sight_of_kept ((hKept _).trans (if_pos rfl)), sight_of_not_kept hUnused, hSight,
        if_neg (UInt64.lt_irrefl _)]
      right
      split <;> simp [SessionState.next]
    · -- an epoch other than the one that begins
      have hGone : o'.kept? epoch = none := (hKept epoch).trans (if_neg hThis)
      have hNext' : o'.nextEpoch = w.part.nextEpoch + 1 := by rw [← hAfter]
      have hAsked : o'.requestedAt = none := by rw [← hAfter]
      have hBehind : epoch < w.part.nextEpoch + 1 ↔ epoch < w.part.nextEpoch := by
        have hOther : epoch.toNat ≠ w.part.nextEpoch.toNat :=
          fun hSame => hThis (UInt64.toNat_inj.1 hSame).symm
        rw [UInt64.lt_iff_toNat_lt, UInt64.lt_iff_toNat_lt, hNext]
        omega
      rw [sight_of_not_kept hGone, hNext', hAsked]
      simp only [hBehind, Option.isSome_none, Bool.false_eq_true, and_false, if_false]
      cases hBefore : w.part.kept? epoch with
      | some t =>
        -- the session that was there is superseded
        obtain ⟨hMem, rfl⟩ := mem_of_kept hBefore
        have hLast := (h.kept?_of_mem hMem).2
        have hPast : t.epoch < w.part.nextEpoch := by
          rw [UInt64.lt_iff_toNat_lt]
          omega
        rw [sight_of_kept hBefore, if_pos hPast]
        exact t.moves_retired _
      | none =>
        -- nothing was there, and nothing is seen to come
        rw [sight_of_not_kept hBefore]
        simp only [Ne.symm hThis, false_and, if_false]
        exact .inl rfl

end Outbound

-- ---------------------------------------------------------------------------
-- Receiving sides
-- ---------------------------------------------------------------------------

namespace Inbound

/-- What is seen of an epoch. -/
def sight (i : Inbound) (epoch : UInt64) : Sight :=
  ⟨i.stateOf epoch, (i.epochs.get? epoch).bind (·.retireAt)⟩

variable {i : Inbound} {epoch : UInt64}

/-- Of an epoch whose session is kept, the session is what is seen. -/
theorem sight_of_kept {s : Session} (h : i.epochs.get? epoch = some s) :
    i.sight epoch = s.sight := by
  unfold sight stateOf
  rw [h]
  rfl

/-- Of an epoch without a session, what is seen depends on the epochs that were accepted. -/
theorem sight_of_not_kept (h : i.epochs.get? epoch = none) :
    i.sight epoch = ⟨if i.isPast epoch then .retired else .noSession, none⟩ := by
  unfold sight stateOf
  rw [h]
  rfl

variable {P : Primitives} {s : Setting} {own peer : String} {may barring : Prop} {w : Work Inbound}
  {i' : Inbound}

/-- **Where nothing was accepted,** every epoch moves on or stays where it is. -/
theorem Settled.moves_of_wanes (h : Settled own peer may w) (hWanes : Wanes barring w.part i')
    (epoch : UInt64) : (w.part.sight epoch).Moves .inbound (i'.sight epoch) := by
  cases hAfter : i'.epochs.get? epoch with
  | some t' =>
    obtain ⟨t, hBefore, hAges⟩ := hWanes.kept epoch t' hAfter
    rw [sight_of_kept hAfter, sight_of_kept hBefore]
    exact Session.moves_of_ages hAges _
  | none =>
    have hPast : i'.isPast epoch = w.part.isPast epoch := by
      unfold isPast
      rw [hWanes.latest]
    rw [sight_of_not_kept hAfter, hPast]
    cases hBefore : w.part.epochs.get? epoch with
    | some t =>
      rw [sight_of_kept hBefore, if_pos (h.holds epoch t hBefore).past]
      exact t.moves_retired _
    | none =>
      rw [sight_of_not_kept hBefore]
      exact .inl rfl

/-- **An accepted message** is one of an epoch that is kept, and nothing is seen of it, or it begins
its epoch. Those in between are then skipped. -/
theorem Settled.moves_of_accepts (h : Settled own peer may w) {sender : Peer} {e : Envelope}
    {plaintext : Bytes} (hAccepts : Accepts P s sender e plaintext w.part i') (epoch : UInt64) :
    (w.part.sight epoch).Moves .inbound (i'.sight epoch) := by
  cases hAccepts with
  | @continues session session' known readable opened =>
    -- opening an envelope shows nothing of a session
    have hSight : session'.sight = session.sight :=
      Session.sight_congr (Session.phase_of_decrypt opened)
    have hKept (other : UInt64) :
        ({ w.part with epochs := w.part.epochs.insert e.epoch session' } : Inbound).epochs.get?
            other = if other = e.epoch then some session' else w.part.epochs.get? other :=
      Table.get?_insert ..
    -- of no epoch anything is seen to change
    left
    by_cases hThis : epoch = e.epoch
    · subst hThis
      rw [sight_of_kept ((hKept _).trans (if_pos rfl)), sight_of_kept known, hSight]
    · have hSame := (hKept epoch).trans (if_neg hThis)
      cases hBefore : w.part.epochs.get? epoch with
      | some t =>
        rw [sight_of_kept (hSame.trans hBefore), sight_of_kept hBefore]
      | none =>
        rw [sight_of_not_kept (hSame.trans hBefore), sight_of_not_kept hBefore]
        rfl
  | @begins session session' aged unknown above begun opened wanes =>
    obtain ⟨-, hActive, -⟩ := beginSession_eq_ok begun
    have hSight : session'.sight = ⟨.active, none⟩ := by
      unfold Session.sight Session.state Session.retireAt
      rw [Session.phase_of_decrypt opened, hActive]
    generalize hAfter : { aged with
      epochs := aged.epochs.insert e.epoch session', latest := some e.epoch } = i'
    -- behind the message there are the new session and the ones that were there, aged
    have hKept (other : UInt64) : i'.epochs.get? other =
        if other = e.epoch then some session' else aged.epochs.get? other := by
      rw [← hAfter]
      exact Table.get?_insert ..
    have hPast (other : UInt64) : i'.isPast other = decide (other ≤ e.epoch) := by
      rw [← hAfter]
      rfl
    by_cases hThis : epoch = e.epoch
    · -- the epoch that begins
      subst hThis
      rw [sight_of_kept ((hKept _).trans (if_pos rfl)), sight_of_not_kept unknown, hSight, above]
      right
      simp [SessionState.next]
    · -- an epoch other than the one that begins
      cases hLater : aged.epochs.get? epoch with
      | some t' =>
        obtain ⟨t, hBefore, hAges⟩ := wanes.kept epoch t' hLater
        rw [sight_of_kept (((hKept epoch).trans (if_neg hThis)).trans hLater),
          sight_of_kept hBefore]
        exact Session.moves_of_ages hAges _
      | none =>
        -- whatever lay behind before still lies behind
        have hStill : w.part.isPast epoch = true → i'.isPast epoch = true := by
          intro hBehind
          obtain ⟨latest, hLatest, hLe⟩ := isPast_iff.1 hBehind
          have hAbove : ¬e.epoch ≤ latest := by simpa [isPast, hLatest] using above
          rw [hPast, decide_eq_true_eq]
          rw [UInt64.le_iff_toNat_le] at hLe hAbove ⊢
          omega
        rw [sight_of_not_kept (((hKept epoch).trans (if_neg hThis)).trans hLater)]
        cases hBefore : w.part.epochs.get? epoch with
        | some t =>
          -- a session that was there is superseded
          rw [sight_of_kept hBefore, if_pos (hStill (h.holds epoch t hBefore).past)]
          exact t.moves_retired _
        | none =>
          rw [sight_of_not_kept hBefore]
          -- nothing was there: the epoch lies behind now, or did before
          by_cases hBehind : w.part.isPast epoch = true
          · rw [if_pos hBehind, if_pos (hStill hBehind)]
            exact .inl rfl
          · rw [if_neg hBehind]
            split
            · exact .inr (by simp [SessionState.next])
            · exact .inl rfl

end Inbound

-- ---------------------------------------------------------------------------
-- All sides
-- ---------------------------------------------------------------------------

namespace Pairs

/-- What is seen of a session. -/
def sight (p : Pairs) (id : SessionId) : Sight :=
  match id.direction with
  | .outbound => (p.sending id.peer).sight id.epoch
  | .inbound => (p.receiving id.peer).sight id.epoch

/-- No sending side has begun anything. -/
def Lapses (p p' : Pairs) : Prop := ∀ peer, (p.sending peer).Lapses (p'.sending peer)

theorem Lapses.refl (p : Pairs) : p.Lapses p := fun _ => .refl _

/-- Nothing has begun with any peer in two stretches. -/
theorem Lapses.trans {p p' p'' : Pairs} (h : p.Lapses p') (h' : p'.Lapses p'') : p.Lapses p'' :=
  fun peer => (h peer).trans (h' peer)

/-- Work on one sending side that begins nothing there begins nothing anywhere. -/
theorem Lapses.onOutbound {α : Type} {peer : String} {op : Work Outbound → α × Work Outbound}
    {w : Work Pairs} (h : ∀ v : Work Outbound, v.part.Lapses (op v).2.part) :
    w.part.Lapses (onOutbound peer op w).2.part := by
  intro other
  rw [sending_onOutbound]
  split
  · rename_i hOther
    subst hOther
    exact h (w.withPart (w.part.sending other))
  · exact .refl _

/-- Likewise where the sending side has to be there. -/
theorem Lapses.onExistingOutbound {α : Type} {peer : String} {otherwise : α}
    {op : Work Outbound → α × Work Outbound} {w : Work Pairs}
    (h : ∀ v : Work Outbound, v.part.Lapses (op v).2.part) :
    w.part.Lapses (onExistingOutbound peer otherwise op w).2.part := by
  unfold Pairs.onExistingOutbound
  split
  · exact .onOutbound h
  · exact .refl _

/-- Dropping the sessions with a peer begins nothing. -/
theorem Drops.lapses {peer : String} {barred : Bool} {w w' : Work Pairs}
    (h : Drops peer barred w w') : w.part.Lapses w'.part := by
  intro other
  rw [h.sending]
  split
  · rename_i hOther
    subst hOther
    exact .of_live_eq_nil rfl rfl
  · exact .refl _

variable (s : Setting)

/-- Giving up an establishment begins nothing. -/
theorem lapses_checkEstablishment (peer : String) (w : Work Pairs) :
    w.part.Lapses (checkEstablishment s peer w).2.part := by
  refine .onExistingOutbound fun v => ?_
  split
  · exact (Outbound.retains_timeOut ..).toLapses
  · exact .refl _

/-- What is due for a session begins nothing. -/
theorem lapses_applyDue (r : SweepReport) (w : Work Pairs) (id : SessionId)
    (action : Rotation.DueAction) : w.part.Lapses (applyDue s r w id action).2.part := by
  obtain ⟨w', hDone, hResult⟩ := applyDue_cases s r w id action
  have hLapses : w.part.Lapses w'.part := by
    rcases hDone with ⟨-, rfl⟩ | ⟨-, rfl⟩
    · exact .onExistingOutbound fun v => Outbound.lapses_applyOutbound s id action v
    · -- a receiving side is another
      unfold Pairs.onExistingInbound
      split
      · exact fun other => (sending_onInbound id.peer other _ w).symm ▸ .refl _
      · exact .refl _
  rcases hResult with hSame | hForgotten
  · rw [hSame]
    exact hLapses
  · rw [hForgotten]
    exact hLapses

/-- A whole sweep begins nothing. -/
theorem lapses_sweep (w : Work Pairs) : w.part.Lapses (sweep s w).2.part := by
  have hChecked (r : SweepReport) (w : Work Pairs) (peer : String) :
      w.part.Lapses (sweepEstablishment s r w peer).2.part := by
    have hCheck := lapses_checkEstablishment s peer w
    unfold sweepEstablishment
    split <;> simpa only [‹checkEstablishment s peer w = _›] using hCheck
  -- first what is due, then the establishments
  unfold sweep
  refine List.foldlRecOn (motive := fun x : SweepReport × Work Pairs => w.part.Lapses x.2.part)
    _ _ ?_ fun x hx peer _ => hx.trans (hChecked x.1 x.2 peer)
  exact List.foldlRecOn (motive := fun x : SweepReport × Work Pairs => w.part.Lapses x.2.part)
    _ _ (.refl _) fun x hx d _ => hx.trans (lapses_applyDue s x.1 x.2 d.1 d.2)

/-- **An operation that handles no message** begins nothing. -/
theorem Calm.lapses {s : Setting} {barring : String → Prop} {closing : Prop} {w w' : Work Pairs}
    (h : Calm s barring closing w w') : w.part.Lapses w'.part := by
  cases h with
  | nothing => exact .refl _
  | request peer => exact .onOutbound fun v => (Outbound.retains_request s.now v.part).toLapses
  | checkEstablishment peer => exact lapses_checkEstablishment s peer w
  | rotate peer => exact .onExistingOutbound fun v => (Outbound.retains_expireCurrent s v).toLapses
  | shutdown =>
    unfold Pairs.shutdown
    exact List.foldlRecOn (motive := fun x : Nat × Work Pairs => w.part.Lapses x.2.part)
      _ _ (.refl _) fun x hx peer _ => hx.trans (drops_retire s "shutdown" peer x.2).2.lapses
  | sweep => exact lapses_sweep s w
  | revoke peer => exact (drops_revoke s peer w).2.lapses

theorem Calm.mono {s : Setting} {barring : String → Prop} {closing closing' : Prop}
    {w w' : Work Pairs} (h : Calm s barring closing w w') (hImp : closing → closing') :
    Calm s barring closing' w w' := by
  cases h with
  | nothing => exact .nothing
  | request peer => exact .request peer
  | checkEstablishment peer => exact .checkEstablishment peer
  | rotate peer => exact .rotate peer
  | shutdown hClosing => exact .shutdown (hImp hClosing)
  | sweep => exact .sweep
  | revoke peer hBarring => exact .revoke peer hBarring

end Pairs

-- ---------------------------------------------------------------------------
-- Devices
-- ---------------------------------------------------------------------------

namespace Device

variable {P : Primitives} {d start : Device} {may : String → Prop} {history : History}

/-- What is seen of a session of a device. -/
def sight (d : Device) (id : SessionId) : Sight := d.pairs.sight id

/-- The state that is seen is the one that the device answers when it is asked. -/
theorem state_sight (d : Device) (id : SessionId) : (d.sight id).state = d.pairs.stateOf id := by
  rw [Pairs.stateOf_eq]
  unfold sight Pairs.sight
  cases id.direction <;> rfl

/-- **What an operation does to a sending side:** work that handles no message, or the encryption of
one for the peer. -/
theorem works_step (hFiled : d.contacts.Filed) (op : Operation) (peer : String) :
    (∃ w, Pairs.Calm (d.setting (op.time d.now))
        (fun other => (d.step P op).2.isRevoked other = true) (op = .shutdown) d.work w ∧
        (d.step P op).2.pairs.sending peer = w.part.sending peer) ∨
      ∃ level plaintext record, op = .send peer level plaintext ∧
        record.deviceId = peer ∧
        (d.step P op).2.pairs.sending peer = (Outbound.encrypt P (d.setting d.now) record level
          plaintext (d.work.withPart (d.pairs.sending peer))).2.part := by
  -- a call that handles no message leaves the side alone, or ages it
  by_cases hMessage : op.handlesMessage = false
  · obtain ⟨-, w, hCalm, hPairs, -⟩ := calms_step (P := P) d op hMessage
    exact .inl ⟨w, hCalm, by rw [hPairs]⟩
  cases op with
  -- an envelope moves a receiving side only
  | receive bytes =>
    refine .inl ⟨d.work, .nothing, ?_⟩
    show (d.receive P bytes).2.pairs.sending peer = _
    rcases receive_cases (d.receive P bytes).eta.symm with
      ⟨-, -, log, hLog⟩ | ⟨e, sender, opened, w, -, -, hw, -, ⟨hPairs, -⟩, -⟩
    · rw [hLog]
      rfl
    · obtain rfl : _ = w := congrArg Prod.snd hw
      rw [hPairs, Pairs.sending_decrypt]
  | send other level plaintext =>
    rcases send_cases (d.send P other level plaintext).eta.symm with
      ⟨-, -, -, w, hCalm, hPairs, -⟩ | ⟨record, made, w, hRecord, -, hw, -, ⟨hPairs, -⟩, -⟩
    · exact .inl ⟨w, hCalm.mono False.elim, congrArg (·.sending peer) hPairs⟩
    · have hId : record.deviceId = other := hFiled other record hRecord
      have hSide := Pairs.sending_encrypt (d.setting d.now) P record level plaintext d.work peer
      rw [hw, hId, ← hPairs] at hSide
      by_cases hPeer : peer = other
      · -- the side that the message goes out from
        subst hPeer
        rw [if_pos rfl] at hSide
        exact .inr ⟨level, plaintext, record, rfl, hId, hSide⟩
      · rw [if_neg hPeer] at hSide
        exact .inl ⟨d.work, .nothing, hSide⟩
  | _ => exact absurd rfl hMessage

/-- **What an operation begins on a sending side:** nothing, unless it makes an envelope for the
peer. -/
theorem lapses_step (hFiled : d.contacts.Filed) (op : Operation) (peer : String) :
    (d.pairs.sending peer).Lapses ((d.step P op).2.pairs.sending peer) ∨
      ∃ level plaintext record e, op = .send peer level plaintext ∧
        Outbound.Makes P (d.setting d.now) record level plaintext (d.pairs.sending peer) e
          ((d.step P op).2.pairs.sending peer) := by
  rcases works_step (P := P) hFiled op peer with
    ⟨w, hCalm, hSide⟩ | ⟨level, plaintext, record, rfl, -, hSide⟩
  · rw [hSide]
    exact .inl (hCalm.lapses peer)
  rw [hSide]
  rcases hMade : Outbound.encrypt P (d.setting d.now) record level plaintext
    (d.work.withPart (d.pairs.sending peer)) with ⟨result, w⟩
  rcases Outbound.encrypt_cases hMade with ⟨failure, rfl, -⟩ | ⟨e, rfl, -, hMakes⟩
  · exact .inl (Outbound.retains_encrypt hMade).toLapses
  · exact .inr ⟨level, plaintext, record, e, rfl, hMakes⟩

/-- **Every operation that returns** moves every session on or leaves it where it is. -/
theorem moves_step (hFiled : d.contacts.Filed) (h : d.Settled may) (op : Operation)
    (hReturns : overruns P d op = false) (id : SessionId) :
    (d.sight id).Moves id.direction ((d.step P op).2.sight id) := by
  unfold sight Pairs.sight
  cases id.direction with
  | outbound =>
    have hSide := h.sending id.peer
    rcases lapses_step (P := P) hFiled op id.peer with
      hLapses | ⟨level, plaintext, record, e, rfl, hMakes⟩
    · exact hSide.moves_of_lapses hLapses id.epoch
    · exact hSide.moves_of_makes hMakes (nextEpoch_le_send hFiled hReturns) id.epoch
  | inbound =>
    have hSide := h.receiving id.peer
    rcases receiving_step (P := P) d op id.peer with
      ⟨-, hWanes⟩ | ⟨bytes, e, sender, plaintext, -, -, hTakes⟩
    · exact hSide.moves_of_wanes hWanes id.epoch
    · exact hSide.moves_of_accepts hTakes.accepts id.epoch

/-- The devices between some operations, from the one before the first to the one behind the last. -/
def stations (P : Primitives) (d : Device) : List Operation → List Device
  | [] => [d]
  | op :: rest => d :: stations P (step P d op).2 rest

/-- The first station is where the device is before anything is asked. -/
theorem head?_stations (d : Device) (ops : List Operation) : (stations P d ops).head? = some d := by
  cases ops <;> rfl

/-- **Between stations every session moves as it may,** or is seen as it was. -/
theorem isChain_stations (hFiled : d.contacts.Filed) (h : d.Settled fun _ => True)
    {ops : List Operation} (hReturns : allReturn P d ops = true) (id : SessionId) :
    ((stations P d ops).map (·.sight id)).IsChain (Sight.Moves id.direction) := by
  induction ops generalizing d with
  | nil => exact .singleton _
  | cons op rest ih =>
    simp only [allReturn, Bool.and_eq_true, Bool.not_eq_true'] at hReturns
    obtain ⟨hFirst, hRest⟩ := hReturns
    have hSettled := settled_step hFiled h (fun _ _ _ _ => trivial) op hFirst
    have hNext := ih ((evolves_step d op).filed hFiled) hSettled hRest
    refine List.isChain_cons.2 ⟨fun sight hSight => ?_, hNext⟩
    rw [List.head?_map, head?_stations] at hSight
    cases hSight
    exact moves_step hFiled h op hFirst id

/-- **Sessions only move forward.** A device was created or restored, and is asked anything that
returns. Then every session that an id can name, seen between the operations, goes

* from none to establishing, active or retired, from establishing to active or none, from active to
  expiring or retired, and from expiring to retired, if it sends;
* from none to active or retired, from active to expiring or retired, and from expiring to retired,
  if it receives;

or is seen as it was before. What was once retired is never seen otherwise again, and what was once
expiring has the same deadline until it is retired.

What is asked returns: no counter passes `2 ^ 64 - 1`. -/
theorem sessions_move_forward (hStart : Starts P start) {ops : List Operation}
    (hReturns : allReturn P start ops = true) (id : SessionId) :
    ((stations P start ops).map (·.sight id)).IsChain (Sight.Moves id.direction) ∧
      ((stations P start ops).map (·.sight id)).Pairwise Sight.Abides ∧
      ∀ d ∈ stations P start ops, (d.sight id).state = d.pairs.stateOf id := by
  have hMoves := isChain_stations hStart.filed hStart.settled hReturns id
  exact ⟨hMoves, List.isChain_iff_pairwise.1 (hMoves.imp fun _ _ h => h.abides),
    fun d _ => d.state_sight id⟩

/-- Bob asks for a session with Ann and writes to her in it. He ends it, sweeps before its grace has
passed, writes at another level in the session that follows, and ends that one too. -/
def lifetimeOps : List Operation :=
  [meetPlain "ann" 1, .request "ann", .send "ann" .basic [3], .rotate "ann", .maintain 5,
    .send "ann" .military [4], .rotate "ann"]

/-- What is seen of the first session while this is done. -/
theorem sessions_move_forward_of_lifetimeOps :
    let id : SessionId := ⟨"bob", "ann", 0, .outbound⟩
    let seen := (stations .plain (plain .standard "bob" 3) lifetimeOps).map (·.sight id)
    seen.map (·.state) = [.noSession, .noSession, .establishing, .active, .expiring, .expiring,
        .retired, .retired] ∧
      seen.IsChain (Sight.Moves .outbound) ∧ seen.Pairwise Sight.Abides ∧
      ∀ d ∈ stations .plain (plain .standard "bob" 3) lifetimeOps,
        (d.sight id).state = d.pairs.stateOf id :=
  ⟨by decide +kernel,
    sessions_move_forward (plain_starts "bob" 3 rfl) (by decide +kernel) ⟨"bob", "ann", 0, .outbound⟩⟩

end Device

end EndToEnd
