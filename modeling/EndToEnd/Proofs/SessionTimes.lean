import EndToEnd.Proofs.Endings
import EndToEnd.Proofs.Establishments

/-!
# Since when

What is seen of a device between its operations says since when: since when a session is kept, since
when it has ended, and since when an establishment is waited for (`Device.seenSince`). What the
device itself has of this is the time at which a session began, the deadline of one that has ended,
and the time of the first request. The two agree in every state of a run. Above all, an ended session
has the deadline that its grace had when it ended, whatever was done since, and no other one.

Main results:

* `Pairs.Calm.turns`, `Outbound.Settled.turns_of_encrypt` — what an operation does to the sessions of
  a sending side.
* `Device.goes_step` — what becomes of each session.
* `Device.seenSince_keeps`, `Device.seenSince_hasEnded`, `Device.seenSince_waits` — since when.
-/

namespace EndToEnd

/-- Without a deadline in the index, the grace begins now. -/
theorem Rotation.Deadlines.retirement_of_active {p : Policy} {t : Deadlines} {id : SessionId}
    (h : (t.get? id).map (·.retireAt) = some none) (now : UInt64) :
    t.retirement p id now = p.graceDeadline now := by
  obtain ⟨entry, hEntry, hActive⟩ := Option.map_eq_some_iff.1 h
  unfold retirement
  rw [hEntry, Option.bind_some, hActive]

/-- A session that has lapsed is past its grace. -/
theorem Session.isOver_of_hasLapsed {session : Session} {now : UInt64}
    (h : session.hasLapsed now = true) : session.IsOver now := by
  unfold hasLapsed at h
  unfold IsOver
  cases hPhase : session.phase with
  | active =>
    rw [hPhase] at h
    cases h
  | expiring deadline =>
    rw [hPhase] at h
    exact ⟨deadline, rfl, of_decide_eq_true h⟩

/-- What becomes of a session that is kept behind an operation as of some time, by the one that was
kept before: it stays, it ends and its grace begins, or it begins. -/
inductive Session.Goes (p : Rotation.Policy) (time : UInt64) (session' : Session) :
    Option Session → Prop where
  | stays {session : Session} (created : session'.createdAt = session.createdAt)
      (phase : session'.phase = session.phase) : Goes p time session' (some session)
  | ends {session : Session} (active : session.phase = .active)
      (created : session'.createdAt = session.createdAt)
      (ended : session'.phase = .expiring (p.graceDeadline time)) :
      Goes p time session' (some session)
  | begins (created : session'.createdAt = time) (active : session'.phase = .active) :
      Goes p time session' none

-- ---------------------------------------------------------------------------
-- Sending sides
-- ---------------------------------------------------------------------------

namespace Outbound

variable {P : Primitives} {own peer : String} {may : Prop} {w w' : Work Outbound}
  {o o' o'' : Outbound} {deadline now epoch : UInt64} {session' : Session}

/-- A sending side behind something done as of some time that begins no session: those that are left
were there, or have ended with a deadline now, and those that had ended are left until their
deadlines. -/
structure Turns (deadline now : UInt64) (o o' : Outbound) : Prop where
  left : ∀ session' ∈ o'.live, session' ∈ o.live ∨
    ∃ session ∈ o.live, session.phase = .active ∧ session' = session.expire deadline
  kept : ∀ session ∈ o.live, session.isActive = false → session.IsOver now ∨ session ∈ o'.live

/-- Where the sessions are the same nothing has turned. -/
theorem Turns.of_live_eq (h : o'.live = o.live) : Turns deadline now o o' :=
  ⟨fun _ hMem => .inl (h ▸ hMem), fun _ hMem _ => .inr (h ▸ hMem)⟩

theorem Turns.congr (h : Turns deadline now o o') (hLive : o''.live = o'.live) :
    Turns deadline now o o'' :=
  ⟨hLive ▸ h.left, hLive ▸ h.kept⟩

/-- A sweep as of some time. -/
theorem turns_swept (c : Config) (now : UInt64) (o : Outbound) :
    Turns (c.rotation.graceDeadline now) now o (o.swept c now) where
  left session' hMem := by
    have hMem : (session' ∈ o.current ∧ session'.hasAged c.rotation now = false) ∨
        (session' ∈ o.expiring ∧ session'.hasLapsed now = false) ∨
        ∃ t, (t ∈ o.current ∧ t.hasAged c.rotation now = true) ∧
          t.expire (c.rotation.graceDeadline now) = session' := by
      simpa [live, swept, sweptBy, Option.mem_filter_iff] using hMem
    rcases hMem with ⟨hCurrent, -⟩ | ⟨hExpiring, -⟩ | ⟨t, ⟨hCurrent, hAged⟩, rfl⟩
    · exact .inl (List.mem_append_left _ (Option.mem_toList.2 hCurrent))
    · exact .inl (List.mem_append_right _ hExpiring)
    · exact .inr ⟨t, List.mem_append_left _ (Option.mem_toList.2 hCurrent),
        (Session.hasAged_iff.1 hAged).1, rfl⟩
  kept session hMem hEnded := by
    cases hLapsed : session.hasLapsed now with
    | true => exact .inl (Session.isOver_of_hasLapsed hLapsed)
    | false =>
      have hYoung : session.hasAged c.rotation now = false := by
        unfold Session.hasAged
        rw [hEnded, Bool.false_and]
      refine .inr ?_
      rcases List.mem_append.1 hMem with hCurrent | hExpiring
      · simp [live, swept, sweptBy, Option.mem_toList.1 hCurrent, hYoung]
      · simp [live, swept, sweptBy, hExpiring, hLapsed]

/-- **Ending the session that sends:** its grace begins. -/
theorem Settled.turns_expireCurrent (s : Setting) (h : Settled own peer may w) :
    Turns (s.config.rotation.graceDeadline s.now) s.now w.part (expireCurrent s w).2.part := by
  unfold expireCurrent
  cases h with
  | idle current => rw [current]; exact .of_live_eq rfl
  | ended session deadline current => rw [current]; exact .of_live_eq rfl
  | sends session current expiring active begun unbarred holds =>
    -- an active session has no deadline of retirement yet, so it is given the grace from now
    have hEnded : (w.expire s session).1 =
        session.expire (s.config.rotation.graceDeadline s.now) := by
      have hEntry : (w.deadlines.get? session.id).map (·.retireAt) = some none := by
        rw [holds.id]
        exact holds.entry.trans (congrArg some (Session.retireAt_of_active active))
      show session.expire (w.deadlines.retirement s.config.rotation session.id s.now) = _
      rw [Rotation.Deadlines.retirement_of_active hEntry]
    rw [current]
    refine ⟨fun session' hMem => .inr ⟨session, by simp [live, current], active, ?_⟩,
      fun t hMem hOver => ?_⟩
    · have hMem : session' ∈ w.part.expiring ++ [(w.expire s session).1] := hMem
      rw [expiring, hEnded] at hMem
      exact List.mem_singleton.1 hMem
    · have hMem : t ∈ w.part.current.toList ++ w.part.expiring := hMem
      rw [current, expiring] at hMem
      obtain rfl := List.mem_singleton.1 hMem
      simp [Session.isActive, active] at hOver

/-- A rotation that is due begins the grace of the session now. -/
theorem Settled.turns_rotateIfDue (s : Setting) (h : Settled own peer may w) (id : String)
    (level : Level) :
    Turns (s.config.rotation.graceDeadline s.now) s.now w.part
      (rotateIfDue s id level w).part := by
  have hEnded := h.turns_expireCurrent s
  unfold rotateIfDue rotate
  split
  · split <;> rename_i hExpired <;> rw [hExpired] at hEnded <;> exact hEnded
  · exact .of_live_eq rfl

/-- **A message that could not be made** may have ended the session all the same. -/
theorem Settled.turns_of_encrypt {s : Setting} (h : Settled own peer may w) {record : Peer}
    {level : Level} {plaintext : Bytes} {failure : Failure}
    (hFailed : encrypt P s record level plaintext w = (.error failure, w')) :
    Turns (s.config.rotation.graceDeadline s.now) s.now w.part w'.part := by
  obtain ⟨o, rfl | rfl, -, hLive⟩ := live_of_encrypt_error hFailed
  · exact .of_live_eq hLive
  · exact (h.turns_rotateIfDue s record.deviceId level).congr hLive

/-- Where nothing has begun, a session stays or ends. -/
theorem Settled.goes_of_turns {p : Rotation.Policy} {time : UInt64} (h : Settled own peer may w)
    (hTurns : Turns (p.graceDeadline time) time w.part o') (hKept : o'.kept? epoch = some session') :
    session'.Goes p time (w.part.kept? epoch) := by
  obtain ⟨hMem, rfl⟩ := mem_of_kept hKept
  rcases hTurns.left session' hMem with hSame | ⟨session, hBefore, hActive, rfl⟩
  · rw [(h.kept?_of_mem hSame).1]
    exact .stays rfl rfl
  · have hEpoch : (session.expire (p.graceDeadline time)).epoch = session.epoch := by
      unfold Session.epoch
      rw [Session.id_expire]
    rw [hEpoch, (h.kept?_of_mem hBefore).1]
    refine .ends hActive (Session.createdAt_expire ..) ?_
    unfold Session.expire
    rw [hActive]

/-- **A message that was made** is one of the session that was there, or begins one. -/
theorem Settled.goes_of_makes {s : Setting} (h : Settled own peer may w) {record : Peer}
    {level : Level} {plaintext : Bytes} {e : Envelope}
    (hMakes : Makes P s record level plaintext w.part e o') (hKept : o'.kept? epoch = some session') :
    session'.Goes s.config.rotation s.now (w.part.kept? epoch) := by
  obtain ⟨hMem, rfl⟩ := mem_of_kept hKept
  cases hMakes with
  | @continues session moved random random' current fits made =>
    obtain ⟨-, hMoved, -⟩ := Session.encrypt_cases made
    have hBefore : session ∈ w.part.live := by simp [live, current]
    rcases List.mem_append.1 hMem with hCurrent | hExpiring
    · obtain rfl : moved = session' := Option.some.inj (Option.mem_toList.1 hCurrent)
      have hEpoch : moved.epoch = session.epoch := by
        rw [hMoved]
        rfl
      rw [hEpoch, (h.kept?_of_mem hBefore).1, hMoved]
      exact .stays rfl rfl
    · rw [(h.kept?_of_mem (List.mem_append_right _ hExpiring)).1]
      exact .stays rfl rfl
  | @begins session moved ephemeral random random' begun made =>
    obtain ⟨-, hMoved, -⟩ := Session.encrypt_cases made
    obtain ⟨keys, -, hStart⟩ := beginSession_eq_ok begun
    rcases List.mem_append.1 hMem with hCurrent | hExpiring
    · obtain rfl : moved = session' := Option.some.inj (Option.mem_toList.1 hCurrent)
      have hEpoch : moved.epoch = w.part.nextEpoch := by
        rw [hMoved, hStart]
        rfl
      -- what was kept lies behind
      have hNone : w.part.kept? moved.epoch = none := by
        refine Option.eq_none_iff_forall_ne_some.2 fun t ht => ?_
        obtain ⟨hBefore, hSame⟩ := mem_of_kept ht
        have hLast := (h.kept?_of_mem hBefore).2
        rw [hSame, hEpoch] at hLast
        omega
      rw [hNone, hMoved, hStart]
      exact .begins rfl rfl
    · cases hExpiring

end Outbound

namespace Pairs

variable {own : String} {may : String → Prop} {s : Setting} {barring : String → Prop}
  {closing : Prop} {w w' : Work Pairs} {α : Type} {deadline now : UInt64} {peer : String}

/-- Work on one sending side turns that side, and leaves all others. -/
theorem turns_onOutbound {op : Work Outbound → α × Work Outbound}
    (h : (w.part.sending peer).Turns deadline now (op (w.withPart (w.part.sending peer))).2.part)
    (other : String) :
    (w.part.sending other).Turns deadline now ((onOutbound peer op w).2.part.sending other) := by
  rw [sending_onOutbound]
  split
  · rename_i hPeer
    rwa [hPeer]
  · exact .of_live_eq rfl

/-- Likewise where the side has to be there. -/
theorem turns_onExistingOutbound {otherwise : α} {op : Work Outbound → α × Work Outbound}
    (h : (w.part.sending peer).Turns deadline now (op (w.withPart (w.part.sending peer))).2.part)
    (other : String) :
    (w.part.sending other).Turns deadline now
      ((onExistingOutbound peer otherwise op w).2.part.sending other) := by
  unfold onExistingOutbound
  split
  · exact turns_onOutbound h other
  · exact .of_live_eq rfl

/-- **An operation that handles no message** begins no session, and takes away none before its time,
unless it takes away all. -/
theorem Calm.turns (hCalm : Calm s barring closing w w') (hSettled : Settled own may w)
    (hDated : Dated s.config.rotation w) (peer : String) :
    (w.part.sending peer).Turns (s.config.rotation.graceDeadline s.now) s.now
        (w'.part.sending peer) ∨
      (w'.part.sending peer).live = [] ∧ (closing ∨ barring peer) := by
  cases hCalm with
  | nothing => exact .inl (.of_live_eq rfl)
  | request other =>
    refine .inl (turns_onOutbound (.of_live_eq ?_) peer)
    show ((w.part.sending other).request s.now).2.live = _
    unfold Outbound.request
    split <;> rfl
  | checkEstablishment other =>
    refine .inl (turns_onExistingOutbound (.of_live_eq ?_) peer)
    split <;> rfl
  | rotate other =>
    exact .inl (turns_onExistingOutbound ((hSettled.sending other).turns_expireCurrent s) peer)
  -- a shutdown leaves no session
  | shutdown hClosing =>
    refine .inr ⟨?_, .inl hClosing⟩
    rw [(closed_shutdown s w).sending]
    rfl
  -- a sweep ends what is old and drops what has run out
  | sweep =>
    rw [(sweep_eq hSettled hDated).2.1, sending_swept]
    exact .inl (Outbound.turns_swept ..)
  -- a revocation leaves no session of its peer
  | revoke other hBarring =>
    have hSide := (drops_revoke s other w).2.sending peer
    by_cases hPeer : peer = other
    · subst hPeer
      rw [if_pos rfl] at hSide
      rw [hSide]
      exact .inr ⟨rfl, .inr hBarring⟩
    · rw [if_neg hPeer] at hSide
      rw [hSide]
      exact .inl (.of_live_eq rfl)

/-- The session of an id that is kept. The device of the id is not looked at. -/
def kept? (p : Pairs) (id : SessionId) : Option Session :=
  match id.direction with
  | .outbound => (p.sending id.peer).kept? id.epoch
  | .inbound => (p.receiving id.peer).epochs.get? id.epoch

/-- The state of a session is that of the one that is kept. -/
theorem stateOf_of_kept {p : Pairs} {id : SessionId} {session : Session}
    (h : p.kept? id = some session) : p.stateOf id = session.state := by
  rw [stateOf_eq]
  obtain ⟨device, peer, epoch, direction⟩ := id
  cases direction with
  | outbound => exact congrArg Sight.state (Outbound.sight_of_kept h)
  | inbound => exact congrArg Sight.state (Inbound.sight_of_kept h)

/-- A session that is not kept is neither active nor expiring. -/
theorem stateOf_of_not_kept {p : Pairs} {id : SessionId} (h : p.kept? id = none) :
    p.stateOf id ≠ .active ∧ p.stateOf id ≠ .expiring := by
  rw [stateOf_eq]
  obtain ⟨device, peer, epoch, direction⟩ := id
  cases direction with
  | outbound =>
    have hState := congrArg Sight.state (Outbound.sight_of_not_kept h)
    have hState : (p.sending peer).stateOf epoch = _ := hState
    dsimp only
    rw [hState]
    split
    · exact ⟨nofun, nofun⟩
    · split <;> exact ⟨nofun, nofun⟩
  | inbound =>
    have hState := congrArg Sight.state (Inbound.sight_of_not_kept h)
    have hState : (p.receiving peer).stateOf epoch = _ := hState
    dsimp only
    rw [hState]
    split <;> exact ⟨nofun, nofun⟩

/-- Every session of a device is the one that is kept under its id. -/
theorem Settled.kept?_of_live (h : Settled own may w) {session : Session}
    (hLive : session ∈ w.part.live) : w.part.kept? session.id = some session := by
  obtain ⟨peer, hSends | hReceives⟩ := mem_live_iff.1 hLive
  · have hSide := h.sending peer
    obtain ⟨epoch, hId⟩ := (hSide.mem_ids_iff.1 (List.mem_map.2 ⟨session, hSends, rfl⟩)).1
    have hEpoch : session.epoch = epoch := congrArg SessionId.epoch hId
    rw [hId]
    show (w.part.sending peer).kept? epoch = some session
    rw [← hEpoch]
    exact (hSide.kept?_of_mem hSends).1
  · obtain ⟨epoch, hSession⟩ := Inbound.mem_live_iff.1 hReceives
    rw [(h.receiving peer).named epoch session hSession]
    exact hSession

end Pairs

-- ---------------------------------------------------------------------------
-- One operation
-- ---------------------------------------------------------------------------

namespace Device

variable {P : Primitives} {start d : Device} {history : History} {may : String → Prop}
  {sender : String} {epoch : UInt64} {session session' : Session} {id : SessionId}

/-- Behind an envelope that is accepted, every session for receiving stays, but those below an epoch
that begins end. -/
theorem goes_accepting (hSettled : d.Settled may) {bytes : Bytes} {e : Envelope} {peer : Peer}
    {plaintext : Bytes} {m : ReceivedMessage} {i' : Inbound}
    (hReceived : (d.receive P bytes).1 = .ok m) (hSender : m.sender = sender)
    (hEpoch : m.epoch = e.epoch) (hSide : (d.receive P bytes).2.pairs.receiving sender = i')
    (hAccepts : Inbound.Accepts P (d.setting d.now) peer e plaintext (d.pairs.receiving sender) i')
    (hKept : i'.epochs.get? epoch = some session') :
    session'.Goes d.config.rotation d.now ((d.pairs.receiving sender).epochs.get? epoch) := by
  cases hAccepts with
  | @continues before moved known readable opened =>
    -- the epoch of the envelope goes on, and no other session is touched
    rw [Table.get?_insert] at hKept
    split at hKept
    · rename_i hThis
      -- reading moves the chain only: neither the phase nor the beginning of the session changes
      cases hKept
      obtain ⟨-, -, hMoved⟩ := Session.next_of_decrypt opened
      rw [hThis, known]
      refine .stays ?_ (Session.phase_of_decrypt opened)
      rw [hMoved]
    · rw [hKept]
      exact .stays rfl rfl
  | @begins fresh moved aged unknown above begun opened wanes =>
    have hThere := hKept
    rw [Table.get?_insert] at hKept
    split at hKept
    · -- the epoch that begins
      rename_i hThis
      cases hKept
      obtain ⟨-, hActive, hNow⟩ := Inbound.beginSession_eq_ok begun
      obtain ⟨-, -, hMoved⟩ := Session.next_of_decrypt opened
      rw [hThis, unknown]
      refine .begins ?_ ((Session.phase_of_decrypt opened).trans hActive)
      rw [hMoved]
      exact hNow
    · -- all others end now, if they had not ended
      obtain ⟨session, hBefore, hAges⟩ := wanes.kept epoch session' hKept
      rw [hBefore]
      rcases hAges with rfl | ⟨_, hActive, hEnded⟩
      · exact .stays rfl rfl
      have hAbove : epoch < m.epoch := by
        obtain ⟨latest, hLatest, hLe⟩ :=
          Inbound.isPast_iff.1 ((hSettled.receiving sender).holds epoch session hBefore).past
        have hLatest : (d.pairs.receiving sender).latest = some latest := hLatest
        have hNotPast : ¬e.epoch ≤ latest := by simpa [Inbound.isPast, hLatest] using above
        rw [hEpoch]
        exact UInt64.lt_of_le_of_lt hLe (UInt64.not_le.1 hNotPast)
      have hEbbs := ebbs_of_receive hSettled hBefore hActive hReceived hSender hAbove
      unfold Ebbs at hEbbs
      rw [hSide] at hEbbs
      exact .ends hActive (by rw [hEnded]) (hEbbs.kept session' hThere).1

/-- What becomes of the session of an epoch for receiving. -/
theorem goes_receiving (hSettled : d.Settled may) (hDated : d.Dated) (op : Operation)
    (hKept : ((d.step P op).2.pairs.receiving sender).epochs.get? epoch = some session') :
    session'.Goes d.config.rotation (op.time d.now)
      ((d.pairs.receiving sender).epochs.get? epoch) := by
  have hFares := fares_step (P := P) hSettled hDated op sender
  generalize hSide : (d.step P op).2.pairs.receiving sender = side at hFares hKept
  cases hFares with
  -- one case for each way in which a receiving side can fare
  | stays =>
    rw [hKept]
    exact .stays rfl rfl
  | empties latest gone => exact nomatch (gone epoch).symm.trans hKept
  | @sweeps now sweep =>
    subst sweep
    unfold Inbound.swept at hKept
    rw [Inbound.get?_sweptBy] at hKept
    obtain ⟨session, hBefore, rfl⟩ := Option.map_eq_some_iff.1 hKept
    rw [(Option.filter_eq_some_iff.1 hBefore).1]
    split
    · -- the sweep ends the session now
      rename_i hAged
      have hActive : session.phase = .active := (Session.hasAged_iff.1 hAged).1
      refine .ends hActive (Session.createdAt_expire ..) ?_
      unfold Session.expire
      rw [hActive]
      rfl
    · exact .stays rfl rfl
  | sheds =>
    rw [Table.get?_erase] at hKept
    split at hKept
    · cases hKept
    · rw [hKept]
      exact .stays rfl rfl
  | @accepts bytes e peer plaintext i' receives received takes =>
    subst receives
    have hTaken : (d.receive P bytes).2.pairs.receiving sender = side := hSide
    exact goes_accepting hSettled received rfl rfl hTaken takes.accepts hKept

/-- **How a session that has ended is lost** for receiving. -/
theorem over_of_lost_receiving (hSettled : d.Settled may) (hDated : d.Dated) (op : Operation)
    (hBefore : (d.pairs.receiving sender).epochs.get? epoch = some session)
    (hLost : ((d.step P op).2.pairs.receiving sender).epochs.get? epoch = none) :
    session.IsOver (op.time d.now) ∨ op = .shutdown ∨
      (d.step P op).2.isRevoked sender = true := by
  have hFares := fares_step (P := P) hSettled hDated op sender
  generalize hSide : (d.step P op).2.pairs.receiving sender = side at hFares hLost
  -- a session is lost to a sweep, to an envelope that finds it over, or to what closes the side
  cases hFares with
  | stays => exact nomatch hLost.symm.trans hBefore
  | empties latest gone cause => exact .inr cause
  | @sweeps now sweep =>
    subst sweep
    unfold Inbound.swept at hLost
    rw [Inbound.get?_sweptBy, hBefore] at hLost
    refine .inl (Session.isOver_of_hasLapsed ?_)
    show session.hasLapsed now = true
    simpa [Option.filter_some] using hLost
  | sheds receives refused known lapsed =>
    rw [Table.get?_erase] at hLost
    split at hLost
    · rename_i hThis
      rw [hThis, known] at hBefore
      cases hBefore
      rw [receives]
      exact .inl lapsed
    · exact nomatch hLost.symm.trans hBefore
  | @accepts bytes e peer plaintext i' receives received takes =>
    subst receives
    have hGone : ((d.receive P bytes).2.pairs.receiving sender).epochs.get? epoch = none :=
      (congrArg (·.epochs.get? epoch) hSide).trans hLost
    exact .inl (Session.isOver_iff.2 (canDecrypt_of_gone_receive hSettled hBefore hGone))

/-- **What becomes of each session** when a device is asked for an operation. -/
theorem goes_step (hFiled : d.contacts.Filed) (hSettled : d.Settled may) (hDated : d.Dated)
    (op : Operation) (hKept : (d.step P op).2.pairs.kept? id = some session') :
    session'.Goes d.config.rotation (op.time d.now) (d.pairs.kept? id) := by
  obtain ⟨device, peer, epoch, direction⟩ := id
  cases direction with
  | inbound => exact goes_receiving hSettled hDated op hKept
  | outbound =>
    have hSide := hSettled.sending peer
    have hKept : ((d.step P op).2.pairs.sending peer).kept? epoch = some session' := hKept
    show session'.Goes _ _ ((d.pairs.sending peer).kept? epoch)
    rcases works_step (P := P) hFiled op peer with
      ⟨w, hCalm, hWork⟩ | ⟨level, plaintext, record, rfl, -, hWork⟩
    · -- no message goes out: the session is the same, or has ended now
      rw [hWork] at hKept
      rcases hCalm.turns hSettled hDated peer with hTurns | ⟨hNone, -⟩
      · exact hSide.goes_of_turns hTurns hKept
      · have hMem := (Outbound.mem_of_kept hKept).1
        rw [hNone] at hMem
        cases hMem
    · rw [hWork] at hKept
      -- a message goes out: its session is there, or begins now
      rcases hMade : Outbound.encrypt P (d.setting d.now) record level plaintext
        (d.work.withPart (d.pairs.sending peer)) with ⟨result, w⟩
      rw [hMade] at hKept
      rcases Outbound.encrypt_cases hMade with ⟨failure, rfl, -⟩ | ⟨e, rfl, -, hMakes⟩
      · exact hSide.goes_of_turns (hSide.turns_of_encrypt hMade) hKept
      · exact hSide.goes_of_makes hMakes hKept

/-- **How a session that has ended is lost:** its grace is over, or the device is closed, the peer is
revoked, or a message to the peer begins the next epoch. -/
theorem over_of_lost (hFiled : d.contacts.Filed) (hSettled : d.Settled may) (hDated : d.Dated)
    (op : Operation) (hBefore : d.pairs.kept? id = some session) (hEnded : session.isActive = false)
    (hLost : (d.step P op).2.pairs.kept? id = none) :
    session.IsOver (op.time d.now) ∨ op = .shutdown ∨
      (d.step P op).2.isRevoked id.peer = true ∨
      id.direction = .outbound ∧ ∃ level plaintext, op = .send id.peer level plaintext := by
  obtain ⟨device, peer, epoch, direction⟩ := id
  cases direction with
  | inbound =>
    rcases over_of_lost_receiving hSettled hDated op hBefore hLost with hOver | hClosed | hRevoked
    · exact .inl hOver
    · exact .inr (.inl hClosed)
    · exact .inr (.inr (.inl hRevoked))
  | outbound =>
    have hBefore : (d.pairs.sending peer).kept? epoch = some session := hBefore
    have hLost : ((d.step P op).2.pairs.sending peer).kept? epoch = none := hLost
    obtain ⟨hMem, hEpoch⟩ := Outbound.mem_of_kept hBefore
    rcases works_step (P := P) hFiled op peer with
      ⟨w, hCalm, hWork⟩ | ⟨level, plaintext, record, rfl, -, -⟩
    · rcases hCalm.turns hSettled hDated peer with hTurns | ⟨-, hClosed | hRevoked⟩
      · refine (hTurns.kept session hMem hEnded).imp_right fun hStays => ?_
        rw [hWork] at hLost
        exact absurd (decide_eq_true hEpoch) (List.find?_eq_none.1 hLost session hStays)
      · exact .inr (.inl hClosed)
      · exact .inr (.inr (.inl hRevoked))
    · exact .inr (.inr (.inr ⟨rfl, level, plaintext, rfl⟩))

-- ---------------------------------------------------------------------------
-- Many operations
-- ---------------------------------------------------------------------------

variable (P) in
/-- Since when something has been seen of a device, behind some operations. What an operation does is
seen as of its time. -/
def seenSince (seen : Device → Bool) (since : Option UInt64) (d : Device) :
    List Operation → Option UInt64
  | [] => since
  | op :: rest =>
    seenSince seen (if seen (d.step P op).2 then some (since.getD (op.time d.now)) else none)
      (d.step P op).2 rest

/-- Whether a session is kept. -/
def keeps (id : SessionId) (d : Device) : Bool :=
  d.pairs.stateOf id = .active || d.pairs.stateOf id = .expiring

/-- Whether a session is kept and has ended. -/
def hasEnded (id : SessionId) (d : Device) : Bool := d.pairs.stateOf id = .expiring

/-- Whether a session with a peer is waited for. -/
def waits (peer : String) (d : Device) : Bool := d.pairs.outboundState peer = .establishing

/-- What is so at the beginning, and is kept up with what is seen by every operation, is so behind
any number of them. -/
theorem seenSince_induction {seen : Device → Bool} (Holds : Device → Option UInt64 → Prop)
    (hBegin : Holds start none)
    (hStep : ∀ {history d since} (op : Operation), Run P start history d → overruns P d op = false →
      Holds d since → Holds (d.step P op).2
        (if seen (d.step P op).2 then some (since.getD (op.time d.now)) else none))
    {ops : List Operation} (hReturn : allReturn P start ops = true) :
    Holds (after P start ops) (seenSince P seen none start ops) := by
  have hGo {history : History} {d : Device} {since : Option UInt64} (hRun : Run P start history d)
      (h : Holds d since) {ops : List Operation} (hReturn : allReturn P d ops = true) :
      Holds (after P d ops) (seenSince P seen since d ops) := by
    induction ops generalizing history d since with
    | nil => exact h
    | cons op rest ih =>
      simp only [allReturn, Bool.and_eq_true, Bool.not_eq_true'] at hReturn
      exact ih (hRun.step op hReturn.1) (hStep op hRun hReturn.1 h) hReturn.2
  exact hGo .start hBegin hReturn

theorem keeps_eq (id : SessionId) (d : Device) : d.keeps id = (d.pairs.kept? id).isSome := by
  unfold keeps
  cases hKept : d.pairs.kept? id with
  | none =>
    obtain ⟨hActive, hEnded⟩ := Pairs.stateOf_of_not_kept hKept
    simp [hActive, hEnded]
  | some session =>
    rw [Pairs.stateOf_of_kept hKept]
    unfold Session.state
    cases session.phase <;> rfl

theorem hasEnded_eq (id : SessionId) (d : Device) :
    d.hasEnded id = ((d.pairs.kept? id).bind (·.retireAt)).isSome := by
  unfold hasEnded
  cases hKept : d.pairs.kept? id with
  | none => simp [(Pairs.stateOf_of_not_kept hKept).2]
  | some session =>
    rw [Pairs.stateOf_of_kept hKept]
    unfold Session.state Session.retireAt
    cases hPhase : session.phase <;> simp [hPhase]

/-- A session that is seen to have ended is kept, with its deadline. -/
theorem exists_ended (h : d.hasEnded id = true) :
    ∃ session deadline, d.pairs.kept? id = some session ∧ session.phase = .expiring deadline := by
  rw [hasEnded_eq] at h
  obtain ⟨deadline, hDeadline⟩ := Option.isSome_iff_exists.1 h
  obtain ⟨session, hKept, hRetire⟩ := Option.bind_eq_some_iff.1 hDeadline
  refine ⟨session, deadline, hKept, ?_⟩
  unfold Session.retireAt at hRetire
  split at hRetire
  · cases hRetire
  · cases hRetire
    assumption

/-- A session with a peer is waited for as long as a request stands. -/
theorem waits_eq (hSettled : d.Settled may) (peer : String) :
    d.waits peer = (d.pairs.sending peer).requestedAt.isSome := by
  unfold waits
  rw [Pairs.outboundState_eq]
  unfold Outbound.state
  cases hCurrent : (d.pairs.sending peer).current with
  | none => cases (d.pairs.sending peer).requestedAt <;> rfl
  | some session =>
    -- the session that sends is active
    have hNone : (d.pairs.sending peer).requestedAt = none :=
      (hSettled.sending peer).requestedAt_eq_none (Option.isSome_of_eq_some hCurrent)
    rw [hNone]
    unfold Session.state
    cases hPhase : session.phase <;> simp [hPhase]

/-- What is waited for was asked for before, or now. -/
theorem eq_of_askedAfter {op : Operation} {peer : String} {asked : UInt64}
    (h : askedAfter P d op peer = some asked) :
    (d.pairs.sending peer).requestedAt.getD (op.time d.now) = asked := by
  unfold askedAfter at h
  cases op with
  | request other =>
    dsimp only at h
    split at h
    · exact Option.some.inj h
    · rw [h]
      rfl
  | send | maintain | verify | revoke | crossSignPeer =>
    dsimp only at h
    split at h
    · cases h
    · rw [h]
      rfl
  | shutdown => cases h
  | _ =>
    dsimp only at h
    rw [h]
    rfl

variable {ops : List Operation}

/-- Nothing is kept at the beginning. -/
theorem Starts.kept? (hStart : Starts P start) (id : SessionId) : start.pairs.kept? id = none := by
  obtain ⟨device, peer, epoch, direction⟩ := id
  cases direction with
  | outbound =>
    show (start.pairs.sending peer).live.find? _ = none
    rw [hStart.blank.1.live peer]
    rfl
  | inbound =>
    show (start.pairs.receiving peer).epochs.get? epoch = none
    rw [hStart.receiving peer]
    rfl

/-- **A session is kept since it began.** -/
theorem seenSince_keeps (hStart : Starts P start) (hReturn : allReturn P start ops = true)
    (id : SessionId) :
    seenSince P (keeps id) none start ops =
      ((after P start ops).pairs.kept? id).map (·.createdAt) := by
  refine seenSince_induction
    (fun d since => since = (d.pairs.kept? id).map (·.createdAt)) ?_ ?_ hReturn
  · rw [hStart.kept?]
    rfl
  · intro history d since op hRun _ hSince
    rw [keeps_eq]
    cases hKept : (d.step P op).2.pairs.kept? id with
    | none => rfl
    | some session' =>
      have hGoes := goes_step (hRun.filed hStart) (hRun.settled hStart) (hRun.dated hStart) op hKept
      rw [hSince]
      cases hBefore : d.pairs.kept? id with
      | none =>
        rw [hBefore] at hGoes
        cases hGoes with
        | begins created active => simp [created]
      | some session =>
        rw [hBefore] at hGoes
        cases hGoes with
        | stays created phase => simp [created]
        | ends active created ended => simp [created]

/-- **The deadline of a session that has ended** is that of its grace, from when it ended on. -/
theorem seenSince_hasEnded (hStart : Starts P start) (hReturn : allReturn P start ops = true)
    (id : SessionId) :
    (seenSince P (hasEnded id) none start ops).map
        (after P start ops).config.rotation.graceDeadline =
      ((after P start ops).pairs.kept? id).bind (·.retireAt) := by
  refine seenSince_induction
    (fun d since => since.map d.config.rotation.graceDeadline =
      (d.pairs.kept? id).bind (·.retireAt)) ?_ ?_ hReturn
  · -- at the start there is no session to be seen
    rw [hStart.kept?]
    rfl
  · intro history d since op hRun _ hSince
    have hConfig : (d.step P op).2.config = d.config := (evolves_step d op).config
    rw [hasEnded_eq, hConfig]
    -- the time of the first sight is kept as long as the session, and so is its deadline
    cases hKept : (d.step P op).2.pairs.kept? id with
    | none => rfl
    | some session' =>
      have hGoes := goes_step (hRun.filed hStart) (hRun.settled hStart) (hRun.dated hStart) op hKept
      rw [Option.bind_some]
      cases hBefore : d.pairs.kept? id with
      | none =>
        rw [hBefore] at hGoes
        cases hGoes with
        | begins created active => simp [Session.retireAt_of_active active]
      | some session =>
        rw [hBefore, Option.bind_some] at hSince
        rw [hBefore] at hGoes
        cases hGoes with
        | stays created phase =>
          have hSame : session'.retireAt = session.retireAt := by
            unfold Session.retireAt
            rw [phase]
          rw [hSame, ← hSince]
          cases since <;> rfl
        | ends active created ended =>
          rw [Session.retireAt_of_active active] at hSince
          rw [Session.retireAt_of_expiring ended, Option.map_eq_none_iff.1 hSince]
          rfl

/-- **A session with a peer is waited for since it was asked for.** -/
theorem seenSince_waits (hStart : Starts P start) (hReturn : allReturn P start ops = true)
    (peer : String) :
    seenSince P (waits peer) none start ops =
      ((after P start ops).pairs.sending peer).requestedAt := by
  refine seenSince_induction
    (fun d since => since = (d.pairs.sending peer).requestedAt) ?_ ?_ hReturn
  · exact (hStart.requestedAt peer).symm
  · intro history d since op hRun hReturns hSince
    have hAsked := requestedAt_step (P := P) (hRun.filed hStart) (hRun.settled hStart)
      (hRun.dated hStart) op peer
    rw [waits_eq ((hRun.step op hReturns).settled hStart), hSince, hAsked]
    cases hNow : askedAfter P d op peer with
    | none => rfl
    | some asked =>
      rw [eq_of_askedAfter hNow]
      rfl

end Device

end EndToEnd
