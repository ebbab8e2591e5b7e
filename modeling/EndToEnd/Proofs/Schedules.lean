import EndToEnd.Proofs.Bookkeeping

/-!
# Schedules

The index has an entry for each session that is kept, and the entry says when the session ends or is
dropped. `Device.Settled` leaves open what the first of these times is. It is the one that the
policy gives for the time at which the session began, as long as the session is kept
(`Device.Dated`): a session that ends keeps it, and nothing else that is done to a session moves it.

Main results:

* `Pairs.dated_encrypt`, `Pairs.dated_decrypt`, `Pairs.Calm.dated` — every operation on the sessions
  keeps the times.
* `Device.Run.dated` — so does every run.
* `Pairs.Dated.entry_eq` — the whole entry of a session.
-/

namespace EndToEnd

/-- The index says of a session that it ends when the policy says so. -/
def Session.Dated (policy : Rotation.Policy) (t : Rotation.Deadlines) (session : Session) : Prop :=
  (t.get? session.id).map (·.expireAt) = some (policy.expiry session.createdAt)

/-- A session with the same id that began at the same time, in an index with the same times. -/
theorem Session.Dated.move {policy : Rotation.Policy} {t t' : Rotation.Deadlines}
    {session session' : Session} (h : session.Dated policy t) (hId : session'.id = session.id)
    (hCreated : session'.createdAt = session.createdAt)
    (hEntry : (t'.get? session.id).map (·.expireAt) = (t.get? session.id).map (·.expireAt)) :
    session'.Dated policy t' := by
  unfold Dated
  rw [hId, hCreated, hEntry]
  exact h

/-- A session that ends keeps the time at which it began. -/
theorem Session.createdAt_expire (session : Session) (deadline : UInt64) :
    (session.expire deadline).createdAt = session.createdAt := by
  unfold expire
  split <;> rfl

/-- Marking an entry of the index moves no time at which a session ends. -/
theorem Rotation.Deadlines.expireAt_markExpiring (policy : Policy) {t : Deadlines} {id : SessionId}
    (hIndexed : (t.get? id).isSome = true) (now : UInt64) (other : SessionId) :
    ((t.markExpiring policy id now).get? other).map (·.expireAt) =
      (t.get? other).map (·.expireAt) := by
  obtain ⟨entry, hEntry⟩ := Option.isSome_iff_exists.1 hIndexed
  rw [get?_markExpiring]
  split
  · rename_i hOther
    rw [hOther, hEntry]
    rfl
  · rfl

/-- A session that ends when the policy says so is in the index. -/
theorem Session.Dated.isSome {policy : Rotation.Policy} {t : Rotation.Deadlines} {session : Session}
    (h : session.Dated policy t) : (t.get? session.id).isSome = true := by
  rw [← Option.isSome_map, show (t.get? session.id).map (·.expireAt) = _ from h]
  rfl

-- ---------------------------------------------------------------------------
-- Sending sides
-- ---------------------------------------------------------------------------

namespace Outbound

/-- A sending side whose sessions end when the policy says so. -/
def Dated (policy : Rotation.Policy) (w : Work Outbound) : Prop :=
  ∀ session ∈ w.part.live, session.Dated policy w.deadlines

variable {P : Primitives} {policy : Rotation.Policy} {w w' : Work Outbound} {s : Setting}
  {own peer : String} {may : Prop}

/-- Only sessions and deadlines matter. -/
theorem Dated.congr (h : Dated policy w) (hLive : w'.part.live = w.part.live)
    (hDeadlines : w'.deadlines = w.deadlines) : Dated policy w' := by
  unfold Dated
  rw [hLive, hDeadlines]
  exact h

/-- Where there is no session there is nothing to end. -/
theorem dated_of_live_eq_nil (h : w.part.live = []) : Dated policy w := by
  intro session hMem
  rw [h] at hMem
  cases hMem

theorem dated_request (h : Dated policy w) :
    Dated policy { w with part := (w.part.request s.now).2 } := by
  refine h.congr ?_ rfl
  unfold request
  split <;> rfl

/-- A session that ended keeps the entry that says when it was to end. -/
theorem dated_expireCurrent (h : Dated policy w) : Dated policy (expireCurrent s w).2 := by
  unfold expireCurrent
  cases hCurrent : w.part.current with
  | none => exact h
  | some session =>
    have hDated := h session (by simp [live, hCurrent])
    have hTimes := Rotation.Deadlines.expireAt_markExpiring s.config.rotation hDated.isSome s.now
    intro ended hEnded
    have hEnded : ended ∈ w.part.expiring ∨ ended = (w.expire s session).1 := by
      simpa [live, Work.expire] using hEnded
    rcases hEnded with hBefore | rfl
    · exact (h ended (by simp [live, hBefore])).move rfl rfl (hTimes ended.id)
    · exact hDated.move (session.id_expire _) (session.createdAt_expire _) (hTimes session.id)

/-- A rotation leaves every session to end when it was to. -/
theorem dated_rotate (h : Dated policy w) (id : String) (reason : Rotation.Reason) :
    Dated policy (rotate s id reason w).2 := by
  have hExpired := dated_expireCurrent (s := s) h
  unfold rotate
  split <;> rename_i hEnded <;> rw [hEnded] at hExpired <;> exact hExpired

/-- A rotation that is due leaves every session to end when it was to. -/
theorem dated_rotateIfDue (h : Dated policy w) (id : String) (level : Level) :
    Dated policy (rotateIfDue s id level w) := by
  unfold rotateIfDue
  split
  · exact dated_rotate h id _
  · exact h

/-- **A session that begins** is the only one then, and is entered in the index as it begins. -/
theorem dated_establish {record : Peer} {level : Level}
    (hSettled : Settled s.own.deviceId record.deviceId may w)
    (h : Dated s.config.rotation w) (hNone : w.part.current = none)
    {result : Except Failure Session} (hMade : establish P s record level w = (result, w')) :
    Dated s.config.rotation w' := by
  have hDeadlines := deadlines_establish hMade
  rcases establish_cases hMade with ⟨failure, rfl, hPart⟩ |
    ⟨session, rfl, ⟨ephemeral, hBegun⟩, hPart⟩
  · -- nothing begins, and the index is as it was
    have hLive : w'.part.live = w.part.live := by
      rw [hPart]
      rfl
    exact h.congr hLive (Table.ext_get? hDeadlines)
  obtain ⟨keys, -, hSession⟩ := beginSession_eq_ok hBegun
  have hId : session.id = ⟨s.own.deviceId, record.deviceId, w.part.nextEpoch, .outbound⟩ := by
    rw [hSession]
    rfl
  have hCreated : session.createdAt = s.now := by
    rw [hSession]
    rfl
  -- the new session is the only one, and its deadline counts from now
  intro only hOnly
  rw [hPart] at hOnly
  obtain rfl := List.mem_singleton.1 hOnly
  unfold Session.Dated
  rw [hDeadlines, hCreated]
  dsimp only
  rw [if_neg, if_pos rfl, Option.map_some]
  rw [hId]
  exact hSettled.next_not_mem_ids hNone

/-- The session that a message goes with is there, and it is dated. -/
theorem dated_ready {record : Peer} {level : Level} {result : Except Failure Session}
    (hSettled : Settled s.own.deviceId record.deviceId may w) (h : Dated s.config.rotation w)
    (hReady : ready P s record level w = (result, w')) :
    Dated s.config.rotation w' ∧ ∀ session, result = .ok session → session ∈ w'.part.live := by
  unfold ready at hReady
  split at hReady
  · rename_i session hCurrent
    cases hReady
    refine ⟨h, ?_⟩
    rintro session' ⟨⟩
    simp [live, hCurrent]
  · rename_i hNone
    refine ⟨dated_establish hSettled h hNone hReady, ?_⟩
    rintro session rfl
    rcases establish_cases hReady with ⟨failure, hFailed, -⟩ | ⟨begun, hOk, -, hPart⟩
    · cases hFailed
    · cases hOk
      rw [hPart]
      exact .head _

/-- **A message to a peer,** whether it is made or not. -/
theorem dated_encrypt {record : Peer} {level : Level} {plaintext : Bytes}
    (hSettled : Settled s.own.deviceId record.deviceId may w) (h : Dated s.config.rotation w) :
    Dated s.config.rotation (encrypt P s record level plaintext w).2 := by
  by_cases hBarred : w.part.isRevoked = true
  · unfold encrypt
    rw [if_pos hBarred]
    exact h
  by_cases hTimedOut : w.part.hasTimedOut s = true
  · unfold encrypt
    rw [if_neg hBarred, if_pos hTimedOut]
    exact h
  rw [Bool.not_eq_true] at hBarred hTimedOut
  rw [encrypt_eq_encryptWith hBarred hTimedOut]
  have hDue := dated_rotateIfDue (s := s) h record.deviceId level
  have hSettledDue := (settles_rotateIfDue s hSettled record.deviceId level).settled
  generalize rotateIfDue s record.deviceId level w = w₁ at hDue hSettledDue ⊢
  rcases hReady : ready P s record level w₁ with ⟨result, w₂⟩
  obtain ⟨hDated, hMem⟩ := dated_ready hSettledDue hDue hReady
  -- making the envelope moves the chain of that session
  unfold encryptWith
  cases result with
  | error failure => exact hDated
  | ok session =>
    dsimp only
    split
    · exact hDated
    · rename_i e session' random hMade
      obtain ⟨-, hSession', -⟩ := Session.encrypt_cases hMade
      intro moved hMoved
      have hMoved : moved = session' ∨ moved ∈ w₂.part.expiring := by simpa [live] using hMoved
      rcases hMoved with rfl | hBefore
      · refine (hDated session (hMem session rfl)).move ?_ ?_ rfl
        · rw [hSession']
        · rw [hSession']
      · exact hDated moved (by simp [live, hBefore])

/-- **What is due for a session that sends.** -/
theorem dated_applyOutbound (hSettled : Settled own peer may w) (h : Dated policy w)
    (id : SessionId) (action : Rotation.DueAction) :
    Dated policy (Pairs.applyOutbound s id action w).2 := by
  unfold Pairs.applyOutbound
  split
  · split
    · exact dated_rotate h id.peer _
    · exact h
  · split
    · rename_i session hFound
      -- the one session that has ended is dropped, and no other is there
      refine dated_of_live_eq_nil ?_
      have hExpiring := List.mem_of_find?_eq_some hFound
      have hEpoch := List.find?_some hFound
      cases hSettled with
      | idle current expiring =>
        rw [expiring] at hExpiring
        cases hExpiring
      | sends only current expiring =>
        rw [expiring] at hExpiring
        cases hExpiring
      | ended only deadline current expiring =>
        rw [expiring] at hExpiring
        obtain rfl := List.mem_singleton.1 hExpiring
        simpa [live, Work.retire, Work.note, current, expiring] using hEpoch
    · exact h

end Outbound

-- ---------------------------------------------------------------------------
-- Receiving sides
-- ---------------------------------------------------------------------------

namespace Inbound

/-- A receiving side whose sessions end when the policy says so. -/
def Dated (policy : Rotation.Policy) (w : Work Inbound) : Prop :=
  ∀ epoch session, w.part.epochs.get? epoch = some session → session.Dated policy w.deadlines

variable {P : Primitives} {policy : Rotation.Policy} {w w' : Work Inbound} {s : Setting}
  {own peer : String}

/-- Where there is no epoch there is nothing to end. -/
theorem dated_of_epochs_eq_empty (h : w.part.epochs = .empty) : Dated policy w := by
  intro epoch session hSession
  rw [h] at hSession
  cases hSession

/-- A session that ended keeps the entry that says when it was to end. -/
theorem dated_expire (h : Dated policy w) (epoch : UInt64) :
    Dated policy (expire s w epoch).2 := by
  unfold expire
  split
  · rename_i session hKnown
    split
    · have hDated := h epoch session hKnown
      have hTimes := Rotation.Deadlines.expireAt_markExpiring s.config.rotation hDated.isSome s.now
      intro other ended hEnded
      have hEnded : (w.part.epochs.insert epoch (w.expire s session).1).get? other = some ended :=
        hEnded
      rw [Table.get?_insert] at hEnded
      split at hEnded
      · cases hEnded
        exact hDated.move (session.id_expire _) (session.createdAt_expire _) (hTimes session.id)
      · exact (h other ended hEnded).move rfl rfl (hTimes ended.id)
    · exact h
  · exact h

/-- Ending all active sessions leaves all their entries. -/
theorem dated_expireAll (h : Dated policy w) : Dated policy (expireAll s w) :=
  List.foldlRecOn (motive := Dated policy) _ _ h fun _ hw epoch _ => dated_expire hw epoch

/-- An epoch that is dropped takes its own entry along, and no other. -/
theorem Dated.drop (hNamed : w.part.Named own peer) (h : Dated policy w) {epoch : UInt64}
    {session : Session} (hKnown : w.part.epochs.get? epoch = some session)
    (hPart : w'.part = { w.part with epochs := w.part.epochs.erase epoch })
    (hDeadlines : w'.deadlines = w.deadlines.remove session.id) : Dated policy w' := by
  intro other kept hKept
  rw [hPart] at hKept
  have hKept : (w.part.epochs.erase epoch).get? other = some kept := hKept
  rw [Table.get?_erase] at hKept
  split at hKept
  · cases hKept
  · rename_i hOther
    have hId : kept.id ≠ session.id := by
      rw [hNamed other kept hKept, hNamed epoch session hKnown]
      exact fun hSame => hOther (congrArg SessionId.epoch hSame)
    refine (h other kept hKept).move rfl rfl ?_
    rw [hDeadlines, Rotation.Deadlines.get?_remove, if_neg hId]

/-- The session of an epoch, with its chain moved. -/
theorem Dated.insert (h : Dated policy w) {epoch : UInt64} {session : Session}
    (hDated : session.Dated policy w.deadlines) :
    Dated policy
      { w with part := { w.part with epochs := w.part.epochs.insert epoch session } } := by
  intro other kept hKept
  have hKept : (w.part.epochs.insert epoch session).get? other = some kept := hKept
  rw [Table.get?_insert] at hKept
  split at hKept
  · cases hKept
    exact hDated
  · exact h other kept hKept

/-- What a message leaves of the session that it opens in. -/
theorem idAndTime_of_decrypt {session session' : Session} {maxSkip : UInt64} {e : Envelope}
    {plaintext : Bytes} (hOpened : session.decrypt P maxSkip e = .ok (plaintext, session')) :
    session'.id = session.id ∧ session'.createdAt = session.createdAt := by
  obtain ⟨-, -, -, -, -, -, rfl⟩ := Session.decrypt_eq_ok_iff.1 hOpened
  exact ⟨rfl, rfl⟩

/-- A message of an epoch that is known. -/
theorem dated_continueEpoch {sender : Peer} {e : Envelope} {session : Session}
    (hNamed : w.part.Named s.own.deviceId sender.deviceId) (h : Dated s.config.rotation w)
    (hKnown : w.part.epochs.get? e.epoch = some session) :
    Dated s.config.rotation (continueEpoch P s sender e session w).2 := by
  unfold continueEpoch
  split
  · split
    · exact h
    · rename_i hOpened
      obtain ⟨hId, hCreated⟩ := idAndTime_of_decrypt hOpened
      exact h.insert ((h _ _ hKnown).move hId hCreated rfl)
  · exact h.drop hNamed hKnown rfl rfl

/-- A message that begins an epoch. -/
theorem dated_beginEpoch {sender : Peer} {e : Envelope}
    (hNamed : w.part.Named s.own.deviceId sender.deviceId) (h : Dated s.config.rotation w) :
    Dated s.config.rotation (beginEpoch P s sender e w).2 := by
  unfold beginEpoch
  split
  · exact h
  rename_i session hBegun
  split
  · exact h
  rename_i opened hOpened
  obtain ⟨hId, hCreated⟩ := idAndTime_of_decrypt hOpened
  obtain ⟨hIdBegun, -, hNow⟩ := beginSession_eq_ok hBegun
  have hAged := dated_expireAll (s := s) h
  have hNamedAged := (keeps_expireAll s hNamed).named
  generalize expireAll s w = aged at hAged hNamedAged ⊢
  -- no other session goes by the id of the one that begins
  intro other kept hKept
  have hKept : (aged.part.epochs.insert e.epoch opened).get? other = some kept := hKept
  show kept.Dated _ (aged.deadlines.schedule s.config.rotation opened.id s.now)
  unfold Session.Dated
  rw [Rotation.Deadlines.get?_schedule]
  rw [Table.get?_insert] at hKept
  split at hKept
  · cases hKept
    rw [if_pos rfl, hCreated, hNow]
    rfl
  · rename_i hOther
    rw [if_neg]
    · exact hAged other kept hKept
    · rw [hNamedAged other kept hKept, hId, hIdBegun]
      exact fun hSame => hOther (congrArg SessionId.epoch hSame)

/-- **A message of a peer,** whether it is accepted or not. -/
theorem dated_decrypt {sender : Peer} {e : Envelope}
    (hNamed : w.part.Named s.own.deviceId sender.deviceId) (h : Dated s.config.rotation w) :
    Dated s.config.rotation (decrypt P s sender e w).2 := by
  unfold decrypt
  split
  · exact h
  split
  · rename_i session hKnown
    exact dated_continueEpoch hNamed h hKnown
  · split
    · exact h
    · exact dated_beginEpoch hNamed h

/-- **What is due for a session that receives.** -/
theorem dated_applyInbound (hNamed : w.part.Named own peer) (h : Dated policy w) (id : SessionId)
    (action : Rotation.DueAction) : Dated policy (Pairs.applyInbound s id action w).2 := by
  unfold Pairs.applyInbound
  split
  · exact dated_expire h id.epoch
  · split
    · rename_i session hKnown
      exact h.drop hNamed hKnown rfl rfl
    · exact h

end Inbound

-- ---------------------------------------------------------------------------
-- All sides
-- ---------------------------------------------------------------------------

namespace Pairs

/-- All sessions of all pairs end when the policy says so. -/
structure Dated (policy : Rotation.Policy) (w : Work Pairs) : Prop where
  sending : ∀ peer, Outbound.Dated policy (w.withPart (w.part.sending peer))
  receiving : ∀ peer, Inbound.Dated policy (w.withPart (w.part.receiving peer))

variable {own : String} {may : String → Prop} {policy : Rotation.Policy} {w w' : Work Pairs}
  {α : Type} {peer : String}

/-- Sessions of a side whose entries are left as they are. -/
theorem Dated.sending_of_differs (hSettled : Settled own may w) (h : Dated policy w)
    {ids : SessionId → Prop} {t : Rotation.Deadlines} (hDiffers : w.deadlines.Differs ids t)
    (hIds : ∀ id, id.Of own peer .outbound → ¬ids id) :
    ∀ session ∈ (w.part.sending peer).live, session.Dated policy t := by
  intro session hMem
  have hOf := ((hSettled.sending peer).mem_ids_iff.1 (List.mem_map.2 ⟨session, hMem, rfl⟩)).1
  refine (h.sending peer session hMem).move rfl rfl ?_
  rw [hDiffers session.id (hIds _ hOf)]
  rfl

/-- Deadlines that differ elsewhere only leave the receiving sessions of a peer to end when they
were to. -/
theorem Dated.receiving_of_differs (hSettled : Settled own may w) (h : Dated policy w)
    {ids : SessionId → Prop} {t : Rotation.Deadlines} (hDiffers : w.deadlines.Differs ids t)
    (hIds : ∀ id, id.Of own peer .inbound → ¬ids id) :
    ∀ epoch session, (w.part.receiving peer).epochs.get? epoch = some session →
      session.Dated policy t := by
  intro epoch session hSession
  have hOf : session.id.Of own peer .inbound :=
    ⟨epoch, (hSettled.receiving peer).named epoch session hSession⟩
  refine (h.receiving peer epoch session hSession).move rfl rfl ?_
  rw [hDiffers session.id (hIds _ hOf)]
  rfl

/-- Work on one sending side, which touches the entries of that side only. -/
theorem Dated.onOutbound (hSettled : Settled own may w) (h : Dated policy w)
    {op : Work Outbound → α × Work Outbound}
    (hOp : Outbound.Dated policy (op (w.withPart (w.part.sending peer))).2)
    (hDiffers : w.deadlines.Differs (SessionId.Of own peer .outbound)
      (op (w.withPart (w.part.sending peer))).2.deadlines) :
    Dated policy (onOutbound peer op w).2 := by
  refine ⟨fun other => ?_, fun other => ?_⟩
  · have hSide := sending_onOutbound peer other op w
    by_cases hOther : other = peer
    · subst hOther
      rw [if_pos rfl] at hSide
      exact hOp.congr (congrArg Outbound.live hSide) rfl
    · rw [if_neg hOther] at hSide
      rw [hSide]
      refine h.sending_of_differs hSettled hDiffers ?_
      rintro id ⟨epoch, rfl⟩ ⟨epoch', hSame⟩
      exact hOther (congrArg SessionId.peer hSame)
  · refine h.receiving_of_differs hSettled hDiffers ?_
    rintro id ⟨epoch, rfl⟩ ⟨epoch', hSame⟩
    cases hSame

/-- Work on one receiving side, which touches the entries of that side only. -/
theorem Dated.onInbound (hSettled : Settled own may w) (h : Dated policy w)
    {op : Work Inbound → α × Work Inbound}
    (hOp : Inbound.Dated policy (op (w.withPart (w.part.receiving peer))).2)
    (hDiffers : w.deadlines.Differs (SessionId.Of own peer .inbound)
      (op (w.withPart (w.part.receiving peer))).2.deadlines) :
    Dated policy (onInbound peer op w).2 := by
  refine ⟨fun other => ?_, fun other => ?_⟩
  · refine h.sending_of_differs hSettled hDiffers ?_
    rintro id ⟨epoch, rfl⟩ ⟨epoch', hSame⟩
    cases hSame
  · have hSide := receiving_onInbound peer other op w
    by_cases hOther : other = peer
    · subst hOther
      rw [if_pos rfl] at hSide
      rw [hSide]
      exact hOp
    · rw [if_neg hOther] at hSide
      rw [hSide]
      refine h.receiving_of_differs hSettled hDiffers ?_
      rintro id ⟨epoch, rfl⟩ ⟨epoch', hSame⟩
      exact hOther (congrArg SessionId.peer hSame)

/-- Work on one sending side that touches its own deadlines only leaves the sessions of all others.
-/
theorem Dated.onExistingOutbound (hSettled : Settled own may w) (h : Dated policy w)
    {otherwise : α} {op : Work Outbound → α × Work Outbound}
    (hOp : Outbound.Dated policy (op (w.withPart (w.part.sending peer))).2)
    (hDiffers : w.deadlines.Differs (SessionId.Of own peer .outbound)
      (op (w.withPart (w.part.sending peer))).2.deadlines) :
    Dated policy (onExistingOutbound peer otherwise op w).2 := by
  unfold Pairs.onExistingOutbound
  split
  · exact h.onOutbound hSettled hOp hDiffers
  · exact h

variable {s : Setting} {P : Primitives}

/-- A message schedules the session that it begins by the policy. -/
theorem dated_encrypt {record : Peer} {level : Level} {plaintext : Bytes}
    (hSettled : Settled s.own.deviceId may w) (hMay : may record.deviceId)
    (h : Dated s.config.rotation w)
    (hReturns : (w.part.sending record.deviceId).nextEpoch ≤
      ((encrypt P s record level plaintext w).2.part.sending record.deviceId).nextEpoch) :
    Dated s.config.rotation (encrypt P s record level plaintext w).2 := by
  rw [sending_encrypt, if_pos rfl] at hReturns
  have hSide := hSettled.sending record.deviceId
  exact h.onOutbound hSettled (Outbound.dated_encrypt hSide (h.sending record.deviceId))
    (Outbound.settles_encrypt hSide hMay hReturns).deadlines

/-- An envelope schedules the session that it begins by the policy. -/
theorem dated_decrypt {sender : Peer} (hSettled : Settled s.own.deviceId may w)
    (h : Dated s.config.rotation w) (e : Envelope) :
    Dated s.config.rotation (decrypt P s sender e w).2 := by
  have hNamed := (hSettled.receiving sender.deviceId).named
  refine h.onInbound hSettled (Inbound.dated_decrypt hNamed (h.receiving sender.deviceId)) ?_
  refine (Inbound.keeps_decrypt s P sender hNamed e).deadlines.mono ?_
  rintro id ⟨epoch, -, rfl⟩
  exact ⟨epoch, rfl⟩

variable (s)

/-- Giving up an establishment touches no deadline. -/
theorem dated_checkEstablishment (hSettled : Settled own may w) (h : Dated policy w)
    (peer : String) : Dated policy (checkEstablishment s peer w).2 := by
  refine h.onExistingOutbound hSettled ?_ ?_
  · split
    · exact h.sending peer
    · exact h.sending peer
  · split
    · exact .refl _
    · exact .refl _

/-- Dropping the sessions with a peer leaves those with others as they are. -/
theorem Drops.dated {barred : Bool} (hDrops : Drops peer barred w w')
    (hSettled : Settled own may w) (h : Dated policy w) : Dated policy w' := by
  have hDiffers : w.deadlines.Differs (fun id => id.peer = peer) w'.deadlines := by
    intro id hOther
    rw [hDrops.deadlines, if_neg]
    exact fun hMem => hOther (hSettled.mem_liveWith_ids.1 hMem).1
  refine ⟨fun other => ?_, fun other => ?_⟩
  · rw [hDrops.sending]
    split
    · exact Outbound.dated_of_live_eq_nil rfl
    · rename_i hOther
      refine h.sending_of_differs hSettled hDiffers ?_
      rintro id ⟨epoch, rfl⟩
      exact hOther
  · rw [hDrops.receiving]
    split
    · exact Inbound.dated_of_epochs_eq_empty rfl
    · rename_i hOther
      refine h.receiving_of_differs hSettled hDiffers ?_
      rintro id ⟨epoch, rfl⟩
      exact hOther

/-- Closing drops all sessions with their deadlines. -/
theorem dated_shutdown (hSettled : Settled own may w) (h : Dated policy w) :
    Dated policy (shutdown s w).2 := by
  unfold shutdown
  refine (List.foldlRecOn
    (motive := fun x : Nat × Work Pairs => Settled own may x.2 ∧ Dated policy x.2)
    w.part.peers _ (b := (0, w)) ⟨hSettled, h⟩ fun x hx peer _ => ?_).2
  exact ⟨settled_retire s hx.1 "shutdown" peer,
    (drops_retire s "shutdown" peer x.2).2.dated hx.1 hx.2⟩

-- ---------------------------------------------------------------------------
-- Sweeps
-- ---------------------------------------------------------------------------

/-- Doing what is due for one session leaves all others to end when they were to. -/
theorem dated_applyDue (hSettled : Settled own may w) (h : Dated policy w) (r : SweepReport)
    {id : SessionId} {entry : Rotation.Deadline} (hEntry : w.deadlines.get? id = some entry)
    {action : Rotation.DueAction} (hDue : entry.due? s.now = some action) :
    Dated policy (applyDue s r w id action).2 := by
  have hDiffers := (settled_applyDue s hSettled r hEntry hDue).2
  rw [applyDue_of_turn s r (hSettled.turn_eq s hEntry hDue)] at hDiffers ⊢
  cases hDirection : id.direction with
  | outbound =>
    rw [hDirection] at hDiffers
    have hId := hSettled.id_eq hEntry hDirection
    refine h.onOutbound hSettled (Outbound.dated_applyOutbound (hSettled.sending id.peer)
      (h.sending id.peer) id action) (Rotation.Deadlines.Differs.mono hDiffers ?_)
    rintro _ rfl
    exact ⟨_, hId⟩
  | inbound =>
    rw [hDirection] at hDiffers
    have hId := hSettled.id_eq hEntry hDirection
    refine h.onInbound hSettled (Inbound.dated_applyInbound (hSettled.receiving id.peer).named
      (h.receiving id.peer) id action) (Rotation.Deadlines.Differs.mono hDiffers ?_)
    rintro _ rfl
    exact ⟨_, hId⟩

/-- Doing all that is due leaves what is left to end when it was to. -/
theorem dated_turns {turns : List (SessionId × Rotation.DueAction)} {x : SweepReport × Work Pairs}
    (hPending : Pending s x.2 turns) (hSettled : Settled own may x.2) (h : Dated policy x.2) :
    Dated policy (turns.foldl (fun (r, w) d => applyDue s r w d.1 d.2) x).2 := by
  induction turns generalizing x with
  | nil => exact h
  | cons d rest ih =>
    obtain ⟨entry, hEntry, hDue⟩ := hPending.due d (.head _)
    obtain ⟨hSettledNext, hDiffers⟩ := settled_applyDue s hSettled x.1 hEntry hDue
    exact ih (x := applyDue s x.1 x.2 d.1 d.2) (hPending.next s hDiffers) hSettledNext
      (dated_applyDue s hSettled h x.1 hEntry hDue)

/-- A sweep of one establishment is a look for it, counted. -/
theorem snd_sweepEstablishment (r : SweepReport) (w : Work Pairs) (peer : String) :
    (sweepEstablishment s r w peer).2 = (checkEstablishment s peer w).2 := by
  unfold sweepEstablishment
  split <;> exact (congrArg Prod.snd ‹checkEstablishment s peer w = _›).symm

/-- A whole sweep leaves what is left to end when it was to. -/
theorem dated_sweep (hSettled : Settled own may w) (h : Dated policy w) :
    Dated policy (sweep s w).2 := by
  have hTurned := settled_turns s (x := (⟨0, 0, 0⟩, w)) (pending_due s w) hSettled
  have hDated := dated_turns s (x := (⟨0, 0, 0⟩, w)) (pending_due s w) hSettled h
  unfold sweep
  refine (List.foldlRecOn
    (motive := fun x : SweepReport × Work Pairs => Settled own may x.2 ∧ Dated policy x.2) _ _
    ⟨hTurned, hDated⟩ fun x hx peer _ => ?_).2
  show Settled own may (sweepEstablishment s x.1 x.2 peer).2 ∧
    Dated policy (sweepEstablishment s x.1 x.2 peer).2
  rw [snd_sweepEstablishment]
  exact ⟨settled_checkEstablishment s hx.1 peer, dated_checkEstablishment s hx.1 hx.2 peer⟩

/-- **Every operation that handles no message** keeps the times at which sessions end. -/
theorem Calm.dated {s : Setting} {barring : String → Prop} {closing : Prop}
    (hCalm : Calm s barring closing w w') (hSettled : Settled own may w) (h : Dated policy w) :
    Dated policy w' := by
  cases hCalm with
  | nothing => exact h
  | request peer =>
    exact h.onOutbound hSettled (Outbound.dated_request (h.sending peer)) (.refl _)
  | checkEstablishment peer => exact dated_checkEstablishment s hSettled h peer
  | rotate peer =>
    exact h.onExistingOutbound hSettled (Outbound.dated_expireCurrent (h.sending peer))
      (Outbound.settles_expireCurrent s (hSettled.sending peer)).deadlines
  | shutdown => exact dated_shutdown s hSettled h
  | sweep => exact dated_sweep s hSettled h
  | revoke peer => exact (drops_revoke s peer w).2.dated hSettled h

/-- **The entry of a session:** when it ends by the policy, and when it is dropped if it has
ended. -/
theorem Dated.entry_eq (h : Dated policy w) (hSettled : Settled own may w) {session : Session}
    (hLive : session ∈ w.part.live) :
    w.deadlines.get? session.id = some ⟨policy.expiry session.createdAt, session.retireAt⟩ := by
  obtain ⟨⟨expireAt, retireAt⟩, hEntry, hRetire⟩ := hSettled.entry hLive
  have hDated : session.Dated policy w.deadlines := by
    obtain ⟨peer, hSends | hReceives⟩ := mem_live_iff.1 hLive
    · exact h.sending peer session hSends
    · obtain ⟨epoch, hSession⟩ := Inbound.mem_live_iff.1 hReceives
      exact h.receiving peer epoch session hSession
  unfold Session.Dated at hDated
  rw [hEntry] at hDated ⊢
  have hExpire : expireAt = policy.expiry session.createdAt := Option.some.inj hDated
  have hRetire : retireAt = session.retireAt := hRetire
  rw [hExpire, hRetire]

end Pairs

-- ---------------------------------------------------------------------------
-- Devices
-- ---------------------------------------------------------------------------

namespace Device

variable {P : Primitives} {d d' start : Device} {may : String → Prop} {history : History}

/-- A device all of whose sessions end when its policy says so. -/
def Dated (d : Device) : Prop := Pairs.Dated d.config.rotation d.work

/-- A device whose sessions are left by work that is dated is so itself. -/
theorem dated_of_left {w : Work Pairs} (hEvolves : d.Evolves d')
    (h : Pairs.Dated d.config.rotation w) (hLeft : d'.Left w) : d'.Dated := by
  obtain ⟨hPairs, hDeadlines⟩ := hLeft
  unfold Dated
  rw [hEvolves.config]
  refine ⟨fun peer => ?_, fun peer => ?_⟩
  · refine (h.sending peer).congr ?_ hDeadlines
    show (d'.pairs.sending peer).live = (w.part.sending peer).live
    rw [hPairs]
  · show ∀ epoch session, (d'.pairs.receiving peer).epochs.get? epoch = some session →
      session.Dated d.config.rotation d'.deadlines
    rw [hPairs, hDeadlines]
    exact h.receiving peer

/-- **An operation keeps the times at which sessions end.** -/
theorem dated_step (hFiled : d.contacts.Filed) (hSettled : d.Settled fun _ => True) (h : d.Dated)
    (op : Operation) (hReturns : overruns P d op = false) : (d.step P op).2.Dated := by
  -- calls without messages age the sessions; a message moves one side
  by_cases hMessage : op.handlesMessage = false
  · obtain ⟨hEvolves, w, hCalm, hLeft⟩ := calms_step (P := P) d op hMessage
    exact dated_of_left hEvolves (hCalm.dated hSettled h) hLeft
  cases op with
  | send peer level plaintext =>
    have hLater := nextEpoch_le_send hFiled hReturns
    show (d.send P peer level plaintext).2.Dated
    rcases send_cases (d.send P peer level plaintext).eta.symm with
      ⟨-, -, hEvolves, w, hCalm, hLeft⟩ |
        ⟨record, made, w, hRecord, hTrusted, hw, hEvolves, hLeft, -⟩
    · exact dated_of_left hEvolves (hCalm.dated hSettled h) hLeft
    · have hId := hFiled peer record hRecord
      obtain rfl : _ = w := congrArg Prod.snd hw
      rw [hLeft.1, ← hId] at hLater
      exact dated_of_left hEvolves
        (Pairs.dated_encrypt (s := d.setting d.now) hSettled trivial h hLater) hLeft
  | receive bytes =>
    show (d.receive P bytes).2.Dated
    rcases receive_cases (d.receive P bytes).eta.symm with
      ⟨-, -, log, hLog⟩ | ⟨e, sender, opened, w, -, -, hw, hEvolves, hLeft, -⟩
    · rw [hLog]
      exact h
    · obtain rfl : _ = w := congrArg Prod.snd hw
      exact dated_of_left hEvolves (Pairs.dated_decrypt (s := d.setting d.now) hSettled h e) hLeft
  | _ => exact absurd rfl hMessage

/-- **In every state of a run,** sessions end when the policy says so. -/
theorem Run.dated (hStart : Starts P start) (hRun : Run P start history d) : d.Dated := by
  induction hRun with
  | start =>
    obtain ⟨hBlank, -, -⟩ := hStart.blank
    exact ⟨fun peer => Outbound.dated_of_live_eq_nil (hBlank.live peer),
      fun peer => Inbound.dated_of_epochs_eq_empty (congrArg (·.epochs) (hBlank.receiving peer))⟩
  | step op before returns ih =>
    exact dated_step (before.filed hStart) (before.settled hStart) ih op returns

end Device

end EndToEnd
