import EndToEnd.Proofs.Delivery
import EndToEnd.Proofs.Naming

/-!
# Receiving sessions that wait

An active session of a receiving side waits for the next number of its epoch. It goes on waiting
whatever the device does, until its time is over, its sender is revoked or the device closes; and a
message that is received moves it by one.

Main results:

* `Device.reaches_step` — which receiving sessions an operation may touch.
* `Device.Waits.step` — a session goes on waiting until its time is over.
* `Device.waits_of_receive` — a session behind a message that was received.
-/

namespace EndToEnd

-- ---------------------------------------------------------------------------
-- The time of an epoch
-- ---------------------------------------------------------------------------

namespace Rotation.Policy

variable {p : Policy} {created created' now now' : UInt64}

/-- Whether the time of an epoch that began at some time is over. -/
def Over (p : Policy) (created now : UInt64) : Prop :=
  created.toNat + p.interval.millis.toNat ≤ now.toNat

theorem Over.later (h : p.Over created now) (hLater : now ≤ now') : p.Over created now' :=
  Nat.le_trans h (UInt64.le_iff_toNat_le.1 hLater)

theorem Over.earlier (h : p.Over created' now) (hEarlier : created ≤ created') :
    p.Over created now := by
  have hNat := UInt64.le_iff_toNat_le.1 hEarlier
  unfold Over at h ⊢
  omega

/-- An epoch that fits a message has its level, may carry one more, and its time is not over. -/
theorem of_evaluate_eq_none {used : Usage} {level : Level} (h : p.evaluate used level now = none) :
    used.level = level ∧ used.messages < p.threshold ∧ ¬p.Over used.createdAt now := by
  unfold evaluate at h
  split at h
  · cases h
  · rename_i hLevel
    split at h
    · cases h
    · rename_i hMore
      split at h
      · cases h
      · rename_i hYoung
        refine ⟨Decidable.not_not.1 hLevel, UInt64.not_le.1 hMore, ?_⟩
        rw [UInt64.le_iff_toNat_le, toNat_saturatingSub] at hYoung
        unfold Over
        omega

/-- What is due at the end of an epoch is due when its time is over. -/
theorem over_of_expiry_le (h : p.expiry created ≤ now) (hNow : now ≠ Device.lastNumber) :
    p.Over created now := by
  rw [UInt64.le_iff_toNat_le] at h
  unfold expiry at h
  rw [toNat_saturatingAdd] at h
  have hSize : now.toNat < UInt64.size := now.toNat_lt
  have hLast : now.toNat ≠ UInt64.size - 1 := fun hSame => hNow (UInt64.toNat_inj.1 hSame)
  unfold Over
  omega

end Rotation.Policy

/-- What a message adds to the use of a session. -/
theorem Session.usage_of_encrypt {P : Primitives} {own : Identity} {plaintext : Bytes}
    {s s' : Session} {random random' : RandomSource} {e : Envelope}
    (h : s.encrypt P own plaintext random = .ok (e, s', random')) :
    s'.createdAt = s.createdAt ∧ s'.messages = s.messages + 1 ∧
      s'.ratchet.next = s.ratchet.next + 1 := by
  obtain ⟨-, rfl, -⟩ := encrypt_cases h
  exact ⟨rfl, rfl, rfl⟩

/-- **The session behind a message.** The message has the level that was asked for. The session was
there and its time is not over, or it begins with the message, in the next epoch. -/
theorem Outbound.Makes.current {P : Primitives} {setting : Setting} {peer : Peer} {level : Level}
    {plaintext : Bytes} {o o' : Outbound} {e : Envelope}
    (h : Makes P setting peer level plaintext o e o') :
    ∃ session', o'.current = some session' ∧ session'.epoch = e.epoch ∧
      session'.ratchet.next = e.sequence + 1 ∧ e.level = level ∧
      ((∃ session, o.current = some session ∧ session.epoch = e.epoch ∧
          session.ratchet.next = e.sequence ∧ session'.createdAt = session.createdAt ∧
          ¬setting.config.rotation.Over session.createdAt setting.now ∧
          o'.nextEpoch = o.nextEpoch) ∨
        (e.epoch = o.nextEpoch ∧ e.sequence = 1 ∧ session'.createdAt = setting.now ∧
          o'.nextEpoch = o.nextEpoch + 1)) := by
  cases h with
  | @continues session session' random random' current fits made =>
    obtain ⟨hEpoch, hSequence, hLevel, -⟩ := Session.header_of_encrypt made
    obtain ⟨hCreated, -, hNext⟩ := Session.usage_of_encrypt made
    obtain ⟨hId, -⟩ := Session.session_of_encrypt made
    obtain ⟨hFits, -, hYoung⟩ := Rotation.Policy.of_evaluate_eq_none fits
    exact ⟨session', rfl, (congrArg SessionId.epoch hId).trans hEpoch.symm, by rw [hNext, hSequence],
      hLevel.trans hFits,
      .inl ⟨session, current, hEpoch.symm, hSequence.symm, hCreated, hYoung, rfl⟩⟩
  | @begins session session' ephemeral random random' begun made =>
    obtain ⟨hEpoch, hSequence, hLevel, -⟩ := Session.header_of_encrypt made
    obtain ⟨hCreated, -, hNext⟩ := Session.usage_of_encrypt made
    obtain ⟨hId, -⟩ := Session.session_of_encrypt made
    obtain ⟨keys, -, rfl⟩ := beginSession_eq_ok begun
    exact ⟨session', rfl, (congrArg SessionId.epoch hId).trans hEpoch.symm, by rw [hNext, hSequence],
      hLevel, .inr ⟨hEpoch, hSequence, hCreated, rfl⟩⟩

-- ---------------------------------------------------------------------------
-- One side
-- ---------------------------------------------------------------------------

/-- A session that has not ended, waits for some number, began no earlier than some time, and is in
the index as it was entered. -/
structure Session.Waits (policy : Rotation.Policy) (deadlines : Rotation.Deadlines)
    (number created : UInt64) (session : Session) : Prop where
  next : session.ratchet.next = number
  active : session.phase = .active
  young : created ≤ session.createdAt
  scheduled : deadlines.get? session.id = some ⟨policy.expiry session.createdAt, none⟩

/-- A session behind a message waits for the next, if it is in its time. -/
theorem Session.waits_of_decrypt {P : Primitives} {policy : Rotation.Policy}
    {deadlines : Rotation.Deadlines} {session session' : Session} {e : Envelope} {plaintext : Bytes}
    {maxSkip created : UInt64} (h : session.decrypt P maxSkip e = .ok (plaintext, session'))
    (hActive : session.phase = .active) (hYoung : created ≤ session.createdAt)
    (hScheduled : deadlines.get? session.id = some ⟨policy.expiry session.createdAt, none⟩) :
    session'.Waits policy deadlines (e.sequence + 1) created := by
  obtain ⟨-, hNext, hSame⟩ := Session.next_of_decrypt h
  refine ⟨hNext, ?_, ?_, ?_⟩
  · rw [hSame]
    exact hActive
  · rw [hSame]
    exact hYoung
  · rw [hSame]
    exact hScheduled

namespace Inbound

/-- A receiving side whose session of some epoch waits. -/
def Waits (policy : Rotation.Policy) (w : Work Inbound) (epoch number created : UInt64) : Prop :=
  ∃ session, w.part.epochs.get? epoch = some session ∧
    session.Waits policy w.deadlines number created

variable {P : Primitives} {s : Setting} {sender : Peer} {e : Envelope} {plaintext : Bytes}
  {w w' : Work Inbound} {created : UInt64}

/-- **Behind a message, the session of its epoch waits for the next,** if it did before or begins
with it. -/
theorem waits_of_decrypt (h : decrypt P s sender e w = (.ok plaintext, w'))
    (hBefore : (w.part.epochs.get? e.epoch = none ∧ created ≤ s.now) ∨
      ∃ number, Waits s.config.rotation w e.epoch number created) :
    Waits s.config.rotation w' e.epoch (e.sequence + 1) created := by
  unfold decrypt at h
  -- the side was closed by a revocation
  split at h
  · cases h
  split at h
  · -- the epoch is known
    rename_i session hKnown
    rcases hBefore with ⟨hNone, -⟩ | ⟨number, session', hSession, hWaits⟩
    · rw [hKnown] at hNone
      cases hNone
    rw [hKnown] at hSession
    cases hSession
    unfold continueEpoch at h
    -- the session reads the envelope and goes on, or it has run out and reads nothing
    split at h
    · split at h
      · cases h
      · rename_i opened hOpened
        cases h
        exact ⟨_, Table.get?_insert_self ..,
          Session.waits_of_decrypt hOpened hWaits.active hWaits.young hWaits.scheduled⟩
    · cases h
  · -- the epoch is not known
    rename_i hUnknown
    have hCreated : created ≤ s.now := by
      rcases hBefore with ⟨-, hCreated⟩ | ⟨number, session', hSession, -⟩
      · exact hCreated
      · rw [hUnknown] at hSession
        cases hSession
    -- the epoch is over, and so is not begun again
    split at h
    · cases h
    unfold beginEpoch at h
    split at h
    · cases h
    · rename_i session hBegun
      split at h
      · cases h
      · rename_i opened hOpened
        cases h
        obtain ⟨-, hActive, hNow⟩ := beginSession_eq_ok hBegun
        have hId : session.id = opened.id := by rw [(Session.next_of_decrypt hOpened).2.2]
        refine ⟨_, Table.get?_insert_self .., Session.waits_of_decrypt hOpened hActive ?_ ?_⟩
        · rw [hNow]
          exact hCreated
        · rw [hNow]
          exact (Rotation.Deadlines.get?_schedule ..).trans (if_pos hId)

end Inbound

-- ---------------------------------------------------------------------------
-- Devices
-- ---------------------------------------------------------------------------

namespace Device

variable {P : Primitives} {d d' start : Device} {history : History} {sender : String}
  {epoch number created : UInt64}

/-- A device whose sessions and deadlines go by their ids. -/
def Named (d : Device) : Prop := Pairs.Named d.id d.work

/-- What reaches some sessions leaves a device that has these sessions. -/
theorem reaches_of_left {own : String} {ids : SessionId → Prop} {w w' : Work Pairs}
    (h : Pairs.Reaches own ids w w') (hLeft : d.Left w') : Pairs.Reaches own ids w d.work := by
  obtain ⟨hPairs, hDeadlines⟩ := hLeft
  refine ⟨⟨?_, ?_, ?_⟩, ?_⟩
  · show ∀ peer, (d.pairs.sending peer).Named own
    rw [hPairs]
    exact h.named.sending
  · show ∀ peer, (d.pairs.receiving peer).Named own peer
    rw [hPairs]
    exact h.named.receiving
  · show ∀ id deadline, d.deadlines.get? id = some deadline → id.device = own
    rw [hDeadlines]
    exact h.named.deadlines
  · show ∀ peer epoch, _ → (d.pairs.receiving peer).epochs.get? epoch = _ ∧ d.deadlines.get? _ = _
    rw [hPairs, hDeadlines]
    exact h.spared

/-- The ids of receiving sessions that an operation may touch: all when the device closes, those of
peers that are revoked, those for which something is due, and those of the sender of an envelope. -/
def Touched (P : Primitives) (d : Device) (op : Operation) (id : SessionId) : Prop :=
  op = .shutdown ∨ (d.step P op).2.isRevoked id.peer = true ∨
    (∃ deadline, d.deadlines.get? id = some deadline ∧ deadline.due? (op.time d.now) ≠ none) ∨
    ∃ bytes e, op = .receive bytes ∧ Envelope.decode d.config.limits bytes = .ok e ∧
      e.sender = id.peer

/-- **Which receiving sessions an operation may touch.** -/
theorem reaches_step (hFiled : d.contacts.Filed) (hNamed : d.Named) (op : Operation) :
    Pairs.Reaches d.id (d.Touched P op) d.work (d.step P op).2.work := by
  by_cases hMessage : op.handlesMessage = false
  · -- a call that handles no message reaches what it closes, revokes or finds due
    obtain ⟨-, w, hCalm, hLeft⟩ := calms_step (P := P) d op hMessage
    refine (reaches_of_left (hCalm.reaches hNamed) hLeft).mono ?_
    rintro id (hClosing | hRevoked | hDue)
    · exact .inl hClosing
    · exact .inr (.inl hRevoked)
    · exact .inr (.inr (.inl hDue))
  cases op with
  | send peer level plaintext =>
    show Pairs.Reaches d.id _ d.work (d.send P peer level plaintext).2.work
    rcases send_cases (d.send P peer level plaintext).eta.symm with
      ⟨-, -, -, w, hCalm, hLeft⟩ | ⟨record, made, w, -, -, hw, -, hLeft, -⟩
    · refine (reaches_of_left (hCalm.reaches hNamed) hLeft).mono ?_
      rintro id (hFalse | hRevoked | hDue)
      · exact hFalse.elim
      · exact .inr (.inl hRevoked)
      · exact .inr (.inr (.inl hDue))
    · obtain rfl : _ = w := congrArg Prod.snd hw
      have hReaches := Pairs.reaches_encrypt (d.setting d.now) P hNamed record level plaintext
      exact (reaches_of_left hReaches hLeft).mono fun _ hFalse => hFalse.elim
  | receive bytes =>
    show Pairs.Reaches d.id _ d.work (d.receive P bytes).2.work
    rcases receive_cases (d.receive P bytes).eta.symm with
      ⟨-, -, log, hLog⟩ | ⟨e, peer, opened, w, hDecoded, hAuthentic, hw, -, hLeft, -⟩
    · rw [hLog]
      exact .refl hNamed
    · obtain rfl : _ = w := congrArg Prod.snd hw
      have hReaches := Pairs.reaches_decrypt (d.setting d.now) P hNamed peer e
      refine (reaches_of_left hReaches hLeft).mono fun id hPeer => ?_
      -- an envelope reaches the side of its sender
      refine .inr (.inr (.inr ⟨bytes, e, rfl, hDecoded, ?_⟩))
      rw [hPeer]
      exact (hFiled _ _ (authenticate_eq_ok hAuthentic).1).symm
  | _ => exact absurd rfl hMessage

theorem named_step (hFiled : d.contacts.Filed) (hNamed : d.Named) (op : Operation) :
    (d.step P op).2.Named := by
  have hId : (d.step P op).2.id = d.id :=
    congrArg Identity.deviceId (evolves_step (P := P) d op).identity
  unfold Named
  rw [hId]
  exact (reaches_step hFiled hNamed op).named

theorem Run.named (hStart : Starts P start) (hRun : Run P start history d) : d.Named := by
  induction hRun with
  | start =>
    obtain ⟨hBlank, hDeadlines, -⟩ := hStart.blank
    refine ⟨fun peer session hMem => ?_, fun peer epoch session hSession => ?_,
      fun id deadline h => ?_⟩
    · have hMem : session ∈ (start.pairs.sending peer).live := hMem
      rw [hBlank.live] at hMem
      cases hMem
    · have hSession : (start.pairs.receiving peer).epochs.get? epoch = some session := hSession
      rw [hBlank.receiving] at hSession
      cases hSession
    · have h : start.deadlines.get? id = some deadline := h
      rw [hDeadlines] at h
      cases h
  | step op before _ ih => exact named_step (before.filed hStart) ih op

-- ---------------------------------------------------------------------------
-- A session that waits
-- ---------------------------------------------------------------------------

/-- A device that waits for some number of an epoch of a sender, in a session that began no earlier
than some time. -/
def Waits (d : Device) (sender : String) (epoch number created : UInt64) : Prop :=
  Inbound.Waits d.config.rotation (d.work.withPart (d.pairs.receiving sender)) epoch number created

/-- **A session goes on waiting** while its time is not over, whatever else is done than closing the
device, revoking the sender, sweeping as of another time and presenting what the sender sent. -/
theorem Waits.step (hFiled : d.contacts.Filed) (hNamed : d.Named) (op : Operation)
    (h : d.Waits sender epoch number created) (hNow : d.now ≠ lastNumber)
    (hYoung : ¬d.config.rotation.Over created d.now) (hOpen : op ≠ .shutdown)
    (hTime : op.time d.now = d.now) (hTrusted : (d.step P op).2.isRevoked sender = false)
    (hOther : ∀ bytes e, op = .receive bytes → Envelope.decode d.config.limits bytes = .ok e →
      e.sender ≠ sender) :
    (d.step P op).2.Waits sender epoch number created := by
  obtain ⟨session, hSession, hWaits⟩ := h
  have hId : session.id = ⟨d.id, sender, epoch, .inbound⟩ :=
    hNamed.receiving sender epoch session hSession
  -- what could touch the session: a shutdown, a revocation, its deadline, an envelope of the sender
  have hSpared : ¬d.Touched P op ⟨d.id, sender, epoch, .inbound⟩ := by
    rintro (hClosing | hRevoked | ⟨deadline, hDeadline, hDue⟩ |
      ⟨bytes, e, hReceive, hDecoded, hSender⟩)
    · exact hOpen hClosing
    · have hRevoked : (d.step P op).2.isRevoked sender = true := hRevoked
      rw [hTrusted] at hRevoked
      cases hRevoked
    · -- the deadline of an active session is the end of its lifetime, which is still to come
      have hScheduled : d.deadlines.get? session.id = _ := hWaits.scheduled
      rw [← hId, hScheduled] at hDeadline
      cases hDeadline
      rw [hTime] at hDue
      refine hYoung (.earlier (Rotation.Policy.over_of_expiry_le ?_ hNow) hWaits.young)
      refine Decidable.by_contra fun hLater => hDue ?_
      exact if_neg hLater
    · exact hOther bytes e hReceive hDecoded hSender
  obtain ⟨hSame, hDeadline⟩ := (reaches_step hFiled hNamed op).spared sender epoch hSpared
  unfold Waits
  rw [(evolves_step (P := P) d op).config]
  refine ⟨session, hSame.trans hSession, hWaits.next, hWaits.active, hWaits.young, ?_⟩
  have hScheduled : d.deadlines.get? session.id = _ := hWaits.scheduled
  rw [hId] at hScheduled ⊢
  exact hDeadline.trans hScheduled

/-- What is received is opened on the side of its sender. -/
theorem opened_of_receive {bytes : Bytes} {m : ReceivedMessage}
    (hReceived : (d.receive P bytes).1 = .ok m) :
    ∃ e peer w, Envelope.decode d.config.limits bytes = .ok e ∧ d.authenticate P e = .ok peer ∧
      Inbound.decrypt P (d.setting d.now) peer e
          (d.work.withPart (d.pairs.receiving peer.deviceId)) = (.ok m.plaintext, w) ∧
      m = ⟨peer.deviceId, e.level, e.epoch, e.sequence, peer.trust, m.plaintext⟩ ∧
      (d.receive P bytes).2.pairs.receiving peer.deviceId = w.part ∧
      (d.receive P bytes).2.deadlines = w.deadlines := by
  rcases receive_cases (d.receive P bytes).eta.symm with
    ⟨failure, hFailed, -⟩ | ⟨e, peer, opened, w, hDecoded, hPeer, hw, -, ⟨hPairs, hDeadlines⟩,
      hResult⟩
  · rw [hFailed] at hReceived
    cases hReceived
  rcases hResult with ⟨-, failure, -, hFailed⟩ | ⟨plaintext, rfl, hOk⟩
  · rw [hFailed] at hReceived
    cases hReceived
  rw [hOk] at hReceived
  cases hReceived
  let v := d.work.withPart (d.pairs.receiving peer.deviceId)
  have hText : (Inbound.decrypt P (d.setting d.now) peer e v).1 = .ok plaintext :=
    congrArg Prod.fst hw
  have hIndex : w.deadlines = (Inbound.decrypt P (d.setting d.now) peer e v).2.deadlines :=
    (congrArg (·.2.deadlines) hw).symm
  have hSide := Pairs.receiving_decrypt (d.setting d.now) P peer e d.work peer.deviceId
  rw [hw, if_pos rfl, ← hPairs] at hSide
  exact ⟨e, peer, _, hDecoded, hPeer, Prod.ext hText rfl, rfl, hSide, hDeadlines.trans hIndex⟩

/-- **Behind a message that was received, the session of its epoch waits for the next.** -/
theorem waits_of_receive {bytes : Bytes} {e : Envelope} {peer : Peer} {m : ReceivedMessage}
    (hDecoded : Envelope.decode d.config.limits bytes = .ok e)
    (hPeer : d.authenticate P e = .ok peer)
    (hId : peer.deviceId = sender) (hReceived : (d.receive P bytes).1 = .ok m)
    (hBefore : ((d.pairs.receiving sender).epochs.get? e.epoch = none ∧ created ≤ d.now) ∨
      ∃ number, d.Waits sender e.epoch number created) :
    (d.receive P bytes).2.Waits sender e.epoch (e.sequence + 1) created := by
  obtain ⟨e', peer', w, hDecoded', hPeer', hOpened, -, hSide, hIndex⟩ := opened_of_receive hReceived
  rw [hDecoded] at hDecoded'
  cases hDecoded'
  rw [hPeer] at hPeer'
  cases hPeer'
  subst hId
  obtain ⟨session, hSession, hWaits⟩ := Inbound.waits_of_decrypt hOpened hBefore
  have hConfig : (d.receive P bytes).2.config = d.config :=
    (evolves_step (P := P) d (.receive bytes)).config
  unfold Waits
  rw [hConfig]
  refine ⟨session, ?_, hWaits.next, hWaits.active, hWaits.young, ?_⟩
  · show ((d.receive P bytes).2.pairs.receiving peer.deviceId).epochs.get? e.epoch = some session
    rw [hSide]
    exact hSession
  · show (d.receive P bytes).2.deadlines.get? session.id = _
    rw [hIndex]
    exact hWaits.scheduled

end Device

end EndToEnd
