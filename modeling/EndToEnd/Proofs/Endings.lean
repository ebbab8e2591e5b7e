import EndToEnd.Proofs.Grace
import EndToEnd.Proofs.Sweeps

/-!
# When receiving ends

For sending, an epoch has a time: the next message looks at its age. For receiving nothing looks at
it. An epoch of a sender ends when a sweep finds its time over, or when a message of a later epoch
is received, and then its grace begins. As long as neither happens, it is received, however old it
is.

Main results:

* `Device.fares_step` — what an operation can do to a receiving side.
* `Inbound.Lasts.step`, `Inbound.Lasts.run` — an epoch until an operation ends it.
* `Device.receives_until_ended` — from when on the envelopes of an epoch are refused, and until when
  they are accepted.
* `Device.unswept_epoch_outlives_its_time` — an epoch for which neither happens.
-/

namespace EndToEnd

-- ---------------------------------------------------------------------------
-- What an operation can do to a receiving side
-- ---------------------------------------------------------------------------

namespace Device

variable {P : Primitives}

/-- What becomes of the receiving side of a sender when a device is asked for an operation. -/
inductive Fares (P : Primitives) (d : Device) (op : Operation) (sender : String) :
    Inbound → Prop where
  | stays (unswept : ∀ now, op ≠ .maintain now)
      (unheard : History.message? sender (d.step P op).1 = none) :
      Fares P d op sender (d.pairs.receiving sender)
  /-- All its sessions are dropped. -/
  | empties {i' : Inbound} (latest : i'.latest = (d.pairs.receiving sender).latest)
      (gone : ∀ epoch, i'.epochs.get? epoch = none)
      (cause : op = .shutdown ∨ (d.step P op).2.isRevoked sender = true)
      (calm : op.handlesMessage = false) (unswept : ∀ now, op ≠ .maintain now) :
      Fares P d op sender i'
  | sweeps {now : UInt64} (sweep : op = .maintain now) :
      Fares P d op sender ((d.pairs.receiving sender).swept d.config now)
  /-- An envelope is refused, and its session is over. -/
  | sheds {bytes : Bytes} (receives : op = .receive bytes) {failure : Failure}
      (refused : (d.receive P bytes).1 = .error failure) {epoch : UInt64} {session : Session}
      (known : (d.pairs.receiving sender).epochs.get? epoch = some session)
      (lapsed : session.IsOver d.now) :
      Fares P d op sender { d.pairs.receiving sender with
        epochs := (d.pairs.receiving sender).epochs.erase epoch }
  | accepts {bytes : Bytes} {e : Envelope} {peer : Peer} {plaintext : Bytes} {i' : Inbound}
      (receives : op = .receive bytes)
      (received : (d.receive P bytes).1 =
        .ok ⟨sender, e.level, e.epoch, e.sequence, peer.trust, plaintext⟩)
      (takes : d.Takes P bytes sender e peer plaintext i') : Fares P d op sender i'

/-- An operation that reaches no receiving side. -/
theorem Fares.of_inbound {d : Device} {op : Operation} {sender : String}
    (hUnswept : ∀ now, op ≠ .maintain now)
    (hUnheard : History.message? sender (d.step P op).1 = none)
    (h : (d.step P op).2.pairs.inbound = d.pairs.inbound) :
    d.Fares P op sender ((d.step P op).2.pairs.receiving sender) := by
  have hSame : (d.step P op).2.pairs.receiving sender = d.pairs.receiving sender := by
    unfold Pairs.receiving Pairs.inbound?
    rw [h]
  rw [hSame]
  exact .stays hUnswept hUnheard

/-- Work on a sending side that may not be there leaves the receiving sides. -/
theorem inbound_onExistingOutbound {α : Type} (peer : String) (otherwise : α)
    (op : Work Outbound → α × Work Outbound) (w : Work Pairs) :
    (Pairs.onExistingOutbound peer otherwise op w).2.part.inbound = w.part.inbound := by
  unfold Pairs.onExistingOutbound
  split <;> rfl

/-- A message leaves all that receives alone. -/
theorem inbound_send (peer : String) (level : Level) (plaintext : Bytes) (d : Device) :
    (d.send P peer level plaintext).2.pairs.inbound = d.pairs.inbound := by
  unfold send
  split
  · have hWork : (d.onPairs P fun s => Pairs.checkEstablishment s peer).2.pairs.inbound =
        d.pairs.inbound := inbound_onExistingOutbound peer (Except.ok () : Except Failure Unit) _ d.work
    unfold refuseUnknown
    split <;> exact (congrArg (·.2.pairs.inbound) ‹onPairs P _ d = _›).symm.trans hWork
  · rename_i record _
    split
    · rfl
    split
    · rfl
    · unfold sendTo
      split <;> exact (congrArg (·.2.pairs.inbound) ‹onPairs P _ d = _›).symm

/-- A forced rotation leaves all that receives alone. -/
theorem inbound_rotate (peer : String) (d : Device) :
    (d.rotate P peer).2.pairs.inbound = d.pairs.inbound := by
  have hWork : (d.onPairs P fun s => Pairs.rotate s peer).2.pairs.inbound = d.pairs.inbound :=
    inbound_onExistingOutbound peer none _ d.work
  unfold rotate
  split
  · rwa [‹onPairs P _ d = _›] at hWork
  · rename_i epoch d₁ hRotated
    rw [hRotated] at hWork
    split <;> exact (((congrArg Prod.snd ‹record P _ d₁ = _›) ▸
      sameButLog_record _ d₁).pairs ▸ hWork)

/-- Evidence takes the sessions of a peer that is then revoked, and no others. -/
theorem receiving_applyEvidence (id : String) (evidence : Evidence) (sender : String) (d : Device) :
    (d.applyEvidence P id evidence).2.pairs.receiving sender = d.pairs.receiving sender ∨
      (d.applyEvidence P id evidence).2.isRevoked sender = true ∧
        (d.applyEvidence P id evidence).2.pairs.receiving sender =
          { (d.pairs.receiving sender).cleared with isRevoked := true } := by
  obtain ⟨-, -, hWork⟩ := verify_same (P := P) id evidence d
  unfold applyEvidence
  generalize d.verify P id evidence = verified at *
  obtain ⟨verified, d₁⟩ := verified
  dsimp only at *
  have hPairs : d₁.pairs = d.pairs := congrArg Work.part hWork
  split
  · rename_i hRevoked
    obtain ⟨-, hDrops⟩ := Pairs.drops_revoke (d₁.setting d₁.now) id d₁.work
    have hSide := hDrops.receiving sender
    rw [show d₁.work.part = d.pairs from hPairs] at hSide
    by_cases hSender : sender = id
    · rw [if_pos hSender] at hSide
      subst hSender
      exact .inr ⟨hRevoked, hSide⟩
    · rw [if_neg hSender] at hSide
      exact .inl hSide
  · exact .inl (congrArg (·.receiving sender) hPairs)

variable {d start : Device} {may : String → Prop}

/-- Evidence, on the receiving side of a sender. -/
theorem fares_of_evidence (id : String) (evidence : Evidence) {op : Operation} {sender : String}
    (hCalm : op.handlesMessage = false) (hUnswept : ∀ now, op ≠ .maintain now)
    (h : (d.step P op).2 = (d.applyEvidence P id evidence).2) :
    d.Fares P op sender ((d.step P op).2.pairs.receiving sender) := by
  rcases receiving_applyEvidence (P := P) id evidence sender d with hSame | ⟨hRevoked, hEmpty⟩
  · rw [h, hSame]
    exact .stays hUnswept (message?_step d op hCalm sender)
  · refine .empties ?_ (fun epoch => ?_) (.inr (h ▸ hRevoked)) hCalm hUnswept
    · rw [h, hEmpty]
      rfl
    · rw [h, hEmpty]
      exact Table.get?_empty epoch

/-- What an envelope makes of the receiving side of any sender. -/
theorem fares_receive (bytes : Bytes) (sender : String) :
    d.Fares P (.receive bytes) sender ((d.receive P bytes).2.pairs.receiving sender) := by
  rcases receive_cases (d.receive P bytes).eta.symm with
    ⟨failure, hFailed, log, hLog⟩ |
      ⟨e, peer, opened, w, hDecoded, hPeer, hw, -, ⟨hPairs, -⟩, hResult⟩
  · -- nothing has reached a session
    rw [hLog]
    exact .stays nofun (congrArg (fun r => History.message? sender (.received r)) hFailed)
  have hSide := Pairs.receiving_decrypt (d.setting d.now) P peer e d.work sender
  rw [hw, ← hPairs] at hSide
  by_cases hSender : sender = peer.deviceId
  · rw [if_pos hSender] at hSide
    subst hSender
    let v := d.work.withPart (d.pairs.receiving peer.deviceId)
    have hOpened : (Inbound.decrypt P (d.setting d.now) peer e v).1 = opened := congrArg Prod.fst hw
    have hSide : (d.receive P bytes).2.pairs.receiving peer.deviceId =
        (Inbound.decrypt P (d.setting d.now) peer e v).2.part := hSide
    rcases hDecrypt : Inbound.decrypt P (d.setting d.now) peer e v with ⟨result, v'⟩
    rw [hDecrypt] at hOpened hSide
    obtain rfl : result = opened := hOpened
    rcases hResult with ⟨failure, failure', rfl, hFailed⟩ | ⟨plaintext, rfl, hReceived⟩
    · rw [hSide]
      -- a refused envelope may still find a session that has run out, and sheds it
      rcases Inbound.refused_cases hDecrypt with rfl | ⟨session, hKnown, hOver, rfl⟩
      · exact .stays nofun
          (congrArg (fun r => History.message? peer.deviceId (.received r)) hFailed)
      · exact .sheds rfl hFailed hKnown hOver
    · rcases Inbound.decrypt_cases hDecrypt with ⟨_, hFailed, -⟩ | ⟨_, hText, hUnbarred, hAccepts⟩
      · cases hFailed
      · cases hText
        exact .accepts rfl hReceived ⟨hDecoded, hPeer, rfl, hUnbarred, hSide ▸ hAccepts⟩
  · -- the envelope is another's
    rw [if_neg hSender] at hSide
    rw [hSide]
    refine .stays nofun ?_
    show History.message? sender (.received (d.receive P bytes).1) = none
    rcases hResult with ⟨-, failure', -, hReply⟩ | ⟨plaintext, -, hReply⟩
    · rw [hReply]
      rfl
    · rw [hReply]
      exact if_neg (Ne.symm hSender)

/-- What a sweep leaves of a receiving side. -/
theorem receiving_maintain (hSettled : d.Settled may) (hDated : d.Dated) (now : UInt64)
    (sender : String) :
    (d.maintain P now).2.pairs.receiving sender = (d.pairs.receiving sender).swept d.config now := by
  have hSwept : (d.maintain P now).2.pairs = d.pairs.swept d.config now :=
    (Pairs.sweep_eq (s := d.setting now) (w := d.work) hSettled hDated).2.1
  rw [hSwept]
  unfold Pairs.receiving Pairs.inbound? Pairs.swept
  rw [Table.get?_mapValues]
  cases d.pairs.inbound.get? sender with
  | some i => rfl
  | none => exact (Inbound.sweptBy_eq_self fun _ hMem => absurd hMem List.not_mem_nil).symm

/-- Closing clears every receiving side. -/
theorem receiving_shutdown (sender : String) (d : Device) :
    (d.shutdown P).2.pairs.receiving sender = (d.pairs.receiving sender).cleared := by
  have hWork : (d.onPairs P Pairs.shutdown).2.pairs.receiving sender =
      (d.pairs.receiving sender).cleared :=
    (Pairs.closed_shutdown (d.setting d.now) d.work).receiving sender
  unfold shutdown
  rcases hDropped : d.onPairs P Pairs.shutdown with ⟨dropped, d₁⟩
  rw [hDropped] at hWork
  dsimp only
  split <;> exact ((congrArg Prod.snd ‹flushAudit d₁ = _›) ▸ sameButLog_flushAudit d₁).pairs ▸ hWork

/-- **What an operation can do to a receiving side.** -/
theorem fares_step (hSettled : d.Settled may) (hDated : d.Dated) (op : Operation)
    (sender : String) :
    d.Fares P op sender ((d.step P op).2.pairs.receiving sender) := by
  cases op with
  -- what does not touch the receiving sides lets all of them stay
  | receive bytes => exact fares_receive bytes sender
  | send peer level plaintext => exact .of_inbound nofun rfl (inbound_send peer level plaintext d)
  | remember id keys =>
    exact .of_inbound nofun rfl (congrArg Pairs.inbound (pairs_remember id keys d))
  | importBundle text =>
    exact .of_inbound nofun rfl (congrArg Pairs.inbound (pairs_importBundle text d))
  | verify id evidence => exact fares_of_evidence id evidence rfl nofun rfl
  | revoke id reason => exact fares_of_evidence id (.revocation reason) rfl nofun rfl
  | crossSignPeer id =>
    -- vouching for a peer is evidence, unless no link can be made
    cases hLink : d.crossSign P id with
    | error failure =>
      refine .of_inbound nofun rfl ?_
      show (d.crossSignPeer P id).2.pairs.inbound = _
      unfold crossSignPeer
      rw [hLink]
    | ok link =>
      refine fares_of_evidence id (.crossSignature [link]) rfl nofun ?_
      show (d.crossSignPeer P id).2 = _
      unfold crossSignPeer
      rw [hLink]
      rfl
  | rotate peer => exact .of_inbound nofun rfl (inbound_rotate peer d)
  | maintain now =>
    show d.Fares P (.maintain now) sender ((d.maintain P now).2.pairs.receiving sender)
    rw [receiving_maintain hSettled hDated]
    exact .sweeps rfl
  | shutdown =>
    have hSide := receiving_shutdown (P := P) sender d
    refine .empties ?_ (fun epoch => ?_) (.inl rfl) rfl nofun
    · show ((d.shutdown P).2.pairs.receiving sender).latest = _
      rw [hSide]
      rfl
    · show ((d.shutdown P).2.pairs.receiving sender).epochs.get? epoch = none
      rw [hSide]
      exact Table.get?_empty epoch
  | save store passphrase =>
    exact .of_inbound nofun rfl (congrArg Pairs.inbound (pairs_save store passphrase d))
  | request | addRoot | flushAudit | sweepAudit | setClock | setSink =>
    exact .of_inbound nofun rfl rfl

end Device

-- ---------------------------------------------------------------------------
-- An epoch until it ends
-- ---------------------------------------------------------------------------

namespace Inbound

variable {P : Primitives} {s : Setting} {sender : Peer} {e : Envelope} {plaintext : Bytes}
  {i i' : Inbound} {origin session : Session} {c : Config} {epoch deadline now : UInt64}

/-- An epoch that nothing has ended: if it has a session, that one is active. -/
structure Lasts (origin : Session) (epoch : UInt64) (i : Inbound) : Prop where
  past : i.isPast epoch = true
  kept : ∀ session, i.epochs.get? epoch = some session →
    session.phase = .active ∧ session.createdAt = origin.createdAt ∧
      session.level = origin.level ∧ session.ephemeral = origin.ephemeral

/-- An epoch that lasts, or that ended as of some time. -/
def Course (policy : Rotation.Policy) (origin : Session) (epoch : UInt64) :
    Option UInt64 → Inbound → Prop
  | none, i => Lasts origin epoch i
  | some ended, i =>
    Ebbs origin (policy.graceDeadline ended) epoch (policy.graceDeadline ended) i

/-- An epoch that was begun and has no session may be said to have ended at any time. -/
theorem Ebbs.of_none (hPast : i.isPast epoch = true) (hNone : i.epochs.get? epoch = none) :
    Ebbs origin deadline epoch deadline i where
  past := hPast
  kept session hSession := by
    rw [hNone] at hSession
    cases hSession
  gone _ := UInt64.le_refl _

/-- An epoch that lies behind and has no session is over. -/
theorem Lasts.of_none (hPast : i.isPast epoch = true) (hNone : i.epochs.get? epoch = none) :
    Lasts origin epoch i where
  past := hPast
  kept session hSession := by
    rw [hNone] at hSession
    cases hSession

/-- A sweep ends the epoch exactly if its time is over. -/
theorem Lasts.swept (h : Lasts origin epoch i) :
    Course c.rotation origin epoch
      (if c.rotation.expiry origin.createdAt ≤ now then some now else none) (i.swept c now) := by
  have hPast : (i.swept c now).isPast epoch = true := h.past
  have hSwept (session : Session) (hSession : (i.swept c now).epochs.get? epoch = some session) :
      ∃ before, i.epochs.get? epoch = some before ∧ session =
        if c.rotation.expiry origin.createdAt ≤ now then
          before.expire (c.rotation.graceDeadline now) else before := by
    unfold Inbound.swept at hSession
    rw [get?_sweptBy] at hSession
    obtain ⟨before, hBefore, rfl⟩ := Option.map_eq_some_iff.1 hSession
    obtain ⟨hBefore, -⟩ := Option.filter_eq_some_iff.1 hBefore
    obtain ⟨hActive, hCreated, -⟩ := h.kept before hBefore
    refine ⟨before, hBefore, ?_⟩
    -- an active session is old when its epoch is, whenever the last envelope was
    have hAged : before.hasAged c.rotation now =
        decide (c.rotation.expiry origin.createdAt ≤ now) := by
      simp [Session.hasAged, Session.isActive, hActive, hCreated]
    simp only [hAged, decide_eq_true_eq]
  -- the sweep ends every session that is old, and leaves a younger one active
  split
  · rename_i hOver
    refine ⟨hPast, fun session hSession => ?_, fun _ => UInt64.le_refl _⟩
    obtain ⟨before, hBefore, rfl⟩ := hSwept session hSession
    obtain ⟨hActive, -, hSame⟩ := h.kept before hBefore
    rw [if_pos hOver]
    unfold Session.expire
    rw [hActive]
    exact ⟨rfl, hSame⟩
  · rename_i hYoung
    refine ⟨hPast, fun session hSession => ?_⟩
    obtain ⟨before, hBefore, rfl⟩ := hSwept session hSession
    rw [if_neg hYoung]
    exact h.kept before hBefore

/-- A session that is active is kept by every sweep. -/
theorem exists_swept (hSession : i.epochs.get? epoch = some session)
    (hActive : session.phase = .active) :
    ∃ kept, (i.swept c now).epochs.get? epoch = some kept := by
  unfold Inbound.swept
  rw [get?_sweptBy, hSession]
  have hLapsed : session.hasLapsed now = false := by
    unfold Session.hasLapsed
    rw [hActive]
  simp [hLapsed]

/-- A message of the epoch or of an earlier one leaves it as it lasts. -/
theorem Lasts.accepts (h : Lasts origin epoch i) (hAccepts : Accepts P s sender e plaintext i i')
    (hNotAbove : ¬epoch < e.epoch) : Lasts origin epoch i' := by
  cases hAccepts with
  | @continues session session' known readable opened =>
    refine ⟨h.past, fun t ht => ?_⟩
    rw [Table.get?_insert] at ht
    split at ht
    · rename_i hThis
      cases ht
      obtain ⟨-, -, hMoved⟩ := Session.next_of_decrypt opened
      rw [hMoved]
      exact h.kept session (hThis ▸ known)
    · exact h.kept t ht
  | begins unknown above begun opened wanes =>
    -- an epoch that is begun lies above
    obtain ⟨latest, hLatest, hLe⟩ := isPast_iff.1 h.past
    have hAbove : ¬e.epoch ≤ latest := by simpa [isPast, hLatest] using above
    exact absurd (UInt64.lt_of_le_of_lt hLe (UInt64.not_le.1 hAbove)) hNotAbove

end Inbound

namespace Device

variable {P : Primitives} {d start : Device} {history : History} {may : String → Prop}
  {sender : String} {origin session : Session} {epoch : UInt64} {bytes : Bytes}
  {m : ReceivedMessage} {op : Operation} {ops : List Operation}

/-- As of when an operation ends an epoch of a sender that was begun at some time: a sweep does if
the time of the epoch is over, and so does a message of a later epoch. -/
def ending? (P : Primitives) (d : Device) (sender : String) (epoch created : UInt64) :
    Operation → Option UInt64
  | .maintain now => if d.config.rotation.expiry created ≤ now then some now else none
  | .receive bytes =>
    match (d.receive P bytes).1 with
    | .ok m => if m.sender = sender ∧ epoch < m.epoch then some d.now else none
    | .error _ => none
  | _ => none

/-- As of when the first of some operations that end the epoch does so. -/
def endedAt? (P : Primitives) (d : Device) (sender : String) (epoch created : UInt64) :
    List Operation → Option UInt64
  | [] => none
  | op :: rest =>
    match d.ending? P sender epoch created op with
    | some ended => some ended
    | none => endedAt? P (d.step P op).2 sender epoch created rest

/-- Without a sweep and without a message of the sender, no epoch of the sender ends. -/
theorem ending?_of_unheard {created : UInt64} (hUnswept : ∀ now, op ≠ .maintain now)
    (hUnheard : History.message? sender (d.step P op).1 = none) :
    d.ending? P sender epoch created op = none := by
  cases op with
  | maintain now => exact absurd rfl (hUnswept now)
  | receive bytes =>
    have hUnheard : History.message? sender (.received (d.receive P bytes).1) = none := hUnheard
    unfold ending?
    dsimp only
    split
    · rename_i m hReceived
      rw [hReceived] at hUnheard
      have hUnheard : (if m.sender = sender then some m else none) = none := hUnheard
      refine if_neg fun hThis => ?_
      rw [if_pos hThis.1] at hUnheard
      cases hUnheard
    · rfl
  | _ => rfl

/-- A message of a later epoch, whether or not the epoch still has its session. -/
theorem course_of_above (hSettled : d.Settled may)
    (h : Inbound.Lasts origin epoch (d.pairs.receiving sender))
    (hReceived : (d.receive P bytes).1 = .ok m) (hSender : m.sender = sender)
    (hAbove : epoch < m.epoch) :
    Inbound.Course d.config.rotation origin epoch (some d.now)
      ((d.receive P bytes).2.pairs.receiving sender) := by
  cases hSession : (d.pairs.receiving sender).epochs.get? epoch with
  | some session =>
    obtain ⟨hActive, -, hLevel, hEphemeral⟩ := h.kept session hSession
    have hEbbs := ebbs_of_receive hSettled hSession hActive hReceived hSender hAbove
    refine ⟨hEbbs.past, fun kept hKept => ?_, fun _ => UInt64.le_refl _⟩
    obtain ⟨hEnded, hSameLevel, hSameKey⟩ := hEbbs.kept kept hKept
    exact ⟨hEnded, hSameLevel.trans hLevel, hSameKey.trans hEphemeral⟩
  | none =>
    have hEbbs (deadline : UInt64) : Inbound.Ebbs origin deadline epoch deadline
        (d.pairs.receiving sender) := .of_none h.past hSession
    rcases receiving_step (P := P) d (.receive bytes) sender with
      ⟨-, hWanes⟩ | ⟨_, _, _, _, -, -, hTakes⟩
    · exact (hEbbs _).wanes hWanes fun _ => UInt64.le_refl _
    · exact (hEbbs _).accepts hTakes.accepts fun _ => UInt64.le_refl _

/-- **An operation** leaves an epoch as it lasts, or ends it. -/
theorem course_of_lasts (hSettled : d.Settled may) (hDated : d.Dated)
    (h : Inbound.Lasts origin epoch (d.pairs.receiving sender)) (op : Operation) :
    Inbound.Course d.config.rotation origin epoch (d.ending? P sender epoch origin.createdAt op)
      ((d.step P op).2.pairs.receiving sender) := by
  have hFares := fares_step (P := P) hSettled hDated op sender
  generalize hSide : (d.step P op).2.pairs.receiving sender = side at hFares ⊢
  cases hFares with
  -- nothing was swept and nothing accepted, so nothing has ended the epoch
  | stays unswept unheard =>
    rw [ending?_of_unheard unswept unheard]
    exact h
  -- the side was emptied: the epoch lies behind and is not kept
  | empties latest gone cause calm unswept =>
    rw [ending?_of_unheard unswept (message?_step d op calm sender)]
    refine .of_none ?_ (gone epoch)
    have hPast := h.past
    unfold Inbound.isPast at hPast ⊢
    rw [latest]
    exact hPast
  | sweeps sweep =>
    subst sweep
    exact h.swept
  -- a session past its grace went; what is left of the epoch is as it was
  | @sheds bytes receives failure refused other old known hOver =>
    have hNone : d.ending? P sender epoch origin.createdAt op = none := by
      rw [receives]
      unfold ending?
      dsimp only
      rw [refused]
    rw [hNone]
    refine ⟨h.past, fun session hSession => ?_⟩
    rw [Table.get?_erase] at hSession
    split at hSession
    · cases hSession
    · exact h.kept session hSession
  -- a message of a later epoch ends this one, and any other leaves it
  | @accepts bytes e peer plaintext i' receives received takes =>
    subst receives
    have hEnding : d.ending? P sender epoch origin.createdAt (.receive bytes) =
        if epoch < e.epoch then some d.now else none := by
      unfold ending?
      dsimp only
      rw [received]
      simp
    rw [hEnding]
    split
    · rename_i hAbove
      rw [← hSide]
      exact course_of_above hSettled h received rfl hAbove
    · rename_i hNotAbove
      exact h.accepts takes.accepts hNotAbove

/-- **An operation** leaves an epoch ended. -/
theorem course_of_ended {ended : UInt64} {policy : Rotation.Policy}
    (h : Inbound.Course policy origin epoch (some ended) (d.pairs.receiving sender))
    (op : Operation) :
    Inbound.Course policy origin epoch (some ended) ((d.step P op).2.pairs.receiving sender) := by
  rcases receiving_step (P := P) d op sender with ⟨-, hWanes⟩ | ⟨_, _, _, _, -, -, hTakes⟩
  · exact Inbound.Ebbs.wanes h hWanes fun _ => UInt64.le_refl _
  · exact Inbound.Ebbs.accepts h hTakes.accepts fun _ => UInt64.le_refl _

/-- **Along any operations,** an epoch lasts until the first of them that ends it. -/
theorem course_after (hStart : Starts P start) (hRun : Run P start history d)
    (hReturn : allReturn P d ops = true) (ended? : Option UInt64)
    (h : Inbound.Course d.config.rotation origin epoch ended? (d.pairs.receiving sender)) :
    Inbound.Course d.config.rotation origin epoch
      (ended?.or (d.endedAt? P sender epoch origin.createdAt ops))
      ((after P d ops).pairs.receiving sender) := by
  -- along the calls: the course is that of the first ending, and no later one changes it
  induction ops generalizing d history ended? with
  | nil =>
    rw [endedAt?, Option.or_none]
    exact h
  | cons op rest ih =>
    simp only [allReturn, Bool.and_eq_true, Bool.not_eq_true'] at hReturn
    have hConfig : (d.step P op).2.config = d.config := (evolves_step d op).config
    rw [← hConfig] at h ⊢
    have hNext : Inbound.Course (d.step P op).2.config.rotation origin epoch
        (ended?.or (d.ending? P sender epoch origin.createdAt op))
        ((d.step P op).2.pairs.receiving sender) := by
      cases ended? with
      | some ended => exact course_of_ended h op
      | none =>
        rw [hConfig]
        exact course_of_lasts (hRun.settled hStart) (hRun.dated hStart) h op
    have hLater := ih (hRun.step op hReturn.1) hReturn.2 _ hNext
    rw [endedAt?]
    cases hEnding : d.ending? P sender epoch origin.createdAt op with
    | some ended =>
      rw [hEnding] at hLater
      cases ended? with
      | some earlier => exact hLater
      | none => exact hLater
    | none =>
      rw [hEnding, Option.or_none] at hLater
      exact hLater

/-- **An operation keeps the session of an epoch that lasts,** also when it ends it, unless it closes
the device or revokes the sender. -/
theorem exists_kept_of_active (hSettled : d.Settled may) (hDated : d.Dated)
    (hSession : (d.pairs.receiving sender).epochs.get? epoch = some session)
    (hActive : session.phase = .active) (op : Operation) (hOpen : op ≠ .shutdown)
    (hTrusted : (d.step P op).2.isRevoked sender = false) :
    ∃ kept, ((d.step P op).2.pairs.receiving sender).epochs.get? epoch = some kept := by
  -- an active session can always read, so it is not shed
  have hReadable (now : UInt64) : session.canDecrypt now = true :=
    Session.canDecrypt_iff.2 (.inl hActive)
  have hFares := fares_step (P := P) hSettled hDated op sender
  generalize hSide : (d.step P op).2.pairs.receiving sender = side at hFares ⊢
  cases hFares with
  | stays => exact ⟨session, hSession⟩
  | empties latest gone cause =>
    rcases cause with hClosing | hRevoked
    · exact absurd hClosing hOpen
    · rw [hTrusted] at hRevoked
      cases hRevoked
  | sweeps => exact Inbound.exists_swept hSession hActive
  | @sheds bytes receives failure refused other old known hOver =>
    refine ⟨session, ?_⟩
    dsimp only
    rw [Table.get?_erase, if_neg]
    · exact hSession
    · rintro rfl
      rw [hSession] at known
      cases known
      rw [Session.isOver_iff, hReadable] at hOver
      cases hOver
  | @accepts bytes e peer plaintext i' receives received takes =>
    subst receives
    refine Option.ne_none_iff_exists'.1 fun hGone => ?_
    rw [← hSide] at hGone
    have hOver := canDecrypt_of_gone_receive hSettled hSession hGone
    rw [hReadable] at hOver
    cases hOver

/-- **Along any operations,** an epoch keeps its session until it ends, and from then on until its
deadline. -/
theorem kept_after (hStart : Starts P start) (hRun : Run P start history d)
    (h : Inbound.Lasts origin epoch (d.pairs.receiving sender))
    (hSession : (d.pairs.receiving sender).epochs.get? epoch = some session)
    (hReturn : allReturn P d ops = true) (hClock : clockGoesOn P d ops = true)
    (hSweeps : sweepsInTime P d ops = true) (hOpen : .shutdown ∉ ops)
    (hTrusted : (after P d ops).isRevoked sender = false)
    (hInTime : ∀ ended, d.endedAt? P sender epoch origin.createdAt ops = some ended →
      (after P d ops).now < d.config.rotation.graceDeadline ended) :
    ∃ kept, ((after P d ops).pairs.receiving sender).epochs.get? epoch = some kept := by
  induction ops generalizing d history session with
  | nil => exact ⟨session, hSession⟩
  | cons op rest ih =>
    simp only [allReturn, Bool.and_eq_true, Bool.not_eq_true'] at hReturn
    simp only [clockGoesOn, Bool.and_eq_true, decide_eq_true_eq] at hClock
    simp only [sweepsInTime, Bool.and_eq_true, decide_eq_true_eq] at hSweeps
    -- a peer that is trusted at the end was trusted all along
    have hTrustedNext : (d.step P op).2.isRevoked sender = false := by
      rw [Bool.eq_false_iff]
      intro hRevoked
      have hLater := isRevoked_of_evolves (run_after hReturn.2).evolves hRevoked
      have hTrusted : (after P (d.step P op).2 rest).isRevoked sender = false := hTrusted
      rw [hLater] at hTrusted
      cases hTrusted
    have hOpenNext : .shutdown ∉ rest := fun hMem => hOpen (.tail _ hMem)
    have hRunNext := hRun.step op hReturn.1
    have hSettled := hRun.settled hStart
    have hDated := hRun.dated hStart
    have hConfig : (d.step P op).2.config = d.config := (evolves_step d op).config
    have hCourse := course_of_lasts (P := P) hSettled hDated h op
    obtain ⟨kept, hKept⟩ := exists_kept_of_active hSettled hDated hSession
      (h.kept session hSession).1 op (fun hClosing => hOpen (hClosing ▸ .head _)) hTrustedNext
    rw [endedAt?] at hInTime
    cases hEnding : d.ending? P sender epoch origin.createdAt op with
    -- the epoch ends at this call: from here on it ebbs, and is kept until its grace is over
    | some ended =>
      rw [hEnding] at hCourse hInTime
      have hEbbs : (d.step P op).2.Ebbs sender origin (d.config.rotation.graceDeadline ended)
          epoch := by
        refine ⟨hCourse.past, hCourse.kept, fun hGone => ?_⟩
        rw [hKept] at hGone
        cases hGone
      exact (hEbbs.run hStart hRunNext hReturn.2 hClock.2 hSweeps.2 hOpenNext
        hTrusted).exists_session (hInTime ended rfl)
    -- the epoch goes on
    | none =>
      rw [hEnding] at hCourse hInTime
      exact ih hRunNext hCourse hKept hReturn.2 hClock.2 hSweeps.2 hOpenNext hTrusted
        (hConfig ▸ hInTime)

/-- The session of an epoch that lasts, or ended and is in its grace, can be read. -/
theorem canDecrypt_of_course {ended? : Option UInt64} {kept : Session}
    (h : Inbound.Course d.config.rotation origin epoch ended? (d.pairs.receiving sender))
    (hInTime : ∀ ended, ended? = some ended → d.now < d.config.rotation.graceDeadline ended)
    (hKept : (d.pairs.receiving sender).epochs.get? epoch = some kept) :
    kept.canDecrypt d.now = true ∧ kept.level = origin.level ∧
      kept.ephemeral = origin.ephemeral := by
  rw [Session.canDecrypt_iff]
  cases ended? with
  | none =>
    obtain ⟨hActive, -, hSame⟩ := h.kept kept hKept
    exact ⟨.inl hActive, hSame⟩
  | some ended =>
    obtain ⟨hEnded, hSame⟩ := Inbound.Ebbs.kept h kept hKept
    exact ⟨.inr ⟨_, hEnded, hInTime ended rfl⟩, hSame⟩

/-- A message that begins an epoch leaves it active, as of now. -/
theorem lasts_of_receive {first : Envelope} (hReceived : (d.receive P bytes).1 = .ok m)
    (hDecoded : Envelope.decode d.config.limits bytes = .ok first)
    (hNew : (d.pairs.receiving m.sender).epochs.get? m.epoch = none) :
    ∃ session, ((d.receive P bytes).2.pairs.receiving m.sender).epochs.get? m.epoch =
        some session ∧ session.createdAt = d.now ∧ session.level = first.level ∧
      session.ephemeral = first.ephemeral ∧
      Inbound.Lasts session m.epoch ((d.receive P bytes).2.pairs.receiving m.sender) := by
  obtain ⟨e, peer, w, hDecoded', -, hOpened, hMessage, hSide, -⟩ := opened_of_receive hReceived
  rw [hDecoded] at hDecoded'
  cases hDecoded'
  obtain ⟨hSender, hEpoch⟩ : m.sender = peer.deviceId ∧ m.epoch = first.epoch := by
    rw [hMessage]
    exact ⟨rfl, rfl⟩
  rw [hSender, hEpoch] at hNew
  rw [hSender, hEpoch, hSide]
  rcases Inbound.decrypt_cases hOpened with ⟨failure, hFailed, -⟩ | ⟨text, -, -, hAccepts⟩
  · cases hFailed
  generalize w.part = side at hAccepts ⊢
  cases hAccepts with
  -- no session of the epoch was there, so it begins
  | continues known readable opened => exact nomatch hNew.symm.trans known
  | @begins session session' aged unknown above begun opened wanes =>
    obtain ⟨-, hActive, hNow⟩ := Inbound.beginSession_eq_ok begun
    obtain ⟨hLevel, hKey, -⟩ := Session.decrypt_eq_ok_iff.1 opened
    obtain ⟨-, -, hMoved⟩ := Session.next_of_decrypt opened
    refine ⟨session', Table.get?_insert_self .., ?_, ?_, ?_, ?_, fun t ht => ?_⟩
    · rw [hMoved]
      exact hNow
    · rw [hMoved]
      exact hLevel.symm
    · rw [hMoved]
      exact hKey.symm
    · exact Inbound.isPast_iff.2 ⟨first.epoch, rfl, UInt64.le_refl _⟩
    · rw [Table.get?_insert_self] at ht
      cases ht
      exact ⟨(Session.phase_of_decrypt opened).trans hActive, rfl, rfl, rfl⟩

/-- **An epoch is received until something ends it.** A device receives the first message of an
epoch of a sender, and then anything is done. What ends the epoch is the first sweep as of a time at
which the epoch is old enough, or the first message of a later epoch of the sender, whichever comes
first.

* Once the grace that began then is over, every envelope of the epoch that can be read, is for the
  device and is the sender's is refused for its age, whenever there was a sweep.
* Before that, and for ever if nothing ended the epoch, its session is there, and an envelope of the
  sender's that was made in it is accepted exactly if its number lies in the window of the session.
  This is so if the clock goes on, no sweep is ahead of it, the device is not shut down and the
  sender is not revoked.

In the run, and in what is asked behind it, no counter passes `2 ^ 64 - 1`. -/
theorem receives_until_ended (hStart : Starts P start) (hRun : Run P start history d)
    {bytes : Bytes} {first : Envelope} (hFirst : (d.receive P bytes).1 = .ok m)
    (hDecoded : Envelope.decode d.config.limits bytes = .ok first)
    (hNew : (d.pairs.receiving m.sender).epochs.get? m.epoch = none)
    (hReturn : allReturn P d (.receive bytes :: ops) = true) :
    let later := after P d (.receive bytes :: ops)
    let p := d.config.rotation
    let ended? := (d.receive P bytes).2.endedAt? P m.sender m.epoch d.now ops
    (p.expiry d.now).toNat = min (d.now.toNat + p.interval.millis.toNat) (UInt64.size - 1) ∧
      (∀ ended, (p.graceDeadline ended).toNat =
        min (ended.toNat + p.grace.millis.toNat) (UInt64.size - 1)) ∧
      (∀ ended, ended? = some ended → p.graceDeadline ended ≤ later.now →
        ∀ bytes e peer, Envelope.decode later.config.limits bytes = .ok e →
          later.authenticate P e = .ok peer → e.sender = m.sender → e.epoch = m.epoch →
          (later.receive P bytes).1 = .error (.sessionExpired m.sender m.epoch)) ∧
      (clockGoesOn P d (.receive bytes :: ops) = true →
        sweepsInTime P d (.receive bytes :: ops) = true → .shutdown ∉ ops →
        later.isRevoked m.sender = false →
        (∀ ended, ended? = some ended → later.now < p.graceDeadline ended) →
        ∃ kept, (later.pairs.receiving m.sender).epochs.get? m.epoch = some kept ∧
          ∀ bytes e peer plaintext, Envelope.decode later.config.limits bytes = .ok e →
            later.authenticate P e = .ok peer → e.sender = m.sender → e.epoch = m.epoch →
            e.Opens P later.identity m.sender peer.keys plaintext → e.level = first.level →
            e.ephemeral = first.ephemeral →
            ((later.receive P bytes).1 =
                .ok ⟨m.sender, e.level, m.epoch, e.sequence, peer.trust, plaintext⟩ ↔
              kept.ratchet.next ≤ e.sequence ∧
                e.sequence.toNat ≤ kept.ratchet.next.toNat + later.config.maxSkip.toNat)) := by
  intro later p ended?
  have hRunLater : Run P start (history ++ during P d (.receive bytes :: ops)) later :=
    hRun.trans (run_after hReturn)
  have hFiled := hRunLater.filed hStart
  have hPolicy : later.config.rotation = p :=
    congrArg Config.rotation (run_after hReturn).evolves.config
  -- the session of the epoch as the first message left it, and what was to become of it
  obtain ⟨session, hSession, hCreated, hLevel, hKey, hLasts⟩ :=
    lasts_of_receive hFirst hDecoded hNew
  simp only [allReturn, Bool.and_eq_true, Bool.not_eq_true'] at hReturn
  have hRunFirst : Run P start _ (d.receive P bytes).2 := hRun.step (.receive bytes) hReturn.1
  have hConfigFirst : (d.receive P bytes).2.config = d.config :=
    (evolves_step (P := P) d (.receive bytes)).config
  have hCourse : Inbound.Course p session m.epoch ended? (later.pairs.receiving m.sender) := by
    have hAfter := course_after hStart hRunFirst hReturn.2 none hLasts
    rw [hConfigFirst, hCreated, Option.none_or] at hAfter
    exact hAfter
  refine ⟨toNat_saturatingAdd .., fun _ => toNat_saturatingAdd .., fun ended hEnded hOver bytes' e
    peer hDecoded' hPeer hFrom hEpoch => ?_, fun hClock hSweeps hOpen hTrusted hInTime => ?_⟩
  · -- once the grace is over
    rw [hEnded] at hCourse
    have hEbbs : later.Ebbs m.sender session (p.graceDeadline ended) e.epoch :=
      hEpoch ▸ ⟨hCourse.past, hCourse.kept, fun _ => hOver⟩
    rw [← hEpoch]
    exact hEbbs.fst_receive hFiled (hRunLater.barred hStart m.sender) hDecoded' hPeer hFrom hOver
  · -- before that
    simp only [clockGoesOn, Bool.and_eq_true, decide_eq_true_eq] at hClock
    simp only [sweepsInTime, Bool.and_eq_true, decide_eq_true_eq] at hSweeps
    obtain ⟨kept, hKept⟩ := kept_after hStart hRunFirst hLasts hSession hReturn.2 hClock.2 hSweeps.2
      hOpen hTrusted (by rwa [hCreated, hConfigFirst])
    rw [← hPolicy] at hCourse hInTime
    -- the session that is kept can be read, and is the one that the first message began
    obtain ⟨hReadable, hSameLevel, hSameKey⟩ := canDecrypt_of_course hCourse hInTime hKept
    refine ⟨kept, hKept, fun bytes' e peer plaintext hDecoded' hPeer hFrom hEpoch hOpens hLevel'
      hKey' => ?_⟩
    rw [← hEpoch] at hKept ⊢
    obtain ⟨hRecord, -⟩ := authenticate_eq_ok hPeer
    have hListens := hRunLater.listens hStart (forall_keys_of (hFrom ▸ hRecord))
    rw [← receive_iff_of_kept hFiled hListens hKept hReadable hDecoded' hPeer hFrom hOpens
      (hLevel'.trans (hLevel.symm.trans hSameLevel.symm))
      (hKey'.trans (hKey.symm.trans hSameKey.symm))]
    refine ⟨fun hAccepted => ⟨_, hAccepted⟩, ?_⟩
    -- what is accepted has only one reading
    rintro ⟨m', hAccepted⟩
    have hId : peer.deviceId = m.sender := (hFiled _ _ hRecord).trans hFrom
    rw [hAccepted, hRunLater.eq_of_receive hStart hDecoded' hPeer (hFrom ▸ hOpens) hAccepted, hId]

/-- What Ann writes to Bob at one level. -/
def agedLetters : List Bytes :=
  plainLetters .standard [.send "bob" .basic [1], .send "bob" .basic [2]]

/-- Bob gets the first of her letters, and sweeps an hour after the epoch is a day old. -/
def sweptLate (now : UInt64) : List Operation :=
  [.receive (agedLetters.getD 0 []), .setClock 90000000, .maintain 90000000, .setClock now]

/-- Bob sweeps long after the time of the epoch, and reads on until then. -/
theorem receives_until_ended_of_sweptLate :
    let bob := after .plain (plain .standard "bob" 3) [meetPlain "ann" 1]
    let later (now : UInt64) := after .plain bob (sweptLate now)
    ((later 90299999).receive .plain (agedLetters.getD 1 [])).1 =
        .ok ⟨"ann", .basic, 0, 2, .unverified, [2]⟩ ∧
      ((later 90300000).receive .plain (agedLetters.getD 1 [])).1 =
        .error (.sessionExpired "ann" 0) := by
  intro bob _
  have hStart : Starts .plain (plain .standard "bob" 3) := plain_starts "bob" 3 rfl
  have hRun : Run .plain (plain .standard "bob" 3)
      (during .plain (plain .standard "bob" 3) [meetPlain "ann" 1]) bob :=
    run_after (by decide +kernel)
  have hFirst : (bob.receive .plain (agedLetters.getD 0 [])).1 =
      .ok ⟨"ann", .basic, 0, 1, .unverified, [1]⟩ := by decide +kernel
  have hNew : (bob.pairs.receiving "ann").epochs.get? 0 = none := by decide +kernel
  obtain ⟨first, _, hDecoded, -, -, hCarries⟩ := hRun.envelope_of_receive hStart hFirst
  -- both letters are of one level, and have one fresh key
  have hFirstKey : (Envelope.decode bob.config.limits (agedLetters.getD 0 [])).toOption.map
      (·.ephemeral) = some (.leading 32 (List.replicate 32 1)) := by decide +kernel
  have hSecondKey : (Envelope.decode bob.config.limits (agedLetters.getD 1 [])).toOption.map
      (·.ephemeral) = some (.leading 32 (List.replicate 32 1)) := by decide +kernel
  rw [hDecoded] at hFirstKey
  have hFirstKey : first.ephemeral = .leading 32 (List.replicate 32 1) := Option.some.inj hFirstKey
  have hLevel : first.level = .basic := hCarries.level.symm
  -- the second letter would have been received at once
  have hBefore : (bob.receive .plain (agedLetters.getD 1 [])).1 =
      .ok ⟨"ann", .basic, 0, 2, .unverified, [2]⟩ := by decide +kernel
  have hTrust : (bob.contacts.get? "ann").map (·.trust) = some .unverified := by decide +kernel
  have hDeadline : bob.config.rotation.graceDeadline 90000000 = 90300000 := by decide +kernel
  have hExact (now : UInt64) (later : Device) (hIs : after .plain bob (sweptLate now) = later)
      (hReturn : allReturn .plain bob (sweptLate now) = true)
      (hClock : clockGoesOn .plain bob (sweptLate now) = true)
      (hSweeps : sweepsInTime .plain bob (sweptLate now) = true)
      (hEnded : (bob.receive .plain (agedLetters.getD 0 [])).2.endedAt? .plain "ann" 0 bob.now
        [.setClock 90000000, .maintain 90000000, .setClock now] = some 90000000)
      (hAnn : later.contacts.get? "ann" = bob.contacts.get? "ann")
      (hTrusted : later.isRevoked "ann" = false) :
      (later.now < 90300000 →
        ((later.pairs.receiving "ann").epochs.get? 0).map (·.ratchet.next) = some 2 →
        (later.receive .plain (agedLetters.getD 1 [])).1 =
          .ok ⟨"ann", .basic, 0, 2, .unverified, [2]⟩) ∧
      (90300000 ≤ later.now → (later.receive .plain (agedLetters.getD 1 [])).1 =
        .error (.sessionExpired "ann" 0)) := by
    have hEvolves := (run_after hReturn).evolves
    rw [hIs] at hEvolves
    obtain ⟨e, peer, hDecoded', hPeer, hRecord, hCarries⟩ :=
      hRun.authentic_later hStart hBefore hEvolves hAnn
    obtain ⟨-, -, hLate, hEarly⟩ := receives_until_ended hStart hRun hFirst hDecoded hNew hReturn
    have hLate := hLate 90000000 hEnded
    have hEarly := hEarly hClock hSweeps (by simp) (hIs ▸ hTrusted)
    rw [hDeadline] at hLate
    rw [show after .plain bob (.receive (agedLetters.getD 0 []) :: _) = later from hIs]
      at hLate hEarly
    refine ⟨fun hInTime hNext => ?_, fun hOver => hLate hOver _ e peer hDecoded' hPeer
      hCarries.sender.symm hCarries.epoch.symm⟩
    obtain ⟨kept, hKept, hEarly⟩ := hEarly fun ended hSome => by
      rw [hEnded] at hSome
      cases hSome
      rw [hDeadline]
      exact hInTime
    have hOpens := hCarries.opens
    rw [← hCarries.sender] at hOpens
    rw [hKept, Option.map_some, Option.some.injEq] at hNext
    rw [← hEvolves.config, hDecoded'] at hSecondKey
    have hWindow := hEarly _ e peer [2] hDecoded' hPeer hCarries.sender.symm hCarries.epoch.symm
      hOpens (hCarries.level.symm.trans hLevel.symm)
      ((Option.some.inj hSecondKey).trans hFirstKey.symm)
    rw [hRecord] at hTrust
    have hTrust : peer.trust = .unverified := Option.some.inj hTrust
    rw [← hCarries.level, ← hCarries.sequence, hTrust, hNext, hEvolves.config] at hWindow
    exact hWindow.2 (by decide +kernel)
  exact ⟨(hExact 90299999 _ rfl (by decide +kernel) (by decide +kernel) (by decide +kernel)
      (by decide +kernel) (by decide +kernel) (by decide +kernel)).1 (by decide +kernel)
      (by decide +kernel),
    (hExact 90300000 _ rfl (by decide +kernel) (by decide +kernel) (by decide +kernel)
      (by decide +kernel) (by decide +kernel) (by decide +kernel)).2 (by decide +kernel)⟩

/-- **Nothing but a sweep looks at the age of an epoch when it is received:** its time and its grace
are over, and its next message is accepted. -/
theorem unswept_epoch_outlives_its_time :
    let bob := after .plain (plain .standard "bob" 3) [meetPlain "ann" 1]
    let ops : List Operation := [.receive (agedLetters.getD 0 []), .setClock 86700000]
    let late := after .plain bob ops
    Config.standard.validate = .ok () ∧ allReturn .plain bob ops = true ∧
      clockGoesOn .plain bob ops = true ∧
      (bob.pairs.receiving "ann").epochs.get? 0 = none ∧
      (bob.receive .plain (agedLetters.getD 0 [])).1 =
        .ok ⟨"ann", .basic, 0, 1, .unverified, [1]⟩ ∧
      bob.now.toNat + bob.config.rotation.interval.wholeMillis
        + bob.config.rotation.grace.wholeMillis ≤ late.now.toNat ∧
      (late.receive .plain (agedLetters.getD 1 [])).1 =
        .ok ⟨"ann", .basic, 0, 2, .unverified, [2]⟩ := by
  intro bob ops late
  exact ⟨rfl, by decide +kernel, by decide +kernel, by decide +kernel, by decide +kernel,
    by decide +kernel, by decide +kernel⟩

end Device

end EndToEnd
