import EndToEnd.Proofs.Lifetimes
import EndToEnd.Proofs.Opening
import EndToEnd.Proofs.Refusal
import EndToEnd.Proofs.SweptSides
import EndToEnd.Proofs.Waiting

/-!
# The grace of an epoch

When a message begins a later epoch, the one that was in use ends, and its deadline is set. Two
things then wait for the deadline: the next envelope of the epoch, which finds the session and looks
at its phase, and the sweeps, which go by the index. None of them drops the session before, and once
the deadline has passed it makes no difference any more which of them came first: the session is
over or gone, and its epoch lies behind (`Inbound.Ebbs`).

Main results:

* `Inbound.Settled.ebbs_of_decrypt` — the message that begins the later epoch.
* `Inbound.canDecrypt_of_gone` — opening an envelope drops nothing that can still be read.
* `Device.Ebbs.step` — every operation.
* `Device.grace_exact` — until when the envelopes of the ended epoch are accepted.
-/

namespace EndToEnd

/-- A session that has ended does not age any more. -/
theorem Session.Ages.eq_of_ended {s s' : Session} (h : s.Ages s') {deadline : UInt64}
    (hEnded : s.phase = .expiring deadline) : s' = s := by
  rcases h with hSame | ⟨_, hActive, -⟩
  · exact hSame
  · rw [hEnded] at hActive
    cases hActive

-- ---------------------------------------------------------------------------
-- The receiving side
-- ---------------------------------------------------------------------------

namespace Inbound

variable {P : Primitives} {s : Setting} {sender : Peer} {e : Envelope} {plaintext : Bytes}
  {w w' : Work Inbound} {i i' : Inbound} {origin session : Session}
  {epoch deadline now now' : UInt64}

/-- What is left, at some time, of an epoch that has ended: the session that it had, with its
deadline, or nothing, if the deadline has passed. -/
structure Ebbs (origin : Session) (deadline epoch now : UInt64) (i : Inbound) : Prop where
  past : i.isPast epoch = true
  kept : ∀ session, i.epochs.get? epoch = some session →
    session.phase = .expiring deadline ∧ session.level = origin.level ∧
      session.ephemeral = origin.ephemeral
  gone : i.epochs.get? epoch = none → deadline ≤ now

/-- Where nothing is accepted, only the loss of the session has to be looked at. -/
theorem Ebbs.wanes {barring : Prop} (h : Ebbs origin deadline epoch now i)
    (hWanes : Wanes barring i i') (hGone : i'.epochs.get? epoch = none → deadline ≤ now') :
    Ebbs origin deadline epoch now' i' := by
  refine ⟨?_, fun session' hSession' => ?_, hGone⟩
  · have hPast := h.past
    unfold isPast at hPast ⊢
    rw [hWanes.latest]
    exact hPast
  · obtain ⟨session, hSession, hAges⟩ := hWanes.kept epoch session' hSession'
    obtain ⟨hEnded, hSame⟩ := h.kept session hSession
    rw [hAges.eq_of_ended hEnded]
    exact ⟨hEnded, hSame⟩

/-- A message of the epoch, or of a later one. -/
theorem Ebbs.accepts (h : Ebbs origin deadline epoch now i)
    (hAccepts : Accepts P s sender e plaintext i i')
    (hGone : i'.epochs.get? epoch = none → deadline ≤ now') :
    Ebbs origin deadline epoch now' i' := by
  cases hAccepts with
  -- reading moves the chain of the epoch that is read, and no phase
  | @continues session session' known readable opened =>
    refine ⟨h.past, fun t ht => ?_, hGone⟩
    rw [Table.get?_insert] at ht
    split at ht
    · rename_i hThis
      cases ht
      obtain ⟨hEnded, hSame⟩ := h.kept session (hThis ▸ known)
      obtain ⟨-, -, hMoved⟩ := Session.next_of_decrypt opened
      refine ⟨(Session.phase_of_decrypt opened).trans hEnded, ?_⟩
      rw [hMoved]
      exact hSame
    · exact h.kept t ht
  | @begins session session' aged unknown above begun opened wanes =>
    -- the epoch that begins is a later one, so this one is there as old age has left it
    have hLater : epoch ≠ e.epoch := by
      rintro rfl
      rw [h.past] at above
      cases above
    have hPast : epoch ≤ e.epoch := by
      obtain ⟨latest, hLatest, hLe⟩ := isPast_iff.1 h.past
      have hAbove : ¬e.epoch ≤ latest := by simpa [isPast, hLatest] using above
      rw [UInt64.le_iff_toNat_le] at hLe hAbove ⊢
      omega
    refine ⟨isPast_iff.2 ⟨e.epoch, rfl, hPast⟩, fun t ht => ?_, hGone⟩
    rw [Table.get?_insert, if_neg hLater] at ht
    obtain ⟨before, hBefore, hAges⟩ := wanes.kept epoch t ht
    obtain ⟨hEnded, hSame⟩ := h.kept before hBefore
    rw [hAges.eq_of_ended hEnded]
    exact ⟨hEnded, hSame⟩

/-- Ending all epochs leaves those that have ended before. -/
theorem get?_expireAll {own peer : String} (hNamed : w.part.Named own peer)
    (hSession : w.part.epochs.get? epoch = some session) :
    (expireAll s w).part.epochs.get? epoch = some (session.expire
      (s.config.rotation.retirement s.now (w.deadlines.entries own peer .inbound epoch))) := by
  have hCell := congrArg Prod.fst (cell_expireAll s hNamed epoch)
  unfold cell at hCell
  rw [hSession] at hCell
  refine hCell.trans ?_
  unfold Cell.expire Session.expire Session.isActive
  cases hPhase : session.phase <;> simp [hPhase]

/-- **Opening an envelope drops nothing that can still be read.** -/
theorem canDecrypt_of_gone {own peer : String} (hNamed : w.part.Named own peer)
    (hSession : w.part.epochs.get? epoch = some session)
    (hGone : (decrypt P s sender e w).2.part.epochs.get? epoch = none) :
    session.canDecrypt s.now = false := by
  have hThere : w.part.epochs.get? epoch ≠ none := by
    rw [hSession]
    exact nofun
  unfold decrypt at hGone
  split at hGone
  · -- the side was closed by a revocation, and nothing is dropped
    exact absurd hGone hThere
  split at hGone
  · -- an epoch that is kept
    rename_i known hKnown
    unfold continueEpoch at hGone
    split at hGone
    · split at hGone
      · exact absurd hGone hThere
      · rw [Table.get?_insert] at hGone
        split at hGone
        · cases hGone
        · exact absurd hGone hThere
    · -- the one that is dropped is over
      rename_i hOver
      rw [Table.get?_erase] at hGone
      split at hGone
      · rename_i hThis
        rw [hThis, hKnown] at hSession
        cases hSession
        exact Bool.eq_false_iff.2 hOver
      · exact absurd hGone hThere
  · -- an epoch that is not kept
    split at hGone
    · exact absurd hGone hThere
    unfold beginEpoch at hGone
    split at hGone
    · exact absurd hGone hThere
    split at hGone
    · exact absurd hGone hThere
    · dsimp only [Work.part_note] at hGone
      rw [Table.get?_insert, get?_expireAll hNamed hSession] at hGone
      split at hGone <;> cases hGone

/-- **The message that begins a later epoch** ends the one in use, and its grace begins. -/
theorem Settled.ebbs_of_decrypt {own peer : String} {may : Prop} (h : Settled own peer may w)
    (hSession : w.part.epochs.get? epoch = some session) (hActive : session.phase = .active)
    (hOpened : decrypt P s sender e w = (.ok plaintext, w')) (hAbove : epoch < e.epoch) :
    Ebbs session (s.config.rotation.graceDeadline s.now) epoch now w'.part := by
  have hHolds := h.holds epoch session hSession
  have hLatest : w.part.latest = some epoch := hHolds.latest (by simp [Session.isActive, hActive])
  unfold decrypt at hOpened
  -- the side is not barred, and the session is one that begins
  split at hOpened
  · cases hOpened
  split at hOpened
  · -- no later epoch was there
    rename_i known hKnown
    obtain ⟨latest, hSame, hLe⟩ := isPast_iff.1 (h.holds e.epoch known hKnown).past
    rw [hLatest] at hSame
    cases hSame
    exact absurd hAbove (UInt64.not_lt.2 hLe)
  split at hOpened
  · cases hOpened
  unfold beginEpoch at hOpened
  split at hOpened
  · cases hOpened
  split at hOpened
  · cases hOpened
  cases hOpened
  -- no deadline was set for the session that was in use
  have hRetire : (w.deadlines.entries own peer .inbound epoch).bind (·.retireAt) = none := by
    have hAgrees : (w.deadlines.entries own peer .inbound epoch).map (·.retireAt) =
        (w.part.epochs.get? epoch).map (·.retireAt) := h.index epoch
    rw [hSession] at hAgrees
    obtain ⟨entry, hEntry, hSame⟩ := Option.map_eq_some_iff.1 hAgrees
    rw [hEntry]
    exact hSame.trans (Session.retireAt_of_active hActive)
  have hDeadline : s.config.rotation.retirement s.now
      (w.deadlines.entries own peer .inbound epoch) = s.config.rotation.graceDeadline s.now := by
    unfold Rotation.Policy.retirement
    rw [hRetire]
  -- all active sessions were ended for the new epoch, with their grace beginning now
  have hOther : epoch ≠ e.epoch := fun hSame => UInt64.lt_irrefl _ (hSame ▸ hAbove)
  refine ⟨isPast_iff.2 ⟨e.epoch, rfl, UInt64.le_of_lt hAbove⟩, fun t ht => ?_, fun hGone => ?_⟩
  · dsimp only [Work.part_note] at ht
    rw [Table.get?_insert, if_neg hOther, get?_expireAll h.named hSession, hDeadline] at ht
    cases ht
    unfold Session.expire
    rw [hActive]
    exact ⟨rfl, rfl, rfl⟩
  · dsimp only [Work.part_note] at hGone
    rw [Table.get?_insert, if_neg hOther, get?_expireAll h.named hSession] at hGone
    cases hGone

/-- **Behind its deadline** every envelope of an epoch that has ended is refused. -/
theorem Ebbs.fst_decrypt (h : Ebbs origin deadline e.epoch now w.part)
    (hOpen : w.part.isRevoked = false) (hOver : deadline ≤ s.now) :
    (decrypt P s sender e w).1 = .error (.sessionExpired sender.deviceId e.epoch) := by
  unfold decrypt
  rw [hOpen, if_neg Bool.false_ne_true]
  cases hKept : w.part.epochs.get? e.epoch with
  | none =>
    dsimp only
    rw [if_pos h.past]
  | some session =>
    obtain ⟨hEnded, -⟩ := h.kept session hKept
    have hRefuses : session.canDecrypt s.now = false := by
      rw [Bool.eq_false_iff, ne_eq, Session.canDecrypt_iff, hEnded]
      rintro (hActive | ⟨_, hSame, hEarly⟩)
      · cases hActive
      · cases hSame
        exact UInt64.not_lt.2 hOver hEarly
    dsimp only
    unfold continueEpoch
    rw [hRefuses]
    rfl

end Inbound

-- ---------------------------------------------------------------------------
-- Devices
-- ---------------------------------------------------------------------------

namespace Device

variable {P : Primitives} {start d : Device} {history : History} {may : String → Prop}
  {sender : String} {origin session : Session} {epoch deadline : UInt64} {bytes : Bytes}
  {e : Envelope} {peer : Peer} {m : ReceivedMessage} {ops : List Operation}

/-- What is left, by now, of an epoch of a sender that has ended. -/
def Ebbs (d : Device) (sender : String) (origin : Session) (deadline epoch : UInt64) : Prop :=
  Inbound.Ebbs origin deadline epoch d.now (d.pairs.receiving sender)

/-- **A message of a later epoch** ends the one in use. -/
theorem ebbs_of_receive (hSettled : d.Settled may)
    (hSession : (d.pairs.receiving sender).epochs.get? epoch = some session)
    (hActive : session.phase = .active) (hReceived : (d.receive P bytes).1 = .ok m)
    (hSender : m.sender = sender) (hAbove : epoch < m.epoch) :
    (d.receive P bytes).2.Ebbs sender session (d.config.rotation.graceDeadline d.now) epoch := by
  obtain ⟨e, peer, w, -, -, hOpened, hMessage, hSide, -⟩ := opened_of_receive hReceived
  rw [hMessage] at hSender hAbove
  obtain rfl : peer.deviceId = sender := hSender
  unfold Ebbs
  rw [hSide]
  exact (hSettled.receiving peer.deviceId).ebbs_of_decrypt hSession hActive hOpened hAbove

/-- By the index, a session that has ended is due at its deadline. -/
theorem le_of_due {now : UInt64} {entry : Rotation.Deadline} (hSettled : d.Settled may)
    (hSession : (d.pairs.receiving sender).epochs.get? epoch = some session)
    (hEnded : session.phase = .expiring deadline)
    (hEntry : d.deadlines.get? session.id = some entry) (hDue : entry.due? now ≠ none) :
    deadline ≤ now := by
  have hLive : session ∈ d.pairs.live :=
    Pairs.mem_live_iff.2 ⟨sender, .inr (Inbound.mem_live_iff.2 ⟨epoch, hSession⟩)⟩
  obtain ⟨own, hOwn, hRetire⟩ := Pairs.Settled.entry hSettled hLive
  have hOwn : d.deadlines.get? session.id = some own := hOwn
  rw [hEntry] at hOwn
  cases hOwn
  rw [Session.retireAt_of_expiring hEnded] at hRetire
  unfold Rotation.Deadline.due? at hDue
  rw [hRetire] at hDue
  exact Decidable.by_contra fun hEarly => hDue (if_neg hEarly)

/-- No envelope drops a session that can still be read. -/
theorem canDecrypt_of_gone_receive (hSettled : d.Settled may)
    (hSession : (d.pairs.receiving sender).epochs.get? epoch = some session)
    (hGone : ((d.receive P bytes).2.pairs.receiving sender).epochs.get? epoch = none) :
    session.canDecrypt d.now = false := by
  rcases receive_cases (d.receive P bytes).eta.symm with
    ⟨-, -, log, hLog⟩ | ⟨e, peer, opened, w, -, -, hw, -, ⟨hPairs, -⟩, -⟩
  · rw [hLog] at hGone
    exact nomatch hGone.symm.trans hSession
  · have hSide := Pairs.receiving_decrypt (d.setting d.now) P peer e d.work sender
    rw [hw, ← hPairs] at hSide
    rw [hSide] at hGone
    split at hGone
    · rename_i hSender
      subst hSender
      exact Inbound.canDecrypt_of_gone (s := d.setting d.now)
        (hSettled.receiving peer.deviceId).named hSession hGone
    · exact nomatch hGone.symm.trans hSession

/-- **No operation drops the session before its deadline,** unless it closes the device, revokes the
sender, or sweeps ahead of the clock. -/
theorem le_of_gone (hFiled : d.contacts.Filed) (hNamed : d.Named) (hSettled : d.Settled may)
    (op : Operation) (hOpen : op ≠ .shutdown) (hTime : op.time d.now ≤ d.now)
    (hTrusted : (d.step P op).2.isRevoked sender = false)
    (hSession : (d.pairs.receiving sender).epochs.get? epoch = some session)
    (hEnded : session.phase = .expiring deadline)
    (hGone : ((d.step P op).2.pairs.receiving sender).epochs.get? epoch = none) :
    deadline ≤ d.now := by
  have hId : session.id = ⟨d.id, sender, epoch, .inbound⟩ :=
    hNamed.receiving sender epoch session hSession
  have hTouched : d.Touched P op ⟨d.id, sender, epoch, .inbound⟩ := by
    by_contra hSpared
    obtain ⟨hSame, -⟩ := (reaches_step hFiled hNamed op).spared sender epoch hSpared
    have hSame : ((d.step P op).2.pairs.receiving sender).epochs.get? epoch = _ := hSame
    rw [hGone] at hSame
    exact nomatch hSame.trans hSession
  rcases hTouched with hClosing | hRevoked | ⟨entry, hEntry, hDue⟩ | ⟨bytes, -, rfl, -⟩
  · exact absurd hClosing hOpen
  · have hRevoked : (d.step P op).2.isRevoked sender = true := hRevoked
    rw [hTrusted] at hRevoked
    cases hRevoked
  · rw [← hId] at hEntry
    exact UInt64.le_trans (le_of_due hSettled hSession hEnded hEntry hDue) hTime
  · have hOver := canDecrypt_of_gone_receive hSettled hSession hGone
    rw [Bool.eq_false_iff, ne_eq, Session.canDecrypt_iff] at hOver
    exact UInt64.not_lt.1 fun hEarly => hOver (.inr ⟨deadline, hEnded, hEarly⟩)

/-- **Whatever is done,** what is left of an ended epoch goes by its deadline alone. -/
theorem Ebbs.step (hFiled : d.contacts.Filed) (hNamed : d.Named) (hSettled : d.Settled may)
    (h : d.Ebbs sender origin deadline epoch) (op : Operation) (hOpen : op ≠ .shutdown)
    (hTime : op.time d.now ≤ d.now) (hTrusted : (d.step P op).2.isRevoked sender = false)
    (hClock : d.now ≤ (d.step P op).2.now) :
    (d.step P op).2.Ebbs sender origin deadline epoch := by
  have hGone (hNone : ((d.step P op).2.pairs.receiving sender).epochs.get? epoch = none) :
      deadline ≤ (d.step P op).2.now := by
    refine UInt64.le_trans ?_ hClock
    cases hBefore : (d.pairs.receiving sender).epochs.get? epoch with
    | none => exact h.gone hBefore
    | some session =>
      obtain ⟨hEnded, -⟩ := h.kept session hBefore
      exact le_of_gone hFiled hNamed hSettled op hOpen hTime hTrusted hBefore hEnded hNone
  rcases receiving_step (P := P) d op sender with
    ⟨-, hWanes⟩ | ⟨bytes, e, peer, text, -, -, hTakes⟩
  · exact Inbound.Ebbs.wanes h hWanes hGone
  · exact Inbound.Ebbs.accepts h hTakes.accepts hGone

/-- **Along any operations,** what is left of an ended epoch goes by its deadline alone. -/
theorem Ebbs.run (hStart : Starts P start) (hRun : Run P start history d)
    (h : d.Ebbs sender origin deadline epoch) (hReturn : allReturn P d ops = true)
    (hClock : clockGoesOn P d ops = true) (hSweeps : sweepsInTime P d ops = true)
    (hOpen : .shutdown ∉ ops) (hTrusted : (after P d ops).isRevoked sender = false) :
    (after P d ops).Ebbs sender origin deadline epoch := by
  induction ops generalizing d history with
  | nil => exact h
  | cons op rest ih =>
    simp only [allReturn, Bool.and_eq_true, Bool.not_eq_true'] at hReturn
    simp only [clockGoesOn, Bool.and_eq_true, decide_eq_true_eq] at hClock
    simp only [sweepsInTime, Bool.and_eq_true, decide_eq_true_eq] at hSweeps
    -- who is not revoked at the end was not revoked before
    have hTrustedNext : (d.step P op).2.isRevoked sender = false := by
      rw [Bool.eq_false_iff]
      intro hRevoked
      have hLater := isRevoked_of_evolves (run_after hReturn.2).evolves hRevoked
      have hTrusted : (after P (d.step P op).2 rest).isRevoked sender = false := hTrusted
      rw [hLater] at hTrusted
      cases hTrusted
    refine ih (hRun.step op hReturn.1) ?_ hReturn.2 hClock.2 hSweeps.2
      (fun hMem => hOpen (.tail _ hMem)) hTrusted
    exact h.step (hRun.filed hStart) (hRun.named hStart) (hRun.settled hStart) op
      (fun hClosing => hOpen (hClosing ▸ .head _)) hSweeps.1 hTrustedNext hClock.1

-- ---------------------------------------------------------------------------
-- The envelopes of an ended epoch
-- ---------------------------------------------------------------------------

/-- **Behind the deadline** an envelope of the epoch is refused for its age, whatever the sink
says. -/
theorem Ebbs.fst_receive (h : d.Ebbs sender origin deadline e.epoch) (hFiled : d.contacts.Filed)
    (hBarred : (d.pairs.receiving sender).isRevoked = true → d.isRevoked sender = true)
    (hDecoded : Envelope.decode d.config.limits bytes = .ok e)
    (hPeer : d.authenticate P e = .ok peer) (hFrom : e.sender = sender)
    (hOver : deadline ≤ d.now) :
    (d.receive P bytes).1 = .error (.sessionExpired sender e.epoch) := by
  obtain ⟨hRecord, hTrusted, -⟩ := authenticate_eq_ok_iff.1 hPeer
  obtain rfl : peer.deviceId = sender := (hFiled _ _ hRecord).trans hFrom
  have hOpen : (d.pairs.receiving peer.deviceId).isRevoked = false := by
    rw [Bool.eq_false_iff]
    intro hShut
    have hRevoked := hBarred hShut
    unfold isRevoked at hRevoked
    rw [← hFrom, hRecord, Option.any_some, hTrusted] at hRevoked
    cases hRevoked
  have hRefused : (d.onPairs P fun s => Pairs.decrypt P s peer e).1 =
      .error (.sessionExpired peer.deviceId e.epoch) :=
    Inbound.Ebbs.fst_decrypt (s := d.setting d.now)
      (w := d.work.withPart (d.pairs.receiving peer.deviceId)) h hOpen hOver
  refine fst_receive_of_decrypt hDecoded hPeer hRefused fun failure hFailure => ?_
  cases hFailure
  rfl

/-- **Before the deadline** the session is there. -/
theorem Ebbs.exists_session (h : d.Ebbs sender origin deadline epoch)
    (hInGrace : d.now < deadline) :
    ∃ kept, (d.pairs.receiving sender).epochs.get? epoch = some kept := by
  refine Option.ne_none_iff_exists'.1 fun hNone => ?_
  exact UInt64.not_lt.2 (h.gone hNone) hInGrace

/-- **An envelope of an epoch that can be read** is accepted exactly in the window of the session. -/
theorem receive_iff_of_kept {places : List (UInt64 × UInt64)} {plaintext : Bytes} {kept : Session}
    (hFiled : d.contacts.Filed) (hListens : d.Listens P sender peer.keys places)
    (hKept : (d.pairs.receiving sender).epochs.get? e.epoch = some kept)
    (hReadable : kept.canDecrypt d.now = true)
    (hDecoded : Envelope.decode d.config.limits bytes = .ok e)
    (hPeer : d.authenticate P e = .ok peer) (hFrom : e.sender = sender)
    (hOpens : e.Opens P d.identity sender peer.keys plaintext) (hLevel : e.level = kept.level)
    (hEphemeral : e.ephemeral = kept.ephemeral) :
    (∃ m, (d.receive P bytes).1 = .ok m) ↔
      kept.ratchet.next ≤ e.sequence ∧
        e.sequence.toNat ≤ kept.ratchet.next.toNat + d.config.maxSkip.toNat := by
  subst hFrom
  obtain ⟨hRecord, hTrusted, hAuthentic⟩ := authenticate_eq_ok_iff.1 hPeer
  have hNotRevoked : d.isRevoked e.sender = false := by
    unfold isRevoked
    rw [hRecord]
    exact hTrusted
  -- the window begins behind the last number that was accepted
  obtain ⟨last, hLast, hNext, hMax⟩ := hListens.tracks.behind _ kept hKept
  rw [hListens.receive_iff hRecord (hFiled _ _ hRecord) rfl hAuthentic hOpens hDecoded,
    UInt64.le_iff_toNat_le, hNext]
  constructor
  · rintro ⟨-, hAwaits, -⟩
    rcases hAwaits with ⟨hAbove, -⟩ | ⟨session, last', -, -, hLast', hMax', hWindow⟩
    · exact absurd (hAbove _ hLast) (UInt64.lt_irrefl _)
    · obtain rfl : last' = last := UInt64.le_antisymm (hMax _ hLast' rfl) (hMax' _ hLast rfl)
      exact ⟨UInt64.lt_iff_toNat_lt.1 hWindow.1, hWindow.2⟩
  · intro hWindow
    refine ⟨hNotRevoked, .inr ⟨kept, last, hKept, Session.canDecrypt_iff.1 hReadable, hLast, hMax,
      UInt64.lt_iff_toNat_lt.2 hWindow.1, hWindow.2⟩, fun other hOther => ?_⟩
    rw [hKept] at hOther
    cases hOther
    exact ⟨hLevel, hEphemeral⟩

/-- **Before the deadline** an envelope of the epoch is accepted exactly in the window of the
session. -/
theorem Ebbs.receive_iff {places : List (UInt64 × UInt64)} {plaintext : Bytes} {kept : Session}
    (h : d.Ebbs sender origin deadline e.epoch) (hFiled : d.contacts.Filed)
    (hListens : d.Listens P sender peer.keys places) (hInGrace : d.now < deadline)
    (hKept : (d.pairs.receiving sender).epochs.get? e.epoch = some kept)
    (hDecoded : Envelope.decode d.config.limits bytes = .ok e)
    (hPeer : d.authenticate P e = .ok peer) (hFrom : e.sender = sender)
    (hOpens : e.Opens P d.identity sender peer.keys plaintext) (hLevel : e.level = origin.level)
    (hEphemeral : e.ephemeral = origin.ephemeral) :
    (∃ m, (d.receive P bytes).1 = .ok m) ↔
      kept.ratchet.next ≤ e.sequence ∧
        e.sequence.toNat ≤ kept.ratchet.next.toNat + d.config.maxSkip.toNat := by
  obtain ⟨hEnded, hSameLevel, hSameKey⟩ := h.kept kept hKept
  exact receive_iff_of_kept hFiled hListens hKept
    (Session.canDecrypt_iff.2 (.inr ⟨deadline, hEnded, hInGrace⟩)) hDecoded hPeer hFrom hOpens
    (hLevel.trans hSameLevel.symm) (hEphemeral.trans hSameKey.symm)

/-- The envelope behind a message that was received, and the record of its sender. -/
theorem Run.envelope_of_receive (hStart : Starts P start) (hRun : Run P start history d)
    (hReceived : (d.receive P bytes).1 = .ok m) :
    ∃ e peer, Envelope.decode d.config.limits bytes = .ok e ∧ d.authenticate P e = .ok peer ∧
      m = ⟨peer.deviceId, e.level, e.epoch, e.sequence, peer.trust, m.plaintext⟩ ∧
      e.Carries P d.identity peer.keys m := by
  obtain ⟨e, peer, w, hDecoded, hPeer, -, hMessage, -⟩ := opened_of_receive hReceived
  obtain ⟨e', record, hDecoded', hRecord, hCarries⟩ := hRun.carries_of_receive hStart hReceived
  rw [hDecoded] at hDecoded'
  cases hDecoded'
  rw [hCarries.sender, (authenticate_eq_ok hPeer).1] at hRecord
  cases hRecord
  exact ⟨e, peer, hDecoded, hPeer, hMessage, hCarries⟩

/-- What is accepted is what the envelope carries. -/
theorem Run.eq_of_receive {plaintext : Bytes} (hStart : Starts P start)
    (hRun : Run P start history d) (hDecoded : Envelope.decode d.config.limits bytes = .ok e)
    (hPeer : d.authenticate P e = .ok peer)
    (hOpens : e.Opens P d.identity e.sender peer.keys plaintext)
    (hReceived : (d.receive P bytes).1 = .ok m) :
    m = ⟨peer.deviceId, e.level, e.epoch, e.sequence, peer.trust, plaintext⟩ := by
  obtain ⟨e', peer', hDecoded', hPeer', hMessage, hCarries⟩ :=
    hRun.envelope_of_receive hStart hReceived
  rw [hDecoded] at hDecoded'
  cases hDecoded'
  rw [hPeer] at hPeer'
  cases hPeer'
  rw [hCarries.opens.unique hOpens] at hMessage
  exact hMessage

/-- **The grace of an epoch is exact.** A device receives with an active session of a sender, and
then a message of a later epoch of the sender. The clock goes on, no sweep is ahead of it, the
device is not shut down and the sender is not revoked; besides, anything is done. Let the grace, as
it is counted in milliseconds, begin with that message.

* Before it is over, the session is there, and an envelope of the sender's that was made in it is
  accepted exactly if its number lies in the window of the session.
* From then on, every envelope of the epoch that can be read, is for the device and is the sender's
  is refused for its age, whatever is in it.

In the run, and in what is asked behind it, no counter passes `2 ^ 64 - 1`. -/
theorem grace_exact (hStart : Starts P start) (hRun : Run P start history d)
    (hSession : (d.pairs.receiving sender).epochs.get? epoch = some session)
    (hActive : session.phase = .active) {newer : Bytes} (hNewer : (d.receive P newer).1 = .ok m)
    (hSender : m.sender = sender) (hAbove : epoch < m.epoch)
    (hReturn : allReturn P d (.receive newer :: ops) = true)
    (hClock : clockGoesOn P d (.receive newer :: ops) = true)
    (hSweeps : sweepsInTime P d (.receive newer :: ops) = true) (hOpen : .shutdown ∉ ops)
    (hTrusted : (after P d (.receive newer :: ops)).isRevoked sender = false) :
    let later := after P d (.receive newer :: ops)
    let deadline := d.config.rotation.graceDeadline d.now
    deadline.toNat = min (d.now.toNat + d.config.rotation.grace.millis.toNat) (UInt64.size - 1) ∧
      (later.now < deadline →
        ∃ kept, (later.pairs.receiving sender).epochs.get? epoch = some kept ∧
          ∀ bytes e peer plaintext, Envelope.decode later.config.limits bytes = .ok e →
            later.authenticate P e = .ok peer → e.sender = sender → e.epoch = epoch →
            e.Opens P later.identity sender peer.keys plaintext → e.level = session.level →
            e.ephemeral = session.ephemeral →
            ((later.receive P bytes).1 =
                .ok ⟨sender, e.level, epoch, e.sequence, peer.trust, plaintext⟩ ↔
              kept.ratchet.next ≤ e.sequence ∧
                e.sequence.toNat ≤ kept.ratchet.next.toNat + later.config.maxSkip.toNat)) ∧
      (deadline ≤ later.now →
        ∀ bytes e peer, Envelope.decode later.config.limits bytes = .ok e →
          later.authenticate P e = .ok peer → e.sender = sender → e.epoch = epoch →
          (later.receive P bytes).1 = .error (.sessionExpired sender epoch)) := by
  intro later deadline
  have hRunLater : Run P start (history ++ during P d (.receive newer :: ops)) later :=
    hRun.trans (run_after hReturn)
  have hFiled := hRunLater.filed hStart
  -- the newer epoch sets the deadline, and nothing but the end of the grace takes the session away
  have hEbbs : later.Ebbs sender session deadline epoch := by
    have hEnds := ebbs_of_receive (hRun.settled hStart) hSession hActive hNewer hSender hAbove
    simp only [allReturn, Bool.and_eq_true, Bool.not_eq_true'] at hReturn
    simp only [clockGoesOn, Bool.and_eq_true, decide_eq_true_eq] at hClock
    simp only [sweepsInTime, Bool.and_eq_true, decide_eq_true_eq] at hSweeps
    exact Ebbs.run (d := (d.step P (.receive newer)).2) hStart
      (hRun.step (.receive newer) hReturn.1) hEnds hReturn.2 hClock.2 hSweeps.2 hOpen hTrusted
  refine ⟨toNat_saturatingAdd .., fun hInGrace => ?_, fun hOver bytes e peer hDecoded hPeer hFrom
    hEpoch => ?_⟩
  · -- within the grace: the session is kept, and reads what its window awaits
    obtain ⟨kept, hKept⟩ := hEbbs.exists_session hInGrace
    refine ⟨kept, hKept, fun bytes e peer plaintext hDecoded hPeer hFrom hEpoch hOpens hLevel
      hEphemeral => ?_⟩
    subst hEpoch
    obtain ⟨hRecord, -⟩ := authenticate_eq_ok hPeer
    have hListens := hRunLater.listens hStart (forall_keys_of (hFrom ▸ hRecord))
    rw [← hEbbs.receive_iff hFiled hListens hInGrace hKept hDecoded hPeer hFrom hOpens hLevel
      hEphemeral]
    refine ⟨fun hAccepted => ⟨_, hAccepted⟩, ?_⟩
    rintro ⟨m', hAccepted⟩
    have hId : peer.deviceId = sender := (hFiled _ _ hRecord).trans hFrom
    rw [hAccepted, hRunLater.eq_of_receive hStart hDecoded hPeer (hFrom ▸ hOpens) hAccepted, hId]
  · -- after it: the session reads nothing, whether or not a sweep has taken it away
    subst hEpoch
    exact hEbbs.fst_receive hFiled (hRunLater.barred hStart sender) hDecoded hPeer hFrom hOver

/-- An envelope that would be received is authentic later on, as long as the record of its sender is
the same. -/
theorem Run.authentic_later (hStart : Starts P start) (hRun : Run P start history d)
    (hReceived : (d.receive P bytes).1 = .ok m) {later : Device} (hEvolves : d.Evolves later)
    (hSame : later.contacts.get? m.sender = d.contacts.get? m.sender) :
    ∃ e peer, Envelope.decode later.config.limits bytes = .ok e ∧
      later.authenticate P e = .ok peer ∧ d.contacts.get? m.sender = some peer ∧
      e.Carries P later.identity peer.keys m := by
  obtain ⟨e, peer, hDecoded, hPeer, -, hCarries⟩ := hRun.envelope_of_receive hStart hReceived
  obtain ⟨hRecord, hTrusted, hAuthentic⟩ := authenticate_eq_ok_iff.1 hPeer
  rw [← hCarries.sender] at hRecord
  refine ⟨e, peer, hEvolves.config ▸ hDecoded, authenticate_eq_ok_iff.2 ⟨?_, hTrusted, ?_⟩,
    hRecord, hEvolves.identity ▸ hCarries⟩
  · rw [← hCarries.sender, hSame, hRecord]
  · rw [hEvolves.identity]
    exact hAuthentic

/-- What Ann writes to Bob: two messages at one level, and one at another. -/
def graceLetters : List Bytes :=
  plainLetters .standard [.send "bob" .basic [1], .send "bob" .basic [2], .send "bob" .military [3]]

/-- Bob gets the first of them. -/
def firstOps : List Operation :=
  [meetPlain "ann" 1, .receive (graceLetters.getD 0 [])]

/-- Some time later he sweeps. -/
def lateOps (now : UInt64) : List Operation :=
  [.setClock now, .maintain now]

theorem grace_exact_of_lateOps :
    let bob := after .plain (plain .standard "bob" 3) firstOps
    let later (now : UInt64) :=
      after .plain bob (.receive (graceLetters.getD 2 []) :: lateOps now)
    ((later 299999).receive .plain (graceLetters.getD 1 [])).1 =
        .ok ⟨"ann", .basic, 0, 2, .unverified, [2]⟩ ∧
      ((later 300000).receive .plain (graceLetters.getD 1 [])).1 =
        .error (.sessionExpired "ann" 0) := by
  intro bob _
  have hStart : Starts .plain (plain .standard "bob" 3) := plain_starts "bob" 3 rfl
  have hRun : Run .plain (plain .standard "bob" 3)
      (during .plain (plain .standard "bob" 3) firstOps) bob := run_after (by decide +kernel)
  -- the session that the first message began
  obtain ⟨session, hSession, hFacts⟩ := Option.map_eq_some_iff.1 (show
    ((bob.pairs.receiving "ann").epochs.get? 0).map
      (fun session => (session.phase, session.level, session.ephemeral)) =
      some (.active, .basic, .leading 32 (List.replicate 32 1)) by decide +kernel)
  obtain ⟨hActive, hLevel, hKey⟩ : session.phase = .active ∧ session.level = .basic ∧
      session.ephemeral = .leading 32 (List.replicate 32 1) := by simpa using hFacts
  have hNewer : (bob.receive .plain (graceLetters.getD 2 [])).1 =
      .ok ⟨"ann", .military, 1, 1, .unverified, [3]⟩ := by decide +kernel
  -- the second message would have been received before the grace began
  have hBefore : (bob.receive .plain (graceLetters.getD 1 [])).1 =
      .ok ⟨"ann", .basic, 0, 2, .unverified, [2]⟩ := by decide +kernel
  have hSameKey : (Envelope.decode bob.config.limits (graceLetters.getD 1 [])).toOption.map
      (·.ephemeral) = some (.leading 32 (List.replicate 32 1)) := by decide +kernel
  have hTrust : (bob.contacts.get? "ann").map (·.trust) = some .unverified := by decide +kernel
  have hDeadline : bob.config.rotation.graceDeadline bob.now = 300000 := by decide +kernel
  have hExact (now : UInt64) (later : Device)
      (hIs : after .plain bob (.receive (graceLetters.getD 2 []) :: lateOps now) = later)
      (hReturn : allReturn .plain bob (.receive (graceLetters.getD 2 []) :: lateOps now) = true)
      (hClock : clockGoesOn .plain bob (.receive (graceLetters.getD 2 []) :: lateOps now) = true)
      (hSweeps : sweepsInTime .plain bob (.receive (graceLetters.getD 2 []) :: lateOps now) = true)
      (hAnn : later.contacts.get? "ann" = bob.contacts.get? "ann")
      (hTrusted : later.isRevoked "ann" = false) :
      (later.now < 300000 →
        ((later.pairs.receiving "ann").epochs.get? 0).map (·.ratchet.next) = some 2 →
        (later.receive .plain (graceLetters.getD 1 [])).1 =
          .ok ⟨"ann", .basic, 0, 2, .unverified, [2]⟩) ∧
      (300000 ≤ later.now → (later.receive .plain (graceLetters.getD 1 [])).1 =
        .error (.sessionExpired "ann" 0)) := by
    have hEvolves := (run_after hReturn).evolves
    rw [hIs] at hEvolves
    obtain ⟨e, peer, hDecoded, hPeer, hRecord, hCarries⟩ :=
      hRun.authentic_later hStart hBefore hEvolves hAnn
    obtain ⟨-, hEarly, hLate⟩ := grace_exact hStart hRun hSession hActive hNewer rfl (by decide)
      hReturn hClock hSweeps (by simp [lateOps]) (hIs ▸ hTrusted)
    rw [hIs, hDeadline] at hEarly hLate
    refine ⟨fun hInGrace hNext => ?_, fun hOver => hLate hOver _ e peer hDecoded hPeer
      hCarries.sender.symm hCarries.epoch.symm⟩
    obtain ⟨kept, hKept, hEarly⟩ := hEarly hInGrace
    have hOpens := hCarries.opens
    rw [← hCarries.sender] at hOpens
    rw [hKept, Option.map_some, Option.some.injEq] at hNext
    rw [← hEvolves.config, hDecoded] at hSameKey
    have hWindow := hEarly _ e peer [2] hDecoded hPeer hCarries.sender.symm hCarries.epoch.symm
      hOpens (hCarries.level.symm.trans hLevel.symm) ((Option.some.inj hSameKey).trans hKey.symm)
    rw [hRecord] at hTrust
    have hTrust : peer.trust = .unverified := Option.some.inj hTrust
    rw [← hCarries.level, ← hCarries.sequence, hTrust, hNext, hEvolves.config] at hWindow
    exact hWindow.2 (by decide +kernel)
  exact ⟨(hExact 299999 _ rfl (by decide +kernel) (by decide +kernel) (by decide +kernel)
      (by decide +kernel) (by decide +kernel)).1 (by decide +kernel) (by decide +kernel),
    (hExact 300000 _ rfl (by decide +kernel) (by decide +kernel) (by decide +kernel)
      (by decide +kernel) (by decide +kernel)).2 (by decide +kernel)⟩

/-- A grace of `2 ^ 64` milliseconds. -/
def fleeting : Config :=
  { Config.standard with
    rotation := { Config.standard.rotation with grace := ⟨18446744073709551, 616000000⟩ } }

/-- **The grace goes by what is counted of it:** it is longer than the clock can ever show, and it
is over at once. -/
theorem fleeting_ends_at_once :
    let bob := after .plain (plain fleeting "bob" 3) firstOps
    let later := after .plain bob [.receive (graceLetters.getD 2 [])]
    fleeting.validate = .ok () ∧ fleeting.rotation.grace.wholeMillis = UInt64.size ∧
      allReturn .plain (plain fleeting "bob" 3) firstOps = true ∧
      (bob.receive .plain (graceLetters.getD 1 [])).1 =
        .ok ⟨"ann", .basic, 0, 2, .unverified, [2]⟩ ∧
      ((bob.pairs.receiving "ann").epochs.get? 0).map (·.phase) = some .active ∧
      (bob.receive .plain (graceLetters.getD 2 [])).1 =
        .ok ⟨"ann", .military, 1, 1, .unverified, [3]⟩ ∧
      later.now.toNat <
        min (bob.now.toNat + bob.config.rotation.grace.wholeMillis) (UInt64.size - 1) ∧
      (later.receive .plain (graceLetters.getD 1 [])).1 = .error (.sessionExpired "ann" 0) := by
  intro bob later
  exact ⟨rfl, by decide, by decide +kernel, by decide +kernel, by decide +kernel,
    by decide +kernel, by decide +kernel, by decide +kernel⟩

end Device

end EndToEnd
