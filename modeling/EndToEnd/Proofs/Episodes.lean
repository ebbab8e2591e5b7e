import EndToEnd.Proofs.Durations
import EndToEnd.Proofs.RevokedPairs

/-!
# Episodes of waiting

A request makes a device wait for a session with a peer, unless it has one. From then on the time of
that request stands, whatever is asked of the device, until the episode ends; and it ends in one of
four ways (`Device.Ending`): a message to the peer begins an epoch, a message finds no key to agree
on, everything with the peer is dropped, or the establishment is given up, which leaves one entry in
the log. It is given up by the first operation that looks for it (`Device.looksFor`) when its time
is over, and by none before. Then nothing is waited for until somebody asks again.

The time of an establishment is over when as many milliseconds have passed as are counted of the
configured span (`Duration.Passed`). Of one that 64 bits cannot count, what is counted is less.

Main results:

* `Outbound.encrypt_of_none` — what becomes of a message where no session sends.
* `Device.send_of_abandons`, `Device.send_of_carries` — what becomes of a message that looks for an
  establishment.
* `Device.askedAfter_eq_none_iff`, `Device.exists_ending` — how an episode ends.
* `Device.exists_request` — how it began.
* `Device.establishments_end_once` — episodes, behind any operations.
* `Device.endless_establishment_ends_at_once` — a span that is cut down.
-/

namespace EndToEnd

namespace Duration

variable {span : Duration} {since now : UInt64}

/-- When a span that 64 bits can count has passed. -/
theorem passed_iff_add_le (hFits : span.wholeMillis < UInt64.size) :
    span.Passed since now ↔ since.toNat + span.wholeMillis ≤ now.toNat ∨ span.wholeMillis = 0 := by
  rw [passed_iff hFits]
  omega

end Duration

-- ---------------------------------------------------------------------------
-- Sides that wait
-- ---------------------------------------------------------------------------

namespace Outbound

variable {P : Primitives} {s : Setting} {w : Work Outbound}

/-- A message that finds the establishment overdue gives it up. -/
theorem encrypt_of_hasTimedOut (record : Peer) (level : Level) (plaintext : Bytes)
    (hOpen : w.part.isRevoked = false) (hLate : w.part.hasTimedOut s = true) :
    encrypt P s record level plaintext w =
      (.error (.establishmentTimeout record.deviceId), timeOut s record.deviceId w) := by
  unfold encrypt
  rw [hOpen, if_neg Bool.false_ne_true, if_pos hLate]

/-- **What becomes of a message where no session sends,** and no establishment is overdue: no key
can be agreed on, or an epoch begins. -/
theorem encrypt_of_none (record : Peer) (level : Level) (plaintext : Bytes)
    (hOpen : w.part.isRevoked = false) (hInTime : w.part.hasTimedOut s = false)
    (hNone : w.part.current = none) :
    (∃ fault, EpochKeys.initiateWith P level.suite w.random.drawKey.1
          s.own.keys.encryption.bytes record.keys.encryption
          ⟨s.own.deviceId, record.deviceId, w.part.nextEpoch, level⟩ = .error fault ∧
        (encrypt P s record level plaintext w).1 = .error (.ofCrypto fault) ∧
        (encrypt P s record level plaintext w).2.part = { w.part with requestedAt := none }) ∨
      ((encrypt P s record level plaintext w).2.part.current.isSome = true ∧
        (encrypt P s record level plaintext w).2.part.nextEpoch = w.part.nextEpoch + 1) := by
  have hSame : rotateIfDue s record.deviceId level w = w := by simp [rotateIfDue, hNone]
  unfold encrypt ready
  rw [hOpen, hInTime, if_neg Bool.false_ne_true, if_neg Bool.false_ne_true, hSame, hNone]
  dsimp only
  -- all depends on whether the two keys agree on a secret
  cases hKeys : EpochKeys.initiateWith P level.suite w.random.drawKey.1
      s.own.keys.encryption.bytes record.keys.encryption
      ⟨s.own.deviceId, record.deviceId, w.part.nextEpoch, level⟩ with
  | error fault =>
    refine .inl ⟨fault, rfl, ?_⟩
    have hFailed : establish P s record level w = (.error (.ofCrypto fault),
        { w with random := w.random.drawKey.2, part := { w.part with requestedAt := none } }) := by
      unfold establish beginSession
      dsimp only
      rw [hKeys]
    rw [hFailed]
    exact ⟨rfl, rfl⟩
  | ok keys =>
    refine .inr ?_
    rcases hBegun : establish P s record level w with ⟨result, w₁⟩
    rcases establish_cases hBegun with ⟨failure, rfl, -⟩ | ⟨session, rfl, -, hPart⟩
    · unfold establish beginSession at hBegun
      dsimp only at hBegun
      rw [hKeys] at hBegun
      cases hBegun
    · dsimp only
      split <;> rw [hPart] <;> exact ⟨rfl, rfl⟩

end Outbound

namespace Pairs

variable {s : Setting} {w : Work Pairs} {peer : String}

theorem fst_onOutbound {α : Type} (peer : String) (op : Work Outbound → α × Work Outbound)
    (w : Work Pairs) : (onOutbound peer op w).1 = (op (w.withPart (w.part.sending peer))).1 := rfl

/-- The look at an establishment that is overdue gives it up. -/
theorem checkEstablishment_of_hasTimedOut (h : (w.part.sending peer).hasTimedOut s = true) :
    (checkEstablishment s peer w).1 = .error (.establishmentTimeout peer) ∧
      (checkEstablishment s peer w).2.part.sending peer =
        { w.part.sending peer with requestedAt := none } := by
  have hFormed : (w.part.outbound? peer).isSome = true := by
    cases hSide : w.part.outbound? peer with
    | some o => rfl
    | none =>
      unfold sending at h
      rw [hSide] at h
      cases h
  have hLate : (w.withPart (w.part.sending peer)).part.hasTimedOut s = true := h
  unfold checkEstablishment onExistingOutbound
  rw [if_pos hFormed, sending_onOutbound, if_pos rfl, if_pos hLate]
  rw [fst_onOutbound, if_pos hLate]
  exact ⟨rfl, rfl⟩

end Pairs

-- ---------------------------------------------------------------------------
-- Messages that look for an establishment
-- ---------------------------------------------------------------------------

namespace Device

variable {P : Primitives} {start d : Device} {may : String → Prop} {ops : List Operation}
  {peer : String} {asked : UInt64} {op : Operation} {level : Level} {plaintext : Bytes}

/-- A message that is up to the sending side of its peer: what becomes of the side, and how it is
answered if it fails there. -/
theorem sendTo_eq (record : Peer) (level : Level) (plaintext : Bytes) (d : Device) :
    let sent := Outbound.encrypt P (d.setting d.now) record level plaintext
      (d.work.withPart (d.pairs.sending record.deviceId))
    (d.sendTo P record level plaintext).2.pairs.sending record.deviceId = sent.2.part ∧
      ∀ failure, sent.1 = .error failure →
        (d.sendTo P record level plaintext).1 = .error failure := by
  intro sent
  have hSide := Pairs.sending_encrypt (d.setting d.now) P record level plaintext d.work
    record.deviceId
  rw [if_pos rfl] at hSide
  have hMade : (d.onPairs P fun s => Pairs.encrypt P s record level plaintext).1 = sent.1 := rfl
  have hLeft : (d.onPairs P fun s => Pairs.encrypt P s record level plaintext).2.pairs.sending
      record.deviceId = sent.2.part := hSide
  unfold sendTo
  split
  · rename_i hFailed
    rw [hFailed] at hMade hLeft
    exact ⟨hLeft, fun failure hError =>
      congrArg Except.error (Except.error.inj (hMade.trans hError))⟩
  · rename_i hOk
    rw [hOk] at hMade hLeft
    exact ⟨hLeft, fun failure hError => nomatch hMade.trans hError⟩

/-- Where an establishment is waited for, no session sends. -/
theorem current_of_asked (hSettled : d.Settled may)
    (hAsked : (d.pairs.sending peer).requestedAt = some asked) :
    (d.pairs.sending peer).current = none := by
  cases hCurrent : (d.pairs.sending peer).current with
  | none => rfl
  | some session =>
    have hNone : (d.pairs.sending peer).requestedAt = none :=
      (hSettled.sending peer).requestedAt_eq_none (Option.isSome_of_eq_some hCurrent)
    rw [hNone] at hAsked
    cases hAsked

/-- A message that is carried has a record to go by, and its side is not barred. -/
theorem exists_record_of_carries (h : d.carries peer = true) :
    (d.pairs.sending peer).isRevoked = false ∧ ∃ record, d.contacts.get? peer = some record ∧
      ∀ level plaintext, d.send P peer level plaintext = d.sendTo P record level plaintext := by
  obtain ⟨hAny, hOpen⟩ := Bool.and_eq_true_iff.1 h
  obtain ⟨record, hRecord, hAllowed⟩ := (Option.any_eq_true _ _).1 hAny
  simp only [Bool.and_eq_true, Bool.not_eq_true'] at hAllowed hOpen
  refine ⟨hOpen, record, hRecord, fun level plaintext => ?_⟩
  unfold send
  rw [hRecord]
  dsimp only
  rw [if_neg (by rw [hAllowed.1]; exact Bool.false_ne_true), if_neg (by simpa using hAllowed.2)]

/-- **A message that gives an establishment up** is answered with that, and leaves no session. -/
theorem send_of_abandons (hFiled : d.contacts.Filed) (hSettled : d.Settled may)
    (h : d.abandons (.send peer level plaintext) peer = true) :
    (d.send P peer level plaintext).1 = .error (.establishmentTimeout peer) ∧
      ((d.send P peer level plaintext).2.pairs.sending peer).current = none := by
  obtain ⟨hLooks, hOverdue⟩ := Bool.and_eq_true_iff.1 h
  obtain ⟨asked, hAsked, -⟩ := passed_of_isOverdue hOverdue
  have hNone := current_of_asked hSettled hAsked
  have hLate := (hasTimedOut_eq hSettled d.now peer).trans hOverdue
  rw [Bool.and_eq_true_iff, Bool.or_eq_true_iff] at hLooks
  rcases hLooks.2 with hUnknown | hCarries
  · -- the peer is not on file, and the establishment is looked after all the same
    obtain ⟨hResult, hSide⟩ := Pairs.checkEstablishment_of_hasTimedOut (w := d.work) hLate
    have hResult : (d.onPairs P fun s => Pairs.checkEstablishment s peer).1 = _ := hResult
    have hSide : (d.onPairs P fun s => Pairs.checkEstablishment s peer).2.pairs.sending peer = _ :=
      hSide
    unfold send refuseUnknown
    rw [Option.isNone_iff_eq_none.1 hUnknown]
    dsimp only
    split
    · rename_i hChecked
      rw [hChecked] at hResult hSide
      refine ⟨congrArg Except.error (Except.error.inj hResult), ?_⟩
      rw [hSide]
      exact hNone
    · rename_i hChecked
      rw [hChecked] at hResult
      cases hResult
  · -- the peer is on file: its side gives up before it would make an envelope
    obtain ⟨hOpen, record, hRecord, hSent⟩ := exists_record_of_carries (P := P) hCarries
    obtain rfl : record.deviceId = peer := hFiled _ _ hRecord
    have hGivesUp := Outbound.encrypt_of_hasTimedOut (P := P) (s := d.setting d.now)
      (w := d.work.withPart (d.pairs.sending record.deviceId)) record level plaintext hOpen hLate
    obtain ⟨hSide, hResult⟩ := sendTo_eq (P := P) record level plaintext d
    rw [hGivesUp] at hSide hResult
    rw [hSent]
    refine ⟨hResult _ rfl, ?_⟩
    rw [hSide]
    exact hNone

/-- **A message that is carried in time** finds no key to agree on, or begins an epoch. -/
theorem send_of_carries (hFiled : d.contacts.Filed) (hSettled : d.Settled may)
    (hAsked : (d.pairs.sending peer).requestedAt = some asked) (hCarries : d.carries peer = true)
    (hInTime : d.abandons (.send peer level plaintext) peer = false) :
    (∃ record fault, d.contacts.get? peer = some record ∧
        EpochKeys.initiateWith P level.suite d.random.drawKey.1 d.identity.keys.encryption.bytes
          record.keys.encryption ⟨d.id, peer, (d.pairs.sending peer).nextEpoch, level⟩ =
            .error fault ∧
        (d.send P peer level plaintext).1 = .error (.ofCrypto fault) ∧
        (d.send P peer level plaintext).2.pairs.sending peer =
          { d.pairs.sending peer with requestedAt := none }) ∨
      (((d.send P peer level plaintext).2.pairs.sending peer).current.isSome = true ∧
        ((d.send P peer level plaintext).2.pairs.sending peer).nextEpoch =
          (d.pairs.sending peer).nextEpoch + 1) := by
  have hNone := current_of_asked hSettled hAsked
  have hLate : (d.pairs.sending peer).hasTimedOut (d.setting d.now) = false := by
    rw [hasTimedOut_eq hSettled]
    simpa [abandons_send, hCarries] using hInTime
  obtain ⟨hOpen, record, hRecord, hSent⟩ := exists_record_of_carries (P := P) hCarries
  obtain rfl : record.deviceId = peer := hFiled _ _ hRecord
  have hMade := Outbound.encrypt_of_none (P := P) (s := d.setting d.now)
    (w := d.work.withPart (d.pairs.sending record.deviceId)) record level plaintext hOpen hLate
    hNone
  obtain ⟨hSide, hResult⟩ := sendTo_eq (P := P) record level plaintext d
  rw [hSent, hSide]
  rcases hMade with ⟨fault, hKeys, hFailed, hPart⟩ | hBegun
  · exact .inl ⟨record, fault, hRecord, hKeys, hResult _ hFailed, hPart⟩
  · exact .inr hBegun

-- ---------------------------------------------------------------------------
-- The end of an episode
-- ---------------------------------------------------------------------------

/-- Whether an operation looks for the establishment with a peer: every sweep does, and so does a
message to the peer that finds it not on file, or that nothing keeps from being encrypted. -/
def looksFor (d : Device) (op : Operation) (peer : String) : Bool :=
  match op with
  | .maintain _ => true
  | .send other _ _ => other = peer && ((d.contacts.get? peer).isNone || d.carries peer)
  | _ => false

/-- **What is given up:** an establishment that is looked for when its time is over. -/
theorem abandons_iff (hAsked : (d.pairs.sending peer).requestedAt = some asked) :
    d.abandons op peer = true ↔ d.looksFor op peer = true ∧
      d.config.establishmentTimeout.Passed asked (op.time d.now) := by
  have hOverdue (now : UInt64) :
      (d.pairs.sending peer).isOverdue d.config.establishmentTimeout now = true ↔
        d.config.establishmentTimeout.Passed asked now := by
    unfold Outbound.isOverdue
    rw [hAsked, Option.any_some, decide_eq_true_iff, Duration.le_saturatingSub_iff]
  cases op with
  | maintain now => exact (hOverdue now).trans ⟨fun h => ⟨rfl, h⟩, And.right⟩
  | send other level plaintext =>
    rw [abandons_send, Bool.and_eq_true_iff, hOverdue]
    rfl
  | _ => exact ⟨nofun, fun h => nomatch h.1⟩

/-- **How a request is forgotten:** it is given up, or a message to the peer is carried, or
everything with the peer is dropped. -/
theorem askedAfter_eq_none_iff (hAsked : (d.pairs.sending peer).requestedAt = some asked) :
    askedAfter P d op peer = none ↔ d.abandons op peer = true ∨
      (d.carries peer = true ∧ ∃ level plaintext, op = .send peer level plaintext) ∨
      op = .shutdown ∨ op.judged? = some peer ∧ (d.step P op).2.isRevoked peer = true := by
  unfold askedAfter
  rw [hAsked]
  cases op with
  | send other level plaintext =>
    by_cases hPeer : other = peer
    · subst hPeer
      cases hCarries : d.carries other <;> simp [Operation.judged?]
    · simp [Operation.judged?, hPeer]
  | verify other _ | revoke other _ | crossSignPeer other => simp [Operation.judged?, abandons]
  | maintain => simp [Operation.judged?]
  | _ => simp [Operation.judged?, abandons]

/-- The ways in which an episode can end. -/
inductive Ending where
  /-- A message to the peer begins an epoch. -/
  | opened
  /-- A message to the peer finds no key to agree on. -/
  | failed
  /-- Everything with the peer is dropped. -/
  | dropped
  /-- The establishment is given up. -/
  | timedOut
  deriving DecidableEq

variable (P) in
/-- How many entries an operation puts on record about the establishment with a peer. -/
def timeOuts (peer : String) (d : Device) (op : Operation) : Nat :=
  (gained P d op).countP fun e => e.kind = .establishmentTimeout ∧ e.devices = [d.id, peer]

variable (P) in
/-- Whether an operation ends an episode in some way. -/
def EndsBy (peer : String) (d : Device) (op : Operation) : Ending → Prop
  | .opened => (∃ level plaintext, op = .send peer level plaintext) ∧
      (d.step P op).2.pairs.outboundState peer = .active ∧
      ((d.step P op).2.pairs.sending peer).nextEpoch = (d.pairs.sending peer).nextEpoch + 1
  | .failed => ∃ level plaintext record fault, op = .send peer level plaintext ∧
      d.contacts.get? peer = some record ∧
      EpochKeys.initiateWith P level.suite d.random.drawKey.1 d.identity.keys.encryption.bytes
        record.keys.encryption ⟨d.id, peer, (d.pairs.sending peer).nextEpoch, level⟩ =
          .error fault ∧
      (d.send P peer level plaintext).1 = .error (.ofCrypto fault) ∧
      (d.step P op).2.pairs.outboundState peer = .noSession ∧
      ((d.step P op).2.pairs.sending peer).nextEpoch = (d.pairs.sending peer).nextEpoch
  | .dropped => op = .shutdown ∨ op.judged? = some peer ∧ (d.step P op).2.isRevoked peer = true
  | .timedOut => timeOuts P peer d op = 1

/-- A side that sends is that of an active pair. -/
theorem outboundState_of_current (hSettled : d.Settled may)
    (h : (d.pairs.sending peer).current.isSome = true) :
    d.pairs.outboundState peer = .active := by
  rw [Pairs.outboundState_eq]
  unfold Outbound.state
  cases hSettled.sending peer with
  | sends session current expiring active =>
    have hCurrent : (d.pairs.sending peer).current = some session := current
    rw [hCurrent]
    show session.state = .active
    unfold Session.state
    rw [active]
  | idle current | ended _ _ current =>
    have hNone : (d.pairs.sending peer).current = none := current
    rw [hNone] at h
    cases h

/-- A side that neither sends nor waits is that of a pair without a session. -/
theorem outboundState_of_none (hCurrent : (d.pairs.sending peer).current = none)
    (hAsked : (d.pairs.sending peer).requestedAt = none) :
    d.pairs.outboundState peer = .noSession := by
  rw [Pairs.outboundState_eq]
  unfold Outbound.state
  rw [hCurrent, hAsked]

theorem timeOuts_eq (hFiled : d.contacts.Filed) (hSettled : d.Settled may) (hDated : d.Dated)
    (op : Operation) (peer : String) :
    timeOuts P peer d op = if d.abandons op peer then 1 else 0 :=
  (timeouts_gained hFiled hSettled hDated op).2 peer

/-- An establishment that is given up leaves no session. -/
theorem outboundState_of_abandons (hFiled : d.contacts.Filed) (hSettled : d.Settled may)
    (hDated : d.Dated) (hAsked : (d.pairs.sending peer).requestedAt = some asked)
    (h : d.abandons op peer = true) :
    (d.step P op).2.pairs.outboundState peer = .noSession := by
  refine outboundState_of_none ?_ ?_
  · cases op with
    | send other level plaintext =>
      obtain rfl : other = peer := by
        rw [abandons_send, Bool.and_assoc, Bool.and_eq_true_iff] at h
        exact of_decide_eq_true h.1
      exact (send_of_abandons hFiled hSettled h).2
    | maintain now =>
      show ((d.maintain P now).2.pairs.sending peer).current = none
      rw [sending_maintain hSettled hDated]
      show (d.pairs.sending peer).current.filter _ = none
      rw [current_of_asked hSettled hAsked]
      rfl
    | _ => cases h
  · rw [requestedAt_step hFiled hSettled hDated]
    exact (askedAfter_eq_none_iff hAsked).2 (.inl h)

/-- **An episode that ends** ends in one of the ways. -/
theorem exists_ending {may' : String → Prop} (hFiled : d.contacts.Filed) (hSettled : d.Settled may)
    (hDated : d.Dated) (hAfter : (d.step P op).2.Settled may')
    (hAsked : (d.pairs.sending peer).requestedAt = some asked)
    (hNone : ((d.step P op).2.pairs.sending peer).requestedAt = none) :
    ∃ way, EndsBy P peer d op way := by
  rw [requestedAt_step hFiled hSettled hDated, askedAfter_eq_none_iff hAsked] at hNone
  cases hAbandons : d.abandons op peer with
  | true =>
    refine ⟨.timedOut, ?_⟩
    show timeOuts P peer d op = 1
    rw [timeOuts_eq hFiled hSettled hDated, hAbandons, if_pos rfl]
  | false =>
    rcases hNone.resolve_left (Bool.eq_false_iff.1 hAbandons) with
      ⟨hCarries, level, plaintext, rfl⟩ | hDropped
    · rcases send_of_carries hFiled hSettled hAsked hCarries hAbandons with
        ⟨record, fault, hRecord, hKeys, hFailed, hSide⟩ | ⟨hSends, hNext⟩
      · have hState : (d.send P peer level plaintext).2.pairs.outboundState peer = .noSession := by
          refine outboundState_of_none ?_ (congrArg Outbound.requestedAt hSide)
          exact (congrArg Outbound.current hSide).trans (current_of_asked hSettled hAsked)
        have hSame : ((d.send P peer level plaintext).2.pairs.sending peer).nextEpoch =
            (d.pairs.sending peer).nextEpoch := by rw [hSide]
        exact ⟨.failed, level, plaintext, record, fault, rfl, hRecord, hKeys, hFailed, hState,
          hSame⟩
      · exact ⟨.opened, ⟨level, plaintext, rfl⟩, outboundState_of_current hAfter hSends, hNext⟩
    · exact ⟨.dropped, hDropped⟩

/-- **No operation ends an episode in two ways.** -/
theorem exists_only_ending (hFiled : d.contacts.Filed) (hSettled : d.Settled may)
    (hDated : d.Dated) (hAsked : (d.pairs.sending peer).requestedAt = some asked)
    (op : Operation) : ∃ the, ∀ way, EndsBy P peer d op way → way = the := by
  cases hAbandons : d.abandons op peer with
  | true =>
    -- an overdue establishment is given up, and by nothing else is it ended then
    have hState := outboundState_of_abandons (P := P) hFiled hSettled hDated hAsked hAbandons
    refine ⟨.timedOut, fun way hWay => ?_⟩
    cases way with
    | timedOut => rfl
    | opened => exact nomatch hState.symm.trans hWay.2.1
    | failed =>
      -- whoever gives it up is told so, and not that there is no key
      obtain ⟨level, plaintext, record, fault, rfl, -, -, hFailed, -⟩ := hWay
      have hAnswer := (send_of_abandons (P := P) hFiled hSettled hAbandons).1
      exact (Failure.ofCrypto_ne_timeout fault peer
        (Except.error.inj (hFailed.symm.trans hAnswer))).elim
    | dropped =>
      rcases hWay with rfl | ⟨hJudged, -⟩
      · cases hAbandons
      · cases op <;> first | cases hAbandons | cases hJudged
  | false =>
    -- nothing is given up, so three ways are left
    have hNever : timeOuts P peer d op ≠ 1 := by
      rw [timeOuts_eq hFiled hSettled hDated, hAbandons]
      decide
    by_cases hSend : ∃ level plaintext, op = .send peer level plaintext
    · -- a message begins an epoch or finds no key, by whether a session is there behind it
      obtain ⟨level, plaintext, rfl⟩ := hSend
      refine ⟨if (d.step P (.send peer level plaintext)).2.pairs.outboundState peer = .active
        then .opened else .failed, fun way hWay => ?_⟩
      cases way with
      | opened => rw [if_pos hWay.2.1]
      | failed =>
        obtain ⟨_, _, _, _, -, -, -, -, hState, -⟩ := hWay
        rw [if_neg (by rw [hState]; exact nofun)]
      | dropped => exact nomatch hWay
      | timedOut => exact absurd hWay hNever
    · -- without a message only the peer's sessions can be dropped
      refine ⟨.dropped, fun way hWay => ?_⟩
      cases way with
      | opened => exact absurd hWay.1 hSend
      | failed =>
        obtain ⟨level, plaintext, _, _, hOp, -⟩ := hWay
        exact absurd ⟨level, plaintext, hOp⟩ hSend
      | dropped => rfl
      | timedOut => exact absurd hWay hNever

-- ---------------------------------------------------------------------------
-- The beginning of an episode
-- ---------------------------------------------------------------------------

/-- **Only a request** begins an episode, and it asks as of now. -/
theorem askedAfter_eq_some_iff (hNone : (d.pairs.sending peer).requestedAt = none) :
    askedAfter P d op peer = some asked ↔
      op = .request peer ∧ (d.pairs.sending peer).current = none ∧ d.now = asked := by
  unfold askedAfter
  rw [hNone]
  cases op with
  | request other => simp [and_assoc]
  | _ => simp

variable (P) in
/-- Some operations lead to a request, and a session is waited for since then, but not before. -/
structure Episode (peer : String) (start : Device) (before during : List Operation) : Prop where
  idle : (after P start before).waits peer = false
  waits : ∀ first rest, during = first ++ rest →
    (after P start (before ++ .request peer :: first)).waits peer = true

/-- An episode goes on. -/
theorem Episode.snoc {before during : List Operation} (h : Episode P peer start before during)
    (hWaits : (after P start (before ++ .request peer :: during ++ [op])).waits peer = true) :
    Episode P peer start before (during ++ [op]) := by
  refine ⟨h.idle, fun first rest hSplit => ?_⟩
  rcases List.append_eq_append_iff.1 hSplit with ⟨more, rfl, hMore⟩ | ⟨more, hDuring, -⟩
  · -- all of the episode, with the last operation or without it
    cases more with
    | nil =>
      rw [List.append_nil]
      exact h.waits during [] (List.append_nil _).symm
    | cons last none =>
      obtain ⟨rfl, hEmpty⟩ := List.cons.inj hMore
      obtain ⟨rfl, -⟩ := List.append_eq_nil_iff.1 hEmpty.symm
      rwa [List.append_assoc, List.cons_append] at hWaits
  · exact h.waits first more hDuring

variable (P) in
/-- If a session is waited for behind some operations, it is since a request, and the time of that
request is known. -/
def AskedBy (peer : String) (start : Device) (ops : List Operation) : Prop :=
  (after P start ops).waits peer = true → ∃ before during,
    ops = before ++ .request peer :: during ∧ Episode P peer start before during ∧
      ((after P start ops).pairs.sending peer).requestedAt = some (after P start before).now

/-- What is waited for behind one more operation. -/
theorem AskedBy.snoc (hStart : Starts P start) (hReturn : allReturn P start (ops ++ [op]) = true)
    (h : AskedBy P peer start ops) : AskedBy P peer start (ops ++ [op]) := by
  rw [allReturn_append, Bool.and_eq_true_iff] at hReturn
  have hRun := run_after hReturn.1
  have hReturns : overruns P (after P start ops) op = false := by
    have hLast := (Bool.and_eq_true_iff.1 hReturn.2).1
    rwa [Bool.not_eq_true'] at hLast
  have hSettled := hRun.settled hStart
  have hAfter : after P start (ops ++ [op]) = ((after P start ops).step P op).2 :=
    after_append start ops [op]
  intro hWaits
  have hAsked := requestedAt_step (P := P) (hRun.filed hStart) hSettled (hRun.dated hStart) op peer
  obtain ⟨asked, hNow⟩ : ∃ asked, askedAfter P (after P start ops) op peer = some asked := by
    rw [hAfter, waits_eq ((hRun.step op hReturns).settled hStart), hAsked] at hWaits
    exact Option.isSome_iff_exists.1 hWaits
  rw [hNow, ← hAfter] at hAsked
  cases hBefore : (after P start ops).waits peer with
  -- the device was waiting, so the episode has one call more
  | true =>
    obtain ⟨before, during, rfl, hEpisode, hSince⟩ := h hBefore
    have hSame := eq_of_askedAfter hNow
    rw [hSince, Option.getD_some] at hSame
    subst hSame
    refine ⟨before, during ++ [op], ?_, hEpisode.snoc hWaits, hAsked⟩
    rw [List.append_assoc, List.cons_append]
  -- the device begins to wait: this call has asked, and no call is behind it
  | false =>
    have hNone : ((after P start ops).pairs.sending peer).requestedAt = none := by
      rw [waits_eq hSettled] at hBefore
      exact Option.not_isSome_iff_eq_none.1 (Bool.eq_false_iff.1 hBefore)
    obtain ⟨rfl, -, rfl⟩ := (askedAfter_eq_some_iff hNone).1 hNow
    refine ⟨ops, [], rfl, ⟨hBefore, fun first rest hSplit => ?_⟩, hAsked⟩
    rw [(List.append_eq_nil_iff.1 hSplit.symm).1]
    exact hWaits

/-- **What is waited for was asked for,** in every state of a run. -/
theorem exists_request (hStart : Starts P start) (hReturn : allReturn P start ops = true)
    (peer : String) : AskedBy P peer start ops := by
  have hGo {done : List Operation} (h : AskedBy P peer start done) {rest : List Operation}
      (hReturn : allReturn P start (done ++ rest) = true) :
      AskedBy P peer start (done ++ rest) := by
    induction rest generalizing done with
    | nil =>
      rw [List.append_nil]
      exact h
    | cons op rest ih =>
      rw [← List.singleton_append, ← List.append_assoc] at hReturn ⊢
      refine ih (h.snoc hStart ?_) hReturn
      rw [allReturn_append, Bool.and_eq_true_iff] at hReturn
      exact hReturn.1
  have hFirst : AskedBy P peer start [] := by
    intro hWaits
    have hWaits : start.waits peer = true := hWaits
    rw [waits_eq (Run.start.settled hStart), hStart.requestedAt] at hWaits
    cases hWaits
  exact hGo hFirst hReturn

-- ---------------------------------------------------------------------------
-- Episodes
-- ---------------------------------------------------------------------------

/-- What ends an episode leaves nothing that is waited for. -/
theorem waits_of_endsBy {may' : String → Prop} (hFiled : d.contacts.Filed)
    (hSettled : d.Settled may) (hDated : d.Dated) (hAfter : (d.step P op).2.Settled may')
    (hAsked : (d.pairs.sending peer).requestedAt = some asked) {way : Ending}
    (h : EndsBy P peer d op way) : (d.step P op).2.waits peer = false := by
  have hForgotten (hNone : askedAfter P d op peer = none) :
      (d.step P op).2.waits peer = false := by
    rw [waits_eq hAfter, requestedAt_step hFiled hSettled hDated, hNone]
    rfl
  cases way with
  | opened =>
    unfold waits
    rw [h.2.1]
    rfl
  | failed =>
    obtain ⟨_, _, _, _, -, -, -, -, hState, -⟩ := h
    unfold waits
    rw [hState]
    rfl
  | dropped => exact hForgotten ((askedAfter_eq_none_iff hAsked).2 (.inr (.inr h)))
  | timedOut =>
    refine hForgotten ((askedAfter_eq_none_iff hAsked).2 (.inl ?_))
    refine Decidable.by_contra fun hNot => ?_
    have hOne : timeOuts P peer d op = 1 := h
    rw [timeOuts_eq hFiled hSettled hDated, if_neg hNot] at hOne
    cases hOne

variable (P) in
/-- How a device waits for a session with a peer. -/
structure Episodic (peer : String) (d : Device) : Prop where
  /-- An operation leaves an episode and its time as they are, or ends it, and that in one way. -/
  goes : d.waits peer = true → ∀ op, overruns P d op = false →
    ((d.step P op).2.waits peer = true ∧
        ((d.step P op).2.pairs.sending peer).requestedAt = (d.pairs.sending peer).requestedAt ∧
        ∀ way, ¬EndsBy P peer d op way) ∨
      (d.step P op).2.waits peer = false ∧ ∃! way, EndsBy P peer d op way
  /-- What was asked for is given up as soon as it is looked for when its time is over. -/
  given : ∀ asked, (d.pairs.sending peer).requestedAt = some asked → ∀ op,
    timeOuts P peer d op =
      if d.looksFor op peer = true ∧
        d.config.establishmentTimeout.Passed asked (op.time d.now) then 1 else 0
  /-- Where nothing is waited for, nothing is given up, and only a request begins an episode. -/
  rests : d.waits peer = false → ∀ op, overruns P d op = false →
    timeOuts P peer d op = 0 ∧
      ((d.step P op).2.waits peer = true ↔
        op = .request peer ∧ d.pairs.outboundState peer = .noSession)

/-- **Every establishment ends once, and on time.** A device has done something, whatever that is.
If it waits for a session with a peer, it was asked for it when it did not wait and has waited
since, and the time on record is that of this request: no later request and no message has changed
it. Each operation leaves this as it is or ends it, in exactly one of four ways: a message begins an
epoch, a message finds no key to agree on, everything with the peer is dropped, or the establishment
is given up. It is given up, with one entry, by the first operation that looks for it when as much
of the configured span has passed as is counted, which is all of it, in whole milliseconds, if 64
bits can count them. Where nothing is waited for, nothing is given up before a new request.

What is asked returns: no counter passes `2 ^ 64 - 1`. -/
theorem establishments_end_once (hStart : Starts P start) (hReturn : allReturn P start ops = true)
    (peer : String) :
    (∀ (span : Duration) (since now : UInt64), span.wholeMillis < UInt64.size →
        (span.Passed since now ↔
          since.toNat + span.wholeMillis ≤ now.toNat ∨ span.wholeMillis = 0)) ∧
      AskedBy P peer start ops ∧ Episodic P peer (after P start ops) := by
  refine ⟨fun span since now hFits => Duration.passed_iff_add_le hFits,
    exists_request hStart hReturn peer, ?_⟩
  have hRun := run_after hReturn
  have hFiled := hRun.filed hStart
  have hSettled := hRun.settled hStart
  have hDated := hRun.dated hStart
  have hAfter (op : Operation) (hReturns : overruns P (after P start ops) op = false) :
      ((after P start ops).step P op).2.Settled fun _ => True :=
    (hRun.step op hReturns).settled hStart
  -- how the device came to be does not matter any more
  generalize after P start ops = d at *
  have hStep (op : Operation) := requestedAt_step (P := P) hFiled hSettled hDated op peer
  constructor
  case goes =>
    intro hWaits op hReturns
    rw [waits_eq hSettled] at hWaits
    obtain ⟨asked, hAsked⟩ := Option.isSome_iff_exists.1 hWaits
    cases hNow : askedAfter P d op peer with
    -- it is still waited for, since when it was
    | some since =>
      have hSame := eq_of_askedAfter hNow
      rw [hAsked, Option.getD_some] at hSame
      subst hSame
      have hWaits' : (d.step P op).2.waits peer = true := by
        rw [waits_eq (hAfter op hReturns), hStep, hNow]
        rfl
      refine .inl ⟨hWaits', (hStep op).trans (hNow.trans hAsked.symm), fun way hWay => ?_⟩
      have hOver := waits_of_endsBy hFiled hSettled hDated (hAfter op hReturns) hAsked hWay
      exact Bool.false_ne_true (hOver.symm.trans hWaits')
    -- it is not waited for any more, so it was ended, and in one way only
    | none =>
      have hNone := (hStep op).trans hNow
      obtain ⟨way, hWay⟩ := exists_ending hFiled hSettled hDated (hAfter op hReturns) hAsked hNone
      obtain ⟨the, hOnly⟩ := exists_only_ending (P := P) hFiled hSettled hDated hAsked op
      obtain rfl := hOnly way hWay
      exact .inr ⟨waits_of_endsBy hFiled hSettled hDated (hAfter op hReturns) hAsked hWay,
        way, hWay, hOnly⟩
  case given =>
    intro asked hAsked op
    rw [timeOuts_eq hFiled hSettled hDated]
    exact if_congr (abandons_iff hAsked) rfl rfl
  case rests =>
    intro hIdle op hReturns
    have hNone : (d.pairs.sending peer).requestedAt = none := by
      rw [waits_eq hSettled] at hIdle
      exact Option.not_isSome_iff_eq_none.1 (Bool.eq_false_iff.1 hIdle)
    have hState : d.pairs.outboundState peer = .noSession ↔
        (d.pairs.sending peer).current = none := by
      refine ⟨fun hNoSession => ?_, fun hCurrent => outboundState_of_none hCurrent hNone⟩
      refine Option.not_isSome_iff_eq_none.1 fun hSome => ?_
      exact nomatch hNoSession.symm.trans (outboundState_of_current hSettled hSome)
    -- nothing was waited for: nothing is given up, and only a request begins to wait
    constructor
    · rw [timeOuts_eq hFiled hSettled hDated, if_neg]
      intro hAbandons
      obtain ⟨asked, hAsked, -⟩ := passed_of_isOverdue (isOverdue_of_abandons hAbandons)
      rw [hNone] at hAsked
      cases hAsked
    · rw [waits_eq (hAfter op hReturns), hStep, Option.isSome_iff_exists, hState]
      constructor
      · rintro ⟨asked, hAsked⟩
        obtain ⟨hRequest, hCurrent, -⟩ := (askedAfter_eq_some_iff hNone).1 hAsked
        exact ⟨hRequest, hCurrent⟩
      · rintro ⟨hRequest, hCurrent⟩
        exact ⟨d.now, (askedAfter_eq_some_iff hNone).2 ⟨hRequest, hCurrent, rfl⟩⟩

/-- Bob asks for Eve, asks again later, and writes to her before she is on file. -/
def impatientOps : List Operation :=
  [.setClock 5, .request "eve", .setClock 1000, .request "eve", .send "eve" .basic [1]]

theorem establishments_end_once_of_impatientOps :
    let bob := after .plain (plain .standard "bob" 3) impatientOps
    Episodic .plain "eve" bob ∧ bob.waits "eve" = true ∧
      (bob.pairs.sending "eve").requestedAt = some 5 ∧
      timeOuts .plain "eve" bob (.maintain 30004) = 0 ∧
      timeOuts .plain "eve" bob (.maintain 30005) = 1 := by
  intro bob
  exact ⟨(establishments_end_once (plain_starts "bob" 3 rfl) (by decide +kernel) "eve").2.2,
    by decide +kernel, by decide +kernel, by decide +kernel, by decide +kernel⟩

/-- An establishment that may stay open for `2 ^ 64` milliseconds. -/
def patient : Config :=
  { Config.standard with establishmentTimeout := ⟨18446744073709551, 616000000⟩ }

/-- **An establishment is given up for what is counted of its time:** it was asked for at the time
that the clock still shows, it may stay open for longer than the clock can ever show, and a sweep
gives it up. -/
theorem endless_establishment_ends_at_once :
    let ann := after .plain (plain patient "ann" 1) [.request "bob"]
    patient.validate = .ok () ∧ patient.establishmentTimeout.wholeMillis = UInt64.size ∧
      allReturn .plain (plain patient "ann" 1) [.request "bob"] = true ∧
      ann.waits "bob" = true ∧ (ann.pairs.sending "bob").requestedAt = some ann.now ∧
      ¬ann.now.toNat + patient.establishmentTimeout.wholeMillis ≤ ann.now.toNat ∧
      (gained .plain ann (.maintain ann.now)).map (fun e => (e.kind, e.devices)) =
        [(.establishmentTimeout, ["ann", "bob"])] ∧
      (ann.maintain .plain ann.now).2.waits "bob" = false := by
  decide +kernel

end Device

end EndToEnd
