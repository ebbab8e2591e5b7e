import EndToEnd.Proofs.EnvelopeText
import EndToEnd.Proofs.Opening
import EndToEnd.Proofs.Positions
import EndToEnd.Proofs.Rotations

/-!
# Rejected envelopes

An envelope may be wrong in many ways. It is examined in a fixed order, from the outside to the
inside: whether it can be read, whom it is for and from, the signature, the epoch, and at last what
the session of the epoch makes of it. The first flaw decides, and it is put on record before the
caller learns of it, under a kind that belongs to the flaw (`Envelope.Flaw.kind`).

Only a critical entry is handed to the sink at once. If the sink refuses, the caller hears of that
instead, and the entry is on record all the same.

Main results:

* `Session.exists_refuses`, `Inbound.exists_refuses`, `Device.exists_rejects` — an envelope that is
  not opened has a flaw.
* `Session.decrypt_of_refuses`, `Inbound.fst_decrypt_of_refuses`, `Device.receive_of_rejects` — what
  becomes of an envelope with a flaw.
* `Device.audit_receive` — what an envelope that is opened leaves on record.
* `Device.rejections_are_on_record` — all of it, in every state of a run.
-/

namespace EndToEnd

open Device (rejectionKind)

-- ---------------------------------------------------------------------------
-- Flaws
-- ---------------------------------------------------------------------------

/-- What is wrong with an envelope that is rejected. -/
inductive Envelope.Flaw where
  /-- The bytes are no envelope, or one that is not well formed. -/
  | unreadable
  /-- It is for another device. -/
  | misdirected
  /-- Its sender is not on file. -/
  | stranger
  /-- Its sender is revoked. -/
  | revoked
  /-- The signature is not that of its sender. -/
  | forged
  /-- Its epoch is over. -/
  | lapsed
  /-- No key can be agreed on for the epoch that it would begin. -/
  | keyless
  /-- Its level or its fresh key are not those of its epoch. -/
  | foreign
  /-- Its number was used, or lies below one that was. -/
  | replayed
  /-- Its number lies too far ahead. -/
  | ahead
  /-- The nonce does not carry its number. -/
  | misnumbered
  /-- It does not decrypt. -/
  | undecryptable
  deriving DecidableEq, Repr

/-- The kind of entry that belongs to a flaw. -/
def Envelope.Flaw.kind : Flaw → Audit.Kind
  | forged | keyless | foreign | misnumbered | undecryptable => .authenticationFailure
  | replayed => .replayRejected
  | unreadable | misdirected | ahead => .malformedEnvelope
  | lapsed => .sessionExpired
  | stranger => .unknownPeer
  | revoked => .messageRejected

variable {P : Primitives}

/-- Why a session does not open an envelope. -/
inductive Session.Refuses (P : Primitives) (maxSkip : UInt64) (e : Envelope) (s : Session) :
    Envelope.Flaw → Prop where
  | foreign (h : e.level ≠ s.level ∨ e.ephemeral ≠ s.ephemeral) : Refuses P maxSkip e s .foreign
  | replayed (level : e.level = s.level) (ephemeral : e.ephemeral = s.ephemeral)
      (h : e.sequence < s.ratchet.next) : Refuses P maxSkip e s .replayed
  | ahead (level : e.level = s.level) (ephemeral : e.ephemeral = s.ephemeral)
      (new : ¬e.sequence < s.ratchet.next) (h : maxSkip < e.sequence - s.ratchet.next) :
      Refuses P maxSkip e s .ahead
  | misnumbered (level : e.level = s.level) (ephemeral : e.ephemeral = s.ephemeral)
      {advance : Ratchet.Advance}
      (reached : s.ratchet.deriveAt (s.step P) e.sequence maxSkip = .ok advance)
      (h : e.nonce.take 8 ≠ Bytes.bigEndian 8 e.sequence.toNat) :
      Refuses P maxSkip e s .misnumbered
  | undecryptable (level : e.level = s.level) (ephemeral : e.ephemeral = s.ephemeral)
      {advance : Ratchet.Advance}
      (reached : s.ratchet.deriveAt (s.step P) e.sequence maxSkip = .ok advance)
      (numbered : e.nonce.take 8 = Bytes.bigEndian 8 e.sequence.toNat)
      (h : s.level.suite.decrypt? P advance.messageKey.key e.nonce ⟨e.ciphertext, e.tag⟩
        e.associatedData = none) : Refuses P maxSkip e s .undecryptable

/-- Why the receiving side of a pair does not open an authentic envelope. -/
inductive Inbound.Refuses (P : Primitives) (s : Setting) (sender : Peer) (e : Envelope)
    (i : Inbound) : Envelope.Flaw → Prop where
  /-- The session is kept, but its grace is over. -/
  | outlived {session : Session} (known : i.epochs.get? e.epoch = some session)
      (h : session.canDecrypt s.now = false) : Refuses P s sender e i .lapsed
  /-- The epoch is not kept, and lies no higher than one that has begun. -/
  | dropped (unknown : i.epochs.get? e.epoch = none) (h : i.isPast e.epoch = true) :
      Refuses P s sender e i .lapsed
  | keyless {failure : Failure} (unknown : i.epochs.get? e.epoch = none)
      (above : i.isPast e.epoch = false) (h : beginSession P s sender e = .error failure) :
      Refuses P s sender e i .keyless
  /-- The session that is kept refuses. -/
  | kept {session : Session} {flaw : Envelope.Flaw} (known : i.epochs.get? e.epoch = some session)
      (readable : session.canDecrypt s.now = true)
      (h : session.Refuses P s.config.maxSkip e flaw) : Refuses P s sender e i flaw
  /-- The session that would begin refuses. -/
  | begun {session : Session} {flaw : Envelope.Flaw} (unknown : i.epochs.get? e.epoch = none)
      (above : i.isPast e.epoch = false) (begun : beginSession P s sender e = .ok session)
      (h : session.Refuses P s.config.maxSkip e flaw) : Refuses P s sender e i flaw

/-- Why a device rejects some bytes. -/
inductive Device.Rejects (P : Primitives) (d : Device) (bytes : Bytes) : Envelope.Flaw → Prop where
  | unreadable {failure : Failure} (h : Envelope.decode d.config.limits bytes = .error failure) :
      Rejects P d bytes .unreadable
  | misdirected {e : Envelope} (decoded : Envelope.decode d.config.limits bytes = .ok e)
      (h : e.recipient ≠ d.id) : Rejects P d bytes .misdirected
  | stranger {e : Envelope} (decoded : Envelope.decode d.config.limits bytes = .ok e)
      (addressed : e.recipient = d.id) (h : d.contacts.get? e.sender = none) :
      Rejects P d bytes .stranger
  | revoked {e : Envelope} {record : Peer}
      (decoded : Envelope.decode d.config.limits bytes = .ok e)
      (addressed : e.recipient = d.id) (known : d.contacts.get? e.sender = some record)
      (h : record.isRevoked = true) : Rejects P d bytes .revoked
  | forged {e : Envelope} {record : Peer} {signature : Bytes}
      (decoded : Envelope.decode d.config.limits bytes = .ok e)
      (addressed : e.recipient = d.id) (known : d.contacts.get? e.sender = some record)
      (trusted : record.isRevoked = false) (signs : e.level.suite.isSigned = true)
      (signed : e.signature = some signature)
      (h : record.keys.verify P e.signingBytes signature = false) : Rejects P d bytes .forged
  /-- The envelope is that of its sender, and the receiving side refuses it. -/
  | refused {e : Envelope} {record : Peer} {flaw : Envelope.Flaw}
      (decoded : Envelope.decode d.config.limits bytes = .ok e)
      (authentic : d.authenticate P e = .ok record)
      (h : Inbound.Refuses P (d.setting d.now) record e (d.pairs.receiving e.sender) flaw) :
      Rejects P d bytes flaw

-- ---------------------------------------------------------------------------
-- Sessions
-- ---------------------------------------------------------------------------

namespace Session

variable {maxSkip : UInt64} {e : Envelope} {s : Session} {flaw : Envelope.Flaw}

/-- A session that does not open an envelope has found a flaw. -/
theorem exists_refuses {failure : Failure} (h : s.decrypt P maxSkip e = .error failure) :
    ∃ flaw, s.Refuses P maxSkip e flaw := by
  -- the checks of the session in their order: its level and key, the place, the number, the box
  unfold decrypt at h
  split at h
  · exact ⟨_, .foreign ‹_›⟩
  rename_i hOwn
  obtain ⟨hLevel, hEphemeral⟩ : e.level = s.level ∧ e.ephemeral = s.ephemeral := by
    simpa using hOwn
  cases hReached : s.ratchet.deriveAt (s.step P) e.sequence maxSkip with
  | error fault =>
    unfold Ratchet.deriveAt at hReached
    split at hReached
    · exact ⟨_, .replayed hLevel hEphemeral ‹_›⟩
    split at hReached
    · exact ⟨_, .ahead hLevel hEphemeral ‹_› ‹_›⟩
    · cases hReached
  | ok advance =>
    rw [hReached] at h
    dsimp only at h
    split at h
    · exact ⟨_, .misnumbered hLevel hEphemeral hReached ‹_›⟩
    rename_i hNumbered
    split at h
    · exact ⟨_, .undecryptable hLevel hEphemeral hReached (Decidable.not_not.1 hNumbered) ‹_›⟩
    · cases h

/-- **A session that finds a flaw** says so. -/
theorem decrypt_of_refuses (h : s.Refuses P maxSkip e flaw) :
    ∃ failure, s.decrypt P maxSkip e = .error failure ∧ rejectionKind failure = flaw.kind := by
  unfold decrypt
  cases h with
  | foreign hOther => exact ⟨_, if_pos hOther, rfl⟩
  | replayed hLevel hEphemeral hUsed =>
    refine ⟨.replay e.sequence s.ratchet.last, ?_, rfl⟩
    simp [hLevel, hEphemeral, Ratchet.deriveAt, hUsed]
  | ahead hLevel hEphemeral hNew hAhead =>
    refine ⟨.malformedEnvelope
      s!"sequence {e.sequence.toNat} skips more than {maxSkip.toNat} messages", ?_, rfl⟩
    simp [hLevel, hEphemeral, Ratchet.deriveAt, hNew, hAhead]
  | misnumbered hLevel hEphemeral hReached hOther =>
    exact ⟨.authentication, by simp [hLevel, hEphemeral, hReached, hOther], rfl⟩
  | undecryptable hLevel hEphemeral hReached hNumbered hNone =>
    exact ⟨.authentication, by simp [hLevel, hEphemeral, hReached, hNumbered, hNone], rfl⟩

end Session

-- ---------------------------------------------------------------------------
-- Receiving sides
-- ---------------------------------------------------------------------------

namespace Inbound

variable {s : Setting} {sender : Peer} {e : Envelope} {w : Work Inbound} {flaw : Envelope.Flaw}

/-- Whatever keeps a session from beginning, it looks like a forgery. -/
theorem beginSession_eq_error {failure : Failure}
    (h : beginSession P s sender e = .error failure) : failure = .authentication := by
  unfold beginSession at h
  dsimp only at h
  split at h
  · cases h
    rfl
  · cases h

/-- A receiving side that is not barred and does not open an envelope has found a flaw. -/
theorem exists_refuses (hOpen : w.part.isRevoked = false) {failure : Failure}
    (h : (decrypt P s sender e w).1 = .error failure) :
    ∃ flaw, Refuses P s sender e w.part flaw := by
  unfold decrypt at h
  rw [hOpen, if_neg Bool.false_ne_true] at h
  cases hKnown : w.part.epochs.get? e.epoch with
  | some session =>
    rw [hKnown] at h
    dsimp only [continueEpoch] at h
    -- an epoch that is kept: its session has run out, or finds the flaw
    cases hReadable : session.canDecrypt s.now with
    | false => exact ⟨_, .outlived hKnown hReadable⟩
    | true =>
      rw [hReadable, if_pos rfl] at h
      cases hOpened : session.decrypt P s.config.maxSkip e with
      | error fault =>
        obtain ⟨flaw, hRefuses⟩ := Session.exists_refuses hOpened
        exact ⟨flaw, .kept hKnown hReadable hRefuses⟩
      | ok _ =>
        rw [hOpened] at h
        cases h
  | none =>
    rw [hKnown] at h
    dsimp only at h
    -- an epoch that is not kept: it is past, or the session it would begin finds the flaw
    cases hPast : w.part.isPast e.epoch with
    | true => exact ⟨_, .dropped hKnown hPast⟩
    | false =>
      rw [hPast, if_neg Bool.false_ne_true] at h
      unfold beginEpoch at h
      cases hBegun : beginSession P s sender e with
      | error fault => exact ⟨_, .keyless hKnown hPast hBegun⟩
      | ok session =>
        rw [hBegun] at h
        dsimp only at h
        cases hOpened : session.decrypt P s.config.maxSkip e with
        | error fault =>
          obtain ⟨flaw, hRefuses⟩ := Session.exists_refuses hOpened
          exact ⟨flaw, .begun hKnown hPast hBegun hRefuses⟩
        | ok _ =>
          rw [hOpened] at h
          cases h

/-- **A receiving side that finds a flaw** says so. -/
theorem fst_decrypt_of_refuses (hOpen : w.part.isRevoked = false)
    (h : Refuses P s sender e w.part flaw) :
    ∃ failure, (decrypt P s sender e w).1 = .error failure ∧ rejectionKind failure = flaw.kind := by
  unfold decrypt
  rw [hOpen, if_neg Bool.false_ne_true]
  -- each flaw stops the side at its own check
  cases h with
  | outlived hKnown hOver =>
    rw [hKnown]
    refine ⟨.sessionExpired sender.deviceId e.epoch, ?_, rfl⟩
    simp [continueEpoch, hOver]
  | dropped hUnknown hPast =>
    rw [hUnknown]
    exact ⟨.sessionExpired sender.deviceId e.epoch, by simp [hPast], rfl⟩
  | keyless hUnknown hAbove hNone =>
    rw [hUnknown]
    rw [beginSession_eq_error hNone] at hNone
    exact ⟨.authentication, by simp [hAbove, beginEpoch, hNone], rfl⟩
  | kept hKnown hReadable hRefuses =>
    obtain ⟨failure, hFailed, hKind⟩ := Session.decrypt_of_refuses hRefuses
    rw [hKnown]
    exact ⟨failure, by simp [continueEpoch, hReadable, hFailed], hKind⟩
  | begun hUnknown hAbove hBegun hRefuses =>
    obtain ⟨failure, hFailed, hKind⟩ := Session.decrypt_of_refuses hRefuses
    rw [hUnknown]
    exact ⟨failure, by simp [hAbove, beginEpoch, hBegun, hFailed], hKind⟩

/-- An envelope that is refused has nothing put on record by the side itself. -/
theorem events_of_refused {failure : Failure} {w' : Work Inbound}
    (h : decrypt P s sender e w = (.error failure, w')) : w'.events = w.events := by
  rcases refused_cases h with rfl | ⟨session, -, -, rfl⟩ <;> rfl

/-- What an envelope that is opened has put on record: the beginning of its epoch, if it is the
first of it. -/
theorem events_of_opened {plaintext : Bytes} {w' : Work Inbound}
    (h : decrypt P s sender e w = (.ok plaintext, w')) :
    w'.events = w.events ++
      if w.part.stateOf e.epoch = .noSession then
        [⟨.sessionEstablished, [s.own.deviceId, sender.deviceId], .success,
          s!"inbound epoch {e.epoch.toNat} at {e.level.name}"⟩]
      else [] := by
  unfold decrypt at h
  split at h
  · cases h
  cases hKnown : w.part.epochs.get? e.epoch with
  -- an epoch that is kept goes on in silence
  | some session =>
    have hKept : w.part.stateOf e.epoch ≠ .noSession := by
      unfold stateOf Session.state
      rw [hKnown]
      dsimp only
      split <;> exact nofun
    rw [if_neg hKept, List.append_nil]
    rw [hKnown] at h
    dsimp only [continueEpoch] at h
    split at h
    · split at h <;> cases h
      rfl
    · cases h
  -- an epoch that begins is told of, and the others age in silence
  | none =>
    rw [hKnown] at h
    dsimp only at h
    split at h
    · cases h
    rename_i hAbove
    have hNew : w.part.stateOf e.epoch = .noSession := by
      unfold stateOf
      rw [hKnown]
      exact if_neg hAbove
    rw [if_pos hNew]
    unfold beginEpoch at h
    split at h
    · cases h
    split at h
    · cases h
    · cases h
      exact congrArg (· ++ [_]) (events_expireAll s w)

/-- Behind an envelope that is opened there is a session of its epoch. -/
theorem stateOf_of_opened {plaintext : Bytes} {w' : Work Inbound}
    (h : decrypt P s sender e w = (.ok plaintext, w')) :
    w'.part.stateOf e.epoch = .active ∨ w'.part.stateOf e.epoch = .expiring := by
  -- whichever way the envelope was opened, the session is put back under its epoch
  have hKept : ∃ session, w'.part.epochs.get? e.epoch = some session := by
    unfold decrypt at h
    split at h
    · cases h
    split at h
    · unfold continueEpoch at h
      split at h
      · split at h <;> cases h
        exact ⟨_, Table.get?_insert_self ..⟩
      · cases h
    split at h
    · cases h
    unfold beginEpoch at h
    split at h
    · cases h
    split at h <;> cases h
    exact ⟨_, Table.get?_insert_self ..⟩
  obtain ⟨session, hSession⟩ := hKept
  have hState : w'.part.stateOf e.epoch = session.state := by
    unfold stateOf
    rw [hSession]
  rw [hState]
  unfold Session.state
  cases session.phase with
  | active => exact .inl rfl
  | expiring deadline => exact .inr rfl

end Inbound

-- ---------------------------------------------------------------------------
-- Devices
-- ---------------------------------------------------------------------------

namespace Device

variable {d d' start : Device} {history : History} {bytes : Bytes} {flaw : Envelope.Flaw}

/-- An envelope that was read has a signature if its level signs. -/
theorem exists_signature {limits : Envelope.Limits} {e : Envelope}
    (hDecoded : Envelope.decode limits bytes = .ok e) (hSigns : e.level.suite.isSigned = true) :
    ∃ signature, e.signature = some signature := by
  have hCheck : e.check limits = .ok () := by
    unfold Envelope.decode at hDecoded
    split at hDecoded
    · cases hDecoded
    split at hDecoded
    · cases hDecoded
      assumption
    · cases hDecoded
  have hFaultless := (Envelope.check_eq_ok_iff.1 hCheck).2.2.2.2.2.2
  rcases Envelope.signatureFault?_eq_none_iff.1 hFaultless with
    ⟨-, signature, hSigned, -⟩ | ⟨hPlain, -⟩
  · exact ⟨signature, hSigned⟩
  · rw [hPlain] at hSigns
    cases hSigns

/-- An envelope whose sender cannot be made out has a flaw. -/
theorem exists_rejects_of_authenticate {e : Envelope} {failure : Failure}
    (hDecoded : Envelope.decode d.config.limits bytes = .ok e)
    (h : d.authenticate P e = .error failure) : ∃ flaw, d.Rejects P bytes flaw := by
  unfold authenticate Contacts.lookup at h
  split at h
  · exact ⟨_, .misdirected hDecoded ‹_›⟩
  rename_i hAddressed
  rw [Decidable.not_not] at hAddressed
  cases hKnown : d.contacts.get? e.sender with
  | none => exact ⟨_, .stranger hDecoded hAddressed hKnown⟩
  | some record =>
    rw [hKnown] at h
    dsimp only at h
    split at h
    · exact ⟨_, .revoked hDecoded hAddressed hKnown ‹_›⟩
    rename_i hTrusted
    rw [Bool.not_eq_true] at hTrusted
    split at h
    · rename_i hSigns
      -- what was decoded carries a signature where its level asks for one
      obtain ⟨signature, hSigned⟩ := exists_signature hDecoded hSigns
      rw [hSigned] at h
      dsimp only at h
      split at h
      · cases h
      · rename_i hForged
        rw [Bool.not_eq_true] at hForged
        exact ⟨_, .forged hDecoded hAddressed hKnown hTrusted hSigns hSigned hForged⟩
    · cases h

/-- What opening an authentic envelope comes to. -/
theorem receive_of_authentic {e : Envelope} {record : Peer}
    (hDecoded : Envelope.decode d.config.limits bytes = .ok e)
    (hAuthentic : d.authenticate P e = .ok record) (hId : record.deviceId = e.sender) :
    ∃ opened w, Inbound.decrypt P (d.setting d.now) record e
        (d.work.withPart (d.pairs.receiving e.sender)) = (opened, w) ∧
      ∃ d₁ : Device, d₁.id = d.id ∧ d₁.now = d.now ∧
        d₁.audit = d.audit.appendAll P w.events d.now ∧
        d.receive P bytes = match opened with
          | .error failure => d₁.reject P (some e.sender) failure
          | .ok text => (.ok ⟨e.sender, e.level, e.epoch, e.sequence, record.trust, text⟩, d₁) := by
  rw [← hId]
  rcases hOpened : Inbound.decrypt P (d.setting d.now) record e
    (d.work.withPart (d.pairs.receiving record.deviceId)) with ⟨opened, w⟩
  have hFirst : (d.onPairs P fun s => Pairs.decrypt P s record e).1 = opened :=
    congrArg Prod.fst hOpened
  refine ⟨opened, w, rfl, (d.onPairs P fun s => Pairs.decrypt P s record e).2, rfl, rfl, ?_, ?_⟩
  · exact congrArg (fun opened => d.audit.appendAll P opened.2.events d.now) hOpened
  · unfold receive receiveEnvelope
    rw [hDecoded]
    dsimp only
    rw [hAuthentic, ← hId]
    dsimp only
    generalize d.onPairs P _ = x at hFirst ⊢
    obtain ⟨result, d₁⟩ := x
    obtain rfl : result = opened := hFirst
    cases result <;> rfl

/-- The side of a peer that passes as the sender is not barred. -/
theorem isRevoked_receiving_of_authentic {e : Envelope} {record : Peer}
    (hBarred : ∀ peer, (d.pairs.receiving peer).isRevoked = true → d.isRevoked peer = true)
    (hAuthentic : d.authenticate P e = .ok record) :
    (d.pairs.receiving e.sender).isRevoked = false := by
  obtain ⟨hKnown, hTrusted⟩ := authenticate_eq_ok hAuthentic
  rw [Bool.eq_false_iff]
  intro hClosed
  have hRevoked := hBarred e.sender hClosed
  unfold isRevoked at hRevoked
  rw [hKnown] at hRevoked
  exact Bool.false_ne_true (hTrusted.symm.trans hRevoked)

/-- **Bytes that are not accepted have a flaw.** -/
theorem exists_rejects (hFiled : d.contacts.Filed)
    (hBarred : ∀ peer, (d.pairs.receiving peer).isRevoked = true → d.isRevoked peer = true)
    {refusal : Failure} (h : (d.receive P bytes).1 = .error refusal) :
    ∃ flaw, d.Rejects P bytes flaw := by
  cases hDecoded : Envelope.decode d.config.limits bytes with
  | error failure => exact ⟨_, .unreadable hDecoded⟩
  | ok e =>
    cases hAuthentic : d.authenticate P e with
    | error failure => exact exists_rejects_of_authenticate hDecoded hAuthentic
    | ok record =>
      obtain ⟨opened, w, hOpened, d₁, -, -, -, hReceive⟩ := receive_of_authentic hDecoded
        hAuthentic (hFiled _ _ (authenticate_eq_ok hAuthentic).1)
      cases opened with
      | ok text =>
        rw [hReceive] at h
        cases h
      | error failure =>
        obtain ⟨flaw, hRefuses⟩ := Inbound.exists_refuses
          (isRevoked_receiving_of_authentic hBarred hAuthentic) (congrArg Prod.fst hOpened)
        exact ⟨flaw, .refused hDecoded hAuthentic hRefuses⟩

/-- Bytes that cannot be read are malformed. -/
theorem rejectionKind_of_decode {limits : Envelope.Limits} {failure : Failure}
    (h : Envelope.decode limits bytes = .error failure) :
    rejectionKind failure = .malformedEnvelope := by
  unfold Envelope.decode at h
  split at h
  · cases h
    rfl
  split at h
  · cases h
  · cases h
    have hMalformed := Envelope.isMalformed_of_check ‹_›
    cases failure with
    | malformedEnvelope reason => rfl
    | _ => cases hMalformed

/-- The sender that an envelope says, if it can be read. -/
def claimedSender (d : Device) (bytes : Bytes) : Option String :=
  (Envelope.decode d.config.limits bytes).toOption.map (·.sender)

/-- **Bytes with a flaw are rejected** for a reason that belongs to it, and nothing else was put on
record before. -/
theorem receive_of_rejects (hFiled : d.contacts.Filed)
    (hBarred : ∀ peer, (d.pairs.receiving peer).isRevoked = true → d.isRevoked peer = true)
    (h : d.Rejects P bytes flaw) :
    ∃ failure, rejectionKind failure = flaw.kind ∧
      ∃ d₁ : Device, d₁.id = d.id ∧ d₁.now = d.now ∧ d₁.audit = d.audit ∧
        d.receive P bytes = d₁.reject P (d.claimedSender bytes) failure := by
  -- an envelope of which the sender is not made out leaves the device as it is
  have hStranger {e : Envelope} {failure : Failure}
      (hDecoded : Envelope.decode d.config.limits bytes = .ok e)
      (hFailed : d.authenticate P e = .error failure) :
      d.receive P bytes = d.reject P (d.claimedSender bytes) failure := by
    unfold receive receiveEnvelope claimedSender
    rw [hDecoded]
    dsimp only
    rw [hFailed]
    rfl
  cases h with
  -- each flaw stops the call at a check of its own, in the order of the checks
  | @unreadable failure hDecoded =>
    refine ⟨failure, rejectionKind_of_decode hDecoded, d, rfl, rfl, rfl, ?_⟩
    · unfold receive claimedSender
      rw [hDecoded]
      rfl
  | @misdirected e hDecoded hOther =>
    exact ⟨.malformedEnvelope "envelope addressed to another device", rfl, d, rfl, rfl, rfl,
      hStranger hDecoded (if_pos hOther)⟩
  | @stranger e hDecoded hAddressed hUnknown =>
    refine ⟨.unknownPeer e.sender, rfl, d, rfl, rfl, rfl, hStranger hDecoded ?_⟩
    simp [authenticate, Contacts.lookup, hAddressed, hUnknown]
  | @revoked e record hDecoded hAddressed hKnown hRevoked =>
    refine ⟨.peerRevoked record.deviceId, rfl, d, rfl, rfl, rfl, hStranger hDecoded ?_⟩
    simp [authenticate, Contacts.lookup, hAddressed, hKnown, hRevoked]
  -- the signature is looked at last, after the level has asked for it
  | @forged e record signature hDecoded hAddressed hKnown hTrusted hSigns hSigned hForged =>
    refine ⟨.authentication, rfl, d, rfl, rfl, rfl, hStranger hDecoded ?_⟩
    simp [authenticate, Contacts.lookup, hAddressed, hKnown, hTrusted, hSigns, hSigned, hForged]
  -- everything up to the session is in order, so that the side of the sender refuses
  | @refused e record flaw hDecoded hAuthentic hRefuses =>
    obtain ⟨opened, w, hOpened, d₁, hId, hNow, hAudit, hReceive⟩ := receive_of_authentic hDecoded
      hAuthentic (hFiled _ _ (authenticate_eq_ok hAuthentic).1)
    obtain ⟨failure, hFailed, hKind⟩ := Inbound.fst_decrypt_of_refuses
      (w := d.work.withPart (d.pairs.receiving e.sender))
      (isRevoked_receiving_of_authentic hBarred hAuthentic) hRefuses
    obtain rfl : opened = .error failure := (congrArg Prod.fst hOpened).symm.trans hFailed
    refine ⟨failure, hKind, d₁, hId, hNow, ?_, ?_⟩
    · rw [hAudit, Inbound.events_of_refused hOpened]
      rfl
    · rw [hReceive]
      unfold claimedSender
      rw [hDecoded]
      rfl

-- ---------------------------------------------------------------------------
-- Putting a rejection on record
-- ---------------------------------------------------------------------------

variable (P) in
/-- What became of an event and of the failure that it reports: the event is the last entry, and
the caller learns of the failure, unless the entry is critical and the sink refuses it. A critical
entry waits for the sink only if it was refused. -/
structure Registers (event : Audit.Event) (failure : Failure) (d : Device)
    (answered : Except Failure ReceivedMessage × Device) : Prop where
  entries : answered.2.audit.entries = d.audit.entries ++ [d.audit.entryOf P event d.now]
  routine (h : event.kind.isCritical = false) :
    answered.1 = .error failure ∧
      answered.2.audit.pending = d.audit.pending ++ [d.audit.entryOf P event d.now] ∧
      answered.2.audit.sink = d.audit.sink
  delivered (h : event.kind.isCritical = true) (takes : d.audit.sink.isFull = false) :
    answered.1 = .error failure ∧
      answered.2.audit.pending = [] ∧
      answered.2.audit.sink.archive =
        d.audit.sink.archive.append (d.audit.pending ++ [d.audit.entryOf P event d.now])
  refused (h : event.kind.isCritical = true) (full : d.audit.sink.isFull = true) :
    answered.1 = .error (.storage "disk full") ∧
      answered.2.audit.pending = d.audit.pending ++ [d.audit.entryOf P event d.now] ∧
      answered.2.audit.sink = d.audit.sink

/-- The last entry is of the kind of the event. -/
theorem Registers.kind_last {event : Audit.Event} {failure : Failure} {d : Device}
    {answered : Except Failure ReceivedMessage × Device}
    (h : Registers P event failure d answered) :
    answered.2.audit.entries.getLast?.map (·.kind) = some event.kind := by
  rw [h.entries, List.getLast?_concat]
  rfl

/-- The event that a rejection leaves. -/
def rejectionOf (d : Device) (bytes : Bytes) (flaw : Envelope.Flaw) (failure : Failure) :
    Audit.Event :=
  ⟨flaw.kind, d.id :: (d.claimedSender bytes).toList, .failure, failure.message⟩

/-- **A rejection is put on record** before it is answered. -/
theorem registers_recording (event : Audit.Event) (failure : Failure) (d : Device) :
    Registers P event failure d (d.recording P event (.error failure)) := by
  rw [recording_eq]
  have hLog : (d.record P event).2.audit = (d.audit.record P event d.now).2 := rfl
  refine ⟨d.audit.entries_record event d.now, fun hRoutine => ?_, fun hCritical hTakes => ?_,
    fun hCritical hFull => ?_⟩
  · rw [hRoutine]
    refine ⟨rfl, ?_, ?_⟩ <;> simp [hLog, Audit.Log.record, hRoutine]
  · rw [hCritical, hTakes]
    refine ⟨rfl, ?_, ?_⟩ <;> simp [hLog, Audit.Log.record, Audit.Log.deliver, hCritical, hTakes]
  · rw [hCritical, hFull]
    refine ⟨rfl, ?_, ?_⟩ <;> simp [hLog, Audit.Log.record, Audit.Log.deliver, hCritical, hFull]

/-- **What is put on record of an envelope that is opened:** that its epoch began, if there was no
session of it and none of a later one. -/
theorem audit_receive (hFiled : d.contacts.Filed) {message : ReceivedMessage}
    (h : d.receive P bytes = (.ok message, d')) :
    d'.audit = if d.pairs.stateOf ⟨d.id, message.sender, message.epoch, .inbound⟩ = .noSession then
        d.audit.append P ⟨.sessionEstablished, [d.id, message.sender], .success,
          s!"inbound epoch {message.epoch.toNat} at {message.level.name}"⟩ d.now
      else d.audit := by
  cases hDecoded : Envelope.decode d.config.limits bytes with
  | error failure =>
    unfold receive at h
    rw [hDecoded] at h
    dsimp only at h
    -- what cannot be read is not received
    obtain ⟨failure', hFailed⟩ := (reject_cases (P := P) none failure d).1
    rw [h] at hFailed
    cases hFailed
  | ok e =>
    obtain ⟨record, hAuthentic, -⟩ :=
      (receive_eq_ok_iff (P := P) hDecoded).1 ⟨message, congrArg Prod.fst h⟩
    have hId := hFiled _ _ (authenticate_eq_ok hAuthentic).1
    obtain ⟨opened, w, hOpened, d₁, -, -, hAudit, hReceive⟩ :=
      receive_of_authentic hDecoded hAuthentic hId
    rw [h] at hReceive
    cases opened with
    | error failure =>
      dsimp only at hReceive
      obtain ⟨failure', hFailed⟩ := (reject_cases (P := P) (some e.sender) failure d₁).1
      rw [← hReceive] at hFailed
      cases hFailed
    | ok text =>
      cases hReceive
      have hState : d.pairs.stateOf ⟨d.id, e.sender, e.epoch, .inbound⟩ =
          (d.pairs.receiving e.sender).stateOf e.epoch := Pairs.stateOf_eq ..
      rw [hAudit, Inbound.events_of_opened hOpened, hState, hId]
      -- the log is told of the epoch if the side has not seen it before
      by_cases hNew : (d.pairs.receiving e.sender).stateOf e.epoch = .noSession
      · have hNew' : (d.work.withPart (d.pairs.receiving e.sender)).part.stateOf e.epoch =
          .noSession := hNew
        rw [if_pos hNew, if_pos hNew']
        rfl
      · have hKept : ¬(d.work.withPart (d.pairs.receiving e.sender)).part.stateOf e.epoch =
          .noSession := hNew
        rw [if_neg hNew, if_neg hKept]
        rfl

/-- Behind a message that was received there is a session of its epoch. -/
theorem stateOf_of_receive {message : ReceivedMessage} (h : d.receive P bytes = (.ok message, d')) :
    d'.pairs.stateOf ⟨d.id, message.sender, message.epoch, .inbound⟩ = .active ∨
      d'.pairs.stateOf ⟨d.id, message.sender, message.epoch, .inbound⟩ = .expiring := by
  obtain ⟨e, record, w, -, -, hOpened, hMessage, hSide, -⟩ :=
    opened_of_receive (P := P) (congrArg Prod.fst h)
  rw [h] at hSide
  rw [hMessage, Pairs.stateOf_eq]
  show (d'.pairs.receiving record.deviceId).stateOf e.epoch = _ ∨
    (d'.pairs.receiving record.deviceId).stateOf e.epoch = _
  rw [hSide]
  exact Inbound.stateOf_of_opened hOpened

/-- **No rejection goes unrecorded.** In every state of a run, bytes are rejected exactly if they
have a flaw, and whichever it is, one failure of its kind is put on record behind all that is there,
with this device and the sender that the envelope says, as far as it can be read. The caller learns
the reason, and if the sink refuses a critical entry it learns that instead, while the entry is on
record and waits. Behind bytes that are accepted there is a session of their epoch, and nothing is
put on record of them, except that the session began if there was none before.

In the run no counter passes `2 ^ 64 - 1`. -/
theorem rejections_are_on_record (hStart : Starts P start) (hRun : Run P start history d)
    (bytes : Bytes) :
    ((∃ refusal, (d.receive P bytes).1 = .error refusal) ↔ ∃ flaw, d.Rejects P bytes flaw) ∧
      (∀ flaw, d.Rejects P bytes flaw →
        ∃ failure, rejectionKind failure = flaw.kind ∧
          Registers P (d.rejectionOf bytes flaw failure) failure d (d.receive P bytes)) ∧
      ∀ message d', d.receive P bytes = (.ok message, d') →
        (d'.pairs.stateOf ⟨d.id, message.sender, message.epoch, .inbound⟩ = .active ∨
          d'.pairs.stateOf ⟨d.id, message.sender, message.epoch, .inbound⟩ = .expiring) ∧
        d'.audit =
          if d.pairs.stateOf ⟨d.id, message.sender, message.epoch, .inbound⟩ = .noSession then
            d.audit.append P ⟨.sessionEstablished, [d.id, message.sender], .success,
              s!"inbound epoch {message.epoch.toNat} at {message.level.name}"⟩ d.now
          else d.audit := by
  have hFiled := hRun.filed hStart
  have hBarred := hRun.barred hStart
  refine ⟨⟨fun ⟨refusal, hRefused⟩ => exists_rejects hFiled hBarred hRefused, ?_⟩, ?_,
    fun message d' hReceived => ⟨stateOf_of_receive hReceived, audit_receive hFiled hReceived⟩⟩
  · rintro ⟨flaw, hFlaw⟩
    obtain ⟨failure, -, d₁, -, -, -, hReceive⟩ := receive_of_rejects hFiled hBarred hFlaw
    rw [hReceive]
    exact (reject_cases ..).1
  · intro flaw hFlaw
    obtain ⟨failure, hKind, d₁, hId, hNow, hAudit, hReceive⟩ :=
      receive_of_rejects hFiled hBarred hFlaw
    refine ⟨failure, hKind, ?_⟩
    have hRegisters := registers_recording (P := P) (d.rejectionOf bytes flaw failure) failure d₁
    obtain ⟨hEntries, hRoutine, hDelivered, hRefused⟩ := hRegisters
    -- the refusal is recorded behind whatever the call did before, which is nothing for the log
    have hRecorded : d.receive P bytes =
        d₁.recording P (d.rejectionOf bytes flaw failure) (.error failure) := by
      rw [hReceive]
      unfold rejectionOf
      rw [← hKind, ← hId]
      rfl
    rw [hRecorded]
    rw [hAudit, hNow] at hEntries hRoutine hDelivered hRefused
    exact ⟨hEntries, hRoutine, hDelivered, hRefused⟩

/-- Ann's letter to Bob. -/
def annsLetter : Bytes := (plainLetters .standard [.send "bob" .basic [1]]).headD []

/-- Bob has opened Ann's letter, and his sink is full. -/
def openedOps : List Operation := [meetPlain "ann" 1, .receive annsLetter, .setSink true]

/-- Bob puts on record that the epoch of Ann's letter began. When it is brought again, that is put
on record too, although the sink refuses. -/
theorem rejections_are_on_record_of_replayed :
    let before := after .plain (plain .standard "bob" 3) [meetPlain "ann" 1]
    let bob := after .plain (plain .standard "bob" 3) openedOps
    (∃ message d', before.receive .plain annsLetter = (.ok message, d') ∧
        d'.audit = before.audit.append .plain ⟨.sessionEstablished, ["bob", "ann"], .success,
          "inbound epoch 0 at basic"⟩ 0) ∧
      ∃ flaw failure, bob.Rejects .plain annsLetter flaw ∧ flaw.kind = .replayRejected ∧
        Registers .plain (bob.rejectionOf annsLetter flaw failure) failure bob
          (bob.receive .plain annsLetter) ∧
        (bob.receive .plain annsLetter).1 = .error (.storage "disk full") ∧
        (bob.receive .plain annsLetter).2.audit.pending.map (·.devices) =
          bob.audit.pending.map (·.devices) ++ [["bob", "ann"]] := by
  intro before bob
  have hStart : Starts .plain (plain .standard "bob" 3) := plain_starts "bob" 3 rfl
  have hRunBefore : Run .plain (plain .standard "bob" 3) _ before :=
    run_after (show allReturn .plain _ [meetPlain "ann" 1] = true by decide +kernel)
  have hRunBob : Run .plain (plain .standard "bob" 3) _ bob :=
    run_after (show allReturn .plain _ openedOps = true by decide +kernel)
  obtain ⟨-, -, hOpened⟩ := rejections_are_on_record hStart hRunBefore annsLetter
  obtain ⟨hIff, hRejected, -⟩ := rejections_are_on_record hStart hRunBob annsLetter
  constructor
  · have hMessage : (before.receive .plain annsLetter).1 =
        .ok ⟨"ann", .basic, 0, 1, .unverified, [1]⟩ := by decide +kernel
    have hReceived : before.receive .plain annsLetter =
        (.ok ⟨"ann", .basic, 0, 1, .unverified, [1]⟩, (before.receive .plain annsLetter).2) := by
      rw [← hMessage]
    obtain ⟨-, hAudit⟩ := hOpened _ _ hReceived
    refine ⟨_, _, hReceived, ?_⟩
    have hNew : before.pairs.stateOf ⟨before.id, "ann", 0, .inbound⟩ = .noSession := by
      decide +kernel
    have hDetail : s!"inbound epoch {(0 : UInt64).toNat} at {Level.basic.name}" =
      "inbound epoch 0 at basic" := by decide +kernel
    have hId : before.id = "bob" := by decide +kernel
    have hNow : before.now = 0 := by decide +kernel
    rw [if_pos hNew, hDetail, hId, hNow] at hAudit
    exact hAudit
  · have hAnswer : (bob.receive .plain annsLetter).1 = .error (.storage "disk full") := by
      decide +kernel
    obtain ⟨flaw, hFlaw⟩ := hIff.1 ⟨_, hAnswer⟩
    obtain ⟨failure, -, hRegisters⟩ := hRejected flaw hFlaw
    have hLast : (bob.receive .plain annsLetter).2.audit.entries.getLast?.map (·.kind) =
        some .replayRejected := by decide +kernel
    have hKind : flaw.kind = .replayRejected :=
      Option.some.inj (hRegisters.kind_last.symm.trans hLast)
    exact ⟨flaw, failure, hFlaw, hKind, hRegisters, hAnswer, by decide +kernel⟩

end Device

end EndToEnd
