import EndToEnd.Proofs.CountedRotation
import EndToEnd.Proofs.Outcomes
import EndToEnd.Proofs.RatchetMoves
import EndToEnd.Proofs.Recovery
import EndToEnd.Proofs.Refusal
import EndToEnd.Proofs.Strangers

/-!
# Receivers behind a restart

Sessions are not saved, so a device that is brought back has lost how far it had come in the epochs
of its peers. An envelope begins its epoch anew, at the first number; and as from any other number,
only so many may be passed over from there. So a restored device reads on in an epoch of which few
envelopes were made, and is shut out of any other until its peer begins the next.

Main results:

* `Device.Listens.fst_receive` — what the first envelope of an epoch gives.
* `Device.InStep.letters` — any number of letters, each given at once.
* `Device.InStep.next_letter` — the one behind them, with a restart before it and without.
* `Device.restored_reads_on` — when a restored device receives the next message.
-/

namespace EndToEnd

variable {P : Primitives}

-- ---------------------------------------------------------------------------
-- The first envelope of an epoch
-- ---------------------------------------------------------------------------

/-- What an envelope gives that begins its epoch: its text, unless too many numbers lie before its
own. -/
def Envelope.firstReading (e : Envelope) (maxSkip : UInt64) (plaintext : Bytes) :
    Except Failure Bytes :=
  if e.sequence.toNat ≤ maxSkip.toNat + 1 then .ok plaintext
  else .error (.malformedEnvelope
    s!"sequence {e.sequence.toNat} skips more than {maxSkip.toNat} messages")

section

variable {own : Identity} {sender : String} {keys : PublicKeys} {e : Envelope} {plaintext : Bytes}
  {maxSkip : UInt64}

/-- A session refuses a number that lies too far ahead. -/
theorem Session.decrypt_of_far {s : Session} (hLevel : e.level = s.level)
    (hEphemeral : e.ephemeral = s.ephemeral)
    (hFar : maxSkip.toNat < e.sequence.toNat - s.ratchet.next.toNat) :
    s.decrypt P maxSkip e = .error (.malformedEnvelope
      s!"sequence {e.sequence.toNat} skips more than {maxSkip.toNat} messages") := by
  unfold decrypt
  rw [if_neg (by simp [hLevel, hEphemeral]), Ratchet.deriveAt_eq_skip_iff.2 hFar]

/-- **A session that an envelope begins** gives its first reading. -/
theorem Envelope.Opens.fst_decrypt_begin (h : e.Opens P own sender keys plaintext) (id : SessionId)
    (hEpoch : e.epoch = id.epoch) {key : Key}
    (hKey : Inbound.epochKey P own sender keys e.epoch e.level e.ephemeral = .ok key)
    (maxSkip now : UInt64) :
    ((Session.begin id e.level key e.ephemeral now).decrypt P maxSkip e).map Prod.fst =
      e.firstReading maxSkip plaintext := by
  unfold firstReading
  split
  · rename_i hNear
    obtain ⟨text, s', hOpened⟩ := (h.decrypt_begin_iff id hEpoch hKey maxSkip now).2 hNear
    have hStands := Session.stands_begin id now (hEpoch ▸ hKey)
    rw [hOpened, h.unique (hStands.opens hEpoch hOpened)]
    rfl
  · rename_i hFar
    have hOne : (Session.begin id e.level key e.ephemeral now).ratchet.next.toNat = 1 := rfl
    rw [Session.decrypt_of_far rfl rfl (by omega)]
    rfl

/-- **An envelope of an epoch that is not known** gives its first reading. -/
theorem Inbound.fst_decrypt_of_unknown {s : Setting} {peer : Peer} {w : Work Inbound}
    (hOpen : w.part.isRevoked = false) (hUnknown : w.part.epochs.get? e.epoch = none)
    (hAbove : w.part.isPast e.epoch = false)
    (hOpens : e.Opens P s.own peer.deviceId peer.keys plaintext) :
    (decrypt P s peer e w).1 = e.firstReading s.config.maxSkip plaintext := by
  obtain ⟨key, hKey, -⟩ := hOpens.decrypts
  have hBegun := beginSession_eq_ok_iff.2 ⟨key, hKey, rfl⟩
  rw [← hOpens.fst_decrypt_begin ⟨s.own.deviceId, peer.deviceId, e.epoch, .inbound⟩ rfl hKey
    s.config.maxSkip s.now]
  unfold decrypt beginEpoch
  rw [hOpen, hUnknown, hBegun]
  dsimp only
  rw [hAbove]
  cases hRead : Session.decrypt P s.config.maxSkip e _ with
  | error failure => simp [Except.map]
  | ok opened => simp [Except.map]

end

namespace Device

variable {start startB a b d back : Device} {history histB later : History} {e : Envelope}
  {peer : Peer} {keys : PublicKeys} {places : List (UInt64 × UInt64)} {plaintext bytes : Bytes}
  {store : Store} {passphrase : String} {level : Level} {ops : List Operation}

/-- **The first envelope of an epoch** above all others is received as what it is, unless too many
numbers lie before its own, whatever the sink says. -/
theorem Listens.fst_receive (h : d.Listens P e.sender peer.keys places)
    (hPeer : d.contacts.get? e.sender = some peer) (hId : peer.deviceId = e.sender)
    (hTrusted : peer.isRevoked = false) (hAuthentic : e.Authentic P d.identity peer.keys)
    (hOpens : e.Opens P d.identity e.sender peer.keys plaintext)
    (hDecoded : Envelope.decode d.config.limits bytes = .ok e)
    (hAbove : ∀ p ∈ places, p.1 < e.epoch) :
    (d.receive P bytes).1 = (e.firstReading d.config.maxSkip plaintext).map fun text =>
      ⟨e.sender, e.level, e.epoch, e.sequence, peer.trust, text⟩ := by
  have hPasses : d.authenticate P e = .ok peer :=
    authenticate_eq_ok_iff.2 ⟨hPeer, hTrusted, hAuthentic⟩
  -- the sender is trusted, so its side was not closed
  have hOpen : (d.pairs.receiving e.sender).isRevoked = false := by
    rw [Bool.eq_false_iff]
    intro hBarred
    have hRevoked := h.barred hBarred
    unfold isRevoked at hRevoked
    rw [hPeer, Option.any_some, hTrusted] at hRevoked
    cases hRevoked
  have hPast := h.tracks.isPast_eq_false hAbove
  -- the epoch is above all that were accepted, so it has no session
  have hUnknown : (d.pairs.receiving e.sender).epochs.get? e.epoch = none := by
    refine Option.eq_none_iff_forall_ne_some.2 fun session hSession => ?_
    rw [h.tracks.isPast hSession] at hPast
    cases hPast
  have hRead : (d.onPairs P fun s => Pairs.decrypt P s peer e).1 =
      e.firstReading d.config.maxSkip plaintext := by
    rw [← hId] at hOpen hUnknown hPast hOpens
    exact Inbound.fst_decrypt_of_unknown (s := d.setting d.now)
      (w := d.work.withPart (d.pairs.receiving peer.deviceId)) hOpen hUnknown hPast hOpens
  rw [fst_receive_of_decrypt hDecoded hPasses hRead fun failure hFailure => ?_, hId]
  unfold Envelope.firstReading at hFailure
  split at hFailure
  · cases hFailure
  · cases hFailure
    rfl

-- ---------------------------------------------------------------------------
-- Letters that are given at once
-- ---------------------------------------------------------------------------

/-- Sending takes no time. -/
theorem now_send (peer : String) (level : Level) (plaintext : Bytes) (d : Device) :
    (d.send P peer level plaintext).2.now = d.now := by
  unfold send
  split
  · unfold refuseUnknown
    split <;> exact (congrArg (·.2.now) ‹d.onPairs P _ = _›).symm
  · split
    · rfl
    split
    · rfl
    · unfold sendTo
      split <;> exact (congrArg (·.2.now) ‹d.onPairs P _ = _›).symm

/-- A rejection takes no time. -/
theorem now_reject (sender : Option String) (failure : Failure) (d : Device) :
    (d.reject P sender failure).2.now = d.now := by
  obtain ⟨log, hLog⟩ := (reject_cases (P := P) sender failure d).2
  rw [hLog]

/-- Receiving takes no time. -/
theorem now_receive (bytes : Bytes) (d : Device) : (d.receive P bytes).2.now = d.now := by
  unfold receive
  split
  · exact now_reject ..
  · unfold receiveEnvelope
    split
    · exact now_reject ..
    · split
      · exact (now_reject ..).trans (congrArg (·.2.now) ‹d.onPairs P _ = _›).symm
      · exact (congrArg (·.2.now) ‹d.onPairs P _ = _›).symm

/-- The session behind a message is not too old, if that before it was not. -/
theorem young_of_makes {s : Setting} {record : Peer} {o o' : Outbound}
    (hMakes : Outbound.Makes P s record level plaintext o e o') {policy : Rotation.Policy}
    (hFresh : policy.InTime s.now s.now)
    (hYoung : ∀ session, o.current = some session → policy.InTime session.createdAt s.now) :
    ∀ session, o'.current = some session → policy.InTime session.createdAt s.now := by
  intro session' hCurrent'
  obtain ⟨session'', hSame, -, -, -, ⟨session, hCurrent, -, -, hCreated, -⟩ |
    ⟨-, -, hCreated, -⟩⟩ := hMakes.current
  · cases hSame.symm.trans hCurrent'
    rw [hCreated]
    exact hYoung session hCurrent
  · cases hSame.symm.trans hCurrent'
    rw [hCreated]
    exact hFresh

/-- A message is sent in time where the session in use is not too old. -/
theorem sendsInTime_of_young (hSent : (a.send P b.id level plaintext).1 = .ok bytes)
    (hYoung : ∀ session, (a.pairs.sending b.id).current = some session →
      a.config.rotation.InTime session.createdAt a.now) :
    sendsInTime P b.id level a (.send b.id level plaintext) = true := by
  unfold sendsInTime
  dsimp only
  rw [hSent]
  cases hCurrent : (a.pairs.sending b.id).current with
  | none => simp [Except.toOption]
  | some session => simp [Except.toOption, hYoung session hCurrent]

/-- A device that writes to another and has written few messages. The other reads by the same clock
and has received all of them, and the session in use, if there is one, is not too old. -/
structure InStep (P : Primitives) (made : Nat) (a b : Device) : Prop where
  good : ∃ saved letters places, Conversation.Good P ⟨a, b, a.now, none, saved⟩ letters places
  clock : b.now = a.now
  writes : a.MayWrite P b made
  named : Envelope.idFault? a.config.limits.maxDeviceId a.id = none ∧
    Envelope.idFault? a.config.limits.maxDeviceId b.id = none
  fresh : a.config.rotation.InTime a.now a.now
  young : ∀ session, (a.pairs.sending b.id).current = some session →
    a.config.rotation.InTime session.createdAt a.now

namespace InStep

variable {made : Nat}

/-- **One letter** is sent in time and received at once. -/
theorem passes (hP : P.Lawful) (hAgree : P.Contributory) (h : InStep P made a b)
    (hMade : made + 1 < lastNumber.toNat) (level : Level)
    (hConveys : a.config.limits.Conveys plaintext) :
    ∃ bytes m, (a.send P b.id level plaintext).1 = .ok bytes ∧
      sendsInTime P b.id level a (.send b.id level plaintext) = true ∧
      overruns P a (.send b.id level plaintext) = false ∧
      (b.receive P bytes).1 = .ok m ∧ m.sender = a.id ∧ overruns P b (.receive bytes) = false ∧
      InStep P (made + 1) (a.send P b.id level plaintext).2 (b.receive P bytes).2 := by
  obtain ⟨saved, letters, places, hGood⟩ := h.good
  -- the two clocks agree, so the receiver of the conversation is the device itself
  have hReader : ({ b with now := a.now } : Device) = b := by rw [← h.clock]
  obtain ⟨bytes, m, hSent, hReceived, hSender, -, -, hReads, hWrites, saved', letters', places',
    hGood'⟩ := hGood.passes hP hAgree rfl h.writes h.named.1 h.named.2 hMade level hConveys
  have hSent : (a.send P b.id level plaintext).1 = .ok bytes := hSent
  unfold Conversation.receiver at hReceived hReads hGood'
  dsimp only at hReceived hReads hGood'
  rw [hReader] at hReceived hReads hGood'
  have hEvolvesA := evolves_step (P := P) a (.send b.id level plaintext)
  have hConfig : (a.send P b.id level plaintext).2.config = a.config := hEvolvesA.config
  have hIdA : (a.send P b.id level plaintext).2.id = a.id :=
    congrArg Identity.deviceId hEvolvesA.identity
  have hEvolvesB := evolves_receive (P := P) bytes b
  have hIdB : (b.receive P bytes).2.id = b.id := congrArg Identity.deviceId hEvolvesB.identity
  have hNow : (a.send P b.id level plaintext).2.now = a.now := now_send ..
  -- the session that has sent is young still, and will be for the next letter
  obtain ⟨record, e, -, -, hMakes⟩ := makes_of_sent hGood.corresponds.filedA hSent
  refine ⟨bytes, m, hSent, sendsInTime_of_young hSent h.young,
    h.writes.returns (Nat.lt_of_succ_lt hMade) level plaintext, hReceived, hSender, hReads,
    ⟨saved', letters', places', hNow ▸ hGood'⟩, ?_, hWrites.congr hEvolvesB.identity, ?_, ?_, ?_⟩
  · rw [now_receive, hNow]
    exact h.clock
  · rw [hConfig, hIdA, hIdB]
    exact h.named
  · rw [hConfig, hNow]
    exact h.fresh
  · rw [hConfig, hNow, hIdB]
    exact young_of_makes hMakes h.fresh h.young

/-- **Any number of letters** are sent in time, and all are received. -/
theorem letters (hP : P.Lawful) (hAgree : P.Contributory) (h : InStep P made a b) (level : Level)
    (hConveys : a.config.limits.Conveys plaintext) (n : Nat) (hMade : made + n < lastNumber.toNat) :
    let ops := List.replicate n (Operation.send b.id level plaintext)
    let readings := ((during P a ops).written b.id).map Operation.receive
    allReturn P a ops = true ∧ onlySends P b.id level a ops = true ∧
      allReturn P b readings = true ∧ ((during P b readings).accepted a.id).length = n ∧
      InStep P (made + n) (after P a ops) (after P b readings) := by
  induction n generalizing a b made with
  | zero => exact ⟨rfl, rfl, rfl, rfl, h⟩
  | succ n ih =>
    -- the first letter passes; the conversation of the others starts where it has led
    obtain ⟨bytes, m, hSent, hInTime, hReturns, hReceived, hSender, hReads, hNext⟩ :=
      h.passes hP hAgree (by omega) level hConveys
    -- neither device has changed its name or its limits on the way
    have hEvolves := evolves_step (P := P) a (.send b.id level plaintext)
    have hConfig : (a.send P b.id level plaintext).2.config = a.config := hEvolves.config
    have hIdA : (a.send P b.id level plaintext).2.id = a.id :=
      congrArg Identity.deviceId hEvolves.identity
    have hIdB : (b.receive P bytes).2.id = b.id :=
      congrArg Identity.deviceId (evolves_receive (P := P) bytes b).identity
    obtain ⟨hReturn, hSends, hReading, hAccepted, hLast⟩ :=
      ih hNext (hConfig ▸ hConveys) (by omega)
    rw [hIdB] at hReturn hSends hReading hAccepted hLast
    rw [hIdA] at hAccepted
    intro ops readings
    -- the first letter, and those behind it
    let later := List.replicate n (Operation.send b.id level plaintext)
    let a' := (a.send P b.id level plaintext).2
    have hReadings : readings =
        .receive bytes :: ((during P a' later).written b.id).map Operation.receive := by
      have hWritten : (during P a ops).written b.id =
          [bytes] ++ (during P a' later).written b.id := by
        rw [← written_of_sent hSent]
        exact History.written_append b.id [_] _
      show ((during P a ops).written b.id).map Operation.receive = _
      rw [hWritten]
      rfl
    rw [hReadings]
    refine ⟨?_, ?_, ?_, ?_, ?_⟩
    · -- one number is used for each letter, and there are enough of them
      show (!overruns P a _ && allReturn P a' later) = true
      rw [hReturns, hReturn]
      rfl
    · show ((sendsInTime P b.id level a _ || _) && onlySends P b.id level a' later) = true
      rw [hInTime, hSends]
      rfl
    · show (!overruns P b _ && allReturn P (b.receive P bytes).2 _) = true
      rw [hReads, hReading]
      rfl
    · -- the readings are those of the first letter and of the others
      have hFirst : History.accepted a.id [(Operation.receive bytes,
          (b.step P (.receive bytes)).1)] = [m] := by
        have hReply : (b.step P (.receive bytes)).1 = .received (.ok m) :=
          congrArg Reply.received hReceived
        simp [History.accepted, hReply, History.message?, hSender]
      show (History.accepted a.id ([_] ++ during P (b.receive P bytes).2 _)).length = n + 1
      rw [History.accepted_append, hFirst, List.length_append, hAccepted, Nat.add_comm]
      rfl
    · rw [show made + (n + 1) = made + 1 + n by omega]
      exact hLast

end InStep

-- ---------------------------------------------------------------------------
-- Behind a restart
-- ---------------------------------------------------------------------------

/-- **A message that is sent** is a genuine envelope, which is read as it was written if it is not too
large. -/
theorem exists_genuine_of_sent (hP : P.Lawful) (hStart : Starts P start)
    (hRun : Run P start history a) (hKnows : a.Knows P b)
    (hReturns : overruns P a (.send b.id level plaintext) = false)
    (hSent : (a.send P b.id level plaintext).1 = .ok bytes)
    (hShort : plaintext.length < UInt32.size)
    (hSize : bytes.length ≤ Envelope.maxSize a.config.limits) :
    ∃ e record, Outbound.Makes P (a.setting a.now) record level plaintext (a.pairs.sending b.id) e
        ((a.send P b.id level plaintext).2.pairs.sending b.id) ∧
      e.Genuine P a.identity b.identity plaintext ∧ e.level = level ∧
      Envelope.decode a.config.limits bytes = .ok e := by
  obtain ⟨letters, -, hPosts⟩ := hRun.posts hP hStart hKnows.keys
  rcases posts_cases hP (hRun.filed hStart) hKnows.keys hPosts (.send b.id level plaintext)
      hReturns with
    ⟨hNone, -⟩ | ⟨level', plaintext', record, e, hOp, hReply, hMakes, hGenuine, hLevel, -, hMore⟩
  · have hReply : (a.step P (.send b.id level plaintext)).1 = .sent (.ok bytes) :=
      congrArg Reply.sent hSent
    rw [hReply] at hNone
    simp [History.written?, Device.id] at hNone
  cases hOp
  have hEncoded : e.encode a.config.limits = .ok bytes := by
    injection hReply.symm.trans (congrArg Reply.sent hSent)
  obtain ⟨rfl, hPosts'⟩ := hMore bytes hEncoded
  have hLast : (⟨e, plaintext⟩ : Letter) ∈ letters ++ [⟨e, plaintext⟩] := by simp
  have hConfig := (evolves_step (P := P) a (.send b.id level plaintext)).config
  have hValid : a.config.validate = .ok () := by
    rw [hRun.evolves.config]
    exact hStart.validate
  have hDecoded := hPosts'.decode_write hP (hConfig ▸ maxDeviceId_lt hValid) hLast hShort
    (hConfig ▸ hSize)
  rw [hConfig] at hDecoded
  exact ⟨e, record, hMakes, hGenuine, hLevel, hDecoded⟩

/-- With limits that can be counted, nothing is sent that is too large to be read. -/
theorem length_le_of_sent (hFiled : a.contacts.Filed) {peer : String}
    (hSent : (a.send P peer level plaintext).1 = .ok bytes) (hRoom : a.config.limits.Countable) :
    bytes.length ≤ Envelope.maxSize a.config.limits := by
  rcases send_effect (P := P) hFiled peer level plaintext with
    ⟨failure, hFailed, -⟩ | ⟨record, e, -, hReply, -⟩
  · cases hSent.symm.trans hFailed
  · obtain ⟨hCheck, rfl⟩ := Envelope.encode_eq_ok_iff.1 (hReply.symm.trans hSent)
    exact Envelope.length_write_le hCheck hRoom

/-- Whom a device knew, it knows behind a restart. -/
theorem Knows.restored (h : b.Knows P a) (hP : P.Lawful) (hFiled : b.contacts.Filed)
    (hSavedIn : b.SavedIn P store passphrase) {config : Config} {sink : Audit.Sink} {now : UInt64}
    {random : RandomSource}
    (hRestored : restore P config sink store passphrase now random = .ok back) : back.Knows P a := by
  obtain ⟨-, -, hContacts⟩ := restore_of_savedIn hP hFiled hSavedIn hRestored
  unfold Knows
  rw [hContacts]
  exact h

/-- **What a restored device is given first of an epoch** it reads from the first number on. -/
theorem fst_receive_of_restored (hP : P.Lawful) (hFiled : b.contacts.Filed)
    (hSavedIn : b.SavedIn P store passphrase) {sink : Audit.Sink} {now : UInt64}
    {random : RandomSource}
    (hRestored : restore P b.config sink store passphrase now random = .ok back)
    (hLater : Run P back later d) (hTrusted : d.isRevoked a.id = false) (hKnows : b.Knows P a)
    (hGenuine : e.Genuine P a.identity b.identity plaintext)
    (hDecoded : Envelope.decode b.config.limits bytes = .ok e)
    (hAbove : ∀ p ∈ later.places a.id, p.1 < e.epoch) :
    ∃ record, d.contacts.get? a.id = some record ∧
      (d.receive P bytes).1 = (e.firstReading b.config.maxSkip plaintext).map fun text =>
        ⟨a.id, e.level, e.epoch, e.sequence, record.trust, text⟩ := by
  -- the device is who it was, with the same peers on file
  obtain ⟨hConfig, hIdentity, -⟩ := restore_of_savedIn hP hFiled hSavedIn hRestored
  have hBack : Starts P back := .restored hRestored
  have hEvolves := hLater.evolves
  obtain ⟨known, hKnown, hKeys, -⟩ := hKnows.restored hP hFiled hSavedIn hRestored
  obtain ⟨record, hRecord, -, hSame, -⟩ := hEvolves.contacts _ _ hKnown
  have hFrom : e.sender = a.id := hGenuine.sender
  have hRecordKeys : record.keys = a.identity.publicKeys P := hSame.trans hKeys
  rw [← hIdentity, ← hEvolves.identity] at hGenuine
  rw [← hConfig, ← hEvolves.config] at hDecoded ⊢
  have hNotRevoked : record.isRevoked = false := by
    unfold isRevoked at hTrusted
    rw [hRecord] at hTrusted
    exact hTrusted
  refine ⟨record, hRecord, ?_⟩
  rw [← hFrom] at hRecord hAbove ⊢
  have hOpens := hGenuine.opens hP
  rw [← hRecordKeys, show a.identity.deviceId = e.sender from hFrom.symm] at hOpens
  exact (hLater.listens hBack (forall_keys_of hRecord)).fst_receive hRecord
    (hLater.filed hBack _ _ hRecord) hNotRevoked (hRecordKeys ▸ hGenuine.authentic hP) hOpens
    hDecoded hAbove

/-- **The number of a message** that some of its level come before, all of them in time. -/
theorem sequence_of_onlySends (hStart : Starts P start) (hRun : Run P start history a)
    {peer : String} (hIdle : (a.pairs.sending peer).current = none)
    (hReturn : allReturn P a (ops ++ [.send peer level plaintext]) = true)
    (hSends : onlySends P peer level a (ops ++ [.send peer level plaintext]) = true)
    {s : Setting} {record : Peer} {o : Outbound} (hMakes : Outbound.Makes P s record level plaintext
      o e (((after P a ops).send P peer level plaintext).2.pairs.sending peer)) :
    e.sequence.toNat = ops.countP (·.isFor peer) % a.config.rotation.threshold.toNat + 1 := by
  have hBegins : (a.pairs.sending peer).Counted a.config.rotation.threshold.toNat
      (a.pairs.sending peer).nextEpoch.toNat level 0 := ⟨hIdle, rfl⟩
  obtain ⟨es, hWritten, hCounts⟩ := counted_during hStart hRun hBegins hReturn hSends
  have hLength : es.length = ops.countP (·.isFor peer) + 1 := by
    have hMapped := congrArg List.length hWritten
    rw [List.length_map, length_written hSends, List.countP_append] at hMapped
    simpa [Operation.isFor] using hMapped
  have hCounted := hCounts.counted
  rw [hLength, Nat.zero_add, after_append] at hCounted
  exact (hCounted.place hMakes).2.1

/-- **The next letter behind any number of them** is received. But if the reader is saved before it,
and brought back, then it reads the letter as the first of its epoch; the number there is the one
that division tells. -/
theorem InStep.next_letter (hP : P.Lawful) (hAgree : P.Contributory) (hStart : Starts P start)
    (hRun : Run P start history a) (h : InStep P 0 a b)
    (hIdle : (a.pairs.sending b.id).current = none) (level : Level)
    (hConveys : a.config.limits.Conveys plaintext) (n : Nat) (hMade : n + 1 < lastNumber.toNat)
    (hPassphrase : passphrase ≠ "") (hStore : store ≠ .file .directory) :
    let ops := List.replicate n (Operation.send b.id level plaintext)
    let writer := after P a ops
    let reader := after P b (((during P a ops).written b.id).map Operation.receive)
    ∃ bytes m written, (writer.send P b.id level plaintext).1 = .ok bytes ∧
      (reader.receive P bytes).1 = .ok m ∧ (reader.save P store passphrase).1 = .ok written ∧
      ∀ sink now random, ∃ back, restore P a.config sink written passphrase now random = .ok back ∧
        ∃ (e : Envelope) (record : Peer),
          e.sequence.toNat = n % a.config.rotation.threshold.toNat + 1 ∧
            (back.receive P bytes).1 = (e.firstReading a.config.maxSkip plaintext).map fun text =>
              ⟨a.id, level, e.epoch, e.sequence, record.trust, text⟩ := by
  intro ops writer reader
  obtain ⟨hReturn, -, hReading, -, hLast⟩ := h.letters hP hAgree level hConveys n (by omega)
  have hWriter : Run P a (during P a ops) writer := run_after hReturn
  have hConfig : writer.config = a.config := hWriter.evolves.config
  have hIdA : writer.id = a.id := congrArg Identity.deviceId hWriter.evolves.identity
  have hIdB : reader.id = b.id :=
    congrArg Identity.deviceId (run_after hReading).evolves.identity
  obtain ⟨bytes, m, hSent, -, hReturns, hReceived, -⟩ :=
    hLast.passes hP hAgree (by omega) level (hConfig ▸ hConveys)
  obtain ⟨saved, letters, places, hGood⟩ := hLast.good
  have hCorresponds : Corresponds P writer reader letters places := hGood.corresponds
  have hSame : reader.config = a.config := hCorresponds.config.symm.trans hConfig
  obtain ⟨known, hKnown, hKeys, hTrusted, -⟩ := hLast.writes.record
  have hSize : bytes.length ≤ Envelope.maxSize writer.config.limits :=
    length_le_of_sent ((hRun.trans hWriter).filed hStart) hSent (hConfig ▸ hConveys.room)
  obtain ⟨e, record, hMakes, hGenuine, rfl, hDecoded⟩ := exists_genuine_of_sent hP hStart
    (hRun.trans hWriter) ⟨known, hKnown, hKeys, hTrusted⟩ hReturns hSent hConveys.counted hSize
  obtain ⟨written, hSaved⟩ := exists_save_eq_ok (P := P) hCorresponds.valid hPassphrase hStore
  have hSavedIn : reader.SavedIn P written passphrase := save_eq_ok (Prod.ext hSaved rfl)
  refine ⟨bytes, m, written, hIdB ▸ hSent, hReceived, hSaved, fun sink now random => ?_⟩
  obtain ⟨back, hRestored⟩ :=
    exists_restore_eq_ok hP hCorresponds.valid hSavedIn sink now random
  have hBackKnows := hCorresponds.knows.restored hP hCorresponds.filedB hSavedIn hRestored
  obtain ⟨peer, -, hBack⟩ := fst_receive_of_restored hP hCorresponds.filedB hSavedIn hRestored
    .start hBackKnows.not_revoked hCorresponds.knows hGenuine (hCorresponds.config ▸ hDecoded)
    fun _ h => nomatch h
  rw [hSame] at hRestored hBack
  rw [hIdA] at hBack
  refine ⟨back, hRestored, e, peer, ?_, hBack⟩
  -- the letter is the last of one more
  obtain ⟨hReturnNext, hSendsNext, -⟩ := h.letters hP hAgree e.level hConveys (n + 1) (by omega)
  rw [List.replicate_succ'] at hReturnNext hSendsNext
  rw [hIdB] at hMakes
  have hCount : ops.countP (·.isFor b.id) = n := by
    rw [List.countP_replicate]
    exact if_pos (decide_eq_true rfl)
  rw [sequence_of_onlySends hStart hRun hIdle hReturnNext hSendsNext hMakes, hCount]

/-- **A restored device reads on in an epoch of which few envelopes were made.** A device was asked
for anything, and so was another that is then saved, and brought back with the same passphrase and
configuration. Each has the true keys of the other on file, they have the same limits, and neither
has revoked the other. Then the first sends one message more, of less than `2 ^ 32` bytes and not too
large to be read; both hold of every message that the limits of the standard configuration let pass,
and the second of every message unless the largest size wraps around. The other was asked for
anything since its restart, but it has received nothing of the epoch of this message or a later one.
It receives the message as what it is exactly if no more envelopes were made in its epoch before than
may be passed over, whatever of them it had received before its restart; otherwise the message is
refused as malformed.

In the runs no counter passes `2 ^ 64 - 1`. -/
theorem restored_reads_on (hP : P.Lawful) (hStartA : Starts P start)
    (hReturn : allReturn P start (ops ++ [.send b.id level plaintext]) = true)
    (hStartB : Starts P startB) (hRunB : Run P startB histB b)
    (hLimits : (after P start ops).config.limits = b.config.limits)
    (hKnowsB : (after P start ops).Knows P b) (hKnowsA : b.Knows P (after P start ops))
    (hSent : ((after P start ops).send P b.id level plaintext).1 = .ok bytes)
    (hShort : plaintext.length < UInt32.size)
    (hSize : bytes.length ≤ Envelope.maxSize b.config.limits) (hPassphrase : passphrase ≠ "")
    (hStore : store ≠ .file .directory) :
    let a := after P start ops
    let most := b.config.maxSkip.toNat
    ∃ (e : Envelope) (written : Store), Envelope.decode b.config.limits bytes = .ok e ∧
      (b.save P store passphrase).1 = .ok written ∧
      ∀ sink now random, ∃ back, restore P b.config sink written passphrase now random = .ok back ∧
        ∀ later d, Run P back later d → (∀ p ∈ later.places a.id, p.1 < e.epoch) →
          d.isRevoked a.id = false →
          let before := (outcomes P b.id e.epoch start ops).length
          e.sequence.toNat = before + 1 ∧
            ∃ record, d.contacts.get? a.id = some record ∧
              (d.receive P bytes).1 =
                if before ≤ most then
                  .ok ⟨a.id, level, e.epoch, e.sequence, record.trust, plaintext⟩
                else .error (.malformedEnvelope
                  s!"sequence {before + 1} skips more than {most} messages") := by
  intro a most
  rw [allReturn_append, Bool.and_eq_true] at hReturn
  obtain ⟨hBefore, hReturns⟩ := hReturn
  have hReturns : overruns P a (.send b.id level plaintext) = false := by
    simpa [allReturn] using hReturns
  obtain ⟨e, record, hMakes, hGenuine, rfl, hDecoded⟩ :=
    exists_genuine_of_sent hP hStartA (run_after hBefore) hKnowsB hReturns hSent hShort
      (hLimits ▸ hSize)
  rw [hLimits] at hDecoded
  -- the number counts the envelopes
  have hTallies := tallies_after hStartA.filed (hStartA.tallies b.id) hBefore
  simp only [List.nil_append] at hTallies
  have hSequence := hTallies.sequence hMakes
  have hValid : b.config.validate = .ok () := by
    rw [hRunB.evolves.config]
    exact hStartB.validate
  obtain ⟨written, hSaved⟩ := exists_save_eq_ok (P := P) hValid hPassphrase hStore
  have hSavedIn : b.SavedIn P written passphrase := save_eq_ok (Prod.ext hSaved rfl)
  refine ⟨e, written, hDecoded, hSaved, fun sink now random => ?_⟩
  obtain ⟨back, hRestored⟩ := exists_restore_eq_ok hP hValid hSavedIn sink now random
  refine ⟨back, hRestored, fun later d hLater hAbove hTrusted => ⟨hSequence, ?_⟩⟩
  obtain ⟨record, hRecord, hReceived⟩ := fst_receive_of_restored hP (hRunB.filed hStartB) hSavedIn
    hRestored hLater hTrusted hKnowsA hGenuine hDecoded hAbove
  refine ⟨record, hRecord, hReceived.trans ?_⟩
  unfold Envelope.firstReading
  rw [hSequence]
  simp only [Nat.add_le_add_iff_right]
  split <;> rfl

/-- Only one number may be passed over. -/
def shortMemory : Config := { Config.standard with maxSkip := 1 }

/-- Ann has Bob on file and writes two letters. -/
def twoLetters : List Operation :=
  [meetPlain "bob" 3, .send "bob" .basic [1], .send "bob" .basic [2]]

/-- Bob, when he has received both. -/
def twoRead : Device :=
  after .plain (plain shortMemory "bob" 3) (meetPlain "ann" 1 ::
    ((during .plain (plain shortMemory "ann" 1) twoLetters).written "bob").map .receive)

theorem restored_reads_on_of_twoLetters :
    let ann := after .plain (plain shortMemory "ann" 1) twoLetters
    ∃ bytes written back, (ann.send .plain "bob" .basic [3]).1 = .ok bytes ∧
      (twoRead.save .plain (.memory none) "secret").1 = .ok written ∧
      restore .plain twoRead.config .memory written "secret" 7 ⟨fun _ => 9, 0⟩ = .ok back ∧
      (back.receive .plain bytes).1 =
        .error (.malformedEnvelope "sequence 3 skips more than 1 messages") := by
  intro ann
  have hId : twoRead.id = "bob" := by decide +kernel
  obtain ⟨bytes, hSent, hRead⟩ := exists_ok_of_map
    (show (ann.send .plain "bob" .basic [3]).1.toOption.map (fun bytes =>
        (Envelope.decode twoRead.config.limits bytes).toOption.map (·.sequence)) =
      some (some 3) by decide +kernel)
  have hRunB := run_after (P := .plain) (d := plain shortMemory "bob" 3)
    (show allReturn _ _ (meetPlain "ann" 1 ::
      ((during .plain (plain shortMemory "ann" 1) twoLetters).written "bob").map .receive) = true by
        decide +kernel)
  have hSize : bytes.length ≤ Envelope.maxSize twoRead.config.limits := by
    have hRunA := run_after (P := .plain) (d := plain shortMemory "ann" 1)
      (show allReturn _ _ twoLetters = true by decide +kernel)
    have hSame : ann.config.limits = twoRead.config.limits := by decide +kernel
    rw [← hSame]
    exact length_le_of_sent (hRunA.filed (plain_starts "ann" 1 rfl)) hSent (by decide +kernel)
  obtain ⟨e, written, hDecoded, hSaved, hBack⟩ := restored_reads_on Primitives.plain_lawful
    (plain_starts "ann" 1 rfl)
    (show allReturn .plain (plain shortMemory "ann" 1)
      (twoLetters ++ [.send twoRead.id .basic [3]]) = true by decide +kernel)
    (plain_starts "bob" 3 rfl) hRunB (by decide +kernel) (knows_of_any (by decide +kernel))
    (knows_of_any (by decide +kernel)) (hId ▸ hSent) (by decide) hSize
    (show "secret" ≠ "" by decide)
    (show Store.memory none ≠ .file .directory by decide)
  obtain ⟨back, hRestored, hReceives⟩ := hBack .memory 7 ⟨fun _ => 9, 0⟩
  have hTrusted : (twoRead.save .plain (.memory none) "secret").1.toOption.map (fun written =>
      (restore .plain twoRead.config .memory written "secret" 7 ⟨fun _ => 9, 0⟩).toOption.map
        (·.isRevoked ann.id)) = some (some false) := by
    decide +kernel
  rw [hSaved] at hTrusted
  obtain ⟨back', hRestored', hTrusted⟩ := exists_ok_of_map (Option.some.inj hTrusted)
  obtain rfl : back = back' := Except.ok.inj (hRestored.symm.trans hRestored')
  obtain ⟨hSequence, record, -, hReceived⟩ :=
    hReceives [] back .start (fun _ h => nomatch h) hTrusted
  rw [hDecoded] at hRead
  have hThird : e.sequence = 3 := Option.some.inj hRead
  have hBefore : (outcomes .plain twoRead.id e.epoch (plain shortMemory "ann" 1)
      twoLetters).length = 2 := by
    rw [hThird] at hSequence
    exact (Nat.succ.inj hSequence).symm
  have hMost : twoRead.config.maxSkip.toNat = 1 := by decide +kernel
  rw [hBefore, hMost] at hReceived
  exact ⟨bytes, written, back, hSent, hSaved, hRestored, hReceived⟩

/-- Ann has Bob on file, and he has her. -/
def newAnn : Device := after .plain (plain .standard "ann" 1) [meetPlain "bob" 3]

def newBob : Device := after .plain (plain .standard "bob" 3) [meetPlain "ann" 1]

theorem inStep_new : InStep .plain 0 newAnn newBob := by
  have hBegins : Conversation.Begins .plain ⟨newAnn, newBob, newAnn.now, none, []⟩ := by
    refine ⟨⟨_, _, plain_starts "ann" 1 rfl, run_after (by decide +kernel), ?_⟩,
      ⟨_, _, plain_starts "bob" 3 rfl, run_after (by decide +kernel), by decide +kernel⟩,
      by decide +kernel, knows_of_any (by decide +kernel), knows_of_any (by decide +kernel),
      by decide +kernel, rfl, List.forall_mem_nil _⟩
    intro entry hEntry level plaintext hSend
    rw [List.mem_singleton.1 hEntry] at hSend
    cases hSend
  have hNone : (newAnn.pairs.sending newBob.id).current = none := by decide +kernel
  obtain ⟨record, hRecord, hKeys, hTrusted⟩ := hBegins.knowsB
  refine ⟨⟨[], [], [], hBegins.good⟩, by decide +kernel,
    ⟨⟨record, hRecord, hKeys, hTrusted, ?_⟩, ?_⟩, by decide +kernel, by decide +kernel,
    fun session hSession => ?_⟩
  · -- nobody has to be verified
    exact fun h => absurd h.2 (by decide +kernel)
  · refine ⟨by decide +kernel, by decide +kernel, by decide +kernel, fun session hSession => ?_⟩
    cases hNone.symm.trans hSession
  · cases hNone.symm.trans hSession

/-- **A restart can shut a receiver out.** Ann writes 1001 letters to Bob at once, and he receives
all of them. He would receive her next letter too. But he is saved, and brought back with the same
passphrase and configuration, and then he refuses it. -/
theorem restart_shuts_out :
    let ops := List.replicate 1001 (Operation.send "bob" .basic [1])
    let letters := (during .plain newAnn ops).written "bob"
    let readings := letters.map Operation.receive
    let ann := after .plain newAnn ops
    let bob := after .plain newBob readings
    newAnn.Knows .plain newBob ∧ newBob.Knows .plain newAnn ∧ allReturn .plain newAnn ops = true ∧
      letters.length = 1001 ∧ allReturn .plain newBob readings = true ∧
      ((during .plain newBob readings).accepted "ann").length = 1001 ∧
      ∃ bytes m written back, (ann.send .plain "bob" .basic [1]).1 = .ok bytes ∧
        (bob.receive .plain bytes).1 = .ok m ∧
        (bob.save .plain (.memory none) "secret").1 = .ok written ∧
        restore .plain .standard .memory written "secret" 0 ⟨fun _ => 9, 0⟩ = .ok back ∧
        (back.receive .plain bytes).1 =
          .error (.malformedEnvelope "sequence 1002 skips more than 1000 messages") := by
  intro ops letters readings ann bob
  have hConveys : newAnn.config.limits.Conveys [1] := by decide +kernel
  have hIdA : newAnn.id = "ann" := by decide +kernel
  have hIdB : newBob.id = "bob" := by decide +kernel
  have hAgree : Primitives.plain.Contributory := fun _ _ => rfl
  -- the run of a thousand letters is not computed: it is an instance of the general one
  obtain ⟨hReturn, hSends, hReading, hAccepted, -⟩ :=
    inStep_new.letters Primitives.plain_lawful hAgree .basic hConveys 1001 (by decide)
  have hRunA := run_after (P := .plain) (d := plain .standard "ann" 1)
    (show allReturn _ _ [meetPlain "bob" 3] = true by decide +kernel)
  obtain ⟨bytes, m, written, hSent, hReceived, hSaved, hBack⟩ := inStep_new.next_letter
    Primitives.plain_lawful hAgree (plain_starts "ann" 1 rfl) hRunA (by decide +kernel) .basic
    hConveys 1001 (by decide) (show "secret" ≠ "" by decide)
    (show Store.memory none ≠ .file .directory by decide)
  obtain ⟨back, hRestored, e, record, hSequence, hRefused⟩ := hBack .memory 0 ⟨fun _ => 9, 0⟩
  rw [hIdB] at hReturn hSends hReading hAccepted hSent hReceived hSaved
  rw [hIdA] at hAccepted
  refine ⟨knows_of_any (by decide +kernel), knows_of_any (by decide +kernel), hReturn, ?_, hReading,
    hAccepted, bytes, m, written, back, hSent, hReceived, hSaved, hRestored, hRefused.trans ?_⟩
  · rw [length_written hSends, List.countP_replicate]
    rfl
  · have hNumber : e.sequence.toNat = 1002 := hSequence
    unfold Envelope.firstReading
    rw [hNumber]
    rfl

end Device

end EndToEnd
