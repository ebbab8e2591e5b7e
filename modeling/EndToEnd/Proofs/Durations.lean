import EndToEnd.Proofs.Rejections
import EndToEnd.Proofs.SessionTimes

/-!
# Configured times

A configuration says how long an epoch is used, how long an ended one can still be received, how long
an establishment may stay open, and how long entries of the log are kept. A span is counted in whole
milliseconds of 64 bits (`Duration.Passed`), so one of `2 ^ 64` milliseconds and more is cut down to
what is left of it. Apart from that nothing comes before its time: deadlines are sums that stop at
the last number, ages are differences that stop at zero, and both err on the late side as long as
the clock has not come to the last number.

Main results:

* `Duration.passed_of_le_saturatingAdd`, `Duration.le_saturatingSub_iff` — deadlines and ages.
* `Audit.Log.passed_of_swept` — the entries that are dropped.
* `Device.nothing_comes_early` — all that a device does by the clock, behind any operations.
* `Device.endless_retention_keeps_nothing` — a span that is cut down.
-/

namespace EndToEnd

-- ---------------------------------------------------------------------------
-- Spans
-- ---------------------------------------------------------------------------

/-- Whether a span has passed from one time to another, as far as its milliseconds are counted. -/
def Duration.Passed (span : Duration) (since now : UInt64) : Prop :=
  span.wholeMillis % UInt64.size ≤ now.toNat - since.toNat

namespace Duration

variable {span : Duration} {since now : UInt64}

instance : Decidable (span.Passed since now) := inferInstanceAs (Decidable (_ ≤ _))

/-- A span that 64 bits can count is counted as it is. -/
theorem passed_iff (hFits : span.wholeMillis < UInt64.size) :
    span.Passed since now ↔ span.wholeMillis ≤ now.toNat - since.toNat := by
  unfold Passed
  rw [Nat.mod_eq_of_lt hFits]

theorem le_saturatingSub_iff : span.millis ≤ saturatingSub now since ↔ span.Passed since now := by
  rw [UInt64.le_iff_toNat_le, toNat_millis, toNat_saturatingSub]
  rfl

/-- A deadline that has come before the last number was not cut short. -/
theorem passed_of_le_saturatingAdd (h : saturatingAdd since span.millis ≤ now)
    (hClock : now < Device.lastNumber) : span.Passed since now := by
  have hClock : now.toNat < UInt64.size - 1 := UInt64.lt_iff_toNat_lt.1 hClock
  rw [UInt64.le_iff_toNat_le, toNat_saturatingAdd, toNat_millis] at h
  unfold Passed
  omega

end Duration

namespace Rotation.Policy

variable {p : Policy} {used : Usage} {level : Level} {now : UInt64}

/-- A session that is too old for a message is as old as an epoch can be. -/
theorem passed_of_evaluate (h : p.evaluate used level now = some .intervalElapsed) :
    p.interval.Passed used.createdAt now := by
  unfold evaluate at h
  split at h
  · cases h
  split at h
  · cases h
  split at h
  · exact Duration.le_saturatingSub_iff.1 ‹_›
  · cases h

end Rotation.Policy

namespace Session

variable {p : Rotation.Policy} {now : UInt64} {session : Session}

theorem passed_of_hasAged (h : session.hasAged p now = true) (hClock : now < Device.lastNumber) :
    p.interval.Passed session.createdAt now :=
  Duration.passed_of_le_saturatingAdd (of_decide_eq_true (Bool.and_eq_true_iff.1 h).2) hClock

end Session

/-- **The entries that are dropped** for their age are older than those that are kept. -/
theorem Audit.Log.passed_of_swept {log : Log} {age : Duration} {now : UInt64} {e : Entry}
    (hEntry : e ∈ log.entries) (hSwept : e ∉ (log.sweep age now).2.entries) :
    e.timestamp.toNat + age.wholeMillis % UInt64.size < now.toNat := by
  obtain ⟨entries, hFlushed, hNone⟩ := log.adds_flush
  obtain rfl : entries = [] := List.map_eq_nil_iff.1 hNone
  rw [List.append_nil] at hFlushed
  unfold sweep at hSwept
  split at hSwept
  · rename_i flushed hFlush
    rw [hFlush] at hFlushed
    exact absurd (hFlushed ▸ hEntry) hSwept
  · rename_i flushed hFlush
    rw [hFlush] at hFlushed
    have hOld : ¬saturatingSub now age.millis ≤ e.timestamp := fun hYoung =>
      hSwept (List.mem_filter.2 ⟨hFlushed ▸ hEntry, decide_eq_true hYoung⟩)
    rw [UInt64.le_iff_toNat_le, toNat_saturatingSub, Duration.toNat_millis] at hOld
    omega

-- ---------------------------------------------------------------------------
-- Messages that find an establishment overdue
-- ---------------------------------------------------------------------------

/-- No fault of the cipher suites looks like an establishment that was given up. -/
theorem Failure.ofCrypto_ne_timeout (fault : CryptoFault) (peer : String) :
    Failure.ofCrypto fault ≠ .establishmentTimeout peer := by
  cases fault <;> exact nofun

theorem Outbound.establish_ne_timeout {P : Primitives} {s : Setting} {peer : Peer} {level : Level}
    {w : Work Outbound} {other : String} :
    (establish P s peer level w).1 ≠ .error (.establishmentTimeout other) := by
  intro h
  dsimp only [establish] at h
  split at h
  · rename_i hBegun
    dsimp only [beginSession] at hBegun
    split at hBegun
    · exact Failure.ofCrypto_ne_timeout _ _ (Except.error.inj (hBegun.trans h))
    · cases hBegun
  · cases h

theorem Session.encrypt_ne_timeout {P : Primitives} {own : Identity} {plaintext : Bytes}
    {session : Session} {random : RandomSource} {other : String} :
    session.encrypt P own plaintext random ≠ .error (.establishmentTimeout other) := by
  intro h
  unfold encrypt at h
  split at h
  · exact Failure.ofCrypto_ne_timeout _ _ (Except.error.inj h)
  · cases h

/-- A message that fails for an establishment has found it overdue. -/
theorem Outbound.hasTimedOut_of_encrypt {P : Primitives} {s : Setting} {peer : Peer} {level : Level}
    {plaintext : Bytes} {w : Work Outbound} {other : String}
    (h : (encrypt P s peer level plaintext w).1 = .error (.establishmentTimeout other)) :
    other = peer.deviceId ∧ w.part.hasTimedOut s = true := by
  unfold encrypt at h
  split at h
  · cases h
  split at h
  · cases h
    exact ⟨rfl, ‹_›⟩
  · -- neither a session that begins nor one that sends fails for the time of its establishment
    have hReady : (ready P s peer level (rotateIfDue s peer.deviceId level w)).1 ≠
        .error (.establishmentTimeout other) := by
      unfold ready
      split
      · exact nofun
      · exact establish_ne_timeout
    generalize ready P s peer level (rotateIfDue s peer.deviceId level w) = found at h hReady
    obtain ⟨result, w₁⟩ := found
    cases result with
    | error failure => exact (hReady (congrArg Except.error (Except.error.inj h))).elim
    | ok session =>
      dsimp only at h
      split at h
      · rename_i hFailed
        exact (Session.encrypt_ne_timeout
          (hFailed.trans (congrArg Except.error (Except.error.inj h)))).elim
      · cases h

-- ---------------------------------------------------------------------------
-- Envelopes that are refused for their age
-- ---------------------------------------------------------------------------

/-- A session that can be read never says that its epoch is over. -/
theorem Session.decrypt_ne_expired {P : Primitives} {maxSkip : UInt64} {e : Envelope}
    {session : Session} {sender : String} {epoch : UInt64} :
    session.decrypt P maxSkip e ≠ .error (.sessionExpired sender epoch) := by
  intro h
  obtain ⟨flaw, hRefuses⟩ := exists_refuses h
  obtain ⟨failure, hFailed, hKind⟩ := decrypt_of_refuses hRefuses
  rw [h] at hFailed
  cases hFailed
  cases hRefuses <;> cases hKind

/-- An epoch that is over has no session that can be read. -/
theorem Inbound.canDecrypt_of_expired {P : Primitives} {s : Setting} {peer : Peer} {e : Envelope}
    {w : Work Inbound} {sender : String} {epoch : UInt64}
    (h : (decrypt P s peer e w).1 = .error (.sessionExpired sender epoch)) :
    sender = peer.deviceId ∧ epoch = e.epoch ∧
      ∀ session, w.part.epochs.get? epoch = some session → session.canDecrypt s.now = false := by
  unfold decrypt at h
  split at h
  · cases h
  split at h
  · rename_i session hKnown
    unfold continueEpoch at h
    split at h
    · split at h
      · -- a session that can decrypt never fails for its age
        rename_i hFailed
        exact (Session.decrypt_ne_expired
          (hFailed.trans (congrArg Except.error (Except.error.inj h)))).elim
      · cases h
    · rename_i hOver
      cases h
      refine ⟨rfl, rfl, fun t ht => ?_⟩
      rw [hKnown] at ht
      cases ht
      exact Bool.eq_false_iff.2 hOver
  · -- a past epoch, of which no session is left
    rename_i hUnknown
    split at h
    · cases h
      refine ⟨rfl, rfl, fun t ht => ?_⟩
      rw [hUnknown] at ht
      cases ht
    · unfold beginEpoch at h
      split at h
      · rename_i hBegun
        cases (beginSession_eq_error hBegun).symm.trans (Except.error.inj h)
      · split at h
        · rename_i hFailed
          exact (Session.decrypt_ne_expired
            (hFailed.trans (congrArg Except.error (Except.error.inj h)))).elim
        · cases h

-- ---------------------------------------------------------------------------
-- Devices
-- ---------------------------------------------------------------------------

namespace Device

variable {P : Primitives} {start d : Device} {history : History} {may : String → Prop}
  {ops : List Operation} {id : SessionId} {session : Session} {now : UInt64}

/-- A message that is answered with an overdue establishment is one to a peer with one. -/
theorem overdue_of_send (hFiled : d.contacts.Filed) (hSettled : d.Settled may) {peer other : String}
    {level : Level} {plaintext : Bytes}
    (h : (d.send P peer level plaintext).1 = .error (.establishmentTimeout other)) :
    other = peer ∧ (d.pairs.sending peer).isOverdue d.config.establishmentTimeout d.now = true := by
  rw [← hasTimedOut_eq hSettled]
  have hPosting := posting_send (P := P) peer level plaintext d
  generalize d.send P peer level plaintext = sent at hPosting h
  cases hPosting with
  | unknown unfiled =>
    -- nobody is on file: the failure is that of looking for an establishment
    have hCheck : (d.onPairs P fun s => Pairs.checkEstablishment s peer).1 =
        .error (.establishmentTimeout other) := by
      unfold refuseUnknown at h
      split at h
      · rename_i hChecked
        rw [hChecked]
        exact congrArg Except.error (Except.error.inj h)
      · cases h
    have hCheck : (Pairs.checkEstablishment (d.setting d.now) peer d.work).1 =
        .error (.establishmentTimeout other) := hCheck
    unfold Pairs.checkEstablishment Pairs.onExistingOutbound at hCheck
    split at hCheck
    · have hCheck : (if (d.pairs.sending peer).hasTimedOut (d.setting d.now) then _
          else (Except.ok (), _) : Except Failure Unit × Work Outbound).1 = _ := hCheck
      split at hCheck
      · cases hCheck
        exact ⟨rfl, ‹_›⟩
      · cases hCheck
    · cases hCheck
  | held filed held refused =>
    -- a message that is held back fails for another reason
    rw [Except.error.inj h] at refused
    rcases refused with hRevoked | hUntrusted
    · cases hRevoked
    · cases hUntrusted
  | @carried record filed carries =>
    have hId : record.deviceId = peer := hFiled peer record filed
    -- the message is carried, and fails before its envelope is written
    have hMade : (Outbound.encrypt P (d.setting d.now) record level plaintext
        (d.work.withPart (d.pairs.sending record.deviceId))).1 =
          .error (.establishmentTimeout other) := by
      show (d.onPairs P fun s => Pairs.encrypt P s record level plaintext).1 = _
      unfold sendTo at h
      split at h
      · rename_i hFailed
        rw [hFailed]
        exact congrArg Except.error (Except.error.inj h)
      · -- what cannot be written is malformed
        unfold Envelope.encode Envelope.check at h
        split at h
        · cases h
        · rename_i hFault
          split at hFault <;> cases hFault
          cases h
    rw [hId] at hMade
    exact hId ▸ Outbound.hasTimedOut_of_encrypt hMade

/-- The caller learns why an envelope was rejected, or that the sink is full. -/
theorem eq_of_fst_reject {sender : Option String} {failure refusal : Failure}
    (h : (d.reject P sender failure).1 = .error refusal) :
    failure = refusal ∨ refusal = .storage "disk full" := by
  have hAnswer : (d.reject P sender failure).1 = _ := congrArg Prod.fst (recording_eq (P := P)
    ⟨rejectionKind failure, d.id :: sender.toList, .failure, failure.message⟩ (.error failure) d)
  rw [hAnswer] at h
  dsimp only at h
  split at h <;> cases h
  · exact .inr rfl
  · exact .inl rfl

/-- Nobody is made out not to be the sender because an epoch is over. -/
theorem authenticate_ne_expired {e : Envelope} {sender : String} {epoch : UInt64} :
    d.authenticate P e ≠ .error (.sessionExpired sender epoch) := by
  intro h
  unfold authenticate Contacts.lookup at h
  split at h
  · cases h
  split at h
  · rename_i hUnknown
    split at hUnknown <;> cases hUnknown
    cases h
  split at h
  · cases h
  split at h
  · split at h
    · cases h
    · split at h <;> cases h
  · cases h

/-- **An epoch that is said to be over** has no session that can be read. -/
theorem canDecrypt_of_receive (hFiled : d.contacts.Filed) {bytes : Bytes} {sender : String}
    {epoch : UInt64} (h : (d.receive P bytes).1 = .error (.sessionExpired sender epoch))
    (hKept : (d.pairs.receiving sender).epochs.get? epoch = some session) :
    session.canDecrypt d.now = false := by
  have hReason {claimed : Option String} {failure : Failure} {d' : Device}
      (hRejected : d.receive P bytes = d'.reject P claimed failure) :
      failure = .sessionExpired sender epoch := by
    rw [hRejected] at h
    exact (eq_of_fst_reject h).resolve_right nofun
  cases hDecoded : Envelope.decode d.config.limits bytes with
  -- none of the checks before the session fails for the age of one
  | error failure =>
    have hRejected : d.receive P bytes = d.reject P none failure := by
      unfold receive
      rw [hDecoded]
    have hKind := rejectionKind_of_decode hDecoded
    rw [hReason hRejected] at hKind
    cases hKind
  | ok e =>
    cases hAuthentic : d.authenticate P e with
    | error failure =>
      have hRejected : d.receive P bytes = d.reject P (some e.sender) failure := by
        unfold receive receiveEnvelope
        rw [hDecoded]
        dsimp only
        rw [hAuthentic]
      rw [hReason hRejected] at hAuthentic
      exact (authenticate_ne_expired hAuthentic).elim
    | ok record =>
      have hId := hFiled _ _ (authenticate_eq_ok hAuthentic).1
      obtain ⟨opened, w, hOpened, d₁, -, -, -, hReceive⟩ :=
        receive_of_authentic hDecoded hAuthentic hId
      cases opened with
      | ok text =>
        rw [hReceive] at h
        cases h
      | error failure =>
        rw [hReason hReceive] at hOpened
        -- the session of the sender has failed, and does so for its age alone
        obtain ⟨hSender, -, hOver⟩ := Inbound.canDecrypt_of_expired (congrArg Prod.fst hOpened)
        rw [hSender, hId] at hKept
        exact hOver session hKept

-- ---------------------------------------------------------------------------
-- In time
-- ---------------------------------------------------------------------------

variable (P) in
/-- A device does by the clock only what is in time: `since` says since when something is seen of it,
and the spans are those of its configuration. -/
structure Timely (since : (Device → Bool) → Option UInt64) (d : Device) : Prop where
  /-- A session that is too old for a message. -/
  elapsed : ∀ session ∈ d.pairs.live, ∀ level now,
    d.config.rotation.evaluate session.usage level now = some .intervalElapsed →
      ∃ begun, since (keeps session.id) = some begun ∧
        d.config.rotation.interval.Passed begun now
  /-- A session that is due to end. -/
  expires : ∀ id now, now < lastNumber → (id, .expire) ∈ d.deadlines.due now →
    ∃ begun, since (keeps id) = some begun ∧ d.config.rotation.interval.Passed begun now
  /-- A session that is due to be dropped. -/
  retires : ∀ id now, now < lastNumber → (id, .retire) ∈ d.deadlines.due now →
    ∃ ended, since (hasEnded id) = some ended ∧ d.config.rotation.grace.Passed ended now
  /-- An ended session that an operation takes away, unless all sessions with the peer are taken away
  or the next epoch begins. -/
  lost : ∀ op id, op.time d.now < lastNumber → d.hasEnded id = true →
    (d.step P op).2.hasEnded id = false → op ≠ .shutdown →
    (d.step P op).2.isRevoked id.peer = false →
    (id.direction = .outbound → ∀ level plaintext, op ≠ .send id.peer level plaintext) →
    ∃ ended, since (hasEnded id) = some ended ∧
      d.config.rotation.grace.Passed ended (op.time d.now)
  /-- An ended session for whose age an envelope is refused. -/
  refused : ∀ bytes sender epoch, d.now < lastNumber →
    d.hasEnded ⟨d.id, sender, epoch, .inbound⟩ = true →
    (d.receive P bytes).1 = .error (.sessionExpired sender epoch) →
    ∃ ended, since (hasEnded ⟨d.id, sender, epoch, .inbound⟩) = some ended ∧
      d.config.rotation.grace.Passed ended d.now
  /-- An establishment that is given up, by what is put on record. -/
  recorded : ∀ op, ∀ e ∈ gained P d op, e.kind = .establishmentTimeout →
    ∃ peer asked, e.devices = [d.id, peer] ∧ since (waits peer) = some asked ∧
      d.config.establishmentTimeout.Passed asked (op.time d.now)
  /-- An establishment that a message is answered with. -/
  answered : ∀ peer other level plaintext,
    (d.send P peer level plaintext).1 = .error (.establishmentTimeout other) →
    ∃ asked, since (waits other) = some asked ∧
      d.config.establishmentTimeout.Passed asked d.now
  /-- An establishment that is not waited for any more behind a sweep. -/
  forgotten : ∀ now peer, d.waits peer = true → (d.maintain P now).2.waits peer = false →
    ∃ asked, since (waits peer) = some asked ∧ d.config.establishmentTimeout.Passed asked now
  /-- Entries that are dropped. -/
  dropped : ∀ e ∈ d.audit.entries, e ∉ d.sweepAudit.2.audit.entries →
    e.timestamp.toNat + d.config.retention.wholeMillis % UInt64.size < d.now.toNat

/-- An establishment that is overdue was asked for long enough ago. -/
theorem passed_of_isOverdue {timeout : Duration} {o : Outbound}
    (h : o.isOverdue timeout now = true) :
    ∃ asked, o.requestedAt = some asked ∧ timeout.Passed asked now := by
  obtain ⟨asked, hAsked, hLong⟩ := (Option.any_eq_true _ _).1 h
  exact ⟨asked, hAsked, Duration.le_saturatingSub_iff.1 (of_decide_eq_true hLong)⟩

/-- An establishment that is given up is overdue. -/
theorem isOverdue_of_abandons {op : Operation} {peer : String} (h : d.abandons op peer = true) :
    (d.pairs.sending peer).isOverdue d.config.establishmentTimeout (op.time d.now) = true := by
  unfold abandons at h
  cases op with
  | maintain now => exact h
  | send other level plaintext => exact (Bool.and_eq_true_iff.1 h).2
  | _ => cases h

/-- A request that a sweep finds standing and does not leave standing is overdue. -/
theorem isOverdue_of_forgotten {may' : String → Prop} {peer : String} (hSettled : d.Settled may)
    (hDated : d.Dated) (hSwept : (d.maintain P now).2.Settled may') (hWaiting : d.waits peer = true)
    (hDone : (d.maintain P now).2.waits peer = false) :
    (d.pairs.sending peer).isOverdue d.config.establishmentTimeout now = true := by
  by_contra hInTime
  rw [waits_eq hSettled] at hWaiting
  rw [waits_eq hSwept, sending_maintain hSettled hDated now peer] at hDone
  have hDone : (if (d.pairs.sending peer).isOverdue d.config.establishmentTimeout now then none
    else (d.pairs.sending peer).requestedAt).isSome = false := hDone
  rw [if_neg hInTime, hWaiting] at hDone
  cases hDone

/-- **How an ended session is seen no more:** it is not kept, for what has ended stays so. -/
theorem exists_over_of_lost (hFiled : d.contacts.Filed) (hSettled : d.Settled may) (hDated : d.Dated)
    (op : Operation) (hEnded : d.hasEnded id = true)
    (hLost : (d.step P op).2.hasEnded id = false) :
    ∃ session, d.pairs.kept? id = some session ∧
      (session.IsOver (op.time d.now) ∨ op = .shutdown ∨
        (d.step P op).2.isRevoked id.peer = true ∨
        id.direction = .outbound ∧ ∃ level plaintext, op = .send id.peer level plaintext) := by
  obtain ⟨session, deadline, hKept, hPhase⟩ := exists_ended hEnded
  have hInactive : session.isActive = false := by simp [Session.isActive, hPhase]
  refine ⟨session, hKept, ?_⟩
  cases hAfter : (d.step P op).2.pairs.kept? id with
  | none => exact over_of_lost hFiled hSettled hDated op hKept hInactive hAfter
  | some session' =>
    have hGoes := goes_step hFiled hSettled hDated op hAfter
    rw [hKept] at hGoes
    rw [hasEnded_eq, hAfter, Option.bind_some] at hLost
    cases hGoes with
    | stays created phase =>
      rw [Session.retireAt_of_expiring (phase.trans hPhase)] at hLost
      cases hLost
    | ends active => cases active.symm.trans hPhase

/-- An ended session whose deadline has come has had its grace. -/
theorem passed_of_isOver (hStart : Starts P start) (hReturn : allReturn P start ops = true)
    (hKept : (after P start ops).pairs.kept? id = some session) (hOver : session.IsOver now)
    (hClock : now < lastNumber) :
    ∃ ended, seenSince P (hasEnded id) none start ops = some ended ∧
      (after P start ops).config.rotation.grace.Passed ended now := by
  obtain ⟨deadline, hPhase, hDue⟩ := hOver
  have hSince := seenSince_hasEnded hStart hReturn id
  rw [hKept, Option.bind_some, Session.retireAt_of_expiring hPhase] at hSince
  obtain ⟨ended, hEnded, rfl⟩ := Option.map_eq_some_iff.1 hSince
  exact ⟨ended, hEnded, Duration.passed_of_le_saturatingAdd hDue hClock⟩

/-- **Nothing comes before its time.** Whatever a device was asked before, it calls a session too old,
ends or drops one, refuses an envelope for the age of its epoch, gives up an establishment and drops
an entry only once as much of the configured span has passed as is counted, since what began it. That
is all of the span, in whole milliseconds, if 64 bits can count them.

What is asked returns: no counter passes `2 ^ 64 - 1`. -/
theorem nothing_comes_early (hStart : Starts P start) (hReturn : allReturn P start ops = true) :
    (∀ (span : Duration) (since now : UInt64), span.wholeMillis < UInt64.size →
        (span.Passed since now ↔ span.wholeMillis ≤ now.toNat - since.toNat)) ∧
      Timely P (fun seen => seenSince P seen none start ops) (after P start ops) := by
  refine ⟨fun span since now hFits => Duration.passed_iff hFits, ?_⟩
  have hRun := run_after hReturn
  have hFiled := hRun.filed hStart
  have hSettled := hRun.settled hStart
  have hDated := hRun.dated hStart
  have hKeeps := seenSince_keeps hStart hReturn
  have hWaits := seenSince_waits hStart hReturn
  -- each span is counted from what was seen to begin it
  have hGrace (id : SessionId) (session : Session) (now : UInt64)
      (hKept : (after P start ops).pairs.kept? id = some session) (hOver : session.IsOver now)
      (hClock : now < lastNumber) := passed_of_isOver hStart hReturn hKept hOver hClock
  -- how the device came to be does not matter any more
  generalize after P start ops = d at *
  have hKept (session : Session) (hLive : session ∈ d.pairs.live) :
      d.pairs.kept? session.id = some session := Pairs.Settled.kept?_of_live hSettled hLive
  have hBegun (session : Session) (hLive : session ∈ d.pairs.live) :
      seenSince P (keeps session.id) none start ops = some session.createdAt := by
    rw [hKeeps, hKept session hLive]
    rfl
  have hLate (peer : String) (now : UInt64)
      (h : (d.pairs.sending peer).isOverdue d.config.establishmentTimeout now = true) :
      ∃ asked, seenSince P (waits peer) none start ops = some asked ∧
        d.config.establishmentTimeout.Passed asked now := by
    rw [hWaits]
    exact passed_of_isOverdue h
  -- what is due is due for a session that is kept
  have hDue (id : SessionId) (now : UInt64) (action : Rotation.DueAction)
      (h : (id, action) ∈ d.deadlines.due now) :
      ∃ session ∈ d.pairs.live, session.id = id ∧ (d.setting now).due? session = some action := by
    obtain ⟨entry, hEntry, hEntryDue⟩ := Rotation.Deadlines.due_of_mem h
    exact Pairs.Dated.exists_due (s := d.setting now) (w := d.work) hDated hSettled hEntry hEntryDue
  constructor
  case elapsed =>
    intro session hLive level now hElapsed
    exact ⟨_, hBegun session hLive, Rotation.Policy.passed_of_evaluate hElapsed⟩
  case expires =>
    intro id now hClock hMem
    obtain ⟨session, hLive, rfl, hSession⟩ := hDue id now .expire hMem
    have hAged : session.hasAged d.config.rotation now = true :=
      Setting.aged_of_due (s := d.setting now) hSession
    exact ⟨_, hBegun session hLive, Session.passed_of_hasAged hAged hClock⟩
  case retires =>
    intro id now hClock hMem
    obtain ⟨session, hLive, rfl, hSession⟩ := hDue id now .retire hMem
    have hLapsed : session.hasLapsed now = true :=
      Setting.lapsed_of_due (s := d.setting now) hSession
    exact hGrace _ session now (hKept session hLive) (Session.isOver_of_hasLapsed hLapsed) hClock
  case lost =>
    intro op id hClock hEnded hLost hOpen hTrusted hUnsent
    obtain ⟨session, hKept, hOver | hClosed | hRevoked | ⟨hDirection, level, plaintext, hSent⟩⟩ :=
      exists_over_of_lost hFiled hSettled hDated op hEnded hLost
    · exact hGrace id session _ hKept hOver hClock
    · exact absurd hClosed hOpen
    · exact absurd hRevoked (Bool.eq_false_iff.1 hTrusted)
    · exact absurd hSent (hUnsent hDirection level plaintext)
  case refused =>
    intro bytes sender epoch hClock hEnded hRefused
    obtain ⟨session, deadline, hKept, -⟩ := exists_ended hEnded
    exact hGrace _ session d.now hKept
      (Session.isOver_iff.2 (canDecrypt_of_receive hFiled hRefused hKept)) hClock
  case recorded =>
    intro op e hEntry hKind
    obtain ⟨peer, hDevices, hAbandons⟩ :=
      (timeouts_gained (P := P) hFiled hSettled hDated op).1 e hEntry hKind
    obtain ⟨asked, hAsked, hPassed⟩ := hLate peer _ (isOverdue_of_abandons hAbandons)
    exact ⟨peer, asked, hDevices, hAsked, hPassed⟩
  case answered =>
    intro peer other level plaintext hFailed
    obtain ⟨rfl, hOverdue⟩ := overdue_of_send hFiled hSettled hFailed
    exact hLate other d.now hOverdue
  case forgotten =>
    intro now peer hWaiting hDone
    have hSwept : (d.maintain P now).2.Settled fun _ => True :=
      (hRun.step (.maintain now) rfl).settled hStart
    exact hLate peer now (isOverdue_of_forgotten hSettled hDated hSwept hWaiting hDone)
  case dropped =>
    intro e hEntry hDropped
    exact Audit.Log.passed_of_swept hEntry hDropped

/-- Bob hears from Ann, writes to her and asks for Eve. A second later he hears from Ann in a new
epoch, and ends the one that he writes in. -/
def gradualOps : List Operation :=
  let letters := plainLetters .standard [.send "bob" .basic [1], .send "bob" .military [2]]
  [meetPlain "ann" 1, meetPlain "eve" 5, .setClock 1000] ++ (letters.take 1).map .receive ++
    [.send "ann" .basic [3], .request "eve", .setClock 2000] ++ (letters.drop 1).map .receive ++
    [.rotate "ann"]

theorem nothing_comes_early_of_gradualOps :
    let bob := after .plain (plain .standard "bob" 3) gradualOps
    let since (seen : Device → Bool) := seenSince .plain seen none (plain .standard "bob" 3) gradualOps
    let heard : SessionId := ⟨"bob", "ann", 0, .inbound⟩
    let wrote : SessionId := ⟨"bob", "ann", 0, .outbound⟩
    Timely .plain since bob ∧
      [heard, wrote].map (fun id => (since (keeps id), since (hasEnded id))) =
        [(some 1000, some 2000), (some 1000, some 2000)] ∧
      since (waits "eve") = some 1000 ∧
      bob.deadlines.due 301999 = [] ∧
      bob.deadlines.due 302000 = [(wrote, .retire), (heard, .retire)] ∧
      (bob.maintain .plain 30999).1.timedOut = 0 ∧ (bob.maintain .plain 31000).1.timedOut = 1 := by
  intro bob since heard wrote
  exact ⟨(nothing_comes_early (plain_starts "bob" 3 rfl) (by decide +kernel)).2, by decide +kernel,
    by decide +kernel, by decide +kernel, by decide +kernel, by decide +kernel, by decide +kernel⟩

/-- A retention of `2 ^ 64` milliseconds. -/
def archival : Config := { Config.standard with retention := ⟨18446744073709551, 616000000⟩ }

/-- **Entries are kept for what is counted of the retention:** the only entry is a millisecond old,
the retention is longer than the clock can ever show, and the entry is dropped. -/
theorem endless_retention_keeps_nothing :
    let ops : List Operation := [.send "bob" .basic [1], .setClock 1]
    let ann := after .plain (plain archival "ann" 1) ops
    archival.validate = .ok () ∧ archival.retention.wholeMillis = UInt64.size ∧
      allReturn .plain (plain archival "ann" 1) ops = true ∧
      clockGoesOn .plain (plain archival "ann" 1) ops = true ∧ ann.now < lastNumber ∧
      ann.audit.entries.map (fun e => (e.kind, e.timestamp)) = [(.unknownPeer, 0)] ∧
      ¬archival.retention.wholeMillis < ann.now.toNat - 0 ∧
      ann.sweepAudit.2.audit.entries = [] := by
  decide +kernel

end Device

end EndToEnd
