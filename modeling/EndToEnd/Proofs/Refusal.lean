import EndToEnd.Proofs.Bookkeeping
import EndToEnd.Proofs.Plain
import EndToEnd.Proofs.ShedPairs

/-!
# Refused envelopes

Whoever gives a device bytes that it refuses has changed nothing by it. The device that refused is
compared with the same device to which the bytes were never given: whatever is asked of both from
then on, they send and receive the same, and they keep the same. Their logs differ, and the refusal
may have dropped a session whose grace was over (`Device.SameButOver`).

The two runs are kept together by `Device.Sheds`. A session that was shed opens nothing in either of
them, as long as the clock is not set back.

Main results:

* `Device.sheds_of_refused` — a refusal.
* `Device.sheds_step`, `Device.reply_step` — what both are asked next, and what they answer.
* `Device.refusal_leaves_no_trace` — the two runs.
-/

namespace EndToEnd

namespace Audit.Log

variable {P : Primitives}

/-- Whether an event is put on record depends on the sink alone, and the sink keeps its mood. -/
theorem record_result (log : Log) (event : Event) (now : UInt64) :
    ((log.record P event now).1.map fun _ => ()) =
        (if event.kind.isCritical && log.sink.isFull then .error (.storage "disk full")
          else .ok ()) ∧
      (log.record P event now).2.sink.isFull = log.sink.isFull := by
  unfold record deliver
  dsimp only
  rw [sink_append]
  by_cases hCritical : event.kind.isCritical = true
  · by_cases hFull : log.sink.isFull = true
    · simp [hCritical, hFull, Except.map]
    · simp [hCritical, hFull, Except.map]
  · simp [hCritical, Except.map]

/-- Events do not change whether the sink takes entries. -/
theorem isFull_appendAll (log : Log) (events : List Event) (now : UInt64) :
    (log.appendAll P events now).sink.isFull = log.sink.isFull := by
  unfold appendAll
  induction events generalizing log with
  | nil => rfl
  | cons event rest ih => exact ih (log.append P event now)

/-- Nor does a delivery. -/
theorem isFull_flush (log : Log) : log.flush.2.sink.isFull = log.sink.isFull := by
  unfold flush deliver
  split
  · rfl
  · by_cases hFull : log.sink.isFull = true
    · rw [if_pos hFull]
    · rw [if_neg hFull]

/-- Nor does a sweep of the log. -/
theorem isFull_sweep (log : Log) (age : Duration) (now : UInt64) :
    (log.sweep age now).2.sink.isFull = log.sink.isFull := by
  have hFlush := log.isFull_flush
  unfold sweep
  split <;> simpa only [‹log.flush = _›] using hFlush

end Audit.Log

namespace Device

variable {P : Primitives} {lost : SessionId → Prop} {d d' : Device} {may may' : String → Prop}
  {α β : Type}

-- ---------------------------------------------------------------------------
-- Two devices
-- ---------------------------------------------------------------------------

/-- Two devices that differ in their logs, and by receiving sessions that the second has shed. -/
structure Sheds (lost : SessionId → Prop) (d d' : Device) : Prop where
  config : d'.config = d.config
  identity : d'.identity = d.identity
  contacts : d'.contacts = d.contacts
  roots : d'.roots = d.roots
  now : d'.now = d.now
  sink : d'.audit.sink.isFull = d.audit.sink.isFull
  sessions : Pairs.Sheds d.id lost d.now d.work d'.work

/-- Puts an event on record and gives an answer, unless the log refuses. -/
def recording (P : Primitives) (event : Audit.Event) (result : Except Failure α) (d : Device) :
    Except Failure α × Device :=
  match d.record P event with
  | (.error refused, d) => (.error refused, d)
  | (.ok (), d) => (result, d)

/-- What is answered behind an event depends on the sink alone, where the event is critical. -/
theorem recording_eq (event : Audit.Event) (result : Except Failure α) (d : Device) :
    d.recording P event result =
      (if event.kind.isCritical && d.audit.sink.isFull then .error (.storage "disk full")
        else result, (d.record P event).2) := by
  have hRecorded : (d.record P event).1 =
      if event.kind.isCritical && d.audit.sink.isFull then .error (.storage "disk full")
      else .ok () := (d.audit.record_result event d.now).1
  unfold recording
  generalize d.record P event = recorded at *
  obtain ⟨answer, d₁⟩ := recorded
  dsimp only at hRecorded ⊢
  rw [hRecorded]
  cases event.kind.isCritical && d.audit.sink.isFull <;> rfl

/-- A rejection that is not critical is answered with its reason, whatever the sink says. -/
theorem fst_reject {failure : Failure} (hCalm : (rejectionKind failure).isCritical = false)
    (sender : Option String) (d : Device) : (d.reject P sender failure).1 = .error failure := by
  have hAnswer : (d.reject P sender failure).1 = _ := congrArg Prod.fst (recording_eq (P := P)
    ⟨rejectionKind failure, d.id :: sender.toList, .failure, failure.message⟩ (.error failure) d)
  rw [hAnswer, hCalm]
  rfl

/-- **An envelope whose sender was made out** is answered with what it opens to, or with the reason
why it does not open, unless that is critical. -/
theorem fst_receive_of_decrypt {bytes : Bytes} {e : Envelope} {peer : Peer}
    {opened : Except Failure Bytes} (hDecoded : Envelope.decode d.config.limits bytes = .ok e)
    (hPeer : d.authenticate P e = .ok peer)
    (hOpened : (d.onPairs P fun s => Pairs.decrypt P s peer e).1 = opened)
    (hCalm : ∀ failure, opened = .error failure → (rejectionKind failure).isCritical = false) :
    (d.receive P bytes).1 = opened.map fun text =>
      ⟨peer.deviceId, e.level, e.epoch, e.sequence, peer.trust, text⟩ := by
  unfold receive receiveEnvelope
  rw [hDecoded]
  dsimp only
  rw [hPeer]
  dsimp only
  generalize d.onPairs P _ = x at hOpened ⊢
  obtain ⟨result, d₁⟩ := x
  obtain rfl : result = opened := hOpened
  cases result with
  | error failure => exact fst_reject (hCalm failure rfl) (some e.sender) d₁
  | ok text => rfl

namespace Sheds

theorem id (h : Sheds lost d d') : d'.id = d.id := congrArg Identity.deviceId h.identity

/-- Both devices work in one setting. -/
theorem setting (h : Sheds lost d d') (now : UInt64) : d'.setting now = d.setting now := by
  unfold Device.setting
  rw [h.identity, h.config]

/-- What is settled of the second device is so under the id of the first. -/
theorem settled (h : Sheds lost d d') (hSettled : d'.Settled may) :
    Pairs.Settled d.id may d'.work := h.id ▸ hSettled

/-- Events may wait in both logs. -/
theorem note (h : Sheds lost d d') (event event' : Audit.Event) :
    Sheds lost (d.note P event) (d'.note P event') :=
  ⟨h.config, h.identity, h.contacts, h.roots, h.now, h.sink, h.sessions⟩

/-- Events of one kind are taken or refused by both logs. -/
theorem record (h : Sheds lost d d') {event event' : Audit.Event}
    (hKind : event'.kind = event.kind) : Concur (Sheds lost) (d.record P event) (d'.record P event') := by
  obtain ⟨hResult, hSink⟩ := d.audit.record_result (P := P) event d.now
  obtain ⟨hResult', hSink'⟩ := d'.audit.record_result (P := P) event' d'.now
  refine ⟨hResult'.trans (Eq.trans ?_ hResult.symm), h.config, h.identity, h.contacts, h.roots,
    h.now, hSink'.trans (h.sink.trans hSink.symm), h.sessions⟩
  rw [hKind, h.sink]

/-- An event is put on record, and then the answer is given. -/
theorem recording (h : Sheds lost d d') {event event' : Audit.Event}
    (hKind : event'.kind = event.kind) (result : Except Failure α) :
    Concur (Sheds lost) (d.recording P event result) (d'.recording P event' result) := by
  have hRecord : Concur (Sheds lost) (d.record P event) (d'.record P event') := h.record hKind
  obtain ⟨recorded, d₁, d₁', hd, hd', hSheds⟩ := hRecord.exists_eq
  unfold Device.recording
  rw [hd, hd']
  cases recorded with
  | error refused => exact ⟨rfl, hSheds⟩
  | ok _ => exact ⟨rfl, hSheds⟩

/-- The second log alone takes an event. -/
theorem record_right (h : Sheds lost d d') (event : Audit.Event) :
    Sheds lost d (d'.record P event).2 :=
  ⟨h.config, h.identity, h.contacts, h.roots, h.now,
    (d'.audit.record_result event d'.now).2.trans h.sink, h.sessions⟩

/-- Work on the sessions of both. -/
theorem onPairsAt (h : Sheds lost d d') (now : UInt64)
    {op : Setting → Work Pairs → α × Work Pairs}
    (hOp : Pairs.Sheds d.id lost d.now (op (d.setting now) d.work).2
      (op (d.setting now) d'.work).2) :
    Sheds lost (d.onPairsAt P now op).2 (d'.onPairsAt P now op).2 := by
  have hSetting := h.setting now
  refine ⟨h.config, h.identity, h.contacts, h.roots, h.now, ?_, ?_⟩
  · refine (Audit.Log.isFull_appendAll ..).trans (h.sink.trans ?_)
    exact (Audit.Log.isFull_appendAll ..).symm
  · have hSessions : Pairs.Sheds d.id lost d.now (op (d.setting now) d.work).2
        (op (d'.setting now) d'.work).2 := by
      rw [hSetting]
      exact hOp
    exact ⟨hSessions.outbound, hSessions.receiving, hSessions.deadlines, hSessions.random,
      hSessions.inbound⟩

/-- Work that concurs on the pairs concurs on the devices: the logs may differ anyway. -/
theorem concur_onPairsAt (h : Sheds lost d d') (now : UInt64)
    {op : Setting → Work Pairs → α × Work Pairs}
    (hOp : Concur (Pairs.Sheds d.id lost d.now) (op (d.setting now) d.work)
      (op (d.setting now) d'.work)) :
    Concur (Sheds lost) (d.onPairsAt P now op) (d'.onPairsAt P now op) := by
  refine ⟨?_, h.onPairsAt now hOp.states⟩
  show (op (d'.setting now) d'.work).1 = (op (d.setting now) d.work).1
  rw [h.setting]
  exact hOp.answer

/-- Likewise where the results may differ. -/
theorem onPairs (h : Sheds lost d d') {op : Setting → Work Pairs → α × Work Pairs}
    (hOp : Pairs.Sheds d.id lost d.now (op (d.setting d.now) d.work).2
      (op (d.setting d.now) d'.work).2) :
    Sheds lost (d.onPairs P op).2 (d'.onPairs P op).2 := by
  unfold Device.onPairs
  rw [h.now]
  exact h.onPairsAt d.now hOp

/-- Likewise at the time that the clock shows. -/
theorem concur_onPairs (h : Sheds lost d d') {op : Setting → Work Pairs → α × Work Pairs}
    (hOp : Concur (Pairs.Sheds d.id lost d.now) (op (d.setting d.now) d.work)
      (op (d.setting d.now) d'.work)) :
    Concur (Sheds lost) (d.onPairs P op) (d'.onPairs P op) := by
  unfold Device.onPairs
  rw [h.now]
  exact h.concur_onPairsAt d.now hOp

/-- The clock of both goes on. -/
theorem setClock (h : Sheds lost d d') {now : UInt64} (hLater : d.now ≤ now) :
    Sheds lost { d with now := now } { d' with now := now } :=
  ⟨h.config, h.identity, h.contacts, h.roots, rfl, h.sink, h.sessions.outbound,
    fun peer => (h.sessions.receiving peer).later hLater, h.sessions.deadlines, h.sessions.random,
    h.sessions.inbound⟩

end Sheds

-- ---------------------------------------------------------------------------
-- Messages
-- ---------------------------------------------------------------------------

/-- **Both send the same.** -/
theorem concur_send (h : Sheds lost d d') (hSettled : d.Settled may) (peer : String) (level : Level)
    (plaintext : Bytes) :
    Concur (Sheds lost) (d.send P peer level plaintext) (d'.send P peer level plaintext) := by
  unfold send refuseUnknown sendTo
  rw [h.contacts, h.config]
  split
  · -- not on file
    have hChecked : Concur (Sheds lost) (d.onPairs P fun s => Pairs.checkEstablishment s peer)
        (d'.onPairs P fun s => Pairs.checkEstablishment s peer) :=
      h.concur_onPairs (Pairs.concur_checkEstablishment _ h.sessions peer)
    obtain ⟨checked, d₁, d₁', hd, hd', hSheds⟩ := hChecked.exists_eq
    rw [hd, hd']
    cases checked with
    | error failure => exact ⟨rfl, hSheds⟩
    | ok _ => exact ⟨rfl, hSheds.note _ _⟩
  · rename_i record hRecord
    split
    · exact ⟨rfl, h.note _ _⟩
    split
    · exact ⟨rfl, h.note _ _⟩
    -- the two make the same envelope, since what was shed was on the receiving side
    have hMade : Concur (Sheds lost) (d.onPairs P fun s => Pairs.encrypt P s record level plaintext)
        (d'.onPairs P fun s => Pairs.encrypt P s record level plaintext) :=
      h.concur_onPairs (Pairs.concur_encrypt h.sessions hSettled record level plaintext)
    obtain ⟨made, d₁, d₁', hd, hd', hSheds⟩ := hMade.exists_eq
    rw [hd, hd']
    cases made with
    | error failure => exact ⟨rfl, hSheds⟩
    | ok e => exact ⟨congrArg (fun c : Config => e.encode c.limits) hSheds.config, hSheds⟩

/-- Both reject an envelope in the same words. -/
theorem Sheds.reject (h : Sheds lost d d') (sender : Option String) (failure : Failure) :
    Concur (Sheds lost) (d.reject P sender failure) (d'.reject P sender failure) := by
  let event (d : Device) : Audit.Event :=
    ⟨rejectionKind failure, d.id :: sender.toList, .failure, failure.message⟩
  have hKind : (event d').kind = (event d).kind := rfl
  exact h.recording hKind (.error failure)

/-- Both know the sender by the same record. -/
theorem Sheds.authenticate (h : Sheds lost d d') (e : Envelope) :
    d'.authenticate P e = d.authenticate P e := by
  unfold Device.authenticate
  rw [h.id, h.contacts]

/-- **Both receive the same.** -/
theorem concur_receive (h : Sheds lost d d') (hSettled : d.Settled may)
    (hSettled' : d'.Settled may') (bytes : Bytes) : Concur (Sheds lost) (d.receive P bytes) (d'.receive P bytes) := by
  unfold receive
  rw [h.config]
  split
  · exact h.reject none _
  rename_i e _
  unfold receiveEnvelope
  rw [h.authenticate]
  split
  · exact h.reject (some e.sender) _
  rename_i sender _
  have hOpened : Concur (Sheds lost) (d.onPairs P fun s => Pairs.decrypt P s sender e)
      (d'.onPairs P fun s => Pairs.decrypt P s sender e) :=
    h.concur_onPairs (Pairs.concur_decrypt (s := d.setting d.now) h.sessions hSettled
      (h.settled hSettled') sender e)
  obtain ⟨opened, d₁, d₁', hd, hd', hSheds⟩ := hOpened.exists_eq
  rw [hd, hd']
  cases opened with
  | error failure => exact hSheds.reject (some e.sender) failure
  | ok plaintext => exact ⟨rfl, hSheds⟩

-- ---------------------------------------------------------------------------
-- Peers
-- ---------------------------------------------------------------------------

/-- Meeting a peer looks at no session. -/
theorem concur_remember (h : Sheds lost d d') (id : String) (keys : PublicKeys) :
    Concur (Sheds lost) (d.remember P id keys) (d'.remember P id keys) := by
  unfold remember
  rw [h.contacts, h.id, h.now]
  split
  · exact ⟨rfl, h.config, h.identity, rfl, h.roots, rfl, h.sink, h.sessions⟩
  · rename_i other _
    exact h.recording rfl (.error (.keyMismatch other))
  · exact ⟨rfl, h⟩

/-- Importing a bundle looks at no session. -/
theorem concur_importBundle (h : Sheds lost d d') (text : Bytes) :
    Concur (Sheds lost) (d.importBundle P text) (d'.importBundle P text) := by
  unfold importBundle
  split
  · exact ⟨rfl, h⟩
  split
  · exact ⟨rfl, h⟩
  exact concur_remember h _ _

/-- Both assess evidence in the same way. -/
theorem concur_verify (h : Sheds lost d d') (id : String) (evidence : Evidence) :
    Concur (Sheds lost) (d.verify P id evidence) (d'.verify P id evidence) := by
  unfold verify
  rw [h.contacts]
  split
  · exact ⟨rfl, h⟩
  rename_i peer _
  have hAssessed : evidence.assess P d.contacts d'.roots peer =
      evidence.assess P d.contacts d.roots peer := by rw [h.roots]
  rw [hAssessed]
  split
  · exact h.recording rfl (.ok peer.trust)
  · rename_i proposed _
    have hUpdated : Sheds lost
        { d with contacts := d.contacts.update id d.now (evidence.apply proposed) }
        { d' with contacts := d.contacts.update id d'.now (evidence.apply proposed) } :=
      ⟨h.config, h.identity, by rw [h.now], h.roots, h.now, h.sink, h.sessions⟩
    dsimp only
    split
    · exact ⟨rfl, hUpdated⟩
    · exact hUpdated.recording rfl (.ok (peer.trust.merge proposed))

/-- Evidence about a peer moves the same trust, and takes the sessions with the peer if it does. -/
theorem sheds_applyEvidence (h : Sheds lost d d') (hSettled : d.Settled may)
    (hSettled' : d'.Settled may') (id : String) (evidence : Evidence) :
    Sheds lost (d.applyEvidence P id evidence).2 (d'.applyEvidence P id evidence).2 := by
  have hVerified := (concur_verify (P := P) h id evidence).states
  -- the sessions are those from before the assessment
  have hSettled₁ : (d.verify P id evidence).2.Settled may := by
    obtain ⟨hEvolves, -, hWork⟩ := verify_same (P := P) id evidence d
    exact settled_of_left hEvolves hSettled
      ⟨congrArg Work.part hWork, congrArg Work.deadlines hWork⟩
  have hSettled₁' : (d'.verify P id evidence).2.Settled may' := by
    obtain ⟨hEvolves, -, hWork⟩ := verify_same (P := P) id evidence d'
    exact settled_of_left hEvolves hSettled'
      ⟨congrArg Work.part hWork, congrArg Work.deadlines hWork⟩
  unfold applyEvidence
  generalize d.verify P id evidence = x at *
  generalize d'.verify P id evidence = x' at *
  obtain ⟨result, d₁⟩ := x
  obtain ⟨result', d₁'⟩ := x'
  dsimp only at *
  unfold isRevoked
  rw [hVerified.contacts]
  split
  · exact hVerified.onPairs
      (Pairs.sheds_revoke _ hVerified.sessions hSettled₁ (hVerified.settled hSettled₁') id)
  · exact hVerified

/-- Vouching for a peer drops sessions only where it is found revoked, and then on both devices. -/
theorem sheds_crossSignPeer (h : Sheds lost d d') (hSettled : d.Settled may)
    (hSettled' : d'.Settled may') (id : String) :
    Sheds lost (d.crossSignPeer P id).2 (d'.crossSignPeer P id).2 := by
  have hSame : d'.crossSign P id = d.crossSign P id := by
    unfold crossSign
    rw [h.contacts, h.identity]
  unfold crossSignPeer
  rw [hSame]
  split
  · exact h
  · exact sheds_applyEvidence h hSettled hSettled' id _

-- ---------------------------------------------------------------------------
-- Any operation
-- ---------------------------------------------------------------------------

/-- A forced rotation looks at no session that receives. -/
theorem concur_rotate (h : Sheds lost d d') (hSettled : d.Settled may) (peer : String) :
    Concur (Sheds lost) (d.rotate P peer) (d'.rotate P peer) := by
  have hRotated : Concur (Sheds lost) (d.onPairs P fun s => Pairs.rotate s peer)
      (d'.onPairs P fun s => Pairs.rotate s peer) :=
    h.concur_onPairs (Pairs.concur_rotate _ h.sessions hSettled peer)
  obtain ⟨epoch, d₁, d₁', hd, hd', hSheds⟩ := hRotated.exists_eq
  unfold rotate
  rw [hd, hd']
  cases epoch with
  | none => exact ⟨rfl, hSheds⟩
  | some epoch =>
    let event (d : Device) : Audit.Event := ⟨.forcedRotation, [d.id, peer], .success,
      s!"epoch {epoch.toNat} ({Rotation.Reason.forced.text})"⟩
    have hKind : (event d₁').kind = (event d₁).kind := rfl
    exact hSheds.recording hKind (.ok (some epoch))

/-- Closing leaves no session on either device. -/
theorem sheds_shutdown (h : Sheds lost d d') (hSettled : d.Settled may)
    (hSettled' : d'.Settled may') : Sheds lost (d.shutdown P).2 (d'.shutdown P).2 := by
  have hDropped : Sheds lost (d.onPairs P Pairs.shutdown).2 (d'.onPairs P Pairs.shutdown).2 :=
    h.onPairs (Pairs.sheds_shutdown _ h.sessions hSettled (h.settled hSettled'))
  have hFlushed (d : Device) : (d.shutdown P).2 = (d.onPairs P Pairs.shutdown).2.flushAudit.2 := by
    unfold shutdown
    dsimp only
    split <;> simp only [‹flushAudit _ = _›]
  rw [hFlushed, hFlushed]
  generalize (d.onPairs P Pairs.shutdown).2 = d₁ at hDropped ⊢
  generalize (d'.onPairs P Pairs.shutdown).2 = d₁' at hDropped ⊢
  exact ⟨hDropped.config, hDropped.identity, hDropped.contacts, hDropped.roots, hDropped.now,
    d₁'.audit.isFull_flush.trans (hDropped.sink.trans d₁.audit.isFull_flush.symm),
    hDropped.sessions⟩

/-- Saving draws random bytes, and leaves everything else as it is. -/
theorem snd_save (store : Store) (passphrase : String) (d : Device) :
    (d.save P store passphrase).2 = { d with
      random := (SealedIdentity.lock P d.identity passphrase d.config.iterations
        d.config.saltLength d.random).2 } := by
  unfold save
  dsimp only
  split <;> rfl

/-- Saving leaves the sessions alone. -/
theorem sheds_save (h : Sheds lost d d') (store : Store) (passphrase : String) :
    Sheds lost (d.save P store passphrase).2 (d'.save P store passphrase).2 := by
  have hRandom : d'.random = d.random := h.sessions.random
  rw [snd_save, snd_save, h.identity, h.config, hRandom]
  exact ⟨rfl, rfl, h.contacts, h.roots, h.now, h.sink, h.sessions.outbound, h.sessions.receiving,
    h.sessions.deadlines, rfl, h.sessions.inbound⟩

/-- **Whatever both are asked,** the second has shed the same as before. -/
theorem sheds_step (h : Sheds lost d d') (hSettled : d.Settled may) (hSettled' : d'.Settled may')
    (op : Operation) (hClock : d.now ≤ (d.step P op).2.now) :
    Sheds lost (d.step P op).2 (d'.step P op).2 := by
  -- what differs is a receiving side, so only the calls that reach the sessions need an argument
  cases op with
  | send peer level plaintext => exact (concur_send h hSettled peer level plaintext).states
  | receive bytes => exact (concur_receive h hSettled hSettled' bytes).states
  | remember id keys => exact (concur_remember h id keys).states
  | importBundle text => exact (concur_importBundle h text).states
  | verify id evidence => exact sheds_applyEvidence h hSettled hSettled' id evidence
  | revoke id reason => exact sheds_applyEvidence h hSettled hSettled' id (.revocation reason)
  | crossSignPeer id => exact sheds_crossSignPeer h hSettled hSettled' id
  | addRoot id keys =>
    exact ⟨h.config, h.identity, h.contacts, congrArg (·.insert id keys) h.roots, h.now, h.sink,
      h.sessions⟩
  | rotate peer => exact (concur_rotate h hSettled peer).states
  | request peer =>
    show Sheds lost (d.onPairs P fun s => Pairs.request s peer).2
      (d'.onPairs P fun s => Pairs.request s peer).2
    exact h.onPairs (Pairs.sheds_request _ h.sessions peer)
  | maintain now =>
    exact h.onPairsAt now (Pairs.sheds_sweep _ h.sessions hSettled (h.settled hSettled'))
  | shutdown => exact sheds_shutdown h hSettled hSettled'
  | flushAudit =>
    exact ⟨h.config, h.identity, h.contacts, h.roots, h.now,
      d'.audit.isFull_flush.trans (h.sink.trans d.audit.isFull_flush.symm), h.sessions⟩
  | sweepAudit =>
    exact ⟨h.config, h.identity, h.contacts, h.roots, h.now,
      (d'.audit.isFull_sweep ..).trans (h.sink.trans (d.audit.isFull_sweep ..).symm), h.sessions⟩
  | save store passphrase => exact sheds_save h store passphrase
  | setClock now => exact h.setClock hClock
  | setSink isFull => exact ⟨h.config, h.identity, h.contacts, h.roots, h.now, rfl, h.sessions⟩

/-- **What both say about messages** is the same. -/
theorem reply_step (h : Sheds lost d d') (hSettled : d.Settled may) (hSettled' : d'.Settled may')
    (op : Operation) (hMessage : op.handlesMessage = true) :
    (d'.step P op).1 = (d.step P op).1 := by
  cases op with
  | send peer level plaintext =>
    exact congrArg Reply.sent (concur_send h hSettled peer level plaintext).answer
  | receive bytes =>
    exact congrArg Reply.received (concur_receive h hSettled hSettled' bytes).answer
  | _ => cases hMessage

/-- An operation returns in both or in neither. -/
theorem overruns_step (h : Sheds lost d d') (hSettled : d.Settled may) (hSettled' : d'.Settled may')
    (op : Operation) : overruns P d' op = overruns P d op := by
  cases op with
  | send peer level plaintext =>
    have hSheds := (concur_send (P := P) h hSettled peer level plaintext).states
    have hAfter : (d'.send P peer level plaintext).2.pairs.sending peer =
        (d.send P peer level plaintext).2.pairs.sending peer := hSheds.sessions.sending peer
    have hBefore : d'.pairs.sending peer = d.pairs.sending peer := h.sessions.sending peer
    simp only [overruns, hBefore, hAfter]
  | receive bytes =>
    have hAnswer := (concur_receive (P := P) h hSettled hSettled' bytes).answer
    simp only [overruns, hAnswer]
  | _ => rfl

-- ---------------------------------------------------------------------------
-- A refusal
-- ---------------------------------------------------------------------------

/-- A device has shed nothing against itself. -/
theorem Sheds.refl (d : Device) : Sheds (fun _ => False) d d :=
  ⟨rfl, rfl, rfl, rfl, rfl, rfl, rfl, fun _ => .refl _ _ fun _ h => h, .refl _, rfl,
    fun _ h => h.elim⟩

/-- The second alone rejects an envelope. -/
theorem Sheds.reject_right (h : Sheds lost d d') (sender : Option String) (failure : Failure) :
    Sheds lost d (d'.reject P sender failure).2 := by
  have hRecord := h.record_right (P := P)
    ⟨rejectionKind failure, d'.id :: sender.toList, .failure, failure.message⟩
  unfold Device.reject
  split <;> simpa only [‹Device.record P _ d' = _›] using hRecord

/-- **A refusal sheds at most one session,** whose grace was over. -/
theorem sheds_of_refused (hSettled : d.Settled may) {bytes : Bytes} {failure : Failure}
    (h : (d.receive P bytes).1 = .error failure) : ∃ lost, Sheds lost d (d.receive P bytes).2 := by
  unfold receive at h ⊢
  split
  · exact ⟨_, (Sheds.refl d).reject_right none _⟩
  rename_i e hDecoded
  rw [hDecoded] at h
  dsimp only at h
  unfold receiveEnvelope at h ⊢
  split
  · exact ⟨_, (Sheds.refl d).reject_right (some e.sender) _⟩
  rename_i sender hAuthentic
  rw [hAuthentic] at h
  dsimp only at h
  split
  · rename_i refusal d₁ hWork
    -- the envelope was not opened
    obtain ⟨w, hw, -⟩ := onPairsAt_eq hWork
    have hRefused : (Pairs.decrypt P (d.setting d.now) sender e d.work).1 = .error refusal :=
      congrArg Prod.fst hw
    obtain ⟨lost, hShed⟩ := Pairs.sheds_refused (s := d.setting d.now) hSettled hRefused
    have hSheds : Sheds lost d (d.onPairs P fun s => Pairs.decrypt P s sender e).2 :=
      ⟨rfl, rfl, rfl, rfl, rfl, Audit.Log.isFull_appendAll .., hShed.outbound, hShed.receiving,
        hShed.deadlines, hShed.random, hShed.inbound⟩
    rw [hWork] at hSheds
    exact ⟨lost, hSheds.reject_right (some e.sender) refusal⟩
  · rename_i hWork
    rw [hWork] at h
    cases h

-- ---------------------------------------------------------------------------
-- Two runs
-- ---------------------------------------------------------------------------

variable {start : Device} {history history' : History}

/-- **Along any operations,** both say the same about messages, and the second has shed the same as
before. -/
theorem Sheds.run (h : Sheds lost d d') (hStart : Starts P start) (hRun : Run P start history d)
    (hRun' : Run P start history' d') {ops : List Operation} (hReturn : allReturn P d ops = true)
    (hClock : clockGoesOn P d ops = true) :
    allReturn P d' ops = true ∧
      (during P d' ops).filter (·.1.handlesMessage) =
        (during P d ops).filter (·.1.handlesMessage) ∧
      Sheds lost (after P d ops) (after P d' ops) := by
  induction ops generalizing d d' history history' with
  | nil => exact ⟨rfl, rfl, h⟩
  | cons op rest ih =>
    simp only [allReturn, Bool.and_eq_true, Bool.not_eq_true'] at hReturn
    simp only [clockGoesOn, Bool.and_eq_true, decide_eq_true_eq] at hClock
    have hSettled := hRun.settled hStart
    have hSettled' := hRun'.settled hStart
    have hReturns' : overruns P d' op = false :=
      (overruns_step h hSettled hSettled' op).trans hReturn.1
    obtain ⟨hReturn', hMessages, hSheds⟩ := ih (sheds_step h hSettled hSettled' op hClock.1)
      (hRun.step op hReturn.1) (hRun'.step op hReturns') hReturn.2 hClock.2
    refine ⟨?_, ?_, hSheds⟩
    · simp [allReturn, hReturns', hReturn']
    · unfold during
      by_cases hMessage : op.handlesMessage = true
      · simp only [List.filter_cons, hMessage, if_true, hMessages,
          reply_step h hSettled hSettled' op hMessage]
      · simp only [List.filter_cons, hMessage, Bool.false_eq_true, if_false, hMessages]

/-- An epoch that the first device still keeps although its grace is over, and the second does not
keep. -/
def DroppedOver (d d' : Device) (peer : String) (epoch : UInt64) : Prop :=
  (d'.pairs.receiving peer).epochs.get? epoch = none ∧
    ∃ session deadline, (d.pairs.receiving peer).epochs.get? epoch = some session ∧
      session.phase = .expiring deadline ∧ deadline ≤ d.now

/-- Two devices that differ in their logs, and by receiving sessions whose grace is over. A
receiving side on which nothing was ever accepted counts as one that was never formed. -/
structure SameButOver (d d' : Device) : Prop where
  config : d'.config = d.config
  identity : d'.identity = d.identity
  contacts : d'.contacts = d.contacts
  roots : d'.roots = d.roots
  now : d'.now = d.now
  random : d'.random = d.random
  sink : d'.audit.sink.isFull = d.audit.sink.isFull
  outbound : d'.pairs.outbound = d.pairs.outbound
  latest : ∀ peer, (d'.pairs.receiving peer).latest = (d.pairs.receiving peer).latest
  barred : ∀ peer, (d'.pairs.receiving peer).isRevoked = (d.pairs.receiving peer).isRevoked
  sessions : ∀ peer epoch,
    (d'.pairs.receiving peer).epochs.get? epoch = (d.pairs.receiving peer).epochs.get? epoch ∨
      DroppedOver d d' peer epoch
  deadlines : ∀ id, d'.deadlines.get? id = d.deadlines.get? id ∨
    id.direction = .inbound ∧ d'.deadlines.get? id = none ∧ DroppedOver d d' id.peer id.epoch

/-- What was shed was past its grace. -/
theorem Sheds.sameButOver (h : Sheds lost d d') (hSettled : d.Settled may)
    (hSettled' : d'.Settled may') : SameButOver d d' := by
  -- what was shed is gone, and was over if it was still there
  have hEpoch (peer : String) (epoch : UInt64) (hLost : lost ⟨d.id, peer, epoch, .inbound⟩) :
      (d.pairs.receiving peer).epochs.get? epoch = none ∨ DroppedOver d d' peer epoch := by
    have hSide := h.sessions.receiving peer
    cases hKept : (d.pairs.receiving peer).epochs.get? epoch with
    | none => exact .inl rfl
    | some session =>
      obtain ⟨deadline, hEnded, hOver⟩ := hSide.outlived epoch session hLost hKept
      exact .inr ⟨hSide.gone epoch hLost, session, deadline, hKept, hEnded, hOver⟩
  refine ⟨h.config, h.identity, h.contacts, h.roots, h.now, h.sessions.random, h.sink,
    h.sessions.outbound, fun peer => (h.sessions.receiving peer).latest,
    fun peer => (h.sessions.receiving peer).isRevoked, fun peer epoch => ?_, fun id => ?_⟩
  · have hSide := h.sessions.receiving peer
    by_cases hLost : lost ⟨d.id, peer, epoch, .inbound⟩
    · rcases hEpoch peer epoch hLost with hNone | hDropped
      · rw [hNone]
        exact .inl (hSide.gone epoch hLost)
      · exact .inr hDropped
    · exact .inl (hSide.kept epoch hLost)
  · by_cases hLost : lost id
    · have hGone : d'.deadlines.get? id = none :=
        h.sessions.get?_lost (h.settled hSettled') hLost
      have hDirection := h.sessions.inbound id hLost
      cases hEntry : d.deadlines.get? id with
      | none => exact .inl hGone
      | some entry =>
        have hId : id = ⟨d.id, id.peer, id.epoch, .inbound⟩ := hSettled.id_eq hEntry hDirection
        refine .inr ⟨hDirection, hGone, (hEpoch id.peer id.epoch (hId ▸ hLost)).resolve_left ?_⟩
        intro hNone
        have hKept : ((d.pairs.receiving id.peer).epochs.get? id.epoch).isSome = true :=
          hSettled.isSome_epoch hEntry hDirection
        rw [hNone] at hKept
        cases hKept
    · exact .inl (h.sessions.deadlines id hLost)

/-- **A refusal leaves no trace.** A device refuses some bytes, and is then asked anything, the
clock never being set back. Had it never been given the bytes, every message would have been sent
and received with the same answer, and it would now be the same, except for its log and for sessions
whose grace is over.

In the run, and in what is asked behind it, no counter passes `2 ^ 64 - 1`. -/
theorem refusal_leaves_no_trace (hStart : Starts P start) (hRun : Run P start history d)
    {bytes : Bytes} {failure : Failure} (hRefused : (d.receive P bytes).1 = .error failure)
    {ops : List Operation} (hReturn : allReturn P d ops = true)
    (hClock : clockGoesOn P d ops = true) :
    let refused := (d.receive P bytes).2
    allReturn P refused ops = true ∧
      (during P refused ops).filter (·.1.handlesMessage) =
        (during P d ops).filter (·.1.handlesMessage) ∧
      SameButOver (after P d ops) (after P refused ops) := by
  intro refused
  obtain ⟨lost, hSheds⟩ := sheds_of_refused (hRun.settled hStart) hRefused
  have hReturns : overruns P d (.receive bytes) = false := by
    simp only [overruns, hRefused]
  have hRun' := hRun.step (.receive bytes) hReturns
  obtain ⟨hReturn', hMessages, hAfter⟩ := hSheds.run hStart hRun hRun' hReturn hClock
  have hSettled := (hRun.trans (run_after hReturn)).settled hStart
  have hSettled' := (hRun'.trans (run_after hReturn')).settled hStart
  exact ⟨hReturn', hMessages, hAfter.sameButOver hSettled hSettled'⟩

/-- What Ann writes to Bob: one letter, and two of a later epoch. -/
def replayedLetters : List Bytes :=
  plainLetters .standard
    [.send "bob" .basic [1], .send "bob" .military [2], .send "bob" .military [3]]

/-- Bob has the first two letters, and the grace of the first epoch is long over. -/
def staleOps : List Operation :=
  meetPlain "ann" 1 :: (replayedLetters.take 2).map .receive ++ [.setClock 10000000000]

/-- What Bob is asked after the first letter was given to him again. -/
def staleLater : List Operation :=
  (replayedLetters.drop 2).map .receive ++ [.send "ann" .basic [4], .maintain 0]

/-- Bob with the first letter once more, long after its time, and without it. -/
theorem refusal_leaves_no_trace_of_stale :
    let bob := after .plain (plain .standard "bob" 3) staleOps
    let first := replayedLetters.headD []
    let refused := (bob.receive .plain first).2
    (bob.receive .plain first).1.toOption = none ∧
      (bob.pairs.liveWith "ann").length = 2 ∧ (refused.pairs.liveWith "ann").length = 1 ∧
      ((during .plain bob staleLater).accepted "ann").length = 1 ∧
      allReturn .plain refused staleLater = true ∧
      (during .plain refused staleLater).filter (·.1.handlesMessage) =
        (during .plain bob staleLater).filter (·.1.handlesMessage) ∧
      SameButOver (after .plain bob staleLater) (after .plain refused staleLater) := by
  intro bob first refused
  have hRun : Run .plain (plain .standard "bob" 3) _ bob :=
    run_after (show allReturn .plain (plain .standard "bob" 3) staleOps = true by decide +kernel)
  have hNone : (bob.receive .plain first).1.toOption = none := by decide +kernel
  have hRefused : ∃ failure, (bob.receive .plain first).1 = .error failure := by
    generalize (bob.receive .plain first).1 = result at hNone
    cases result with
    | ok message => cases hNone
    | error failure => exact ⟨failure, rfl⟩
  obtain ⟨failure, hRefused⟩ := hRefused
  exact ⟨hNone, by decide +kernel, by decide +kernel, by decide +kernel,
    refusal_leaves_no_trace (plain_starts "bob" 3 rfl) hRun hRefused (by decide +kernel)
      (by decide +kernel)⟩

end Device

end EndToEnd
