import EndToEnd.Proofs.AuditHistory
import EndToEnd.Proofs.Refusal
import EndToEnd.Proofs.Revocation
import Mathlib.Data.List.Forall2

/-!
# The moods of the sink

Whatever a device does, it does before it hands entries to the sink, or without regard to what the
sink says. Two devices are asked the same, and their sinks refuse at different times: all that comes
to differ is what the sinks took and what still waits for them (`Device.SameButSink`). An answer
differs only if one of the sinks refused, or counts what was delivered. No operation hands entries
to its sink more than once, so a mood for each operation is all that a sink can have.

What is left out is the sweep of the log. It drops entries only once they are delivered, so it is
the one operation that the sink can hold up.

Main results:

* `Device.agree_step` — one operation under two moods.
* `Device.sink_changes_nothing` — two runs under any moods.
-/

namespace EndToEnd

-- ---------------------------------------------------------------------------
-- Two logs
-- ---------------------------------------------------------------------------

namespace Audit.Log

variable {P : Primitives} {log log' : Log}

/-- Two logs that differ at most in what their sinks took and in what waits for them. -/
structure SameButSink (log log' : Log) : Prop where
  entries : log'.entries = log.entries
  nextSequence : log'.nextSequence = log.nextSequence
  lastDigest : log'.lastDigest = log.lastDigest

/-- The same entry is put on both logs: entries carry the digest of the one before, which is the
same. -/
theorem SameButSink.append (h : SameButSink log log') (event : Event) (now : UInt64) :
    SameButSink (log.append P event now) (log'.append P event now) := by
  have hEntry : log'.entryOf P event now = log.entryOf P event now := by
    unfold entryOf
    rw [h.nextSequence, h.lastDigest]
  refine ⟨?_, congrArg (· + 1) h.nextSequence, congrArg Entry.digest hEntry⟩
  rw [entries_append, entries_append, hEntry, h.entries]

/-- The same entries are put on both logs. -/
theorem SameButSink.appendAll (h : SameButSink log log') (events : List Event) (now : UInt64) :
    SameButSink (log.appendAll P events now) (log'.appendAll P events now) := by
  unfold Log.appendAll
  induction events generalizing log log' with
  | nil => exact h
  | cons event rest ih => exact ih (h.append event now)

/-- Delivery changes nothing but what waits and what the sink took. -/
theorem sameButSink_record (log : Log) (event : Event) (now : UInt64) :
    SameButSink (log.append P event now) (log.record P event now).2 := by
  unfold record deliver
  dsimp only
  split
  · by_cases hFull : (log.append P event now).sink.isFull = true
    · rw [if_pos hFull]
      exact ⟨rfl, rfl, rfl⟩
    · rw [if_neg hFull]
      exact ⟨rfl, rfl, rfl⟩
  · exact ⟨rfl, rfl, rfl⟩

/-- What a sink takes is all that changes in the log. -/
theorem sameButSink_flush (log : Log) : SameButSink log log.flush.2 := by
  rw [flush_eq]
  split <;> exact ⟨rfl, rfl, rfl⟩

theorem SameButSink.trans {log'' : Log} (h : SameButSink log log') (h' : SameButSink log' log'') :
    SameButSink log log'' :=
  ⟨h'.entries.trans h.entries, h'.nextSequence.trans h.nextSequence,
    h'.lastDigest.trans h.lastDigest⟩

theorem SameButSink.symm (h : SameButSink log log') : SameButSink log' log :=
  ⟨h.entries.symm, h.nextSequence.symm, h.lastDigest.symm⟩

/-- A critical event is put on both logs, whichever sink takes it. -/
theorem SameButSink.record (h : SameButSink log log') (event : Event) (now : UInt64) :
    SameButSink (log.record P event now).2 (log'.record P event now).2 :=
  (log.sameButSink_record event now).symm.trans
    ((h.append event now).trans (log'.sameButSink_record event now))

/-- Whatever the sinks take, the logs have the same entries. -/
theorem SameButSink.flush (h : SameButSink log log') : SameButSink log.flush.2 log'.flush.2 :=
  log.sameButSink_flush.symm.trans (h.trans log'.sameButSink_flush)

end Audit.Log

/-- The failure that an answer reports, if it reports one. -/
def Reply.failure? : Reply → Option Failure
  | .sent (.error failure) | .received (.error failure) | .peer (.error failure)
  | .trust (.error failure) | .count (.error failure) | .epoch (.error failure)
  | .stored (.error failure) => some failure
  | _ => none

namespace Device

variable {P : Primitives} {refuses refuses' : Bool} {d d' : Device} {α β : Type}

-- ---------------------------------------------------------------------------
-- Two devices
-- ---------------------------------------------------------------------------

/-- Two devices that differ at most in what their sinks took and in what waits for them. -/
structure SameButSink (d d' : Device) : Prop where
  others : d.SameButLog d'
  audit : d.audit.SameButSink d'.audit

/-- Two such devices, and the moods of their sinks. -/
structure Apart (refuses refuses' : Bool) (d d' : Device) : Prop extends SameButSink d d' where
  mood : d.audit.sink.isFull = refuses
  mood' : d'.audit.sink.isFull = refuses'

/-- Two results that are the same, unless one of the sinks refused. -/
structure Excuses (refuses refuses' : Bool) (x x' : Except Failure α × Device) : Prop where
  answer : x'.1 = x.1 ∨ refuses = true ∧ x.1 = .error (.storage "disk full") ∨
    refuses' = true ∧ x'.1 = .error (.storage "disk full")
  states : Apart refuses refuses' x.2 x'.2

/-- The same answer needs no excuse. -/
theorem Excuses.of_concur {x x' : Except Failure α × Device}
    (h : Concur (Apart refuses refuses') x x') : Excuses refuses refuses' x x' :=
  ⟨.inl h.answer, h.states⟩

/-- What is made of a result in the same way excuses the same. -/
theorem Excuses.map {x x' : Except Failure α × Device} (h : Excuses refuses refuses' x x')
    (f : α → β) : Excuses refuses refuses' (x.1.map f, x.2) (x'.1.map f, x'.2) := by
  refine ⟨?_, h.states⟩
  rcases h.answer with hSame | ⟨hRefuses, hRefused⟩ | ⟨hRefuses, hRefused⟩
  · exact .inl (congrArg (Except.map f) hSame)
  · exact .inr (.inl ⟨hRefuses, congrArg (Except.map f) hRefused⟩)
  · exact .inr (.inr ⟨hRefuses, congrArg (Except.map f) hRefused⟩)

namespace Apart

/-- A note is put on both logs. -/
theorem note (h : Apart refuses refuses' d d') (event : Audit.Event) :
    Apart refuses refuses' (d.note P event) (d'.note P event) := by
  obtain ⟨⟨⟨log, rfl⟩, hAudit⟩, hMood, hMood'⟩ := h
  exact ⟨⟨⟨_, rfl⟩, hAudit.append event d.now⟩, hMood, hMood'⟩

/-- **Both put an event on record**; the answer that comes then is the same, unless one of the sinks
refuses. -/
theorem recording (h : Apart refuses refuses' d d') (event : Audit.Event)
    (result : Except Failure α) :
    Excuses refuses refuses' (d.recording P event result) (d'.recording P event result) := by
  rw [recording_eq, recording_eq, h.mood, h.mood']
  obtain ⟨⟨⟨log, rfl⟩, hAudit⟩, hMood, hMood'⟩ := h
  refine ⟨?_, ⟨⟨_, rfl⟩, hAudit.record event d.now⟩,
    (d.audit.record_result event d.now).2.trans hMood,
    (log.record_result event d.now).2.trans hMood'⟩
  cases event.kind.isCritical with
  | false => exact .inl rfl
  | true =>
    cases refuses with
    | true => exact .inr (.inl ⟨rfl, rfl⟩)
    | false =>
      cases refuses' with
      | true => exact .inr (.inr ⟨rfl, rfl⟩)
      | false => exact .inl rfl

/-- Work on the sessions does not know of the log. -/
theorem onPairsAt (h : Apart refuses refuses' d d') (now : UInt64)
    (op : Setting → Work Pairs → α × Work Pairs) :
    Concur (Apart refuses refuses') (d.onPairsAt P now op) (d'.onPairsAt P now op) := by
  obtain ⟨⟨⟨log, rfl⟩, hAudit⟩, hMood, hMood'⟩ := h
  exact ⟨rfl, ⟨⟨_, rfl⟩, hAudit.appendAll _ d.now⟩,
    (Audit.Log.isFull_appendAll ..).trans hMood, (Audit.Log.isFull_appendAll ..).trans hMood'⟩

/-- Work on the pairs never looks at the log. -/
theorem onPairs (h : Apart refuses refuses' d d') (op : Setting → Work Pairs → α × Work Pairs) :
    Concur (Apart refuses refuses') (d.onPairs P op) (d'.onPairs P op) := by
  have hNow : d'.now = d.now := by
    obtain ⟨log, rfl⟩ := h.others
    rfl
  unfold Device.onPairs
  rw [hNow]
  exact h.onPairsAt d.now op

end Apart

-- ---------------------------------------------------------------------------
-- Messages
-- ---------------------------------------------------------------------------

/-- **Sending** hands nothing to the sink. -/
theorem Apart.send (h : Apart refuses refuses' d d') (peer : String) (level : Level)
    (plaintext : Bytes) :
    Concur (Apart refuses refuses') (d.send P peer level plaintext)
      (d'.send P peer level plaintext) := by
  have hContacts : d'.contacts = d.contacts ∧ d'.config = d.config := by
    obtain ⟨log, rfl⟩ := h.others
    exact ⟨rfl, rfl⟩
  unfold Device.send refuseUnknown sendTo
  rw [hContacts.1, hContacts.2]
  split
  · -- not on file
    obtain ⟨checked, d₁, d₁', hd, hd', hApart⟩ :=
      (h.onPairs (P := P) fun s => Pairs.checkEstablishment s peer).exists_eq
    rw [hd, hd']
    cases checked with
    | error failure => exact ⟨rfl, hApart⟩
    | ok _ =>
      obtain ⟨log, rfl⟩ := hApart.others
      exact ⟨rfl, hApart.note _⟩
  · rename_i record _
    split
    · obtain ⟨log, rfl⟩ := h.others
      exact ⟨rfl, h.note _⟩
    split
    · obtain ⟨log, rfl⟩ := h.others
      exact ⟨rfl, h.note _⟩
    obtain ⟨made, d₁, d₁', hd, hd', hApart⟩ :=
      (h.onPairs (P := P) fun s => Pairs.encrypt P s record level plaintext).exists_eq
    rw [hd, hd']
    cases made with
    | error failure => exact ⟨rfl, hApart⟩
    | ok e =>
      obtain ⟨log, rfl⟩ := hApart.others
      exact ⟨rfl, hApart⟩

/-- A rejection answers the same, unless a sink refuses its entry. -/
theorem Apart.reject (h : Apart refuses refuses' d d') (sender : Option String)
    (failure : Failure) :
    Excuses refuses refuses' (d.reject P sender failure) (d'.reject P sender failure) := by
  have hSame : d'.id = d.id := by
    obtain ⟨log, rfl⟩ := h.others
    rfl
  have hRecording (d : Device) : d.reject P sender failure = d.recording P
      ⟨rejectionKind failure, d.id :: sender.toList, .failure, failure.message⟩
      (.error failure) := rfl
  rw [hRecording, hRecording, hSame]
  exact h.recording _ _

/-- **Receiving** opens the envelope before anything is handed to the sink, and an envelope that is
refused was refused before. -/
theorem Apart.receive (h : Apart refuses refuses' d d') (bytes : Bytes) :
    Excuses refuses refuses' (d.receive P bytes) (d'.receive P bytes) := by
  have hSame : d'.config = d.config ∧ ∀ e, d'.authenticate P e = d.authenticate P e := by
    obtain ⟨log, rfl⟩ := h.others
    exact ⟨rfl, fun _ => rfl⟩
  unfold Device.receive receiveEnvelope
  rw [hSame.1]
  split
  · exact h.reject none _
  rename_i e _
  rw [hSame.2]
  split
  · exact h.reject (some e.sender) _
  rename_i sender _
  obtain ⟨opened, d₁, d₁', hd, hd', hApart⟩ :=
    (h.onPairs (P := P) fun s => Pairs.decrypt P s sender e).exists_eq
  rw [hd, hd']
  cases opened with
  | error failure => exact hApart.reject (some e.sender) failure
  | ok plaintext => exact ⟨.inl rfl, hApart⟩

-- ---------------------------------------------------------------------------
-- Peers
-- ---------------------------------------------------------------------------

/-- Meeting a peer answers the same, unless a mismatch of keys is put on record and a sink refuses.
-/
theorem Apart.remember (h : Apart refuses refuses' d d') (id : String) (keys : PublicKeys) :
    Excuses refuses refuses' (d.remember P id keys) (d'.remember P id keys) := by
  have hSame : d'.contacts = d.contacts ∧ d'.id = d.id ∧ d'.now = d.now := by
    obtain ⟨log, rfl⟩ := h.others
    exact ⟨rfl, rfl, rfl⟩
  unfold Device.remember
  rw [hSame.1, hSame.2.1, hSame.2.2]
  split
  · obtain ⟨⟨⟨log, rfl⟩, hAudit⟩, hMood, hMood'⟩ := h
    exact ⟨.inl rfl, ⟨⟨log, rfl⟩, hAudit⟩, hMood, hMood'⟩
  · rename_i other _
    exact h.recording _ (.error (.keyMismatch other))
  · exact ⟨.inl rfl, h⟩

/-- Importing a bundle answers as meeting its peer does. -/
theorem Apart.importBundle (h : Apart refuses refuses' d d') (text : Bytes) :
    Excuses refuses refuses' (d.importBundle P text) (d'.importBundle P text) := by
  unfold Device.importBundle
  split
  · exact ⟨.inl rfl, h⟩
  split
  · exact ⟨.inl rfl, h⟩
  exact h.remember _ _

/-- **Evidence** moves the trust in a peer before anything is handed to the sink. -/
theorem Apart.verify (h : Apart refuses refuses' d d') (id : String) (evidence : Evidence) :
    Excuses refuses refuses' (d.verify P id evidence) (d'.verify P id evidence) := by
  have hSame : d'.contacts = d.contacts ∧ d'.roots = d.roots ∧ d'.now = d.now := by
    obtain ⟨log, rfl⟩ := h.others
    exact ⟨rfl, rfl, rfl⟩
  unfold Device.verify
  rw [hSame.1, hSame.2.1, hSame.2.2]
  split
  · exact ⟨.inl rfl, h⟩
  rename_i peer _
  split
  · exact h.recording _ (.ok peer.trust)
  rename_i proposed _
  -- the records change alike, and only the entry of the log comes to the sink
  have hMoved : Apart refuses refuses'
      { d with contacts := d.contacts.update id d.now (evidence.apply proposed) }
      { d' with
        contacts := d.contacts.update id d.now (evidence.apply proposed)
        roots := d.roots
        now := d.now } := by
    obtain ⟨⟨⟨log, rfl⟩, hAudit⟩, hMood, hMood'⟩ := h
    exact ⟨⟨⟨log, rfl⟩, hAudit⟩, hMood, hMood'⟩
  dsimp only
  split
  · exact ⟨.inl rfl, hMoved⟩
  · exact hMoved.recording _ (.ok (peer.trust.merge proposed))

/-- **A peer that becomes revoked** loses its sessions whatever became of the entry about it. -/
theorem Apart.applyEvidence (h : Apart refuses refuses' d d') (id : String) (evidence : Evidence) :
    Excuses refuses refuses' (d.applyEvidence P id evidence) (d'.applyEvidence P id evidence) := by
  have hVerified := h.verify (P := P) id evidence
  unfold Device.applyEvidence
  generalize d.verify P id evidence = x at *
  generalize d'.verify P id evidence = x' at *
  obtain ⟨result, d₁⟩ := x
  obtain ⟨result', d₁'⟩ := x'
  have hRevoked : d₁'.isRevoked id = d₁.isRevoked id := by
    obtain ⟨log, rfl⟩ := hVerified.states.others
    rfl
  dsimp only at *
  rw [hRevoked]
  split
  · obtain ⟨dropped, d₂, d₂', hd, hd', hApart⟩ :=
      (hVerified.states.onPairs (P := P) fun s => Pairs.revoke s id).exists_eq
    rw [hd, hd']
    have hBoth : Excuses refuses refuses' (result, d₂) (result', d₂') := ⟨hVerified.answer, hApart⟩
    exact hBoth.map (·, dropped)
  · exact hVerified.map (·, 0)

/-- Vouching for a peer answers as evidence does. -/
theorem Apart.crossSignPeer (h : Apart refuses refuses' d d') (id : String) :
    Excuses refuses refuses' (d.crossSignPeer P id) (d'.crossSignPeer P id) := by
  have hSame : d'.crossSign P id = d.crossSign P id := by
    obtain ⟨log, rfl⟩ := h.others
    rfl
  unfold Device.crossSignPeer
  rw [hSame]
  split
  · exact ⟨.inl rfl, h⟩
  · exact (h.applyEvidence id _).map (·.1)

-- ---------------------------------------------------------------------------
-- Sessions
-- ---------------------------------------------------------------------------

/-- **A forced rotation** has ended the session before anything is handed to the sink. -/
theorem Apart.rotate (h : Apart refuses refuses' d d') (peer : String) :
    Excuses refuses refuses' (d.rotate P peer) (d'.rotate P peer) := by
  obtain ⟨rotated, d₁, d₁', hd, hd', hApart⟩ :=
    (h.onPairs (P := P) fun s => Pairs.rotate s peer).exists_eq
  unfold Device.rotate
  rw [hd, hd']
  cases rotated with
  | none => exact ⟨.inl rfl, hApart⟩
  | some epoch =>
    have hId : d₁'.id = d₁.id := by
      obtain ⟨log, rfl⟩ := hApart.others
      rfl
    dsimp only
    rw [hId]
    exact hApart.recording _ (.ok (some epoch))

/-- Delivery fails only if the sink refuses. -/
theorem flushAudit_cases (d : Device) :
    (∃ n, d.flushAudit.1 = .ok n) ∨
      d.audit.sink.isFull = true ∧ d.flushAudit.1 = .error (.storage "disk full") := by
  have hFlush : d.flushAudit.1 = d.audit.flush.1 := rfl
  rw [hFlush, Audit.Log.flush_eq]
  split
  · rename_i hRefused
    unfold Audit.Log.isRefused at hRefused
    rw [Bool.and_eq_true] at hRefused
    exact .inr ⟨hRefused.1, rfl⟩
  · exact .inl ⟨_, rfl⟩

/-- Delivering what waits changes the logs only. -/
theorem Apart.flushAudit (h : Apart refuses refuses' d d') :
    Apart refuses refuses' d.flushAudit.2 d'.flushAudit.2 := by
  obtain ⟨⟨⟨log, rfl⟩, hAudit⟩, hMood, hMood'⟩ := h
  exact ⟨⟨⟨_, rfl⟩, hAudit.flush⟩, d.audit.isFull_flush.trans hMood, log.isFull_flush.trans hMood'⟩

/-- Closing is dropping all sessions, and then delivering what waits. -/
theorem shutdown_eq (d : Device) :
    d.shutdown P = ((d.onPairs P Pairs.shutdown).2.flushAudit.1.map fun _ =>
      (d.onPairs P Pairs.shutdown).1, (d.onPairs P Pairs.shutdown).2.flushAudit.2) := by
  unfold shutdown
  generalize d.onPairs P Pairs.shutdown = x
  obtain ⟨dropped, d₁⟩ := x
  dsimp only
  split <;> simp only [‹flushAudit _ = _›, Except.map]

/-- **A shutdown** has dropped the sessions before anything is handed to the sink. -/
theorem Apart.shutdown (h : Apart refuses refuses' d d') :
    Excuses refuses refuses' (d.shutdown P) (d'.shutdown P) := by
  obtain ⟨dropped, d₁, d₁', hd, hd', hApart⟩ := (h.onPairs (P := P) Pairs.shutdown).exists_eq
  rw [shutdown_eq, shutdown_eq, hd, hd']
  refine ⟨?_, hApart.flushAudit⟩
  dsimp only
  rcases d₁.flushAudit_cases with ⟨n, hTaken⟩ | ⟨hFull, hRefused⟩
  · rcases d₁'.flushAudit_cases with ⟨n', hTaken'⟩ | ⟨hFull', hRefused'⟩
    · rw [hTaken, hTaken']
      exact .inl rfl
    · rw [hRefused']
      exact .inr (.inr ⟨hApart.mood'.symm.trans hFull', rfl⟩)
  · rw [hRefused]
    exact .inr (.inl ⟨hApart.mood.symm.trans hFull, rfl⟩)

/-- Saving answers the same: what is saved has nothing of the log. -/
theorem Apart.save (h : Apart refuses refuses' d d') (store : Store) (passphrase : String) :
    Concur (Apart refuses refuses') (d.save P store passphrase) (d'.save P store passphrase) := by
  obtain ⟨⟨⟨log, rfl⟩, hAudit⟩, hMood, hMood'⟩ := h
  unfold Device.save
  dsimp only
  split <;> exact ⟨rfl, ⟨⟨log, rfl⟩, hAudit⟩, hMood, hMood'⟩

-- ---------------------------------------------------------------------------
-- One operation
-- ---------------------------------------------------------------------------

/-- A moment of a run: what was asked, whether the sink refused entries then, the answer, and the
device as it then is. -/
structure Moment where
  op : Operation
  refuses : Bool
  reply : Reply
  device : Device

/-- The device with a sink that refuses entries, or takes them. -/
def withMood (refuses : Bool) (d : Device) : Device :=
  { d with audit := d.audit.withMood refuses }

/-- What is asked of a device under some mood of its sink. -/
def momentOf (P : Primitives) (d : Device) (op : Operation) (refuses : Bool) : Moment :=
  let (reply, device) := step P (d.withMood refuses) op
  ⟨op, refuses, reply, device⟩

/-- The moments of a run, earliest first: the operations, each with the mood that the sink has. -/
def moments (P : Primitives) (d : Device) : List (Operation × Bool) → List Moment
  | [] => []
  | (op, refuses) :: rest =>
    d.momentOf P op refuses :: moments P (d.momentOf P op refuses).device rest

namespace Moment

/-- The sink refused, and the answer says so. -/
def IsRefused (m : Moment) : Prop :=
  m.refuses = true ∧ m.reply.failure? = some (.storage "disk full")

/-- Two moments at which the same was asked. The devices are the same but for their sinks, and so
are the answers, unless one of the sinks refused or they count what was delivered. -/
structure Agree (m m' : Moment) : Prop where
  op : m'.op = m.op
  device : m.device.SameButSink m'.device
  reply : m'.reply = m.reply ∨ m.IsRefused ∨ m'.IsRefused ∨
    m.op = .flushAudit ∧ ∃ n n', m.reply = .count (.ok n) ∧ m'.reply = .count (.ok n')

/-- What was asked is done: a revoked peer on file has no session left, a forced rotation has left
no session to send with, and a shutdown has left none at all. -/
def Applied (m : Moment) : Prop :=
  match m.op with
  | .revoke id _ | .verify id (.revocation _) =>
    (m.device.contacts.get? id).isSome = true →
      m.device.isRevoked id = true ∧ m.device.pairs.liveWith id = []
  | .rotate peer => m.device.pairs.currentEpoch peer = none
  | .shutdown => m.device.pairs.live = []
  | _ => True

end Moment

/-- What is excused agrees as a moment. -/
theorem Excuses.agree {x x' : Except Failure α × Device} (h : Excuses refuses refuses' x x')
    (op : Operation) {reply : Except Failure α → Reply}
    (hReply : ∀ failure, (reply (.error failure)).failure? = some failure) :
    Moment.Agree ⟨op, refuses, reply x.1, x.2⟩ ⟨op, refuses', reply x'.1, x'.2⟩ := by
  refine ⟨rfl, h.states.toSameButSink, ?_⟩
  rcases h.answer with hSame | ⟨hRefuses, hRefused⟩ | ⟨hRefuses, hRefused⟩
  · exact .inl (congrArg reply hSame)
  · have hFailure := congrArg (fun result => (reply result).failure?) hRefused
    exact .inr (.inl ⟨hRefuses, hFailure.trans (hReply _)⟩)
  · have hFailure := congrArg (fun result => (reply result).failure?) hRefused
    exact .inr (.inr (.inl ⟨hRefuses, hFailure.trans (hReply _)⟩))

/-- The moods of the sinks may be set to anything. -/
theorem SameButSink.apart (h : SameButSink d d') (refuses refuses' : Bool) :
    Apart refuses refuses' (d.withMood refuses) (d'.withMood refuses') := by
  obtain ⟨⟨log, rfl⟩, hAudit⟩ := h
  exact ⟨⟨⟨_, rfl⟩, hAudit.entries, hAudit.nextSequence, hAudit.lastDigest⟩, rfl, rfl⟩

/-- **One operation under two moods.** -/
theorem agree_step (h : SameButSink d d') {op : Operation} (hSweep : op ≠ .sweepAudit)
    (refuses refuses' : Bool) :
    Moment.Agree (d.momentOf P op refuses) (d'.momentOf P op refuses') := by
  -- the two devices may differ in what their sinks hold, before the sinks turn as they are told to
  have hApart := h.apart refuses refuses'
  unfold momentOf
  generalize d.withMood refuses = d at *
  generalize d'.withMood refuses' = d' at *
  cases op with
  | send peer level plaintext =>
    exact (Excuses.of_concur (hApart.send peer level plaintext)).agree _ fun _ => rfl
  | receive bytes => exact (hApart.receive bytes).agree _ fun _ => rfl
  | remember id keys => exact (hApart.remember id keys).agree _ fun _ => rfl
  | importBundle text => exact (hApart.importBundle text).agree _ fun _ => rfl
  | verify id evidence => exact ((hApart.applyEvidence id evidence).map (·.1)).agree _ fun _ => rfl
  | revoke id reason =>
    exact ((hApart.applyEvidence id (.revocation reason)).map (·.2)).agree _ fun _ => rfl
  | crossSignPeer id => exact (hApart.crossSignPeer id).agree _ fun _ => rfl
  -- what never comes to the sink agrees in everything
  | addRoot id keys =>
    obtain ⟨⟨⟨log, rfl⟩, hAudit⟩, -, -⟩ := hApart
    exact ⟨rfl, ⟨⟨log, rfl⟩, hAudit⟩, .inl rfl⟩
  | rotate peer => exact (hApart.rotate peer).agree _ fun _ => rfl
  | request peer =>
    have hAsked := hApart.onPairs (P := P) fun s => Pairs.request s peer
    exact ⟨rfl, hAsked.states.toSameButSink, .inl (congrArg Reply.state hAsked.answer)⟩
  | maintain now =>
    have hSwept := hApart.onPairsAt (P := P) now Pairs.sweep
    exact ⟨rfl, hSwept.states.toSameButSink, .inl (congrArg Reply.report hSwept.answer)⟩
  | shutdown => exact hApart.shutdown.agree _ fun _ => rfl
  -- a flush alone tells how much it wrote, or that it could not
  | flushAudit =>
    refine ⟨rfl, hApart.flushAudit.toSameButSink, ?_⟩
    rcases d.flushAudit_cases with ⟨n, hTaken⟩ | ⟨hFull, hRefused⟩
    · rcases d'.flushAudit_cases with ⟨n', hTaken'⟩ | ⟨hFull', hRefused'⟩
      · exact .inr (.inr (.inr ⟨rfl, n, n', congrArg Reply.count hTaken,
          congrArg Reply.count hTaken'⟩))
      · exact .inr (.inr (.inl ⟨hApart.mood'.symm.trans hFull',
          congrArg (Reply.failure? ∘ Reply.count) hRefused'⟩))
    · exact .inr (.inl ⟨hApart.mood.symm.trans hFull,
        congrArg (Reply.failure? ∘ Reply.count) hRefused⟩)
  | sweepAudit => exact absurd rfl hSweep
  | save store passphrase =>
    exact (Excuses.of_concur (hApart.save store passphrase)).agree _ fun _ => rfl
  -- what is set from outside is set alike
  | setClock now =>
    obtain ⟨⟨⟨log, rfl⟩, hAudit⟩, -, -⟩ := hApart
    exact ⟨rfl, ⟨⟨log, rfl⟩, hAudit⟩, .inl rfl⟩
  | setSink isFull =>
    obtain ⟨⟨⟨log, rfl⟩, hAudit⟩, -, -⟩ := hApart
    exact ⟨rfl, ⟨⟨_, rfl⟩, hAudit.entries, hAudit.nextSequence, hAudit.lastDigest⟩, .inl rfl⟩

-- ---------------------------------------------------------------------------
-- What is done under any mood
-- ---------------------------------------------------------------------------

/-- A peer on file that was revoked has no session left. -/
theorem revoked_applyEvidence {id reason : String}
    (hKnown : ((d.applyEvidence P id (.revocation reason)).2.contacts.get? id).isSome = true) :
    (d.applyEvidence P id (.revocation reason)).2.isRevoked id = true ∧
      (d.applyEvidence P id (.revocation reason)).2.pairs.liveWith id = [] := by
  cases hFile : d.contacts.get? id with
  | none =>
    have hSame : (d.applyEvidence P id (.revocation reason)).2 = d := by
      simp [applyEvidence, verify, Contacts.lookup, isRevoked, hFile]
    rw [hSame, hFile] at hKnown
    cases hKnown
  | some known =>
    obtain ⟨-, hRevoked, w, hDrops, hLeft, -⟩ :=
      applyEvidence_of_revoked (isRevoked_verify (P := P) hFile reason)
    refine ⟨hRevoked, ?_⟩
    rw [hLeft, Pairs.liveWith_eq, hDrops.sending, hDrops.receiving, if_pos rfl, if_pos rfl]
    rfl

/-- A forced rotation does to the sides what the work says, whether or not the log takes the entry. -/
theorem pairs_rotate (peer : String) (d : Device) :
    (d.rotate P peer).2.pairs = (Pairs.rotate (d.setting d.now) peer d.work).2.part := by
  have hWork : (d.onPairs P fun s => Pairs.rotate s peer).2.pairs =
      (Pairs.rotate (d.setting d.now) peer d.work).2.part := rfl
  unfold rotate
  generalize d.onPairs P _ = x at hWork ⊢
  obtain ⟨rotated, d₁⟩ := x
  cases rotated with
  | none => exact hWork
  | some epoch =>
    dsimp only
    split <;> exact (congrArg (·.2.pairs) ‹record P _ d₁ = _›).symm.trans hWork

/-- No session is left to send with after a forced rotation. -/
theorem currentEpoch_rotate (peer : String) (d : Device) :
    (d.rotate P peer).2.pairs.currentEpoch peer = none := by
  rw [pairs_rotate]
  unfold Pairs.rotate Pairs.onExistingOutbound
  split
  · have hCurrent : (Outbound.expireCurrent (d.setting d.now)
        (d.work.withPart (d.work.part.sending peer))).2.part.current = none := by
      unfold Outbound.expireCurrent
      split
      · assumption
      · rfl
    unfold Pairs.currentEpoch Pairs.outbound? Pairs.onOutbound
    dsimp only [Work.withPart]
    rw [Table.get?_insert, if_pos rfl]
    exact congrArg (Option.map (·.epoch)) hCurrent
  · rename_i hNone
    unfold Pairs.currentEpoch
    rw [Option.not_isSome_iff_eq_none.1 hNone]
    rfl

/-- No session is left after a shutdown. -/
theorem live_shutdown (d : Device) : (d.shutdown P).2.pairs.live = [] := by
  have hPairs : (d.shutdown P).2.pairs = (Pairs.shutdown (d.setting d.now) d.work).2.part := by
    rw [shutdown_eq]
    rfl
  have hClosed := Pairs.closed_shutdown (d.setting d.now) d.work
  rw [hPairs, List.eq_nil_iff_forall_not_mem]
  intro session hLive
  obtain ⟨peer, hSide⟩ := Pairs.mem_live_iff.1 hLive
  rw [hClosed.sending, hClosed.receiving] at hSide
  rcases hSide with hSending | hReceiving
  · cases hSending
  · cases hReceiving

/-- **What is asked is done,** whatever the sink is in the mood for. -/
theorem applied_momentOf (d : Device) (op : Operation) (refuses : Bool) :
    (d.momentOf P op refuses).Applied := by
  cases op with
  | revoke id reason => exact revoked_applyEvidence
  | verify id evidence =>
    cases evidence with
    | revocation reason => exact revoked_applyEvidence
    | _ => trivial
  | rotate peer => exact currentEpoch_rotate peer _
  | shutdown => exact live_shutdown _
  | _ => trivial

-- ---------------------------------------------------------------------------
-- Two runs
-- ---------------------------------------------------------------------------

/-- **The sink changes nothing.** Two devices that differ at most in what their sinks took and in
what waits for them are asked the same, but for a sweep of the log, while their sinks refuse at
different times. After every operation they differ in nothing else, and they gave the same answer,
unless one of the sinks refused or they counted what was delivered; what they were asked is done
even so.

Both devices go through their peers in one order, so that what a sweep reports of several peers is in
the same order in both logs. This stands for two runs in which the hash map of peers has one order. -/
theorem sink_changes_nothing (h : SameButSink d d') {schedule schedule' : List (Operation × Bool)}
    (hOps : schedule.map (·.1) = schedule'.map (·.1))
    (hSweep : ∀ turn ∈ schedule, turn.1 ≠ .sweepAudit) :
    (moments P d schedule).Forall₂ Moment.Agree (moments P d' schedule') ∧
      ∀ m ∈ moments P d schedule, m.Applied := by
  induction schedule generalizing d d' schedule' with
  | nil =>
    cases List.map_eq_nil_iff.1 hOps.symm
    exact ⟨.nil, fun _ hMem => absurd hMem List.not_mem_nil⟩
  | cons turn rest ih =>
    obtain ⟨op, refuses⟩ := turn
    cases schedule' with
    | nil => cases hOps
    | cons turn' rest' =>
      obtain ⟨op', refuses'⟩ := turn'
      obtain ⟨hOp, hRest⟩ := List.cons.inj hOps
      obtain rfl : op = op' := hOp
      have hAgree := agree_step (P := P) h (hSweep _ (.head _)) refuses refuses'
      obtain ⟨hLater, hApplied⟩ := ih hAgree.device hRest fun turn hTurn =>
        hSweep turn (.tail _ hTurn)
      refine ⟨.cons hAgree hLater, fun m hMem => ?_⟩
      rcases List.mem_cons.1 hMem with rfl | hMem
      · exact applied_momentOf d op refuses
      · exact hApplied m hMem

/-- Bob has heard from Ann and written to her; then he forces a rotation, revokes her, and shuts
down. -/
def closingOps : List Operation :=
  let letters := plainLetters .standard [.send "bob" .basic [1]]
  meetPlain "ann" 1 :: letters.map .receive ++
    [.send "ann" .basic [2], .rotate "ann", .revoke "ann" "lost", .shutdown]

/-- Bob with a sink that takes everything, and with one that refuses everything. -/
theorem sink_changes_nothing_of_closingOps :
    let bob := plain .standard "bob" 3
    let taken := moments .plain bob (closingOps.map (·, false))
    let refused := moments .plain bob (closingOps.map (·, true))
    taken.map (·.reply.failure?.isSome) = [false, false, false, false, false, false] ∧
      refused.map (·.reply.failure?.isSome) = [false, false, false, true, true, true] ∧
      taken.map (·.device.pairs.live.length) = [0, 1, 2, 2, 0, 0] ∧
      taken.Forall₂ Moment.Agree refused ∧ ∀ m ∈ refused, m.Applied := by
  intro bob taken refused
  have hSame : SameButSink bob bob := ⟨⟨_, rfl⟩, rfl, rfl, rfl⟩
  have hOps : (closingOps.map (·, false)).map (·.1) = (closingOps.map (·, true)).map (·.1) := by
    rw [List.map_map, List.map_map]
    rfl
  have hSweep (refuses : Bool) : ∀ turn ∈ closingOps.map (·, refuses), turn.1 ≠ .sweepAudit := by
    cases refuses <;> decide +kernel
  obtain ⟨hAgree, -⟩ := sink_changes_nothing (P := .plain) hSame hOps (hSweep false)
  obtain ⟨-, hApplied⟩ := sink_changes_nothing (P := .plain) hSame hOps.symm (hSweep true)
  exact ⟨by decide +kernel, by decide +kernel, by decide +kernel, hAgree, hApplied⟩

end Device

end EndToEnd
