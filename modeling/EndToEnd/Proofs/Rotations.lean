import EndToEnd.Proofs.Records
import EndToEnd.Proofs.SinkMoods

/-!
# Rotations on record

An epoch for sending ends with an entry about it, unless its sessions are dropped altogether. The
work on the sessions only says what is to be put on record, and the device does so behind it, so the
question is what each piece of work adds (`Work.Logs`). The other way round, an entry about a rotation
means that an epoch has ended: it names the pair, and the session that sent in it is in use no more,
be it gone or behind a message that needed another.

Main results:

* `Outbound.told_encrypt`, `Device.adds_send` — what a message puts on record of the session that was
  in use.
* `Device.notes_step` — an operation that handles no message puts a rotation on record only if the
  session in use has ended.
* `Device.rotations_gained` — the pair that a rotation on record names.
-/

namespace EndToEnd

-- ---------------------------------------------------------------------------
-- Logs that grow
-- ---------------------------------------------------------------------------

namespace Audit

/-- Whether an entry of the kind says that an epoch has ended, by itself or on demand. -/
def Kind.isRotation : Kind → Bool
  | keyRotated | forcedRotation => true
  | _ => false

/-- Whether an entry of the kind says that a session has begun or was dropped. -/
def Kind.isSession : Kind → Bool
  | sessionEstablished | sessionRetired => true
  | _ => false

/-- Whether an entry of the kind says that an establishment was given up. -/
def Kind.isTimeout : Kind → Bool
  | establishmentTimeout => true
  | _ => false

/-- What says that a session has begun or was dropped says nothing else. -/
theorem Kind.other_of_isSession {kind : Kind} (h : kind.isSession = true) :
    kind.isRotation = false ∧ kind.isTimeout = false := by
  cases kind with
  | sessionEstablished | sessionRetired => exact ⟨rfl, rfl⟩
  | _ => cases h

namespace Log

variable {P : Primitives} {log log' log'' : Log} {events more : List Event}

/-- A log that has grown by the entries of some events. -/
def Adds (log : Log) (events : List Event) (log' : Log) : Prop :=
  ∃ entries, log'.entries = log.entries ++ entries ∧ entries.map (·.toEvent) = events

/-- A log with the same entries has grown by nothing. -/
theorem Adds.of_eq (h : log'.entries = log.entries) : log.Adds [] log' :=
  ⟨[], by rw [h, List.append_nil], rfl⟩

/-- A log that grows twice grows by the events of both times. -/
theorem Adds.trans (h : log.Adds events log') (h' : log'.Adds more log'') :
    log.Adds (events ++ more) log'' := by
  obtain ⟨entries, hEntries, rfl⟩ := h
  obtain ⟨entries', hEntries', rfl⟩ := h'
  exact ⟨entries ++ entries', by rw [hEntries', hEntries, List.append_assoc], List.map_append⟩

/-- One event makes one entry. -/
theorem adds_append (log : Log) (event : Event) (now : UInt64) :
    log.Adds [event] (log.append P event now) := ⟨[_], rfl, rfl⟩

/-- Events make their entries in order. -/
theorem adds_appendAll (log : Log) (events : List Event) (now : UInt64) :
    log.Adds events (log.appendAll P events now) := by
  unfold appendAll
  induction events generalizing log with
  | nil => exact .of_eq rfl
  | cons event rest ih => exact (adds_append log event now).trans (ih _)

/-- A critical event makes its entry, whether or not the sink takes it. -/
theorem adds_record (log : Log) (event : Event) (now : UInt64) :
    log.Adds [event] (log.record P event now).2 :=
  ⟨[_], entries_record log event now, rfl⟩

/-- Delivering takes nothing off the record. -/
theorem adds_flush (log : Log) : log.Adds [] log.flush.2 := by
  refine .of_eq ?_
  unfold flush
  split
  · rfl
  · cases hDelivered : log.deliver with
    | error failure => rfl
    | ok delivered =>
      obtain ⟨-, rfl⟩ := deliver_eq_ok_iff.1 hDelivered
      rfl

/-- The entries behind those that were there. -/
theorem Adds.drop (h : log.Adds events log') :
    (log'.entries.drop log.entries.length).map (·.toEvent) = events := by
  obtain ⟨entries, hEntries, rfl⟩ := h
  rw [hEntries, List.drop_left]

/-- What a log has grown by is what stands behind its old entries. -/
theorem Adds.entries_eq (h : log.Adds events log') :
    log'.entries = log.entries ++ log'.entries.drop log.entries.length := by
  obtain ⟨entries, hEntries, -⟩ := h
  rw [hEntries, List.drop_left]

end Log

end Audit

-- ---------------------------------------------------------------------------
-- What work has to say
-- ---------------------------------------------------------------------------

namespace Work

variable {ρ σ τ : Type} {w : Work ρ} {w' : Work σ} {w'' : Work τ} {Q R : Audit.Event → Prop}

/-- All that work adds to what is to be put on record has some property. -/
def Logs (Q : Audit.Event → Prop) (w : Work ρ) (w' : Work σ) : Prop :=
  ∃ told, w'.events = w.events ++ told ∧ ∀ event ∈ told, Q event

/-- Work that says nothing has said nothing wrong. -/
theorem Logs.of_eq (h : w'.events = w.events) : Logs Q w w' :=
  ⟨[], by rw [h, List.append_nil], nofun⟩

/-- Work that says one thing. -/
theorem Logs.one {event : Audit.Event} (h : w'.events = w.events ++ [event]) (hQ : Q event) :
    Logs Q w w' :=
  ⟨[event], h, fun _ hEvent => List.mem_singleton.1 hEvent ▸ hQ⟩

theorem Logs.mono (h : Logs Q w w') (hWeaker : ∀ event, Q event → R event) : Logs R w w' := by
  obtain ⟨told, hTold, hAll⟩ := h
  exact ⟨told, hTold, fun event hEvent => hWeaker event (hAll event hEvent)⟩

/-- What is said in two pieces of work is said in them one after the other. -/
theorem Logs.trans (h : Logs Q w w') (h' : Logs Q w' w'') : Logs Q w w'' := by
  obtain ⟨told, hTold, hAll⟩ := h
  obtain ⟨told', hTold', hAll'⟩ := h'
  refine ⟨told ++ told', by rw [hTold', hTold, List.append_assoc], fun event hEvent => ?_⟩
  rcases List.mem_append.1 hEvent with hFirst | hSecond
  · exact hAll event hFirst
  · exact hAll' event hSecond

/-- Dropping sessions is no rotation. -/
theorem logs_retireAll (s : Setting) (reason : String) (w : Work σ) (sessions : List Session) :
    Logs (fun event => event.kind = .sessionRetired) w (retireAll s reason w sessions) := by
  induction sessions generalizing w with
  | nil => exact .of_eq rfl
  | cons session rest ih => exact Logs.trans (.one rfl rfl) (ih (retire s reason w session))

end Work

-- ---------------------------------------------------------------------------
-- One side
-- ---------------------------------------------------------------------------

namespace Outbound

variable {P : Primitives}

/-- A side behind two pieces of work that has the session of before the first has it in between. -/
theorem Rests.current_between {o o' o'' : Outbound} (h : Rests o o') (h' : Rests o' o'')
    (hSame : o''.current = o.current) : o'.current = o.current := by
  cases hCurrent : o.current with
  | some session => exact h'.current session (hSame.trans hCurrent)
  | none =>
    cases hBetween : o'.current with
    | none => rfl
    | some session => exact (nomatch hCurrent.symm.trans (h.current session hBetween))

/-- An event that is a rotation names the pair, whose session in use has ended. -/
def Tells (own peer : String) (o o' : Outbound) (event : Audit.Event) : Prop :=
  event.kind.isRotation = true → event.devices = [own, peer] ∧ o'.current ≠ o.current

/-- An event that is no rotation claims nothing. -/
theorem Tells.of_other {own peer : String} {o o' : Outbound} {event : Audit.Event}
    (h : event.kind.isRotation = false) : Tells own peer o o' event :=
  fun hRotation => absurd (h.symm.trans hRotation) Bool.false_ne_true

/-- Ending the session in use puts nothing on record by itself. -/
theorem events_expireCurrent (s : Setting) (w : Work Outbound) :
    (expireCurrent s w).2.events = w.events := by
  unfold expireCurrent
  split <;> rfl

/-- Ending the session in use is put on record. -/
theorem logs_rotate (s : Setting) (peer : String) (reason : Rotation.Reason) (w : Work Outbound) :
    Work.Logs (Tells s.own.deviceId peer w.part (rotate s peer reason w).2.part) w
      (rotate s peer reason w).2 := by
  unfold rotate expireCurrent
  cases hCurrent : w.part.current with
  | none => exact .of_eq rfl
  | some session =>
    refine .one rfl fun _ => ⟨rfl, fun hSame => ?_⟩
    have hGone : (none : Option Session) = w.part.current := hSame
    rw [hCurrent] at hGone
    cases hGone

/-- What a message puts on record of the session in use: a rotation, if there is a session that does
not fit the message. -/
def turns (s : Setting) (peer : String) (level : Level) (o : Outbound) : List Audit.Event :=
  (o.current.bind fun session =>
    (s.config.rotation.evaluate session.usage level s.now).map fun reason =>
      (⟨.keyRotated, [s.own.deviceId, peer], .success,
        s!"epoch {session.epoch.toNat} ({reason.text})"⟩ : Audit.Event)).toList

/-- The rotation that a message causes names the pair. -/
theorem of_mem_turns {s : Setting} {peer : String} {level : Level} {o : Outbound}
    {event : Audit.Event} (h : event ∈ turns s peer level o) :
    event.kind = .keyRotated ∧ event.devices = [s.own.deviceId, peer] := by
  unfold turns at h
  obtain ⟨session, -, h⟩ := Option.bind_eq_some_iff.1 (Option.mem_toList.1 h)
  obtain ⟨reason, -, rfl⟩ := Option.map_eq_some_iff.1 h
  exact ⟨rfl, rfl⟩

/-- A rotation that is due is all that is put on record of it. -/
theorem events_rotateIfDue (s : Setting) (peer : String) (level : Level) (w : Work Outbound) :
    (rotateIfDue s peer level w).events = w.events ++ turns s peer level w.part := by
  unfold rotateIfDue turns
  cases hCurrent : w.part.current with
  | none => simp
  | some session =>
    cases hDue : s.config.rotation.evaluate session.usage level s.now with
    | none => simp [hDue]
    | some reason =>
      simp only [Option.bind_some, hDue, rotate, expireCurrent, hCurrent]
      rfl

/-- The session for a message is none that was there, or its beginning is put on record. -/
theorem logs_ready (s : Setting) (peer : Peer) (level : Level) (w : Work Outbound) :
    Work.Logs (fun event => event.kind.isSession = true) w (ready P s peer level w).2 := by
  unfold ready
  split
  · exact .of_eq rfl
  · dsimp only [establish]
    split
    · exact .of_eq rfl
    · refine Work.Logs.trans (.one rfl rfl) ((Work.logs_retireAll s _ _ _).mono fun event h => ?_)
      rw [h]
      rfl

/-- **What a message puts on record:** a rotation if the session in use does not fit, unless the
message is refused, and nothing else that is a rotation. -/
theorem told_encrypt (s : Setting) (peer : Peer) (level : Level) (plaintext : Bytes)
    (w : Work Outbound) :
    ∃ turned others, (encrypt P s peer level plaintext w).2.events = w.events ++ (turned ++ others) ∧
      (∀ event ∈ others, event.kind.isRotation = false) ∧
      (turned = turns s peer.deviceId level w.part ∨
        turned = [] ∧ ∃ failure, (encrypt P s peer level plaintext w).1 = .error failure) := by
  unfold encrypt
  split
  · exact ⟨[], [], (List.append_nil _).symm, nofun, .inr ⟨rfl, _, rfl⟩⟩
  split
  · refine ⟨[], [_], rfl, fun event hEvent => ?_, .inr ⟨rfl, _, rfl⟩⟩
    rw [List.mem_singleton.1 hEvent]
    rfl
  · obtain ⟨others, hOthers, hNone⟩ :=
      logs_ready (P := P) s peer level (rotateIfDue s peer.deviceId level w)
    rw [events_rotateIfDue, List.append_assoc] at hOthers
    refine ⟨turns s peer.deviceId level w.part, others, ?_, fun event hEvent =>
      (Audit.Kind.other_of_isSession (hNone event hEvent)).1, .inl rfl⟩
    rw [← hOthers]
    cases ready P s peer level (rotateIfDue s peer.deviceId level w) with
    | mk result w' =>
      cases result with
      | error failure => rfl
      | ok session =>
        dsimp only
        split <;> rfl

end Outbound

namespace Inbound

variable {P : Primitives}

/-- Ending a session that receives puts nothing on record. -/
theorem events_expire (s : Setting) (w : Work Inbound) (epoch : UInt64) :
    (expire s w epoch).2.events = w.events := by
  unfold expire
  split
  · split <;> rfl
  · rfl

/-- Ending all active sessions that receive puts nothing on record. -/
theorem events_expireAll (s : Setting) (w : Work Inbound) : (expireAll s w).events = w.events := by
  unfold expireAll
  induction w.part.epochs.keys generalizing w with
  | nil => rfl
  | cons epoch rest ih => exact (ih _).trans (events_expire s w epoch)

/-- Opening an envelope is no rotation. -/
theorem logs_decrypt (s : Setting) (sender : Peer) (e : Envelope) (w : Work Inbound) :
    Work.Logs (fun event => event.kind = .sessionEstablished) w (decrypt P s sender e w).2 := by
  unfold decrypt
  split
  · exact .of_eq rfl
  split
  · unfold continueEpoch
    split
    · split <;> exact .of_eq rfl
    · exact .of_eq rfl
  · split
    · exact .of_eq rfl
    · unfold beginEpoch
      split
      · exact .of_eq rfl
      · split
        · exact .of_eq rfl
        · exact .one (congrArg (· ++ [_]) (events_expireAll s w)) rfl

end Inbound

-- ---------------------------------------------------------------------------
-- All pairs
-- ---------------------------------------------------------------------------

namespace Pairs

variable {α : Type} {own : String} {w w' w'' : Work Pairs}

/-- An event that is a rotation names a pair whose session in use has ended. -/
def Tells (own : String) (p p' : Pairs) (event : Audit.Event) : Prop :=
  event.kind.isRotation = true →
    ∃ peer, event.devices = [own, peer] ∧ (p'.sending peer).current ≠ (p.sending peer).current

/-- Work from which no session begins, and which puts a rotation on record only if the session in use
has ended. -/
structure Discloses (own : String) (w w' : Work Pairs) : Prop where
  rests : ∀ peer, (w.part.sending peer).Rests (w'.part.sending peer)
  logs : Work.Logs (Tells own w.part w'.part) w w'

namespace Discloses

theorem refl (w : Work Pairs) : Discloses own w w := ⟨fun _ => .refl _, .of_eq rfl⟩

/-- A session that has ended does not come back, so what the first piece of work says stays true. -/
theorem trans (h : Discloses own w w') (h' : Discloses own w' w'') : Discloses own w w'' := by
  have hFirst : Work.Logs (Tells own w.part w''.part) w w' := by
    refine h.logs.mono fun event hTells hRotation => ?_
    obtain ⟨peer, hNames, hEnded⟩ := hTells hRotation
    exact ⟨peer, hNames, fun hSame =>
      hEnded ((h.rests peer).current_between (h'.rests peer) hSame)⟩
  have hSecond : Work.Logs (Tells own w.part w''.part) w' w'' := by
    refine h'.logs.mono fun event hTells hRotation => ?_
    obtain ⟨peer, hNames, hEnded⟩ := hTells hRotation
    refine ⟨peer, hNames, fun hSame => hEnded ?_⟩
    rw [hSame, (h.rests peer).current_between (h'.rests peer) hSame]
  exact ⟨fun peer => (h.rests peer).trans (h'.rests peer), hFirst.trans hSecond⟩

/-- Work that says nothing of rotations. -/
theorem of_logs (hRests : ∀ peer, (w.part.sending peer).Rests (w'.part.sending peer))
    (h : Work.Logs (fun event => event.kind.isRotation = false) w w') : Discloses own w w' :=
  ⟨hRests, h.mono fun _ hOther hRotation =>
    absurd (hOther.symm.trans hRotation) Bool.false_ne_true⟩

/-- Work on the sending side of a pair, from which no session begins. -/
theorem onOutbound {peer : String} {op : Work Outbound → α × Work Outbound}
    (hRests : ∀ w : Work Outbound, w.part.Rests (op w).2.part)
    (hLogs : ∀ w : Work Outbound, Work.Logs (Outbound.Tells own peer w.part (op w).2.part) w (op w).2) :
    Discloses own w (onOutbound peer op w).2 := by
  have hQuiet : Quiet (fun _ => False) w.part (Pairs.onOutbound peer op w).2.part :=
    .onOutbound hRests
  refine ⟨hQuiet.rests, ?_⟩
  obtain ⟨told, hTold, hAll⟩ := hLogs (w.withPart (w.part.sending peer))
  refine ⟨told, hTold, fun event hEvent hRotation => ?_⟩
  obtain ⟨hNames, hEnded⟩ := hAll event hEvent hRotation
  refine ⟨peer, hNames, ?_⟩
  rw [sending_onOutbound, if_pos rfl]
  exact hEnded

/-- Work on a receiving side, which never puts a rotation on record. -/
theorem onInbound {peer : String} {op : Work Inbound → α × Work Inbound}
    (hLogs : ∀ w : Work Inbound,
      Work.Logs (fun event => event.kind.isRotation = false) w (op w).2) :
    Discloses own w (onInbound peer op w).2 := by
  refine of_logs (fun other => ?_) ?_
  · rw [sending_onInbound]
    exact .refl _
  · obtain ⟨told, hTold, hAll⟩ := hLogs (w.withPart (w.part.receiving peer))
    exact ⟨told, hTold, hAll⟩

/-- Likewise where the sending side has to be there. -/
theorem onExistingOutbound {peer : String} {otherwise : α}
    {op : Work Outbound → α × Work Outbound}
    (hRests : ∀ w : Work Outbound, w.part.Rests (op w).2.part)
    (hLogs : ∀ w : Work Outbound, Work.Logs (Outbound.Tells own peer w.part (op w).2.part) w (op w).2) :
    Discloses own w (onExistingOutbound peer otherwise op w).2 := by
  unfold Pairs.onExistingOutbound
  split
  · exact onOutbound hRests hLogs
  · exact refl w

/-- Likewise where the receiving side has to be there. -/
theorem onExistingInbound {peer : String} {otherwise : α} {op : Work Inbound → α × Work Inbound}
    (hLogs : ∀ w : Work Inbound,
      Work.Logs (fun event => event.kind.isRotation = false) w (op w).2) :
    Discloses own w (onExistingInbound peer otherwise op w).2 := by
  unfold Pairs.onExistingInbound
  split
  · exact onInbound hLogs
  · exact refl w

/-- Work of several steps. -/
theorem foldl {β σ : Type} (work : σ → Work Pairs) {op : σ → β → σ}
    (h : ∀ x b, Discloses own (work x) (work (op x b))) (l : List β) (x : σ) :
    Discloses own (work x) (work (l.foldl op x)) := by
  induction l generalizing x with
  | nil => exact refl _
  | cons b rest ih => exact (h x b).trans (ih (op x b))

/-- Sessions that were taken out are dropped. -/
theorem retireAll (h : Discloses own w w') (s : Setting) (reason : String)
    (sessions : List Session) : Discloses own w (w'.retireAll s reason sessions) := by
  refine h.trans (of_logs (fun peer => ?_) ?_)
  · rw [Work.part_retireAll]
    exact .refl _
  · refine (Work.logs_retireAll s reason w' sessions).mono fun event hKind => ?_
    rw [hKind]
    rfl

end Discloses

variable (s : Setting)

/-- Asking for an establishment puts nothing on record. -/
theorem discloses_request (peer : String) (w : Work Pairs) :
    Discloses s.own.deviceId w (request s peer w).2 :=
  .onOutbound (fun w => Outbound.rests_request s.now w.part) fun _ => .of_eq rfl

/-- An establishment that is given up is put on record, and is no rotation. -/
theorem discloses_checkEstablishment (peer : String) (w : Work Pairs) :
    Discloses s.own.deviceId w (checkEstablishment s peer w).2 := by
  refine .onExistingOutbound (fun w => ?_) fun w => ?_
  · split
    · exact Outbound.rests_timeOut s peer w
    · exact .refl _
  · split
    · exact .one rfl (.of_other rfl)
    · exact .of_eq rfl

/-- A forced rotation is put on record for the session that it ended. -/
theorem discloses_rotate (peer : String) (w : Work Pairs) :
    Discloses s.own.deviceId w (rotate s peer w).2 :=
  .onExistingOutbound (fun w => Outbound.rests_expireCurrent s w)
    fun w => .of_eq (Outbound.events_expireCurrent s w)

/-- A revocation drops sessions and rotates none. -/
theorem discloses_revoke (peer : String) (w : Work Pairs) :
    Discloses s.own.deviceId w (revoke s peer w).2 := by
  unfold revoke
  exact .retireAll (.trans (.onOutbound (fun w => .barred w.part) fun _ => .of_eq rfl)
    (.onInbound fun _ => .of_eq rfl)) _ _ _

/-- Dropping the sessions with a peer rotates none. -/
theorem discloses_retire (reason peer : String) (w : Work Pairs) :
    Discloses s.own.deviceId w (retire s reason peer w).2 := by
  unfold retire
  exact .retireAll (.trans (.onExistingOutbound (fun w => .cleared w.part) fun _ => .of_eq rfl)
    (.onExistingInbound fun _ => .of_eq rfl)) _ _ _

/-- Closing drops sessions and rotates none. -/
theorem discloses_shutdown (w : Work Pairs) : Discloses s.own.deviceId w (shutdown s w).2 :=
  .foldl (fun x : Nat × Work Pairs => x.2)
    (fun x peer => by exact discloses_retire s "shutdown" peer x.2) w.part.peers (0, w)

/-- Of what is due for a session that sends, only its age is a rotation. -/
theorem logs_applyOutbound (id : SessionId) (action : Rotation.DueAction) (w : Work Outbound) :
    Work.Logs (Outbound.Tells s.own.deviceId id.peer w.part (applyOutbound s id action w).2.part) w
      (applyOutbound s id action w).2 := by
  unfold applyOutbound
  split
  · split
    · exact Outbound.logs_rotate ..
    · exact .of_eq rfl
  · split
    · exact .one rfl (.of_other rfl)
    · exact .of_eq rfl

/-- What is due for a session that receives is never a rotation. -/
theorem logs_applyInbound (id : SessionId) (action : Rotation.DueAction) (w : Work Inbound) :
    Work.Logs (fun event => event.kind.isRotation = false) w (applyInbound s id action w).2 := by
  unfold applyInbound
  split
  · exact .of_eq (Inbound.events_expire ..)
  · split
    · exact .one rfl rfl
    · exact .of_eq rfl

/-- What is due for one session puts a rotation on record only if the session in use has ended. -/
theorem discloses_applyDue (r : SweepReport) (w : Work Pairs) (id : SessionId)
    (action : Rotation.DueAction) :
    Discloses s.own.deviceId w (applyDue s r w id action).2 := by
  obtain ⟨w', hDone, hResult⟩ := applyDue_cases s r w id action
  have hDiscloses : Discloses s.own.deviceId w w' := by
    rcases hDone with ⟨-, rfl⟩ | ⟨-, rfl⟩
    · exact .onExistingOutbound (fun w => rests_applyOutbound s id action w)
        fun w => logs_applyOutbound s id action w
    · exact .onExistingInbound fun w => logs_applyInbound s id action w
  -- a forgotten deadline says nothing
  rcases hResult with hSame | hForgotten
  · rw [hSame]
    exact hDiscloses
  · rw [hForgotten]
    exact hDiscloses.trans ⟨fun _ => .refl _, .of_eq rfl⟩

/-- A sweep that gives up an establishment rotates nothing. -/
theorem discloses_sweepEstablishment (r : SweepReport) (w : Work Pairs) (peer : String) :
    Discloses s.own.deviceId w (sweepEstablishment s r w peer).2 := by
  have hCheck := discloses_checkEstablishment s peer w
  unfold sweepEstablishment
  split <;> simpa only [‹checkEstablishment s peer w = _›] using hCheck

/-- A whole sweep puts a rotation on record only for a session in use that has ended. -/
theorem discloses_sweep (w : Work Pairs) : Discloses s.own.deviceId w (sweep s w).2 := by
  unfold sweep
  exact .trans
    (.foldl (fun x : SweepReport × Work Pairs => x.2)
      (fun x d => discloses_applyDue s x.1 x.2 d.1 d.2) (w.deadlines.due s.now) (⟨0, 0, 0⟩, w))
    (.foldl (fun x : SweepReport × Work Pairs => x.2)
      (fun x peer => discloses_sweepEstablishment s x.1 x.2 peer) _ _)

/-- What work on the sessions for a message puts on record. -/
theorem told_encrypt {P : Primitives} (peer : Peer) (level : Level) (plaintext : Bytes)
    (w : Work Pairs) :
    ∃ turned others, (encrypt P s peer level plaintext w).2.events = w.events ++ (turned ++ others) ∧
      (∀ event ∈ others, event.kind.isRotation = false) ∧
      (turned = Outbound.turns s peer.deviceId level (w.part.sending peer.deviceId) ∨
        turned = [] ∧ ∃ failure, (encrypt P s peer level plaintext w).1 = .error failure) :=
  Outbound.told_encrypt s peer level plaintext (w.withPart (w.part.sending peer.deviceId))

/-- A rotation on demand gives an epoch only if a session was in use, and leaves none in use. -/
theorem current_of_rotate {s : Setting} {peer : String} {w w' : Work Pairs} {epoch : UInt64}
    (h : rotate s peer w = (some epoch, w')) :
    (w'.part.sending peer).current ≠ (w.part.sending peer).current := by
  unfold rotate onExistingOutbound at h
  split at h
  · have hSide := sending_onOutbound peer peer (Outbound.expireCurrent s) w
    rw [h, if_pos rfl] at hSide
    have hEpoch : (Outbound.expireCurrent s (w.withPart (w.part.sending peer))).1 = some epoch :=
      congrArg Prod.fst h
    rw [hSide]
    unfold Outbound.expireCurrent at hEpoch ⊢
    cases hCurrent : (w.part.sending peer).current with
    | none =>
      have hNone : (w.withPart (w.part.sending peer)).part.current = none := hCurrent
      rw [hNone] at hEpoch
      cases hEpoch
    | some session =>
      have hSome : (w.withPart (w.part.sending peer)).part.current = some session := hCurrent
      rw [hSome]
      exact nofun
  · cases h

end Pairs

-- ---------------------------------------------------------------------------
-- Devices
-- ---------------------------------------------------------------------------

namespace Device

variable {P : Primitives} {d d' d'' : Device} {Q R : Audit.Event → Prop}

/-- The log of a device has grown by entries whose events all have some property. -/
def Notes (Q : Audit.Event → Prop) (d d' : Device) : Prop :=
  ∃ events, d.audit.Adds events d'.audit ∧ ∀ event ∈ events, Q event

/-- An unchanged log has gained nothing. -/
theorem Notes.of_eq (h : d'.audit = d.audit) : Notes Q d d' :=
  ⟨[], .of_eq (congrArg _ h), nofun⟩

theorem Notes.mono (h : Notes Q d d') (hWeaker : ∀ event, Q event → R event) : Notes R d d' := by
  obtain ⟨events, hAdds, hAll⟩ := h
  exact ⟨events, hAdds, fun event hEvent => hWeaker event (hAll event hEvent)⟩

/-- What is gained in two operations is gained in them one after the other. -/
theorem Notes.trans (h : Notes Q d d') (h' : Notes Q d' d'') : Notes Q d d'' := by
  obtain ⟨events, hAdds, hAll⟩ := h
  obtain ⟨events', hAdds', hAll'⟩ := h'
  refine ⟨events ++ events', hAdds.trans hAdds', fun event hEvent => ?_⟩
  rcases List.mem_append.1 hEvent with hFirst | hSecond
  · exact hAll event hFirst
  · exact hAll' event hSecond

/-- A note gains the one event. -/
theorem notes_note (event : Audit.Event) (d : Device) (hQ : Q event) :
    Notes Q d (d.note P event) :=
  ⟨[event], Audit.Log.adds_append d.audit event d.now, fun _ h => List.mem_singleton.1 h ▸ hQ⟩

/-- A critical event is gained whether or not the sink takes it. -/
theorem notes_record (event : Audit.Event) (d : Device) (hQ : Q event) :
    Notes Q d (d.record P event).2 :=
  ⟨[event], Audit.Log.adds_record d.audit event d.now, fun _ h => List.mem_singleton.1 h ▸ hQ⟩

/-- Delivering what waits gains nothing. -/
theorem notes_flushAudit (d : Device) : Notes Q d d.flushAudit.2 :=
  ⟨[], Audit.Log.adds_flush d.audit, nofun⟩

/-- What work on the sessions says goes on record. -/
theorem notes_onPairsAt {α : Type} {now : UInt64} {op : Setting → Work Pairs → α × Work Pairs}
    (h : Work.Logs Q d.work (op (d.setting now) d.work).2) :
    Notes Q d (d.onPairsAt P now op).2 := by
  obtain ⟨told, hTold, hAll⟩ := h
  refine ⟨told, ?_, hAll⟩
  have hEvents : (op (d.setting now) d.work).2.events = told := hTold
  rw [← hEvents]
  exact Audit.Log.adds_appendAll d.audit _ d.now

/-- An event that is no rotation. -/
def IsOther (event : Audit.Event) : Prop := event.kind.isRotation = false

/-- An event that is no rotation, and by which no session begins or is dropped and no establishment
is given up. -/
def IsAside (event : Audit.Event) : Prop :=
  event.kind.isRotation = false ∧ event.kind.isSession = false ∧ event.kind.isTimeout = false

/-- An event that is a rotation names a pair whose session in use has ended. -/
def Tells (d d' : Device) : Audit.Event → Prop := Pairs.Tells d.id d.pairs d'.pairs

theorem Notes.other (h : Notes IsAside d d') : Notes IsOther d d' := h.mono fun _ hAside => hAside.1

/-- What is no rotation may stand in the log of any change. -/
theorem Notes.tells (h : Notes IsOther d d') (e e' : Device) : Notes (e.Tells e') d d' :=
  h.mono fun _ hOther hRotation => absurd (hOther.symm.trans hRotation) Bool.false_ne_true

variable (P) in
/-- Work on the pairs is put on record behind what is there. -/
theorem notes_discloses {α : Type} (now : UInt64) (op : Setting → Work Pairs → α × Work Pairs)
    (d : Device) (h : Pairs.Discloses d.id d.work (op (d.setting now) d.work).2) :
    Notes (d.Tells (d.onPairsAt P now op).2) d (d.onPairsAt P now op).2 :=
  notes_onPairsAt h.logs

-- ---------------------------------------------------------------------------
-- Operations that handle no message
-- ---------------------------------------------------------------------------

/-- Meeting a peer puts at most a mismatch of keys on record. -/
theorem notes_remember (id : String) (keys : PublicKeys) (d : Device) :
    Notes IsAside d (d.remember P id keys).2 := by
  unfold remember
  split
  · exact .of_eq rfl
  · rename_i other _
    have hRecord : Notes IsAside d (d.record P ⟨.keyMismatch, [d.id, other], .failure,
        "presented fingerprint " ++ (keys.fingerprint P).text⟩).2 := notes_record _ d ⟨rfl, rfl, rfl⟩
    split <;> simpa only [‹record P _ d = _›] using hRecord
  · exact .of_eq rfl

/-- Importing a bundle puts no more on record than meeting its peer. -/
theorem notes_importBundle (text : Bytes) (d : Device) :
    Notes IsAside d (d.importBundle P text).2 := by
  unfold importBundle
  split
  · exact .of_eq rfl
  · split
    · exact .of_eq rfl
    · exact notes_remember ..

/-- Evidence is no rotation, and begins and drops nothing. -/
theorem notes_verify (id : String) (evidence : Evidence) (d : Device) :
    Notes IsAside d (d.verify P id evidence).2 := by
  unfold verify
  split
  · exact .of_eq rfl
  · split
    · rename_i fault _
      have hRecord : Notes IsAside d (d.record P ⟨.verificationFailed, [id], .failure,
          evidence.name ++ ": " ++ fault.message⟩).2 := notes_record _ d ⟨rfl, rfl, rfl⟩
      split <;> simpa only [‹record P _ d = _›] using hRecord
    · rename_i peer _ _ proposed _
      dsimp only
      split
      · exact .of_eq rfl
      · generalize hMoved : ({ d with
          contacts := d.contacts.update id d.now (evidence.apply proposed) } : Device) = moved
        have hSame : Notes IsAside d moved := .of_eq (by rw [← hMoved])
        -- whatever the verdict is, the one event of it is neither of a session nor of an
        -- establishment
        have hRecord (event : Audit.Event)
            (hKind : event.kind = .peerRevoked ∨ event.kind = .trustChanged)
            {answered : Except Failure Unit × Device} (h : moved.record P event = answered) :
            Notes IsAside d answered.2 := by
          rw [← h]
          refine hSame.trans (notes_record event moved ?_)
          unfold IsAside
          rcases hKind with hKind | hKind <;> rw [hKind] <;> exact ⟨rfl, rfl, rfl⟩
        have hKind : (if peer.trust.merge proposed = .revoked then Audit.Kind.peerRevoked
            else .trustChanged) = .peerRevoked ∨
            (if peer.trust.merge proposed = .revoked then Audit.Kind.peerRevoked
            else .trustChanged) = .trustChanged := by
          split
          · exact .inl rfl
          · exact .inr rfl
        split <;> exact hRecord _ hKind ‹record P _ moved = _›

/-- Evidence puts on record what became of the trust, and no rotation. -/
theorem notes_applyEvidence (id : String) (evidence : Evidence) (d : Device) :
    Notes (d.Tells (d.applyEvidence P id evidence).2) d (d.applyEvidence P id evidence).2 := by
  have hVerified := notes_verify (P := P) id evidence d
  obtain ⟨hEvolves, -, hWork⟩ := verify_same (P := P) id evidence d
  have hPairs : (d.verify P id evidence).2.pairs = d.pairs := congrArg Work.part hWork
  unfold applyEvidence
  generalize d.verify P id evidence = verified at *
  obtain ⟨verified, d₁⟩ := verified
  have hId : d₁.id = d.id := congrArg Identity.deviceId hEvolves.identity
  dsimp only at *
  split
  · have hRevoked := notes_discloses P d₁.now (fun s => Pairs.revoke s id) d₁
      (Pairs.discloses_revoke (d₁.setting d₁.now) id d₁.work)
    unfold Tells at hRevoked
    rw [hId, hPairs] at hRevoked
    exact (hVerified.other.tells d _).trans hRevoked
  · exact hVerified.other.tells d d₁

/-- A verification puts no rotation on record. -/
theorem notes_verifyPeer (id : String) (evidence : Evidence) (d : Device) :
    Notes (d.Tells (d.verifyPeer P id evidence).2) d (d.verifyPeer P id evidence).2 :=
  notes_applyEvidence id evidence d

/-- Vouching for a peer puts no rotation on record. -/
theorem notes_crossSignPeer (id : String) (d : Device) :
    Notes (d.Tells (d.crossSignPeer P id).2) d (d.crossSignPeer P id).2 := by
  unfold crossSignPeer
  split
  · exact .of_eq rfl
  · exact notes_verifyPeer ..

/-- A rotation on demand is put on record if it has ended a session. -/
theorem notes_rotate (peer : String) (d : Device) :
    Notes (d.Tells (d.rotate P peer).2) d (d.rotate P peer).2 := by
  have hWork : Notes (d.Tells (d.onPairs P fun s => Pairs.rotate s peer).2) d
      (d.onPairs P fun s => Pairs.rotate s peer).2 :=
    notes_discloses P d.now (fun s => Pairs.rotate s peer) d (Pairs.discloses_rotate (d.setting d.now) peer d.work)
  unfold rotate
  split
  · rename_i d₁ hRotated
    rw [hRotated] at hWork
    exact hWork
  · rename_i epoch d₁ hRotated
    obtain ⟨w, hw, hEvolves, ⟨hPairs, -⟩, -⟩ := onPairsAt_eq hRotated
    rw [hRotated] at hWork
    -- the epoch that the log is told of is the one whose session was ended
    have hTells : d.Tells d₁ ⟨.forcedRotation, [d₁.id, peer], .success,
        s!"epoch {epoch.toNat} ({Rotation.Reason.forced.text})"⟩ := by
      intro _
      refine ⟨peer, ?_, ?_⟩
      · rw [show d₁.id = d.id from congrArg Identity.deviceId hEvolves.identity]
      · rw [hPairs]
        exact Pairs.current_of_rotate hw
    generalize hEvent : (⟨.forcedRotation, [d₁.id, peer], .success,
        s!"epoch {epoch.toNat} ({Rotation.Reason.forced.text})"⟩ : Audit.Event) = event at hTells ⊢
    have hRecord : Notes (d.Tells (d₁.record P event).2) d (d₁.record P event).2 :=
      hWork.trans (notes_record event d₁ hTells)
    split <;> simpa only [‹record P _ d₁ = _›] using hRecord

/-- Closing puts no rotation on record. -/
theorem notes_shutdown (d : Device) :
    Notes (d.Tells (d.shutdown P).2) d (d.shutdown P).2 := by
  have hWork : Notes (d.Tells (d.onPairs P Pairs.shutdown).2) d (d.onPairs P Pairs.shutdown).2 :=
    notes_discloses P d.now Pairs.shutdown d (Pairs.discloses_shutdown (d.setting d.now) d.work)
  unfold shutdown
  generalize d.onPairs P Pairs.shutdown = dropped at hWork
  obtain ⟨dropped, d₁⟩ := dropped
  have hFlushed : Notes (d.Tells d₁.flushAudit.2) d d₁.flushAudit.2 :=
    hWork.trans (notes_flushAudit d₁)
  dsimp only
  split <;> simpa only [‹flushAudit d₁ = _›] using hFlushed

/-- Saving puts at most its failure on record. -/
theorem notes_save (store : Store) (passphrase : String) (d : Device) :
    Notes IsAside d (d.save P store passphrase).2 := by
  unfold save
  dsimp only
  split <;> exact .of_eq rfl

/-- **An operation that handles no message** and drops no entries puts a rotation on record only if
the session in use with the pair that it names has ended. -/
theorem notes_step (d : Device) (op : Operation) (h : op.handlesMessage = false)
    (hKeeps : op ≠ .sweepAudit) : Notes (d.Tells (d.step P op).2) d (d.step P op).2 := by
  cases op with
  | send => cases h
  | receive => cases h
  | remember id keys => exact (notes_remember id keys d).other.tells _ _
  | importBundle text => exact (notes_importBundle text d).other.tells _ _
  | verify id evidence => exact notes_verifyPeer ..
  | revoke id reason => exact notes_applyEvidence id (.revocation reason) d
  | crossSignPeer id => exact notes_crossSignPeer ..
  | addRoot id keys => exact .of_eq rfl
  | rotate peer => exact notes_rotate ..
  | request peer =>
    exact notes_discloses P d.now (fun s => Pairs.request s peer) d
      (Pairs.discloses_request (d.setting d.now) peer d.work)
  | maintain now =>
    exact notes_discloses P now Pairs.sweep d (Pairs.discloses_sweep (d.setting now) d.work)
  | shutdown => exact notes_shutdown d
  | flushAudit => exact notes_flushAudit d
  | sweepAudit => exact absurd rfl hKeeps
  | save store passphrase => exact (notes_save store passphrase d).other.tells _ _
  | setClock now => exact .of_eq rfl
  | setSink isFull => exact ⟨[], .of_eq rfl, nofun⟩

-- ---------------------------------------------------------------------------
-- Messages
-- ---------------------------------------------------------------------------

/-- A rejection is no rotation, begins and drops nothing, and gives nothing up. -/
theorem notes_reject (sender : Option String) (failure : Failure) (d : Device) :
    Notes IsAside d (d.reject P sender failure).2 := by
  have hRecord : Notes IsAside d (d.record P
      ⟨rejectionKind failure, d.id :: sender.toList, .failure, failure.message⟩).2 :=
    notes_record _ d (by cases failure <;> exact ⟨rfl, rfl, rfl⟩)
  unfold reject
  split <;> simpa only [‹record P _ d = _›] using hRecord

/-- Receiving is no rotation, and gives nothing up. -/
theorem notes_receive (bytes : Bytes) (d : Device) :
    Notes (fun event => event.kind.isRotation = false ∧ event.kind.isTimeout = false) d
      (d.receive P bytes).2 := by
  -- a refused envelope is told of as such
  have hReject (sender : Option String) (failure : Failure) (d : Device) :
      Notes (fun event => event.kind.isRotation = false ∧ event.kind.isTimeout = false) d
        (d.reject P sender failure).2 :=
    (notes_reject ..).mono fun _ hAside => ⟨hAside.1, hAside.2.2⟩
  unfold receive
  split
  · exact hReject ..
  rename_i e _
  unfold receiveEnvelope
  split
  · exact hReject ..
  rename_i sender _
  -- a session that reads or begins is told of as such
  have hWork : Notes (fun event => event.kind.isRotation = false ∧ event.kind.isTimeout = false) d
      (d.onPairs P fun s => Pairs.decrypt P s sender e).2 := by
    refine notes_onPairsAt ?_
    obtain ⟨told, hTold, hAll⟩ := Inbound.logs_decrypt (P := P) (d.setting d.now) sender e
      (d.work.withPart (d.pairs.receiving sender.deviceId))
    refine ⟨told, hTold, fun event hEvent => ?_⟩
    show event.kind.isRotation = false ∧ event.kind.isTimeout = false
    rw [hAll event hEvent]
    exact ⟨rfl, rfl⟩
  split
  · rename_i failure d₁ hOpened
    rw [hOpened] at hWork
    exact hWork.trans (hReject _ failure d₁)
  · rename_i plaintext d₁ hOpened
    rw [hOpened] at hWork
    exact hWork

/-- **What a message to a peer puts on record:** a rotation if the session in use does not fit, unless
the message is refused, and nothing else that is a rotation. -/
theorem adds_send (hFiled : d.contacts.Filed) (peer : String) (level : Level) (plaintext : Bytes) :
    ∃ turned others, d.audit.Adds (turned ++ others) (d.send P peer level plaintext).2.audit ∧
      (∀ event ∈ others, IsOther event) ∧
      (turned = Outbound.turns (d.setting d.now) peer level (d.pairs.sending peer) ∨
        turned = [] ∧ ∃ failure, (d.send P peer level plaintext).1 = .error failure) := by
  -- a message that is refused puts no rotation on record
  have hRefused {answered : Except Failure Bytes × Device} (hNotes : Notes IsOther d answered.2)
      (hError : ∃ failure, answered.1 = .error failure) :
      ∃ turned others, d.audit.Adds (turned ++ others) answered.2.audit ∧
        (∀ event ∈ others, IsOther event) ∧
        (turned = Outbound.turns (d.setting d.now) peer level (d.pairs.sending peer) ∨
          turned = [] ∧ ∃ failure, answered.1 = .error failure) := by
    obtain ⟨events, hAdds, hAll⟩ := hNotes
    exact ⟨[], events, hAdds, hAll, .inr ⟨rfl, hError⟩⟩
  unfold send
  split
  · -- not on file
    have hCheck : Notes IsOther d (d.onPairs P fun s => Pairs.checkEstablishment s peer).2 := by
      refine notes_onPairsAt ?_
      unfold Pairs.checkEstablishment Pairs.onExistingOutbound Pairs.onOutbound
      split
      · dsimp only
        split
        · exact .one rfl rfl
        · exact .of_eq rfl
      · exact .of_eq rfl
    unfold refuseUnknown
    split
    · rename_i failure d₁ hChecked
      rw [hChecked] at hCheck
      exact hRefused hCheck ⟨_, rfl⟩
    · rename_i d₁ hChecked
      rw [hChecked] at hCheck
      exact hRefused (hCheck.trans (notes_note _ d₁ rfl)) ⟨_, rfl⟩
  rename_i record hRecord
  split
  · exact hRefused (notes_note _ d rfl) ⟨_, rfl⟩
  split
  · exact hRefused (notes_note _ d rfl) ⟨_, rfl⟩
  -- on file
  obtain ⟨turned, others, hEvents, hOthers, hTurned⟩ :=
    Pairs.told_encrypt (P := P) (d.setting d.now) record level plaintext d.work
  rw [hFiled peer record hRecord] at hTurned
  have hAdds : d.audit.Adds (turned ++ others)
      (d.onPairs P fun s => Pairs.encrypt P s record level plaintext).2.audit := by
    have hAll : d.audit.Adds (Pairs.encrypt P (d.setting d.now) record level plaintext d.work).2.events
        (d.onPairs P fun s => Pairs.encrypt P s record level plaintext).2.audit :=
      Audit.Log.adds_appendAll d.audit _ d.now
    have hEvents : (Pairs.encrypt P (d.setting d.now) record level plaintext d.work).2.events =
        turned ++ others := hEvents
    rwa [hEvents] at hAll
  have hMade : (d.onPairs P fun s => Pairs.encrypt P s record level plaintext).1 =
      (Pairs.encrypt P (d.setting d.now) record level plaintext d.work).1 := rfl
  rw [← hMade] at hTurned
  unfold sendTo
  split
  · rename_i failure d₁ hWork
    rw [hWork] at hAdds hTurned
    exact ⟨turned, others, hAdds, hOthers, hTurned.imp_right fun h => ⟨h.1, _, rfl⟩⟩
  · rename_i e d₁ hWork
    rw [hWork] at hAdds hTurned
    refine ⟨turned, others, hAdds, hOthers, .inl (hTurned.resolve_right ?_)⟩
    rintro ⟨-, failure, hFailed⟩
    cases hFailed

-- ---------------------------------------------------------------------------
-- Entries that are gained
-- ---------------------------------------------------------------------------

variable (P) in
/-- The entries that an operation puts on record. -/
def gained (d : Device) (op : Operation) : List Audit.Entry :=
  (d.step P op).2.audit.entries.drop d.audit.entries.length

/-- A sweep of the log gains nothing. -/
theorem gained_sweepAudit (d : Device) : gained P d .sweepAudit = [] := by
  refine List.drop_eq_nil_of_le ?_
  show (d.audit.sweep d.config.retention d.now).2.entries.length ≤ d.audit.entries.length
  have hFlush : d.audit.flush.2.entries = d.audit.entries := by
    obtain ⟨more, hEntries, hNone⟩ := Audit.Log.adds_flush d.audit
    rw [hEntries, List.map_eq_nil_iff.1 hNone, List.append_nil]
  rw [← hFlush]
  unfold Audit.Log.sweep
  generalize d.audit.flush = flushed
  obtain ⟨answer, log⟩ := flushed
  cases answer with
  | error failure => exact Nat.le_refl _
  | ok count => exact List.length_filter_le ..

variable (P) in
/-- The entries that some operations put on record, earliest first. -/
def gainedDuring (d : Device) : List Operation → List Audit.Entry
  | [] => []
  | op :: rest => gained P d op ++ gainedDuring (step P d op).2 rest

/-- An operation that drops no entries keeps those that were there. -/
theorem entries_step (hFiled : d.contacts.Filed) {op : Operation} (hKeeps : op ≠ .sweepAudit) :
    (d.step P op).2.audit.entries = d.audit.entries ++ gained P d op := by
  cases hMessage : op.handlesMessage with
  | false =>
    obtain ⟨events, hAdds, -⟩ := notes_step (P := P) d op hMessage hKeeps
    exact hAdds.entries_eq
  | true =>
    cases op with
    | send peer level plaintext =>
      obtain ⟨turned, others, hAdds, -⟩ := adds_send (P := P) hFiled peer level plaintext
      exact hAdds.entries_eq
    | receive bytes =>
      obtain ⟨events, hAdds, -⟩ := notes_receive (P := P) bytes d
      exact hAdds.entries_eq
    | _ => cases hMessage

/-- A message to a peer puts no rotation on record but of the session with that peer. -/
theorem devices_of_gained_send (hFiled : d.contacts.Filed) {peer : String} {level : Level}
    {plaintext : Bytes} {e : Audit.Entry} (he : e ∈ gained P d (.send peer level plaintext))
    (hRotation : e.kind.isRotation = true) : e.devices = [d.id, peer] := by
  obtain ⟨turned, others, hAdds, hOthers, hTurned⟩ := adds_send (P := P) hFiled peer level plaintext
  have hEvent : e.toEvent ∈ turned ++ others := hAdds.drop ▸ List.mem_map_of_mem he
  rcases List.mem_append.1 hEvent with hMem | hMem
  · rcases hTurned with rfl | ⟨rfl, -⟩
    · exact (Outbound.of_mem_turns hMem).2
    · cases hMem
  · exact absurd ((hOthers _ hMem).symm.trans hRotation) Bool.false_ne_true

/-- **A rotation that is put on record** names a pair, and a message is sent to the peer of the pair,
or its session in use has ended. -/
theorem rotations_gained (hFiled : d.contacts.Filed) (op : Operation) {e : Audit.Entry}
    (he : e ∈ gained P d op) (hRotation : e.kind.isRotation = true) :
    ∃ peer, e.devices = [d.id, peer] ∧
      ((∃ level plaintext, op = .send peer level plaintext) ∨
        ((d.step P op).2.pairs.sending peer).current ≠ (d.pairs.sending peer).current) := by
  have hEvent {events : List Audit.Event} (hAdds : d.audit.Adds events (d.step P op).2.audit) :
      e.toEvent ∈ events := by
    rw [← hAdds.drop]
    exact List.mem_map_of_mem he
  cases hMessage : op.handlesMessage with
  | false =>
    by_cases hSweep : op = .sweepAudit
    · rw [hSweep, gained_sweepAudit] at he
      cases he
    · obtain ⟨events, hAdds, hAll⟩ := notes_step (P := P) d op hMessage hSweep
      obtain ⟨peer, hNames, hEnded⟩ := hAll _ (hEvent hAdds) hRotation
      exact ⟨peer, hNames, .inr hEnded⟩
  | true =>
    cases op with
    | send peer level plaintext =>
      exact ⟨peer, devices_of_gained_send hFiled he hRotation, .inl ⟨level, plaintext, rfl⟩⟩
    | receive bytes =>
      obtain ⟨events, hAdds, hAll⟩ := notes_receive (P := P) bytes d
      exact absurd ((hAll _ (hEvent hAdds)).1.symm.trans hRotation) Bool.false_ne_true
    | _ => cases hMessage

/-- Operations that drop no entries put those that they gain behind those that were there. -/
theorem entries_after (hFiled : d.contacts.Filed) {ops : List Operation}
    (hKeeps : .sweepAudit ∉ ops) :
    (after P d ops).audit.entries = d.audit.entries ++ gainedDuring P d ops := by
  induction ops generalizing d with
  | nil => exact (List.append_nil _).symm
  | cons op rest ih =>
    rw [List.mem_cons, not_or] at hKeeps
    have hMore := ih ((evolves_step (P := P) d op).filed hFiled) hKeeps.2
    rw [entries_step hFiled (Ne.symm hKeeps.1), List.append_assoc] at hMore
    exact hMore

end Device

end EndToEnd
