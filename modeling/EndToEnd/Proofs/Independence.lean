import EndToEnd.Proofs.Unswept

/-!
# Peers are independent

All pairs of a device share one index of deadlines, one log, and tables that fill as they are used.
Still, an operation that names a peer reaches only what there is about this peer: its record, the
two sides of the pair, and the entries of the index that belong to them.

Envelopes of two peers can therefore be opened in either order. Each finds what it needs as it was
before the other came (`Device.AwaitsAlike`), and changes nothing that the other needs.

Main results:

* `Device.spared_step` — whoever is not named is left alone.
* `Device.AwaitsAlike.receive`, `Device.receive_comm` — what the answer to an envelope depends on,
  and two envelopes in either order.
* `Device.peers_are_independent` — both, in every state of a run.
-/

namespace EndToEnd

/-- The peer that an operation names, if it names one: an envelope names its sender, and a bundle
the device that it comes from. -/
def Operation.peer? (limits : Envelope.Limits) : Operation → Option String
  | send peer .. | rotate peer | request peer => some peer
  | remember id _ | verify id _ | revoke id _ | crossSignPeer id => some id
  | receive bytes => (Envelope.decode limits bytes).toOption.map (·.sender)
  | importBundle text => (Bundle.parse text).toOption.map (·.deviceId)
  | _ => none

-- ---------------------------------------------------------------------------
-- Sessions with other peers
-- ---------------------------------------------------------------------------

namespace Pairs

/-- Work that leaves alone what belongs to a peer: both sides of the pair, with their sessions, the
number of the next epoch and whether they are barred, and the entries of the index. -/
structure Spared (peer : String) (w w' : Work Pairs) : Prop where
  outbound : w'.part.outbound? peer = w.part.outbound? peer
  inbound : w'.part.inbound? peer = w.part.inbound? peer
  deadlines : ∀ id : SessionId, id.peer = peer → w'.deadlines.get? id = w.deadlines.get? id

variable {peer named : String} {may : String → Prop} {w w' w'' : Work Pairs} {s : Setting} {α : Type}
  (own : String)

theorem Spared.refl (peer : String) (w : Work Pairs) : Spared peer w w := ⟨rfl, rfl, fun _ _ => rfl⟩

/-- What is spared twice is spared. -/
theorem Spared.trans (h : Spared peer w w') (h' : Spared peer w' w'') : Spared peer w w'' :=
  ⟨h'.outbound.trans h.outbound, h'.inbound.trans h.inbound,
    fun id hPeer => (h'.deadlines id hPeer).trans (h.deadlines id hPeer)⟩

theorem Spared.symm (h : Spared peer w w') : Spared peer w' w :=
  ⟨h.outbound.symm, h.inbound.symm, fun id hPeer => (h.deadlines id hPeer).symm⟩

section

variable (hOther : peer ≠ named)

include hOther

/-- Work on the sending side of one pair spares every other peer, if it touches the deadlines of
this side only. -/
theorem spared_onOutbound {op : Work Outbound → α × Work Outbound}
    (hOp : w.deadlines.Differs (SessionId.Of own named .outbound)
      (op (w.withPart (w.part.sending named))).2.deadlines) :
    Spared peer w (onOutbound named op w).2 := by
  obtain ⟨hOutbound, hInbound⟩ := outbound_onOutbound named peer op w hOther
  refine ⟨hOutbound, congrArg (·.get? peer) hInbound, fun id hPeer => hOp id ?_⟩
  rintro ⟨epoch, rfl⟩
  exact hOther hPeer.symm

/-- Work on the receiving side of one pair spares every other peer, if it touches the deadlines of
this side only. -/
theorem spared_onInbound {op : Work Inbound → α × Work Inbound}
    (hOp : w.deadlines.Differs (SessionId.Of own named .inbound)
      (op (w.withPart (w.part.receiving named))).2.deadlines) :
    Spared peer w (onInbound named op w).2 := by
  obtain ⟨hInbound, hOutbound⟩ := inbound_onInbound named peer op w hOther
  refine ⟨congrArg (·.get? peer) hOutbound, hInbound, fun id hPeer => hOp id ?_⟩
  rintro ⟨epoch, rfl⟩
  exact hOther hPeer.symm

/-- Likewise where the sending side has to be there. -/
theorem spared_onExistingOutbound {otherwise : α} {op : Work Outbound → α × Work Outbound}
    (hOp : w.deadlines.Differs (SessionId.Of own named .outbound)
      (op (w.withPart (w.part.sending named))).2.deadlines) :
    Spared peer w (onExistingOutbound named otherwise op w).2 := by
  unfold onExistingOutbound
  split
  · exact spared_onOutbound own hOther hOp
  · exact .refl peer w

theorem spared_request : Spared peer w (request s named w).2 :=
  spared_onOutbound s.own.deviceId hOther (.refl w.deadlines)

/-- Giving up an establishment spares the others. -/
theorem spared_checkEstablishment : Spared peer w (checkEstablishment s named w).2 := by
  refine spared_onExistingOutbound s.own.deviceId hOther ?_
  split
  · exact .refl w.deadlines
  · exact .refl w.deadlines

/-- A rotation spares the others. -/
theorem spared_rotate (h : Settled own may w) : Spared peer w (rotate s named w).2 :=
  spared_onExistingOutbound own hOther (Outbound.settles_expireCurrent s (h.sending named)).deadlines

/-- A message spares the others. -/
theorem spared_encrypt (h : Settled s.own.deviceId may w) {P : Primitives} {record : Peer}
    (hRecord : record.deviceId = named) (level : Level) (plaintext : Bytes) :
    Spared peer w (encrypt P s record level plaintext w).2 := by
  subst hRecord
  exact spared_onOutbound _ hOther (Outbound.differs_encrypt (h.sending record.deviceId) plaintext)

/-- An envelope spares the others. -/
theorem spared_decrypt (h : Named s.own.deviceId w) {P : Primitives} {sender : Peer}
    (hSender : sender.deviceId = named) (e : Envelope) :
    Spared peer w (decrypt P s sender e w).2 := by
  subst hSender
  refine spared_onInbound s.own.deviceId hOther ?_
  refine (Inbound.keeps_decrypt s P sender (h.receiving sender.deviceId) e).deadlines.mono ?_
  rintro id ⟨epoch, -, rfl⟩
  exact ⟨epoch, rfl⟩

/-- A revocation spares the others. -/
theorem spared_revoke (h : Settled own may w) : Spared peer w (revoke s named w).2 := by
  have hDrops := (drops_revoke s named w).2
  refine ⟨?_, ?_, fun id hPeer => ?_⟩
  · unfold revoke
    rw [Work.part_retireAll]
    exact (outbound_onOutbound named peer
      (fun v => (v.part.live, { v with part := { v.part.cleared with isRevoked := true } })) w
      hOther).1
  · unfold revoke
    rw [Work.part_retireAll]
    exact (inbound_onInbound named peer _ _ hOther).1
  · -- the sessions that are dropped are those of the peer that is named
    rw [hDrops.deadlines, if_neg]
    intro hMem
    exact hOther (hPeer.symm.trans (h.mem_liveWith_ids.1 hMem).1)

end

end Pairs

namespace Device

variable {P : Primitives} {d d' d'' start : Device} {may : String → Prop} {history : History}
  {peer named : String}

-- ---------------------------------------------------------------------------
-- Whoever is not named
-- ---------------------------------------------------------------------------

/-- What a device has about a peer is as it was before: the record of the peer, and the sessions
with it. -/
structure Spared (peer : String) (d d' : Device) : Prop where
  record : d'.contacts.get? peer = d.contacts.get? peer
  sessions : Pairs.Spared peer d.work d'.work

theorem Spared.refl (peer : String) (d : Device) : Spared peer d d := ⟨rfl, .refl peer d.work⟩

/-- What is spared by two operations is spared. -/
theorem Spared.trans (h : Spared peer d d') (h' : Spared peer d' d'') : Spared peer d d'' :=
  ⟨h'.record.trans h.record, h.sessions.trans h'.sessions⟩

/-- What happens to the log spares everybody. -/
theorem SameButLog.spared (h : d.SameButLog d') (peer : String) : Spared peer d d' := by
  obtain ⟨log, rfl⟩ := h
  exact ⟨rfl, .refl peer d.work⟩

/-- Work on the pairs that spares a peer spares what the device has about it. -/
theorem spared_onPairsAt {α : Type} {now : UInt64} {op : Setting → Work Pairs → α × Work Pairs}
    (hOp : Pairs.Spared peer d.work (op (d.setting now) d.work).2) :
    Spared peer d (d.onPairsAt P now op).2 :=
  ⟨rfl, hOp.outbound, hOp.inbound, hOp.deadlines⟩

theorem spared_recording {α : Type} (event : Audit.Event) (result : Except Failure α) (d : Device)
    (peer : String) : Spared peer d (d.recording P event result).2 := by
  rw [recording_eq]
  exact (sameButLog_record event d).spared peer

section

variable (hOther : peer ≠ named)

include hOther

/-- **Sending to a peer** leaves all others alone, whether the message is made or refused. -/
theorem spared_send (hFiled : d.contacts.Filed) (hSettled : d.Settled may) (level : Level)
    (plaintext : Bytes) : Spared peer d (d.send P named level plaintext).2 := by
  unfold send
  split
  · -- not on file
    have hCheck : Spared peer d (d.onPairs P fun s => Pairs.checkEstablishment s named).2 :=
      spared_onPairsAt (Pairs.spared_checkEstablishment hOther)
    unfold refuseUnknown
    split
    · simpa only [‹onPairs P _ d = _›] using hCheck
    · rename_i d₁ hChecked
      rw [hChecked] at hCheck
      exact hCheck.trans ((sameButLog_note _ d₁).spared peer)
  · rename_i record hRecord
    split
    · exact (sameButLog_note _ d).spared peer
    split
    · exact (sameButLog_note _ d).spared peer
    · -- on file and trusted: the session of the named peer makes the envelope
      have hSettled : Pairs.Settled (d.setting d.now).own.deviceId may d.work := hSettled
      have hMade : Spared peer d (d.onPairs P fun s => Pairs.encrypt P s record level plaintext).2 :=
        spared_onPairsAt (Pairs.spared_encrypt hOther hSettled (hFiled named record hRecord) level
          plaintext)
      unfold sendTo
      split <;> simpa only [‹onPairs P _ d = _›] using hMade

/-- **Receiving from a peer** leaves all others alone, whether the envelope is opened or rejected. -/
theorem spared_receive (hFiled : d.contacts.Filed) (hNamed : d.Named) {bytes : Bytes} {e : Envelope}
    (hDecoded : Envelope.decode d.config.limits bytes = .ok e) (hSender : e.sender = named) :
    Spared peer d (d.receive P bytes).2 := by
  rcases receive_cases (d.receive P bytes).eta.symm with
    ⟨-, -, hLog⟩ | ⟨e', sender, opened, w, hDecoded', hAuthentic, hw, -, hLeft, -⟩
  · exact hLog.spared peer
  · rw [hDecoded] at hDecoded'
    cases hDecoded'
    have hId : sender.deviceId = named :=
      (hFiled _ _ (authenticate_eq_ok hAuthentic).1).trans hSender
    have hNamed : Pairs.Named (d.setting d.now).own.deviceId d.work := hNamed
    have hSpared := Pairs.spared_decrypt hOther hNamed (P := P) hId e
    rw [hw] at hSpared
    refine ⟨by rw [contacts_receive], ?_⟩
    unfold Device.work
    rw [hLeft.1, hLeft.2]
    exact ⟨hSpared.outbound, hSpared.inbound, hSpared.deadlines⟩

/-- Meeting one peer spares every other. -/
theorem spared_remember (keys : PublicKeys) : Spared peer d (d.remember P named keys).2 := by
  unfold remember
  split
  · rename_i record contacts hRemember
    refine ⟨?_, .refl peer d.work⟩
    obtain ⟨-, ⟨-, -, rfl⟩ | ⟨-, -, rfl⟩⟩ := Contacts.remember_eq_ok_iff.1 hRemember
    · exact (Table.get?_insert ..).trans (if_neg hOther)
    · rfl
  · rename_i id _
    exact spared_recording _ (.error (.keyMismatch id)) d peer
  · exact .refl peer d

/-- Evidence about one peer spares every other. -/
theorem spared_verify (evidence : Evidence) : Spared peer d (d.verify P named evidence).2 := by
  rcases verify_cases (P := P) named evidence d with hLog | ⟨proposed, hLog⟩
  · exact hLog.spared peer
  · obtain ⟨log, hLog⟩ := hLog
    rw [hLog]
    exact ⟨(Contacts.get?_update ..).trans (if_neg hOther), .refl peer d.work⟩

/-- **Evidence about a peer** leaves all others alone, even if it makes the peer revoked. -/
theorem spared_applyEvidence (hSettled : d.Settled may) (evidence : Evidence) :
    Spared peer d (d.applyEvidence P named evidence).2 := by
  have hVerified := spared_verify (P := P) (d := d) hOther evidence
  obtain ⟨hEvolves, -, hWork⟩ := verify_same (P := P) named evidence d
  unfold applyEvidence
  generalize d.verify P named evidence = verified at *
  obtain ⟨verified, d₁⟩ := verified
  dsimp only at *
  split
  · have hSettled : Pairs.Settled d.id may d₁.work := hWork ▸ hSettled
    exact hVerified.trans (spared_onPairsAt (Pairs.spared_revoke _ hOther hSettled))
  · exact hVerified

/-- **Whoever is not named is left alone.** -/
theorem spared_step (hFiled : d.contacts.Filed) (hSettled : d.Settled may) (hNamed : d.Named)
    {op : Operation} (hOp : op.peer? d.config.limits = some named) :
    Spared peer d (d.step P op).2 := by
  cases op with
  | send id level plaintext =>
    cases hOp
    exact spared_send hOther hFiled hSettled level plaintext
  | receive bytes =>
    obtain ⟨e, hDecoded, hSender⟩ := exists_ok_of_map hOp
    exact spared_receive hOther hFiled hNamed hDecoded hSender
  | remember id keys =>
    cases hOp
    exact spared_remember hOther keys
  -- a bundle names the peer that it is of
  | importBundle text =>
    obtain ⟨bundle, hParsed, rfl⟩ := exists_ok_of_map hOp
    show Spared peer d (d.importBundle P text).2
    unfold importBundle
    rw [hParsed]
    dsimp only
    split
    · exact .refl peer d
    · exact spared_remember hOther _
  | verify id evidence =>
    cases hOp
    exact spared_applyEvidence hOther hSettled evidence
  | revoke id reason =>
    cases hOp
    exact spared_applyEvidence hOther hSettled (.revocation reason)
  | crossSignPeer id =>
    cases hOp
    show Spared peer d (d.crossSignPeer P named).2
    unfold crossSignPeer
    split
    · exact .refl peer d
    · exact spared_applyEvidence hOther hSettled _
  | rotate id =>
    cases hOp
    have hRotated : Spared peer d (d.onPairs P fun s => Pairs.rotate s named).2 :=
      spared_onPairsAt (Pairs.spared_rotate _ hOther hSettled)
    show Spared peer d (d.rotate P named).2
    unfold rotate
    -- an epoch that was ended is put on record, which concerns nobody else
    split
    · simpa only [‹onPairs P _ d = _›] using hRotated
    · rename_i epoch d₁ hEnded
      rw [hEnded] at hRotated
      exact hRotated.trans (spared_recording _ (.ok (some epoch)) d₁ peer)
  | request id =>
    cases hOp
    have hRequested : Spared peer d (d.onPairs P fun s => Pairs.request s named).2 :=
      spared_onPairsAt (Pairs.spared_request hOther)
    exact hRequested
  -- the others name no peer
  | _ => cases hOp

end

end Device

-- ---------------------------------------------------------------------------
-- Envelopes of two peers
-- ---------------------------------------------------------------------------

/-- A side that has shed nothing is the same. -/
theorem Inbound.Lighter.eq {lost : UInt64 → Prop} {now : UInt64} {i i' : Inbound}
    (h : Lighter lost now i i') (hNone : ∀ epoch, ¬lost epoch) : i' = i := by
  obtain ⟨epochs, latest, isRevoked⟩ := i
  obtain ⟨epochs', latest', isRevoked'⟩ := i'
  obtain rfl : epochs' = epochs := Table.ext_get? fun epoch => h.kept epoch (hNone epoch)
  obtain rfl : latest' = latest := h.latest
  obtain rfl : isRevoked' = isRevoked := h.isRevoked
  rfl

/-- **An envelope is opened alike** wherever its sender was left alone. -/
theorem Pairs.concur_decrypt_of_spared {s : Setting} {P : Primitives} {sender : Peer}
    {w w' : Work Pairs} (hNamed : Named s.own.deviceId w) (hRandom : w'.random = w.random)
    (h : Spared sender.deviceId w w') (e : Envelope) :
    Concur (Spared sender.deviceId) (decrypt P s sender e w) (decrypt P s sender e w') := by
  have hSide : w'.part.receiving sender.deviceId = w.part.receiving sender.deviceId := by
    unfold receiving
    rw [h.inbound]
  have hOwn := hNamed.receiving sender.deviceId
  have hSheds : Inbound.Sheds s.own.deviceId sender.deviceId (·.peer ≠ sender.deviceId) s.now
      (w.withPart (w.part.receiving sender.deviceId))
      (w'.withPart (w'.part.receiving sender.deviceId)) := by
    refine ⟨?_, fun id hKept => h.deadlines id (Decidable.not_not.1 hKept), hRandom⟩
    rw [hSide]
    exact .refl _ _ fun epoch hLost => hLost rfl
  obtain ⟨hAnswer, hPart, hDeadlines, -⟩ := Inbound.concur_decrypt (P := P) hSheds hOwn (hSide ▸ hOwn) e
  refine ⟨hAnswer, h.outbound, ?_, fun id hPeer => hDeadlines id (not_not_intro hPeer)⟩
  have hSame := hPart.eq fun epoch hLost => hLost rfl
  exact (Table.get?_insert_self ..).trans
    ((congrArg some hSame).trans (Table.get?_insert_self ..).symm)

namespace Device

variable {P : Primitives} {d d' start : Device} {history : History} {peer other : String}

/-- A rejection does not change whether the sink takes entries. -/
theorem isFull_reject (sender : Option String) (failure : Failure) (d : Device) :
    (d.reject P sender failure).2.audit.sink.isFull = d.audit.sink.isFull := by
  show (d.recording P ⟨rejectionKind failure, d.id :: sender.toList, .failure, failure.message⟩
    (.error failure : Except Failure ReceivedMessage)).2.audit.sink.isFull = _
  rw [recording_eq]
  exact (d.audit.record_result _ d.now).2

/-- Nothing that is received changes whether the sink takes entries. -/
theorem isFull_receive (bytes : Bytes) (d : Device) :
    (d.receive P bytes).2.audit.sink.isFull = d.audit.sink.isFull := by
  unfold receive
  split
  · exact isFull_reject ..
  rename_i e _
  unfold receiveEnvelope
  split
  · exact isFull_reject ..
  rename_i sender _
  have hOpened : (d.onPairs P fun s => Pairs.decrypt P s sender e).2.audit.sink.isFull =
      d.audit.sink.isFull := Audit.Log.isFull_appendAll ..
  split
  · rename_i hWork
    rw [hWork] at hOpened
    exact (isFull_reject ..).trans hOpened
  · rename_i hWork
    rw [hWork] at hOpened
    exact hOpened

/-- Two devices at which an envelope of a peer finds the same. -/
structure AwaitsAlike (peer : String) (d d' : Device) : Prop where
  config : d'.config = d.config
  identity : d'.identity = d.identity
  contacts : d'.contacts = d.contacts
  now : d'.now = d.now
  random : d'.random = d.random
  sink : d'.audit.sink.isFull = d.audit.sink.isFull
  sessions : Pairs.Spared peer d.work d'.work

/-- Two devices reject an envelope in the same words. -/
theorem AwaitsAlike.reject (h : AwaitsAlike peer d d') (sender : Option String)
    (failure : Failure) :
    Concur (AwaitsAlike peer) (d.reject P sender failure) (d'.reject P sender failure) := by
  let event : Audit.Event :=
    ⟨rejectionKind failure, d.id :: sender.toList, .failure, failure.message⟩
  have hReject : d.reject P sender failure = d.recording P event (.error failure) := rfl
  have hReject' : d'.reject P sender failure = d'.recording P event (.error failure) := by
    have hId : d'.id = d.id := congrArg Identity.deviceId h.identity
    show d'.recording P ⟨rejectionKind failure, d'.id :: sender.toList, .failure,
      failure.message⟩ (.error failure) = _
    rw [hId]
  have hSink := (isFull_reject (P := P) sender failure d').trans
    (h.sink.trans (isFull_reject (P := P) sender failure d).symm)
  rw [hReject, hReject', recording_eq, recording_eq] at hSink ⊢
  refine ⟨?_, h.config, h.identity, h.contacts, h.now, h.random, hSink, h.sessions⟩
  dsimp only
  rw [h.sink]

/-- Two devices open an envelope to the same text. -/
theorem AwaitsAlike.opens {sender : Peer} (h : AwaitsAlike sender.deviceId d d') (hNamed : d.Named)
    (e : Envelope) :
    Concur (AwaitsAlike sender.deviceId) (d.onPairs P fun s => Pairs.decrypt P s sender e)
      (d'.onPairs P fun s => Pairs.decrypt P s sender e) := by
  have hSetting : d'.setting d'.now = d.setting d.now := by
    unfold Device.setting
    rw [h.identity, h.config, h.now]
  have hNamed : Pairs.Named (d.setting d.now).own.deviceId d.work := hNamed
  have hOpened : Concur (Pairs.Spared sender.deviceId)
      (Pairs.decrypt P (d.setting d.now) sender e d.work)
      (Pairs.decrypt P (d'.setting d'.now) sender e d'.work) := by
    rw [hSetting]
    exact Pairs.concur_decrypt_of_spared hNamed h.random h.sessions e
  have hDrawn (d : Device) : (Pairs.decrypt P (d.setting d.now) sender e d.work).2.random =
      d.random := Inbound.random_decrypt ..
  have hSpared := hOpened.states
  refine ⟨hOpened.answer, h.config, h.identity, h.contacts, h.now, ?_, ?_,
    hSpared.outbound, hSpared.inbound, hSpared.deadlines⟩
  · exact (hDrawn d').trans (h.random.trans (hDrawn d).symm)
  · exact (Audit.Log.isFull_appendAll ..).trans
      (h.sink.trans (Audit.Log.isFull_appendAll ..).symm)

/-- **An envelope is answered alike** wherever it finds the same. -/
theorem AwaitsAlike.receive {e : Envelope} (h : AwaitsAlike e.sender d d')
    (hFiled : d.contacts.Filed) (hNamed : d.Named) {bytes : Bytes}
    (hDecoded : Envelope.decode d.config.limits bytes = .ok e) :
    Concur (AwaitsAlike e.sender) (d.receive P bytes) (d'.receive P bytes) := by
  have hAuthenticate : d'.authenticate P e = d.authenticate P e := by
    have hId : d'.id = d.id := congrArg Identity.deviceId h.identity
    unfold authenticate
    rw [hId, h.contacts]
  unfold Device.receive
  rw [h.config, hDecoded]
  dsimp only
  unfold receiveEnvelope
  rw [hAuthenticate]
  split
  · exact h.reject (some e.sender) _
  rename_i sender hAuthentic
  have hId : sender.deviceId = e.sender := hFiled _ _ (authenticate_eq_ok hAuthentic).1
  rw [← hId] at h ⊢
  obtain ⟨opened, d₁, d₁', hd, hd', hAlike⟩ := (h.opens (P := P) hNamed e).exists_eq
  rw [hd, hd']
  cases opened with
  | error failure => exact hAlike.reject (some sender.deviceId) failure
  | ok plaintext => exact ⟨rfl, hAlike⟩

/-- **Behind an envelope of one peer,** the envelopes of all others find the same as before. -/
theorem awaitsAlike_receive (hFiled : d.contacts.Filed) (hNamed : d.Named) {bytes : Bytes}
    {e : Envelope} (hDecoded : Envelope.decode d.config.limits bytes = .ok e)
    (hOther : peer ≠ e.sender) : AwaitsAlike peer d (d.receive P bytes).2 := by
  have hSpared := spared_receive (P := P) hOther hFiled hNamed hDecoded rfl
  have hSink := isFull_receive (P := P) bytes d
  have hRest := sameButReceiving_receive (P := P) bytes d
  generalize (d.receive P bytes).2 = d' at hSpared hSink hRest
  obtain ⟨inbound, deadlines, log, rfl⟩ := hRest
  exact ⟨rfl, rfl, rfl, rfl, rfl, hSink, hSpared.sessions⟩

/-- Two devices that came of one differ in their logs only, if they have the same sessions with
every peer and neither of them has done more than receive. -/
theorem sameButLog_of_spared {d₁ d₂ : Device} (h₁ : d.SameButReceiving d₁)
    (h₂ : d.SameButReceiving d₂) (hSame : ∀ peer, Pairs.Spared peer d₁.work d₂.work) :
    d₁.SameButLog d₂ := by
  obtain ⟨inbound, deadlines, log, rfl⟩ := h₁
  obtain ⟨inbound', deadlines', log', rfl⟩ := h₂
  obtain rfl : inbound' = inbound := Table.ext_get? fun peer => (hSame peer).inbound
  obtain rfl : deadlines' = deadlines := Table.ext_get? fun id => (hSame id.peer).deadlines id rfl
  exact ⟨log', rfl⟩

/-- Devices that differ in what they receive with, step by step. -/
theorem SameButReceiving.trans {d'' : Device} (h : d.SameButReceiving d')
    (h' : d'.SameButReceiving d'') : d.SameButReceiving d'' := by
  obtain ⟨_, _, _, rfl⟩ := h
  obtain ⟨_, _, _, rfl⟩ := h'
  exact ⟨_, _, _, rfl⟩

/-- **Envelopes of two peers can be opened in either order.** -/
theorem receive_comm (hFiled : d.contacts.Filed) (hNamed : d.Named) {bytes bytes' : Bytes}
    {e e' : Envelope} (hDecoded : Envelope.decode d.config.limits bytes = .ok e)
    (hDecoded' : Envelope.decode d.config.limits bytes' = .ok e') (hOther : e'.sender ≠ e.sender) :
    let d₁ := (d.receive P bytes).2
    let d₂ := (d.receive P bytes').2
    (d₂.receive P bytes).1 = (d.receive P bytes).1 ∧
      (d₁.receive P bytes').1 = (d.receive P bytes').1 ∧
      (d₁.receive P bytes').2.SameButLog (d₂.receive P bytes).2 := by
  intro d₁ d₂
  have hEvolves₁ := evolves_receive (P := P) bytes d
  have hEvolves₂ := evolves_receive (P := P) bytes' d
  have hNamed₁ : d₁.Named := named_step (P := P) hFiled hNamed (.receive bytes)
  have hNamed₂ : d₂.Named := named_step (P := P) hFiled hNamed (.receive bytes')
  have hDecoded₁ : Envelope.decode d₁.config.limits bytes' = .ok e' := by
    rw [hEvolves₁.config, hDecoded']
  have hDecoded₂ : Envelope.decode d₂.config.limits bytes = .ok e := by
    rw [hEvolves₂.config, hDecoded]
  have hFirst : Concur (AwaitsAlike e.sender) (d.receive P bytes) (d₂.receive P bytes) :=
    (awaitsAlike_receive hFiled hNamed hDecoded' hOther.symm).receive hFiled hNamed hDecoded
  have hSecond : Concur (AwaitsAlike e'.sender) (d.receive P bytes') (d₁.receive P bytes') :=
    (awaitsAlike_receive hFiled hNamed hDecoded hOther).receive hFiled hNamed hDecoded'
  refine ⟨hFirst.answer, hSecond.answer, ?_⟩
  refine sameButLog_of_spared
    ((sameButReceiving_receive bytes d).trans (sameButReceiving_receive bytes' d₁))
    ((sameButReceiving_receive bytes' d).trans (sameButReceiving_receive bytes d₂)) fun peer => ?_
  -- what each envelope leaves alone, in both orders
  have hLeft {peer : String} (h : peer ≠ e'.sender) : Pairs.Spared peer d₁.work _ :=
    (spared_receive (P := P) h (hEvolves₁.filed hFiled) hNamed₁ hDecoded₁ rfl).sessions
  have hRight {peer : String} (h : peer ≠ e.sender) : Pairs.Spared peer d₂.work _ :=
    (spared_receive (P := P) h (hEvolves₂.filed hFiled) hNamed₂ hDecoded₂ rfl).sessions
  by_cases hPeer : peer = e.sender
  · subst hPeer
    exact (hLeft hOther.symm).symm.trans hFirst.states.sessions
  by_cases hPeer' : peer = e'.sender
  · subst hPeer'
    exact hSecond.states.sessions.symm.trans (hRight hPeer)
  · have hOnce := (spared_receive (P := P) hPeer hFiled hNamed hDecoded rfl).sessions
    have hOnce' := (spared_receive (P := P) hPeer' hFiled hNamed hDecoded' rfl).sessions
    exact (hLeft hPeer').symm.trans (hOnce.symm.trans (hOnce'.trans (hRight hPeer)))

/-- **Peers are independent.** In every state of a run, an operation that names a peer leaves alone
what the device has about any other peer, whatever it answers: the record, both sides of the pair
with their sessions and key chains, the number of the next epoch, whether the sides are barred, and
the deadlines. And of two envelopes of different peers that are given one after the other, each is
answered as if it were the only one, in either order, and the devices that come of it are the same
except for their logs.

In the run no counter passes `2 ^ 64 - 1`. -/
theorem peers_are_independent (hStart : Starts P start) (hRun : Run P start history d)
    (hOther : other ≠ peer) :
    (∀ op : Operation, op.peer? d.config.limits = some peer → Spared other d (d.step P op).2) ∧
      ∀ bytes bytes', (Operation.receive bytes).peer? d.config.limits = some peer →
        (Operation.receive bytes').peer? d.config.limits = some other →
        let first := d.receive P bytes
        let second := first.2.receive P bytes'
        let first' := d.receive P bytes'
        let second' := first'.2.receive P bytes
        second'.1 = first.1 ∧ second.1 = first'.1 ∧ second.2.SameButLog second'.2 := by
  have hFiled := hRun.filed hStart
  have hNamed := hRun.named hStart
  refine ⟨fun op hOp => spared_step hOther hFiled (hRun.settled hStart) hNamed hOp,
    fun bytes bytes' hPeer hPeer' => ?_⟩
  obtain ⟨e, hDecoded, rfl⟩ := exists_ok_of_map hPeer
  obtain ⟨e', hDecoded', rfl⟩ := exists_ok_of_map hPeer'
  exact receive_comm hFiled hNamed hDecoded hDecoded' hOther

/-- What Cara writes to Bob. -/
def carasLetters : List Bytes :=
  (during .plain (plain .standard "cara" 7)
    [meetPlain "bob" 3, .send "bob" .basic [5], .send "bob" .military [6]]).written "bob"

/-- Bob knows Ann and Cara, has a letter of each, and has written to both. -/
def visitedOps : List Operation :=
  [meetPlain "ann" 1, meetPlain "cara" 7] ++
    ((plainLetters .standard [.send "bob" .basic [1]]).take 1 ++ carasLetters.take 1).map .receive ++
    [.send "ann" .basic [2], .send "cara" .basic [3], .rotate "cara"]

/-- What Bob does with Ann, and the letters of both in either order. -/
theorem peers_are_independent_of_visited :
    let bob := after .plain (plain .standard "bob" 3) visitedOps
    let fromAnn :=
      (plainLetters .standard [.send "bob" .basic [1], .send "bob" .military [4]]).getLastD []
    let fromCara := carasLetters.getLastD []
    let first := bob.receive .plain fromAnn
    let second := first.2.receive .plain fromCara
    let first' := bob.receive .plain fromCara
    let second' := first'.2.receive .plain fromAnn
    (bob.pairs.liveWith "cara").map (·.state) = [.expiring, .active] ∧
      Spared "cara" bob (bob.step .plain (.revoke "ann" "lost")).2 ∧
      first.1.toOption.map (·.plaintext) = some [4] ∧
      second.1.toOption.map (·.plaintext) = some [6] ∧
      second'.1 = first.1 ∧ second.1 = first'.1 ∧ second.2.SameButLog second'.2 := by
  intro bob fromAnn fromCara first second first' second'
  obtain ⟨hSpared, hOrders⟩ := peers_are_independent (plain_starts "bob" 3 rfl)
    (run_after (show allReturn .plain (plain .standard "bob" 3) visitedOps = true by decide +kernel))
    (show "cara" ≠ "ann" by decide)
  exact ⟨by decide +kernel, hSpared (.revoke "ann" "lost") rfl, by decide +kernel,
    by decide +kernel, hOrders fromAnn fromCara (by decide +kernel) (by decide +kernel)⟩

end Device

end EndToEnd
