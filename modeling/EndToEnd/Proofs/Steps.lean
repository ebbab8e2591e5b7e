import EndToEnd.Proofs.Run

/-!
# What one operation does to a device

Every operation leaves the configuration and the identity alone, keeps the peers on file with their
keys, and works on the sessions by one of the operations of `Pairs`. Everything else that is proved
about runs rests on these facts.

Main results:

* `Device.evolves_step` — what no operation changes.
* `Device.calms_step`, `Device.send_cases`, `Device.receive_cases` — what an operation does to the
  sessions, and what it answers.
* `Device.Run.evolves` — the same for runs.
-/

namespace EndToEnd

/-- An envelope that is for a device with some identity and, where its level signs, signed with some
keys. -/
structure Envelope.Authentic (P : Primitives) (own : Identity) (keys : PublicKeys) (e : Envelope) :
    Prop where
  addressed : e.recipient = own.deviceId
  signed : e.level.suite.isSigned = true →
    ∃ signature, e.signature = some signature ∧ keys.verify P e.signingBytes signature = true

-- ---------------------------------------------------------------------------
-- Peers on file
-- ---------------------------------------------------------------------------

/-- Evidence changes the trust in a peer and the reason of a revocation, and nothing else. -/
theorem Evidence.apply_eq (evidence : Evidence) (proposed : Trust) (peer : Peer) :
    ∃ reason, evidence.apply proposed peer =
      { peer with trust := peer.trust.merge proposed, revocationReason := reason } := by
  unfold Evidence.apply
  dsimp only
  split
  · split <;> exact ⟨_, rfl⟩
  · exact ⟨_, rfl⟩

namespace Contacts

/-- Every peer is on file under its own id. -/
def Filed (c : Contacts) : Prop := ∀ id peer, c.get? id = some peer → peer.deviceId = id

/-- Peers stay on file with their ids and keys, and one that is revoked stays so. -/
def Grows (c c' : Contacts) : Prop :=
  ∀ id peer, c.get? id = some peer →
    ∃ peer', c'.get? id = some peer' ∧ peer'.deviceId = peer.deviceId ∧ peer'.keys = peer.keys ∧
      (peer.isRevoked = true → peer'.isRevoked = true)

theorem Grows.refl (c : Contacts) : c.Grows c := fun _ peer h => ⟨peer, h, rfl, rfl, id⟩

/-- What is on file grows from beginning to end if it does step by step. -/
theorem Grows.trans {c c' c'' : Contacts} (h : c.Grows c') (h' : c'.Grows c'') : c.Grows c'' := by
  intro id peer hPeer
  obtain ⟨peer', hPeer', hId', hKeys', hRevoked'⟩ := h id peer hPeer
  obtain ⟨peer'', hPeer'', hId'', hKeys'', hRevoked''⟩ := h' id peer' hPeer'
  exact ⟨peer'', hPeer'', hId''.trans hId', hKeys''.trans hKeys', hRevoked'' ∘ hRevoked'⟩

/-- Meeting a peer adds it under its own id, or changes nothing. -/
theorem grows_remember {c c' : Contacts} {own : Option String} {id : String} {keys : PublicKeys}
    {now : UInt64} {peer : Peer} (h : c.remember own id keys now = .ok (peer, c')) :
    c.Grows c' ∧ (c.Filed → c'.Filed) := by
  obtain ⟨-, ⟨hAbsent, rfl, rfl⟩ | ⟨-, -, rfl⟩⟩ := remember_eq_ok_iff.1 h
  · have hGet (other : String) :
        ({ c with peers := c.peers.insert id (.met id keys now) } : Contacts).get? other =
          if other = id then some (.met id keys now) else c.get? other :=
      Table.get?_insert ..
    constructor
    · intro other peer hPeer
      refine ⟨peer, ?_, rfl, rfl, fun h => h⟩
      rw [hGet, if_neg, hPeer]
      rintro rfl
      rw [hAbsent] at hPeer
      cases hPeer
    · intro hFiled other peer hPeer
      rw [hGet] at hPeer
      split at hPeer
      · cases hPeer
        exact Eq.symm ‹other = id›
      · exact hFiled other peer hPeer
  · exact ⟨.refl _, fun h => h⟩

/-- Evidence changes the trust in a peer, never its id or keys. -/
theorem grows_update (c : Contacts) (id : String) (now : UInt64) (evidence : Evidence)
    (proposed : Trust) :
    c.Grows (c.update id now (evidence.apply proposed)) ∧
      (c.Filed → (c.update id now (evidence.apply proposed)).Filed) := by
  constructor
  · intro other peer hPeer
    by_cases hOther : other = id
    · subst hOther
      obtain ⟨reason, hApply⟩ := Evidence.apply_eq evidence proposed peer
      refine ⟨{ evidence.apply proposed peer with updatedAt := now }, ?_, ?_, ?_, ?_⟩
      · rw [get?_update, if_pos rfl, hPeer]
        rfl
      · rw [hApply]
      · rw [hApply]
      · -- no verdict makes a revoked peer trusted again
        intro hRevoked
        simp only [Peer.isRevoked, decide_eq_true_eq] at hRevoked ⊢
        rw [hApply]
        show peer.trust.merge proposed = .revoked
        rw [hRevoked, Trust.revoked_merge]
    · exact ⟨peer, by rw [get?_update, if_neg hOther, hPeer], rfl, rfl, fun h => h⟩
  · intro hFiled other peer' hPeer'
    rw [get?_update] at hPeer'
    split at hPeer'
    · rename_i hOther
      subst hOther
      obtain ⟨peer, hPeer, rfl⟩ := Option.map_eq_some_iff.1 hPeer'
      obtain ⟨reason, hApply⟩ := Evidence.apply_eq evidence proposed peer
      rw [hApply]
      exact hFiled other peer hPeer
    · exact hFiled other peer' hPeer'

end Contacts

namespace Device

variable {P : Primitives}

-- ---------------------------------------------------------------------------
-- What no operation changes
-- ---------------------------------------------------------------------------

/-- A device later in its life. -/
structure Evolves (d d' : Device) : Prop where
  config : d'.config = d.config
  identity : d'.identity = d.identity
  contacts : d.contacts.Grows d'.contacts
  filed : d.contacts.Filed → d'.contacts.Filed

theorem Evolves.refl (d : Device) : d.Evolves d := ⟨rfl, rfl, .refl _, fun h => h⟩

/-- A device later in its later life is later in its life. -/
theorem Evolves.trans {d d' d'' : Device} (h : d.Evolves d') (h' : d'.Evolves d'') :
    d.Evolves d'' :=
  ⟨h'.config.trans h.config, h'.identity.trans h.identity, h.contacts.trans h'.contacts,
    h'.filed ∘ h.filed⟩

/-- The keys of a peer that are on file later were so from the first. -/
theorem Evolves.keys_of {d d' : Device} {id : String} {keys : PublicKeys} (h : d.Evolves d')
    (hKeys : ∀ record, d'.contacts.get? id = some record → record.keys = keys) :
    ∀ record, d.contacts.get? id = some record → record.keys = keys := by
  intro record hRecord
  obtain ⟨record', hRecord', -, hSame, -⟩ := h.contacts id record hRecord
  rw [← hSame]
  exact hKeys record' hRecord'

/-- A peer that is revoked stays so. -/
theorem isRevoked_of_evolves {d d' : Device} {peer : String} (h : d.Evolves d')
    (hRevoked : d.isRevoked peer = true) : d'.isRevoked peer = true := by
  obtain ⟨record, hRecord, hRevoked⟩ := (Option.any_eq_true _ _).1 hRevoked
  obtain ⟨record', hRecord', -, -, hStays⟩ := h.contacts peer record hRecord
  exact (Option.any_eq_true _ _).2 ⟨record', hRecord', hStays hRevoked⟩

/-- The sessions of a device, as its operations work on them. -/
def work (d : Device) : Work Pairs := ⟨d.pairs, d.deadlines, d.random, []⟩

/-- The sessions of a device are those that some work left behind. -/
def Left (d : Device) (w : Work Pairs) : Prop := d.pairs = w.part ∧ d.deadlines = w.deadlines

/-- An operation that handles no message: the sessions change by one of the calm operations, and a
peer is barred only if it is then revoked. -/
structure Calms (now : UInt64) (closing : Prop) (d d' : Device) : Prop where
  evolves : d.Evolves d'
  sessions : ∃ w, Pairs.Calm (d.setting now) (fun peer => d'.isRevoked peer = true) closing
    d.work w ∧
    d'.Left w

variable {closing : Prop}

/-- An operation that leaves the sessions alone. -/
theorem Calms.of_same {now : UInt64} {d d' : Device} (hEvolves : d.Evolves d')
    (hPairs : d'.pairs = d.pairs) (hDeadlines : d'.deadlines = d.deadlines) :
    Calms now closing d d' :=
  ⟨hEvolves, d.work, .nothing, hPairs, hDeadlines⟩

/-- A device that differs in its log only. -/
def SameButLog (d d' : Device) : Prop := ∃ log, d' = { d with audit := log }

/-- A device that differs in its log only keeps its sessions. -/
theorem SameButLog.pairs {d d' : Device} (h : d.SameButLog d') : d'.pairs = d.pairs := by
  obtain ⟨log, rfl⟩ := h
  rfl

/-- What then happens to the log does not matter to the sessions. -/
theorem SameButLog.calms {now : UInt64} {d d₁ d₂ : Device} (h : d₁.SameButLog d₂)
    (hCalms : Calms now closing d d₁) : Calms now closing d d₂ := by
  obtain ⟨log, rfl⟩ := h
  exact ⟨⟨hCalms.evolves.config, hCalms.evolves.identity, hCalms.evolves.contacts,
    hCalms.evolves.filed⟩, hCalms.sessions⟩

/-- Putting a critical event on record changes the log only. -/
theorem sameButLog_record (event : Audit.Event) (d : Device) :
    d.SameButLog (d.record P event).2 := ⟨_, rfl⟩

/-- A note changes the log only. -/
theorem sameButLog_note (event : Audit.Event) (d : Device) :
    d.SameButLog (d.note P event) := ⟨_, rfl⟩

/-- Delivering what waits changes the log only. -/
theorem sameButLog_flushAudit (d : Device) : d.SameButLog d.flushAudit.2 := ⟨_, rfl⟩

/-- A sweep of the log changes the log only. -/
theorem sameButLog_sweepAudit (d : Device) : d.SameButLog d.sweepAudit.2 := ⟨_, rfl⟩

/-- **What work on the pairs makes of a device:** its sessions and deadlines are what the work left,
and nobody on file has changed. -/
theorem onPairsAt_eq {α : Type} {now : UInt64} {op : Setting → Work Pairs → α × Work Pairs}
    {d d' : Device} {result : α} (h : d.onPairsAt P now op = (result, d')) :
    ∃ w, op (d.setting now) d.work = (result, w) ∧ d.Evolves d' ∧ d'.Left w ∧
      d'.contacts = d.contacts := by
  unfold onPairsAt at h
  cases h
  exact ⟨_, rfl, ⟨rfl, rfl, .refl _, fun h => h⟩, ⟨rfl, rfl⟩, rfl⟩

/-- Calm work on the pairs is a calm operation of the device. -/
theorem calms_onPairsAt (P : Primitives) {α : Type} {now : UInt64}
    (op : Setting → Work Pairs → α × Work Pairs) {d : Device}
    (h : Pairs.Calm (d.setting now) (fun peer => d.isRevoked peer = true) closing d.work
      (op (d.setting now) d.work).2) :
    Calms now closing d (d.onPairsAt P now op).2 := by
  rcases hd : d.onPairsAt P now op with ⟨result, d'⟩
  obtain ⟨w, hw, hEvolves, hLeft, hContacts⟩ := onPairsAt_eq hd
  rw [hw] at h
  refine ⟨hEvolves, w, ?_, hLeft⟩
  simpa only [isRevoked, hContacts] using h

-- ---------------------------------------------------------------------------
-- Operations that handle no message
-- ---------------------------------------------------------------------------

/-- Meeting a peer leaves the pairs alone. -/
theorem pairs_remember (id : String) (keys : PublicKeys) (d : Device) :
    (d.remember P id keys).2.pairs = d.pairs := by
  unfold remember
  split
  · rfl
  · split <;> exact ((congrArg Prod.snd ‹record P _ d = _›) ▸ sameButLog_record _ d).pairs
  · rfl

theorem calms_remember (id : String) (keys : PublicKeys) (now : UInt64) (d : Device) :
    Calms now closing d (d.remember P id keys).2 := by
  unfold remember
  split
  · rename_i hRemember
    obtain ⟨hGrows, hFiled⟩ := Contacts.grows_remember hRemember
    exact .of_same ⟨rfl, rfl, hGrows, hFiled⟩ rfl rfl
  · rename_i other hMismatch
    have hLog := sameButLog_record (P := P) ⟨.keyMismatch, [d.id, other], .failure,
        "presented fingerprint " ++ (keys.fingerprint P).text⟩ d
    have hSame : Calms now closing d d := .of_same (.refl d) rfl rfl
    have hCalms := hLog.calms hSame
    split <;> simpa only [‹record P _ d = _›] using hCalms
  · exact .of_same (.refl d) rfl rfl

/-- Importing a bundle leaves the pairs alone. -/
theorem pairs_importBundle (text : Bytes) (d : Device) :
    (d.importBundle P text).2.pairs = d.pairs := by
  unfold importBundle
  split
  · rfl
  · split
    · rfl
    · exact pairs_remember ..

theorem calms_importBundle (text : Bytes) (now : UInt64) (d : Device) :
    Calms now closing d (d.importBundle P text).2 := by
  unfold importBundle
  split
  · exact .of_same (.refl d) rfl rfl
  · split
    · exact .of_same (.refl d) rfl rfl
    · exact calms_remember ..

/-- Assessing evidence changes the record of one peer, and the log. -/
theorem verify_cases (id : String) (evidence : Evidence) (d : Device) :
    d.SameButLog (d.verify P id evidence).2 ∨
      ∃ proposed, ({ d with contacts := d.contacts.update id d.now (evidence.apply proposed) } :
        Device).SameButLog (d.verify P id evidence).2 := by
  unfold verify
  split
  · exact .inl ⟨_, rfl⟩
  · split
    · left
      split <;> exact (congrArg Prod.snd ‹record P _ d = _›) ▸ sameButLog_record ..
    · rename_i proposed _
      right
      refine ⟨proposed, ?_⟩
      dsimp only
      split
      · exact ⟨_, rfl⟩
      · split <;> exact (congrArg Prod.snd ‹record P _ _ = _›) ▸ sameButLog_record ..

/-- Assessing evidence leaves the sessions alone. -/
theorem verify_same (id : String) (evidence : Evidence) (d : Device) :
    d.Evolves (d.verify P id evidence).2 ∧
      (d.verify P id evidence).2.setting (d.verify P id evidence).2.now = d.setting d.now ∧
      (d.verify P id evidence).2.work = d.work := by
  rcases verify_cases (P := P) id evidence d with ⟨log, hLog⟩ | ⟨proposed, log, hLog⟩
  · rw [hLog]
    exact ⟨⟨rfl, rfl, .refl _, fun h => h⟩, rfl, rfl⟩
  · obtain ⟨hGrows, hFiled⟩ := d.contacts.grows_update id d.now evidence proposed
    rw [hLog]
    exact ⟨⟨rfl, rfl, hGrows, hFiled⟩, rfl, rfl⟩

/-- Evidence that makes a peer revoked takes its sessions. -/
theorem calms_applyEvidence (id : String) (evidence : Evidence) (d : Device) :
    Calms d.now closing d (d.applyEvidence P id evidence).2 := by
  obtain ⟨hEvolves, hSetting, hWork⟩ := verify_same (P := P) id evidence d
  unfold applyEvidence
  generalize d.verify P id evidence = verified at *
  obtain ⟨verified, d₁⟩ := verified
  dsimp only at *
  split
  · rename_i hRevoked
    have hCalm : Pairs.Calm (d₁.setting d₁.now) (fun peer => d₁.isRevoked peer = true)
        closing d₁.work
        (Pairs.revoke (d₁.setting d₁.now) id d₁.work).2 := .revoke id hRevoked
    obtain ⟨hAfter, w, hw, hLeft⟩ := calms_onPairsAt P (fun s => Pairs.revoke s id) hCalm
    rw [hSetting, hWork] at hw
    exact ⟨hEvolves.trans hAfter, w, hw, hLeft⟩
  · exact .of_same hEvolves (congrArg Work.part hWork) (congrArg Work.deadlines hWork)

/-- Evidence is calm: the sessions change only where it revokes the peer. -/
theorem calms_verifyPeer (id : String) (evidence : Evidence) (d : Device) :
    Calms d.now closing d (d.verifyPeer P id evidence).2 :=
  calms_applyEvidence id evidence d

/-- Vouching for a peer is evidence like any other. -/
theorem calms_crossSignPeer (id : String) (d : Device) :
    Calms d.now closing d (d.crossSignPeer P id).2 := by
  unfold crossSignPeer
  split
  · exact .of_same (.refl d) rfl rfl
  · exact calms_verifyPeer ..

/-- A forced rotation is calm: it ends a session and begins none. -/
theorem calms_rotate (peer : String) (d : Device) : Calms d.now closing d (d.rotate P peer).2 := by
  have hCalms : Calms d.now closing d (d.onPairs P fun s => Pairs.rotate s peer).2 :=
    calms_onPairsAt P _ (.rotate peer)
  unfold rotate
  split
  · simpa only [‹onPairs P _ d = _›] using hCalms
  · rename_i epoch d₁ hRotated
    rw [hRotated] at hCalms
    have hLog := (sameButLog_record (P := P) ⟨.forcedRotation, [d₁.id, peer], .success,
        s!"epoch {epoch.toNat} ({Rotation.Reason.forced.text})"⟩ d₁).calms hCalms
    split <;> simpa only [‹record P _ d₁ = _›] using hLog

/-- Closing is calm where closing is allowed. -/
theorem calms_shutdown (hClosing : closing) (d : Device) :
    Calms d.now closing d (d.shutdown P).2 := by
  have hCalms : Calms d.now closing d (d.onPairs P Pairs.shutdown).2 :=
    calms_onPairsAt P _ (.shutdown hClosing)
  unfold shutdown
  rcases hDropped : d.onPairs P Pairs.shutdown with ⟨dropped, d₁⟩
  rw [hDropped] at hCalms
  have hLog := (sameButLog_flushAudit d₁).calms hCalms
  dsimp only
  split <;> simpa only [‹flushAudit d₁ = _›] using hLog

/-- Saving leaves the pairs alone. -/
theorem pairs_save (store : Store) (passphrase : String) (d : Device) :
    (d.save P store passphrase).2.pairs = d.pairs := by
  unfold save
  dsimp only
  split <;> rfl

theorem calms_save (store : Store) (passphrase : String) (now : UInt64) (d : Device) :
    Calms now closing d (d.save P store passphrase).2 := by
  have hRandom (random : RandomSource) : Calms now closing d { d with random := random } :=
    .of_same ⟨rfl, rfl, .refl _, fun h => h⟩ rfl rfl
  unfold save
  dsimp only
  split <;> exact hRandom _

/-- **An operation that handles no message** is calm. -/
theorem calms_step (d : Device) (op : Operation) (h : op.handlesMessage = false) :
    Calms (op.time d.now) (op = .shutdown) d (d.step P op).2 := by
  cases op with
  | send => cases h
  | receive => cases h
  | remember id keys => exact calms_remember ..
  | importBundle text => exact calms_importBundle ..
  | verify id evidence => exact calms_verifyPeer ..
  | revoke id reason => exact calms_applyEvidence id (.revocation reason) d
  | crossSignPeer id => exact calms_crossSignPeer ..
  | addRoot id keys => exact .of_same ⟨rfl, rfl, .refl _, fun h => h⟩ rfl rfl
  | rotate peer => exact calms_rotate ..
  | request peer => exact calms_onPairsAt P (fun s => Pairs.request s peer) (.request peer)
  | maintain now => exact calms_onPairsAt P _ .sweep
  | shutdown => exact calms_shutdown rfl d
  | flushAudit => exact (sameButLog_flushAudit d).calms (.of_same (.refl d) rfl rfl)
  | sweepAudit => exact (sameButLog_sweepAudit d).calms (.of_same (.refl d) rfl rfl)
  | save store passphrase => exact calms_save ..
  | setClock now => exact .of_same ⟨rfl, rfl, .refl _, fun h => h⟩ rfl rfl
  | setSink isFull => exact .of_same ⟨rfl, rfl, .refl _, fun h => h⟩ rfl rfl

/-- Only `receive` brings messages. -/
theorem message?_step (d : Device) (op : Operation) (h : op.handlesMessage = false)
    (sender : String) : History.message? sender (d.step P op).1 = none := by
  cases op <;> first | rfl | cases h

/-- Only `send` gives envelopes. -/
theorem written?_step (op : Operation) (h : op.handlesMessage = false) (reply : Reply)
    (peer : String) : History.written? peer (op, reply) = none := by
  cases op <;> first | rfl | cases h

-- ---------------------------------------------------------------------------
-- Sending
-- ---------------------------------------------------------------------------

/-- **Sending** is calm if the peer is refused; otherwise an envelope is made for the peer on file,
and written. -/
theorem send_cases {peer : String} {level : Level} {plaintext : Bytes} {d d' : Device}
    {result : Except Failure Bytes} (h : d.send P peer level plaintext = (result, d')) :
    (∃ failure, result = .error failure ∧ Calms d.now False d d') ∨
      ∃ record made w, d.contacts.get? peer = some record ∧ record.isRevoked = false ∧
        Pairs.encrypt P (d.setting d.now) record level plaintext d.work = (made, w) ∧
        d.Evolves d' ∧ d'.Left w ∧
        ((∃ failure, made = .error failure ∧ result = .error failure) ∨
          ∃ e, made = .ok e ∧ result = e.encode d.config.limits) := by
  unfold send at h
  split at h
  · -- not on file
    have hCheck : Calms d.now False d (d.onPairs P fun s => Pairs.checkEstablishment s peer).2 :=
      calms_onPairsAt P _ (.checkEstablishment peer)
    unfold refuseUnknown at h
    split at h
    · rename_i hChecked
      rw [hChecked] at hCheck
      cases h
      exact .inl ⟨_, rfl, hCheck⟩
    · rename_i hChecked
      rw [hChecked] at hCheck
      cases h
      exact .inl ⟨_, rfl, (sameButLog_note _ _).calms hCheck⟩
  · rename_i record hRecord
    split at h
    · -- a peer that is revoked, and behind it one that has to be verified first
      cases h
      exact .inl ⟨_, rfl, (sameButLog_note _ _).calms (.of_same (.refl d) rfl rfl)⟩
    · rename_i hTrusted
      split at h
      · cases h
        exact .inl ⟨_, rfl, (sameButLog_note _ _).calms (.of_same (.refl d) rfl rfl)⟩
      · -- on file
        rw [Bool.not_eq_true] at hTrusted
        unfold sendTo at h
        split at h
        · rename_i failure _ hWork
          cases h
          obtain ⟨w, hw, hEvolves, hLeft, -⟩ := onPairsAt_eq hWork
          exact .inr ⟨record, _, w, hRecord, hTrusted, hw, hEvolves, hLeft,
            .inl ⟨failure, rfl, rfl⟩⟩
        · rename_i e d₁ hWork
          obtain ⟨w, hw, hEvolves, hLeft, -⟩ := onPairsAt_eq hWork
          rw [hEvolves.config] at h
          cases h
          exact .inr ⟨record, _, w, hRecord, hTrusted, hw, hEvolves, hLeft, .inr ⟨e, rfl, rfl⟩⟩

-- ---------------------------------------------------------------------------
-- Receiving
-- ---------------------------------------------------------------------------

/-- A rejection is an error and changes the log only; which error it is, the sink may decide. -/
theorem reject_cases (sender : Option String) (failure : Failure) (d : Device) :
    (∃ failure', (d.reject P sender failure).1 = .error failure') ∧
      d.SameButLog (d.reject P sender failure).2 := by
  have hLog := sameButLog_record (P := P)
    ⟨rejectionKind failure, d.id :: sender.toList, .failure, failure.message⟩ d
  unfold reject
  split
  · exact ⟨⟨_, rfl⟩, by simpa only [‹record P _ d = _›] using hLog⟩
  · exact ⟨⟨_, rfl⟩, by simpa only [‹record P _ d = _›] using hLog⟩

/-- **Receiving** leaves the sessions alone if the envelope cannot be read or its sender cannot be
made out; otherwise the envelope is opened with what is on file about the sender. -/
theorem receive_cases {bytes : Bytes} {d d' : Device} {result : Except Failure ReceivedMessage}
    (h : d.receive P bytes = (result, d')) :
    (∃ failure, result = .error failure ∧ d.SameButLog d') ∨
      ∃ e sender opened w, Envelope.decode d.config.limits bytes = .ok e ∧
        d.authenticate P e = .ok sender ∧
        Pairs.decrypt P (d.setting d.now) sender e d.work = (opened, w) ∧
        d.Evolves d' ∧ d'.Left w ∧
        ((∃ failure failure', opened = .error failure ∧ result = .error failure') ∨
          ∃ plaintext, opened = .ok plaintext ∧
            result = .ok ⟨sender.deviceId, e.level, e.epoch, e.sequence, sender.trust,
              plaintext⟩) := by
  unfold receive at h
  split at h
  · -- nobody has sent what cannot be read
    rename_i failure _
    obtain ⟨hFailed, hLog⟩ := reject_cases (P := P) none failure d
    rw [h] at hFailed hLog
    obtain ⟨failure', hFailed⟩ := hFailed
    exact .inl ⟨failure', hFailed, hLog⟩
  · rename_i e hDecoded
    unfold receiveEnvelope at h
    split at h
    · rename_i failure _
      obtain ⟨hFailed, hLog⟩ := reject_cases (P := P) (some e.sender) failure d
      rw [h] at hFailed hLog
      obtain ⟨failure', hFailed⟩ := hFailed
      exact .inl ⟨failure', hFailed, hLog⟩
    · rename_i sender hSender
      split at h
      · -- the session of the sender refuses, and the refusal is put in the log
        rename_i failure d₁ hWork
        obtain ⟨w, hw, hEvolves, hLeft, -⟩ := onPairsAt_eq hWork
        obtain ⟨hFailed, hLog⟩ := reject_cases (P := P) (some e.sender) failure d₁
        rw [h] at hFailed hLog
        obtain ⟨failure', hFailed⟩ := hFailed
        obtain ⟨log, rfl⟩ := hLog
        exact .inr ⟨e, sender, _, w, hDecoded, hSender, hw,
          ⟨hEvolves.config, hEvolves.identity, hEvolves.contacts, hEvolves.filed⟩, hLeft,
          .inl ⟨failure, failure', rfl, hFailed⟩⟩
      · rename_i plaintext d₁ hWork
        obtain ⟨w, hw, hEvolves, hLeft, -⟩ := onPairsAt_eq hWork
        cases h
        exact .inr ⟨e, sender, _, w, hDecoded, hSender, hw, hEvolves, hLeft,
          .inr ⟨plaintext, rfl, rfl⟩⟩

/-- **Who passes as the sender of an envelope:** the peer on file under the id that the envelope
says, if it is not revoked and the envelope is authentic with its keys. -/
theorem authenticate_eq_ok_iff {d : Device} {e : Envelope} {peer : Peer} :
    d.authenticate P e = .ok peer ↔
      d.contacts.get? e.sender = some peer ∧ peer.isRevoked = false ∧
        e.Authentic P d.identity peer.keys := by
  unfold authenticate Contacts.lookup
  constructor
  · -- the checks are passed one after another
    intro h
    split at h
    · cases h
    rename_i hAddressed
    rw [Decidable.not_not] at hAddressed
    cases hPeer : d.contacts.get? e.sender with
    | none =>
      rw [hPeer] at h
      cases h
    | some record =>
      rw [hPeer] at h
      dsimp only at h
      split at h
      · cases h
      rename_i hTrusted
      rw [Bool.not_eq_true] at hTrusted
      split at h
      · -- the level signs
        split at h
        · cases h
        rename_i signature hSignature
        split at h
        · rename_i hVerified
          cases h
          exact ⟨rfl, hTrusted, hAddressed, fun _ => ⟨signature, hSignature, hVerified⟩⟩
        · cases h
      · rename_i hUnsigned
        cases h
        exact ⟨rfl, hTrusted, hAddressed, fun hSigned => absurd hSigned hUnsigned⟩
  · -- each check is passed in its turn
    rintro ⟨hPeer, hTrusted, hAddressed, hSigned⟩
    have hAddressed : e.recipient = d.id := hAddressed
    rw [if_neg (not_not_intro hAddressed), hPeer]
    dsimp only
    rw [hTrusted, if_neg Bool.false_ne_true]
    split
    · obtain ⟨signature, hSignature, hVerified⟩ := hSigned ‹_›
      rw [hSignature]
      exact if_pos hVerified
    · rfl
/-- An authentic envelope has a sender on file who is not revoked. -/
theorem authenticate_eq_ok {d : Device} {e : Envelope} {peer : Peer} (h : d.authenticate P e = .ok peer) :
    d.contacts.get? e.sender = some peer ∧ peer.isRevoked = false :=
  ⟨(authenticate_eq_ok_iff.1 h).1, (authenticate_eq_ok_iff.1 h).2.1⟩

/-- Receiving changes nobody on file. -/
theorem contacts_receive (bytes : Bytes) (d : Device) :
    (d.receive P bytes).2.contacts = d.contacts := by
  have hReject (sender : Option String) (failure : Failure) (d : Device) :
      (d.reject P sender failure).2.contacts = d.contacts := by
    obtain ⟨-, log, hLog⟩ := reject_cases (P := P) sender failure d
    rw [hLog]
  unfold receive
  split
  · exact hReject ..
  · unfold receiveEnvelope
    split
    · exact hReject ..
    · split
      · rename_i hWork
        obtain ⟨-, -, -, -, hContacts⟩ := onPairsAt_eq hWork
        exact (hReject ..).trans hContacts
      · rename_i hWork
        obtain ⟨-, -, -, -, hContacts⟩ := onPairsAt_eq hWork
        exact hContacts

-- ---------------------------------------------------------------------------
-- One side of one pair
-- ---------------------------------------------------------------------------

/-- An envelope that the device takes from its sender: read, found to be for the device and from a
peer on file, and opened there. -/
structure Takes (P : Primitives) (d : Device) (bytes : Bytes) (sender : String) (e : Envelope)
    (peer : Peer) (plaintext : Bytes) (i' : Inbound) : Prop where
  decoded : Envelope.decode d.config.limits bytes = .ok e
  authentic : d.authenticate P e = .ok peer
  named : peer.deviceId = sender
  unbarred : (d.pairs.receiving sender).isRevoked = false
  accepts : Inbound.Accepts P (d.setting d.now) peer e plaintext (d.pairs.receiving sender) i'

/-- **What an operation does to the receiving side of a pair:** it wanes and no message of the peer
comes, or one envelope of the peer is accepted and its message comes. -/
theorem receiving_step (d : Device) (op : Operation) (sender : String) :
    (History.message? sender (d.step P op).1 = none ∧
        Inbound.Wanes ((d.step P op).2.isRevoked sender = true) (d.pairs.receiving sender)
          ((d.step P op).2.pairs.receiving sender)) ∨
      ∃ bytes e peer plaintext, op = .receive bytes ∧
        (d.step P op).1 = .received
          (.ok ⟨sender, e.level, e.epoch, e.sequence, peer.trust, plaintext⟩) ∧
        d.Takes P bytes sender e peer plaintext ((d.step P op).2.pairs.receiving sender) := by
  -- no message is handled: the side can only grow older
  by_cases hMessage : op.handlesMessage = false
  · obtain ⟨-, w, hCalm, hPairs, -⟩ := calms_step (P := P) d op hMessage
    refine .inl ⟨message?_step d op hMessage sender, ?_⟩
    rw [hPairs]
    exact hCalm.quiet.wanes sender
  cases op with
  | send peer level plaintext =>
    refine .inl ⟨rfl, ?_⟩
    show Inbound.Wanes _ _ ((d.send P peer level plaintext).2.pairs.receiving sender)
    rcases send_cases (d.send P peer level plaintext).eta.symm with
      ⟨-, -, -, w, hCalm, hPairs, -⟩ | ⟨record, made, w, -, -, hw, -, ⟨hPairs, -⟩, -⟩
    · rw [hPairs]
      exact hCalm.quiet.wanes sender
    · obtain rfl : _ = w := congrArg Prod.snd hw
      rw [hPairs, Pairs.receiving_encrypt]
      exact .refl _
  | receive bytes =>
    show (History.message? sender (.received (d.receive P bytes).1) = none ∧
        Inbound.Wanes ((d.receive P bytes).2.isRevoked sender = true) _
          ((d.receive P bytes).2.pairs.receiving sender)) ∨ _
    rcases receive_cases (d.receive P bytes).eta.symm with
      ⟨failure, hFailed, log, hLog⟩ |
        ⟨e, peer, opened, w, hDecoded, hAuthentic, hw, -, ⟨hPairs, -⟩, hResult⟩
    · -- the envelope is refused before its sender is made out
      rw [hFailed, hLog]
      exact .inl ⟨rfl, .refl _⟩
    · obtain ⟨hOthers, hSide⟩ := Pairs.decrypt_cases hw
      rw [← hPairs] at hOthers hSide
      by_cases hSender : sender = peer.deviceId
      · -- the side of the sender
        subst hSender
        rcases hSide with ⟨failure, rfl, hWanes⟩ | ⟨plaintext, rfl, hUnbarred, hAccepts⟩
        · rcases hResult with ⟨-, failure', -, hReply⟩ | ⟨plaintext, hOk, -⟩
          · rw [hReply]
            exact .inl ⟨rfl, hWanes.mono False.elim⟩
          · cases hOk
        · rcases hResult with ⟨failure, -, hFailed, -⟩ | ⟨plaintext', hOk, hReply⟩
          · cases hFailed
          · cases hOk
            refine .inr ⟨bytes, e, peer, plaintext, rfl, ?_, hDecoded, hAuthentic, rfl, hUnbarred,
              hAccepts⟩
            show Reply.received (d.receive P bytes).1 = _
            rw [hReply]
      · -- the side of another peer
        rw [hOthers sender hSender]
        refine .inl ⟨?_, .refl _⟩
        rcases hResult with ⟨-, failure', -, hReply⟩ | ⟨plaintext, -, hReply⟩
        · rw [hReply]
          rfl
        · rw [hReply]
          exact if_neg (Ne.symm hSender)
  | _ => exact absurd rfl hMessage

/-- **What an operation does to the sending side of a pair:** it rests and no envelope for the peer
is given, or one envelope for the peer is made, and given if it can be written. -/
theorem sending_step {d : Device} (hFiled : d.contacts.Filed) (op : Operation) (peer : String) :
    (History.written? peer (op, (d.step P op).1) = none ∧
        (d.pairs.sending peer).Rests ((d.step P op).2.pairs.sending peer)) ∨
      ∃ level plaintext record e, op = .send peer level plaintext ∧
        d.contacts.get? peer = some record ∧ record.isRevoked = false ∧
        (d.step P op).1 = .sent (e.encode d.config.limits) ∧
        Outbound.Makes P (d.setting d.now) record level plaintext (d.pairs.sending peer) e
          ((d.step P op).2.pairs.sending peer) := by
  -- no message is handled: the side rests
  by_cases hMessage : op.handlesMessage = false
  · obtain ⟨-, w, hCalm, hPairs, -⟩ := calms_step (P := P) d op hMessage
    refine .inl ⟨written?_step op hMessage _ peer, ?_⟩
    rw [hPairs]
    exact hCalm.quiet.rests peer
  cases op with
  | receive bytes =>
    refine .inl ⟨rfl, ?_⟩
    show (d.pairs.sending peer).Rests ((d.receive P bytes).2.pairs.sending peer)
    rcases receive_cases (d.receive P bytes).eta.symm with
      ⟨-, -, log, hLog⟩ | ⟨e, sender, opened, w, -, -, hw, -, ⟨hPairs, -⟩, -⟩
    · rw [hLog]
      exact .refl _
    · obtain rfl : _ = w := congrArg Prod.snd hw
      rw [hPairs, Pairs.sending_decrypt]
      exact .refl _
  | send other level plaintext =>
    show (History.written? peer (_, .sent (d.send P other level plaintext).1) = none ∧
        (d.pairs.sending peer).Rests ((d.send P other level plaintext).2.pairs.sending peer)) ∨ _
    rcases send_cases (d.send P other level plaintext).eta.symm with
      ⟨failure, hFailed, -, w, hCalm, hPairs, -⟩ |
        ⟨record, made, w, hRecord, hTrusted, hw, -, ⟨hPairs, -⟩, hResult⟩
    · -- nothing is made
      rw [hFailed, hPairs]
      exact .inl ⟨rfl, hCalm.quiet.rests peer⟩
    · obtain ⟨hOthers, hSide⟩ := Pairs.encrypt_cases hw
      rw [← hPairs, hFiled other record hRecord] at hOthers hSide
      by_cases hPeer : peer = other
      · -- the side of the peer
        subst hPeer
        rcases hSide with ⟨failure, rfl, hRests⟩ | ⟨e, rfl, hMakes⟩
        · rcases hResult with ⟨failure', -, hReply⟩ | ⟨e, hOk, -⟩
          · rw [hReply]
            exact .inl ⟨rfl, hRests⟩
          · cases hOk
        · rcases hResult with ⟨failure, hFailed, -⟩ | ⟨e', hOk, hReply⟩
          · cases hFailed
          · cases hOk
            refine .inr ⟨level, plaintext, record, e, rfl, hRecord, hTrusted, ?_, hMakes⟩
            show Reply.sent (d.send P peer level plaintext).1 = _
            rw [hReply]
      · -- the side of another peer
        rw [hOthers peer hPeer]
        refine .inl ⟨?_, .refl _⟩
        cases (d.send P other level plaintext).1 with
        | error failure => rfl
        | ok bytes => exact if_neg (Ne.symm hPeer)
  | _ => exact absurd rfl hMessage

/-- The counter of a send that returns does not go beyond the last number. -/
theorem counter_of_returns {d : Device} {peer : String} {level : Level}
    {plaintext : Bytes}
    (h : overruns P d (.send peer level plaintext) = false) :
    (d.pairs.sending peer).nextEpoch = lastNumber →
      ((d.step P (.send peer level plaintext)).2.pairs.sending peer).nextEpoch = lastNumber := by
  intro hLast
  have hReturns : ((d.send P peer level plaintext).2.pairs.sending peer).nextEpoch =
      lastNumber := by
    simpa [overruns, hLast] using h
  exact hReturns

-- ---------------------------------------------------------------------------
-- Any operation, and runs
-- ---------------------------------------------------------------------------

/-- **What no operation changes:** the configuration, the identity, and the ids and keys on file. -/
theorem evolves_step (d : Device) (op : Operation) : d.Evolves (d.step P op).2 := by
  by_cases hMessage : op.handlesMessage = false
  · exact (calms_step d op hMessage).evolves
  · cases op with
    | send peer level plaintext =>
      rcases send_cases (d.send P peer level plaintext).eta.symm with
        ⟨-, -, hCalms⟩ | ⟨-, -, -, -, -, -, hEvolves, -⟩
      · exact hCalms.evolves
      · exact hEvolves
    | receive bytes =>
      rcases receive_cases (d.receive P bytes).eta.symm with
        ⟨-, -, log, hLog⟩ | ⟨-, -, -, -, -, -, -, hEvolves, -⟩
      · show d.Evolves (d.receive P bytes).2
        rw [hLog]
        exact ⟨rfl, rfl, .refl _, fun h => h⟩
      · exact hEvolves
    | _ => exact absurd rfl hMessage

/-- A device that was given bytes is later in its life, whatever it made of them. -/
theorem evolves_receive (bytes : Bytes) (d : Device) : d.Evolves (d.receive P bytes).2 :=
  evolves_step (P := P) d (.receive bytes)

/-- A device behind a run is later in its life. -/
theorem Run.evolves {d d' : Device} {history : History} (h : Run P d history d') :
    d.Evolves d' := by
  induction h with
  | start => exact .refl d
  | step op _ _ ih => exact ih.trans (evolves_step _ op)

end Device

end EndToEnd
