import EndToEnd.Proofs.Refusal
import EndToEnd.Proofs.Restarts

/-!
# What is on file about a peer

Once a peer is on file it stays there, with the keys it was met with. Trust in it only rises, and
the reason of its revocation is written once. Restarts change none of this, if the device is brought
back from a store that was written after the record last changed.

Other keys for a peer on file are refused and put on record. There is one exception: ids are bounded
by the configuration, and a device that is brought back under a smaller bound may have peers on file
whose ids are now too long. What is presented for them is refused as such, and nothing is recorded.

Main results:

* `Contacts.Changes`, `Device.changes_step` — all that an operation can do to what is on file.
* `Contacts.Changes.orderly`, `Contacts.Changes.advances` — what each of these keeps.
* `Device.Lineage.orderly`, `Device.Lineage.advances` — what runs with restarts keep.
* `Device.step_presents` — what becomes of other keys.
* `Device.records_move_forward` — all of it.
-/

namespace EndToEnd

-- ---------------------------------------------------------------------------
-- Records
-- ---------------------------------------------------------------------------

/-- An id that is not empty and has no control characters. -/
def Envelope.IsName (id : String) : Prop :=
  id.utf8ByteSize ≠ 0 ∧ id.toList.any isControl = false

/-- Which ids a device accepts: names that are short enough. -/
theorem Envelope.idFault?_eq_none_iff {limit : Nat} {id : String} :
    idFault? limit id = none ↔ IsName id ∧ id.utf8ByteSize ≤ limit := by
  unfold idFault? IsName
  by_cases hEmpty : id.utf8ByteSize = 0
  · simp [hEmpty]
  · by_cases hLong : limit < id.utf8ByteSize
    · simp [hEmpty, hLong]
    · cases hControl : id.toList.any isControl <;> simp [hEmpty, hLong, Nat.le_of_not_lt hLong]

namespace Peer

/-- A record of the same peer later on. -/
structure Advances (p p' : Peer) : Prop where
  deviceId : p'.deviceId = p.deviceId
  keys : p'.keys = p.keys
  firstSeen : p'.firstSeen = p.firstSeen
  trust : p.trust.rank ≤ p'.trust.rank
  revoked : p.trust = .revoked → p'.trust = .revoked
  reason : ∀ reason, p.revocationReason = some reason → p'.revocationReason = some reason

theorem Advances.refl (p : Peer) : p.Advances p :=
  ⟨rfl, rfl, rfl, Nat.le_refl _, id, fun _ h => h⟩

/-- A record that goes on twice has gone on. -/
theorem Advances.trans {p p' p'' : Peer} (h : p.Advances p') (h' : p'.Advances p'') :
    p.Advances p'' where
  deviceId := h'.deviceId.trans h.deviceId
  keys := h'.keys.trans h.keys
  firstSeen := h'.firstSeen.trans h.firstSeen
  trust := Nat.le_trans h.trust h'.trust
  revoked := h'.revoked ∘ h.revoked
  reason reason := h'.reason reason ∘ h.reason reason

/-- A record under the id of another device: only a revocation has a reason. -/
structure Fits (own id : String) (p : Peer) : Prop where
  deviceId : p.deviceId = id
  isName : Envelope.IsName id
  other : id ≠ own
  reason : p.revocationReason.isSome = true → p.trust = .revoked

/-- **Evidence moves a record forward.** -/
theorem advances_apply {own id : String} {p : Peer} (hFits : p.Fits own id) (evidence : Evidence)
    (proposed : Trust) (now : UInt64) :
    p.Advances { evidence.apply proposed p with updatedAt := now } ∧
      Fits own id { evidence.apply proposed p with updatedAt := now } := by
  obtain ⟨hId, hName, hOther, hReason⟩ := hFits
  have hTrust : p.trust.rank ≤ (p.trust.merge proposed).rank := by
    rw [Trust.rank_merge]
    exact Nat.le_max_left ..
  have hRevoked (h : p.trust = .revoked) : p.trust.merge proposed = .revoked := by
    rw [h, Trust.revoked_merge]
  -- nothing but the trust changes, unless the peer is revoked only now
  have hKept : p.Advances { p with trust := p.trust.merge proposed, updatedAt := now } ∧
      Fits own id { p with trust := p.trust.merge proposed, updatedAt := now } :=
    ⟨⟨rfl, rfl, rfl, hTrust, hRevoked, fun _ h => h⟩,
      ⟨hId, hName, hOther, fun h => hRevoked (hReason h)⟩⟩
  unfold Evidence.apply
  dsimp only
  split
  · split
    · rename_i hNow
      refine ⟨⟨rfl, rfl, rfl, hTrust, hRevoked, fun reason hSet => ?_⟩,
        ⟨hId, hName, hOther, fun _ => hNow.1⟩⟩
      exact absurd (hReason (hSet ▸ rfl)) hNow.2
    · exact hKept
  · exact hKept

end Peer

namespace Contacts

variable {c c' : Contacts} {own id : String} {now : UInt64}

/-- All that an operation can do to what is on file: nothing, put a peer there, or apply evidence to
the record of one. -/
inductive Changes (own : String) (now : UInt64) (c : Contacts) : Contacts → Prop where
  | same : Changes own now c c
  | met {id : String} (keys : PublicKeys) (allowed : c.refusal? (some own) id = none)
      (absent : c.get? id = none) :
      Changes own now c { c with peers := c.peers.insert id (.met id keys now) }
  | moved (id : String) (evidence : Evidence) (proposed : Trust) :
      Changes own now c (c.update id now (evidence.apply proposed))

/-- What is on file is in order: every record fits the id that it is under. -/
def Orderly (own : String) (c : Contacts) : Prop :=
  ∀ id peer, c.get? id = some peer → peer.Fits own id

/-- Nobody on file is nobody out of order. -/
theorem orderly_empty (limit : Nat) (own : String) : Orderly own (.empty limit) := nofun

/-- Only the records matter. -/
theorem Orderly.congr (h : c.Orderly own) (hSame : ∀ id, c'.get? id = c.get? id) :
    c'.Orderly own := fun id peer hPeer => h id peer (hSame id ▸ hPeer)

theorem Orderly.filed (h : c.Orderly own) : c.Filed := fun id peer hPeer => (h id peer hPeer).deviceId

/-- A device is not its own peer. -/
theorem Orderly.get?_own (h : c.Orderly own) : c.get? own = none :=
  Option.eq_none_iff_forall_ne_some.2 fun peer hPeer => (h own peer hPeer).other rfl

/-- A peer who is met is found under its id, and everybody else as before. -/
theorem get?_insert_met (c : Contacts) (id other : String) (peer : Peer) :
    ({ c with peers := c.peers.insert id peer } : Contacts).get? other =
      if other = id then some peer else c.get? other := Table.get?_insert ..

/-- Which ids are refused. -/
theorem refusal?_eq_none_iff :
    c.refusal? (some own) id = none ↔
      (Envelope.IsName id ∧ id.utf8ByteSize ≤ c.idLimit) ∧ own ≠ id := by
  unfold refusal?
  cases hFault : Envelope.idFault? c.idLimit id with
  | none =>
    have hFine := Envelope.idFault?_eq_none_iff.1 hFault
    by_cases hOwn : own = id <;> simp [hOwn, hFine]
  | some fault =>
    have hFaulty : ¬(Envelope.IsName id ∧ id.utf8ByteSize ≤ c.idLimit) := fun h => by
      rw [Envelope.idFault?_eq_none_iff.2 h] at hFault
      cases hFault
    simp [hFaulty]

theorem Changes.of_eq (h : c' = c) : Changes own now c c' := h ▸ .same

/-- Nothing changes the bound on ids. -/
theorem Changes.idLimit (h : Changes own now c c') : c'.idLimit = c.idLimit := by
  cases h <;> rfl

/-- **Every change moves the records forward.** -/
theorem Changes.advances (h : Changes own now c c') (hOrderly : c.Orderly own) {peer : Peer}
    (hPeer : c.get? id = some peer) : ∃ peer', c'.get? id = some peer' ∧ peer.Advances peer' := by
  cases h with
  | same => exact ⟨peer, hPeer, .refl _⟩
  | @met other keys allowed absent =>
    refine ⟨peer, ?_, .refl _⟩
    rw [get?_insert_met, if_neg, hPeer]
    rintro rfl
    rw [hPeer] at absent
    cases absent
  | moved other evidence proposed =>
    rw [get?_update]
    split
    · rename_i hSame
      subst hSame
      rw [hPeer]
      exact ⟨_, rfl, (Peer.advances_apply (hOrderly _ _ hPeer) evidence proposed now).1⟩
    · exact ⟨peer, hPeer, .refl _⟩

/-- **Every change keeps what is on file in order.** -/
theorem Changes.orderly (h : Changes own now c c') (hOrderly : c.Orderly own) :
    c'.Orderly own := by
  cases h with
  | same => exact hOrderly
  | @met other keys allowed absent =>
    obtain ⟨⟨hName, -⟩, hOther⟩ := refusal?_eq_none_iff.1 allowed
    intro id peer hPeer
    rw [get?_insert_met] at hPeer
    split at hPeer
    · rename_i hSame
      subst hSame
      cases hPeer
      exact ⟨rfl, hName, Ne.symm hOther, nofun⟩
    · exact hOrderly id peer hPeer
  | moved other evidence proposed =>
    intro id peer' hPeer'
    rw [get?_update] at hPeer'
    split at hPeer'
    · rename_i hSame
      subst hSame
      obtain ⟨peer, hPeer, rfl⟩ := Option.map_eq_some_iff.1 hPeer'
      exact (Peer.advances_apply (hOrderly _ _ hPeer) evidence proposed now).2
    · exact hOrderly id peer' hPeer'

end Contacts

/-- What is put on record is the last entry, whether or not the sink takes it. -/
theorem Audit.Log.entries_record {P : Primitives} (log : Log) (event : Event) (now : UInt64) :
    (log.record P event now).2.entries = log.entries ++ [log.entryOf P event now] := by
  unfold record
  dsimp only
  split
  · cases hDelivered : (log.append P event now).deliver with
    | error failure => rfl
    | ok delivered =>
      obtain ⟨-, rfl⟩ := deliver_eq_ok_iff.1 hDelivered
      rfl
  · rfl

namespace Device

variable {P : Primitives} {d d' : Device}

-- ---------------------------------------------------------------------------
-- One operation
-- ---------------------------------------------------------------------------

/-- Sending changes nobody on file. -/
theorem contacts_send (peer : String) (level : Level) (plaintext : Bytes) (d : Device) :
    (d.send P peer level plaintext).2.contacts = d.contacts := by
  unfold send
  split
  · unfold refuseUnknown
    split <;> exact (congrArg (·.2.contacts) ‹onPairs P _ d = _›).symm
  · split
    · rfl
    · split
      · rfl
      · unfold sendTo
        split <;> exact (congrArg (·.2.contacts) ‹onPairs P _ d = _›).symm

/-- A rotation changes nobody on file. -/
theorem contacts_rotate (peer : String) (d : Device) :
    (d.rotate P peer).2.contacts = d.contacts := by
  unfold rotate
  split
  · exact (congrArg (·.2.contacts) ‹onPairs P _ d = _›).symm
  · rename_i epoch d₁ hWork
    have hRotated : d₁.contacts = d.contacts := (congrArg (·.2.contacts) hWork).symm
    split <;> exact (congrArg (·.2.contacts) ‹record P _ d₁ = _›).symm.trans hRotated

/-- Shutting down changes nobody on file. -/
theorem contacts_shutdown (d : Device) : (d.shutdown P).2.contacts = d.contacts := by
  unfold shutdown
  dsimp only
  split <;> exact (congrArg (·.2.contacts) ‹flushAudit _ = _›).symm

/-- Saving changes nobody on file. -/
theorem contacts_save (store : Store) (passphrase : String) (d : Device) :
    (d.save P store passphrase).2.contacts = d.contacts := by
  unfold save
  dsimp only
  split <;> rfl

/-- Meeting a peer puts it on file, or changes nothing. -/
theorem changes_remember (id : String) (keys : PublicKeys) (d : Device) :
    d.contacts.Changes d.id d.now (d.remember P id keys).2.contacts := by
  unfold remember
  split
  · rename_i hRemembered
    obtain ⟨hAllowed, ⟨hAbsent, rfl, rfl⟩ | ⟨-, -, rfl⟩⟩ :=
      Contacts.remember_eq_ok_iff.1 hRemembered
    · exact .met keys hAllowed hAbsent
    · exact .same
  · split <;> exact .of_eq (congrArg (·.2.contacts) ‹record P _ d = _›).symm
  · exact .same

/-- Importing a bundle puts its peer on file, or changes nothing. -/
theorem changes_importBundle (text : Bytes) (d : Device) :
    d.contacts.Changes d.id d.now (d.importBundle P text).2.contacts := by
  unfold importBundle
  split
  · exact .same
  · split
    · exact .same
    · exact changes_remember ..

/-- Evidence changes the record of its peer, or nothing. -/
theorem changes_applyEvidence (id : String) (evidence : Evidence) (d : Device) :
    d.contacts.Changes d.id d.now (d.applyEvidence P id evidence).2.contacts := by
  have hDropped : (d.applyEvidence P id evidence).2.contacts =
      (d.verify P id evidence).2.contacts := by
    unfold applyEvidence
    dsimp only
    split <;> rfl
  rw [hDropped]
  rcases verify_cases (P := P) id evidence d with ⟨log, hLog⟩ | ⟨proposed, log, hLog⟩
  · rw [hLog]
    exact .same
  · rw [hLog]
    exact .moved id evidence proposed

/-- Vouching for a peer changes its record, or nothing. -/
theorem changes_crossSignPeer (id : String) (d : Device) :
    d.contacts.Changes d.id d.now (d.crossSignPeer P id).2.contacts := by
  unfold crossSignPeer
  split
  · exact .same
  · exact changes_applyEvidence ..

/-- **What an operation does to what is on file.** -/
theorem changes_step (d : Device) (op : Operation) :
    d.contacts.Changes d.id d.now (d.step P op).2.contacts := by
  cases op with
  | send peer level plaintext => exact .of_eq (contacts_send ..)
  | receive bytes => exact .of_eq (contacts_receive ..)
  | remember id keys => exact changes_remember ..
  | importBundle text => exact changes_importBundle ..
  | verify id evidence => exact changes_applyEvidence ..
  | revoke id reason => exact changes_applyEvidence id (.revocation reason) d
  | crossSignPeer id => exact changes_crossSignPeer ..
  | rotate peer => exact .of_eq (contacts_rotate ..)
  | shutdown => exact .of_eq (contacts_shutdown ..)
  | save store passphrase => exact .of_eq (contacts_save ..)
  | addRoot | request | maintain | flushAudit | sweepAudit | setClock | setSink => exact .same

-- ---------------------------------------------------------------------------
-- Runs with restarts
-- ---------------------------------------------------------------------------

/-- What was saved since the record of a peer last changed: nothing of what was saved before, if it
changed just now. -/
def keptSince (peer : String) (d d' : Device) (stored : Option Store) (saved : List Store) :
    List Store :=
  if d'.contacts.get? peer = d.contacts.get? peer then stored.toList ++ saved else []

/-- A store counts if it was just written or counted before, and only as long as the record is the
same. -/
theorem mem_keptSince {peer : String} {stored : Option Store} {saved : List Store} {store : Store} :
    store ∈ keptSince peer d d' stored saved ↔
      d'.contacts.get? peer = d.contacts.get? peer ∧ (stored = some store ∨ store ∈ saved) := by
  unfold keptSince
  split
  · rename_i hSame
    rw [List.mem_append, Option.mem_toList]
    exact ⟨fun h => ⟨hSame, h⟩, fun h => h.2⟩
  · rename_i hChanged
    exact ⟨nofun, fun h => absurd h.1 hChanged⟩

/-- From one device to a later one, and from the stores from which the first may be brought back to
those from which the second may. The device does what it is asked, and at any time it may be brought
back, under any configuration, from a store that was written since the record of a peer last
changed. -/
inductive Lineage (P : Primitives) (peer : String) (saved₀ : List Store) (d₀ : Device) :
    List Store → Device → Prop where
  | start : Lineage P peer saved₀ d₀ saved₀ d₀
  | step {saved : List Store} {d : Device} (op : Operation)
      (before : Lineage P peer saved₀ d₀ saved d) (returns : overruns P d op = false) :
      Lineage P peer saved₀ d₀
        (keptSince peer d (step P d op).2 ((History.stored? (op, (step P d op).1)).map (·.1)) saved)
        (step P d op).2
  | restart {saved : List Store} {d d' : Device} {config : Config} {sink : Audit.Sink}
      {store : Store} {passphrase : String} {now : UInt64} {random : RandomSource}
      (before : Lineage P peer saved₀ d₀ saved d) (mem : store ∈ saved)
      (restored : restore P config sink store passphrase now random = .ok d') :
      Lineage P peer saved₀ d₀ saved d'

/-- A store in which a device was saved, with the same id and the same record of a peer as one has
now. -/
def KeepsRecord (P : Primitives) (peer : String) (d : Device) (store : Store) : Prop :=
  ∃ (earlier : Device) (passphrase : String), earlier.SavedIn P store passphrase ∧
    earlier.contacts.Orderly earlier.id ∧ earlier.id = d.id ∧
    earlier.contacts.get? peer = d.contacts.get? peer

/-- A device whose contacts are in order, under the bound on ids of its configuration, and the stores
from which it may be brought back. -/
structure Tidy (P : Primitives) (peer : String) (saved : List Store) (d : Device) : Prop where
  orderly : d.contacts.Orderly d.id
  idLimit : d.contacts.idLimit = d.config.limits.maxDeviceId
  stores : ∀ store ∈ saved, KeepsRecord P peer d store

variable {peer : String} {saved saved₀ : List Store} {d₀ : Device}

/-- No operation changes the id of the device. -/
theorem id_step (d : Device) (op : Operation) : (d.step P op).2.id = d.id :=
  congrArg Identity.deviceId (evolves_step d op).identity

/-- Whatever is asked, what is on file stays in order, and stores whose record is out of date are
given up. -/
theorem Tidy.step (h : Tidy P peer saved d) (op : Operation) :
    Tidy P peer
      (keptSince peer d (d.step P op).2 ((History.stored? (op, (d.step P op).1)).map (·.1)) saved)
      (d.step P op).2 := by
  have hChanges := changes_step (P := P) d op
  have hId := id_step (P := P) d op
  refine ⟨?_, ?_, fun store hMem => ?_⟩
  · rw [hId]
    exact hChanges.orderly h.orderly
  · rw [hChanges.idLimit, h.idLimit, (evolves_step d op).config]
  · obtain ⟨hSame, hStored | hBefore⟩ := mem_keptSince.1 hMem
    · obtain ⟨x, hWritten, rfl⟩ := Option.map_eq_some_iff.1 hStored
      exact ⟨d, x.2, stored_step hWritten, h.orderly, hId.symm, hSame.symm⟩
    · obtain ⟨earlier, passphrase, hSaved, hOrderly, hOwn, hRecord⟩ := h.stores store hBefore
      exact ⟨earlier, passphrase, hSaved, hOrderly, hOwn.trans hId.symm, hRecord.trans hSame.symm⟩

/-- **A restart** gives the device its id and the record of the peer back. -/
theorem KeepsRecord.restored {config : Config} {sink : Audit.Sink} {store : Store}
    {passphrase : String} {now : UInt64} {random : RandomSource} (h : KeepsRecord P peer d store)
    (hRestored : restore P config sink store passphrase now random = .ok d') :
    d'.id = d.id ∧ d'.contacts.get? peer = d.contacts.get? peer ∧ d'.contacts.Orderly d'.id ∧
      d'.contacts.idLimit = d'.config.limits.maxDeviceId := by
  obtain ⟨earlier, passphrase', hSaved, hOrderly, hOwn, hRecord⟩ := h
  have hId := id_restored hSaved hRestored
  have hContacts := get?_restored hOrderly.filed hSaved hRestored
  refine ⟨hId.trans hOwn, (hContacts peer).trans hRecord, hId ▸ hOrderly.congr hContacts, ?_⟩
  obtain ⟨stored, -, identity, -, -, rfl⟩ := restore_saved hSaved hRestored
  obtain ⟨-, hEmpty⟩ := fresh_blank (P := P) config sink identity now random
  exact congrArg Contacts.idLimit hEmpty

/-- A device that is brought back from such a store has its contacts in order, under the bound of
the new configuration. -/
theorem Tidy.restart {config : Config} {sink : Audit.Sink} {store : Store}
    {passphrase : String} {now : UInt64} {random : RandomSource} (h : Tidy P peer saved d)
    (hMem : store ∈ saved)
    (hRestored : restore P config sink store passphrase now random = .ok d') :
    Tidy P peer saved d' := by
  obtain ⟨hId, hRecord, hOrderly, hLimit⟩ := (h.stores store hMem).restored hRestored
  refine ⟨hOrderly, hLimit, fun other hOther => ?_⟩
  obtain ⟨earlier, passphrase', hSaved, hEarlier, hOwn, hSame⟩ := h.stores other hOther
  exact ⟨earlier, passphrase', hSaved, hEarlier, hOwn.trans hId.symm, hSame.trans hRecord.symm⟩

/-- A device that was just created has nobody on file. -/
theorem tidy_created {config : Config} {sink : Audit.Sink} {identity : Option Identity}
    {now : UInt64} {random : RandomSource} (peer : String)
    (h : create P config sink identity now random = .ok d) : Tidy P peer [] d := by
  obtain ⟨-, rfl⟩ := create_eq_ok h
  obtain ⟨-, hEmpty⟩ := fresh_blank (P := P) config sink identity now random
  refine ⟨?_, congrArg Contacts.idLimit hEmpty, nofun⟩
  rw [hEmpty]
  exact Contacts.orderly_empty _ _

/-- **Runs with restarts keep what is on file in order.** -/
theorem Lineage.tidy (h : Lineage P peer saved₀ d₀ saved d) (hStart : Tidy P peer saved₀ d₀) :
    Tidy P peer saved d := by
  induction h with
  | start => exact hStart
  | step op _ _ ih => exact ih.step op
  | restart _ mem restored ih => exact ih.restart mem restored

/-- **Runs with restarts move the record of the peer forward.** -/
theorem Lineage.advances (h : Lineage P peer saved₀ d₀ saved d) (hStart : Tidy P peer saved₀ d₀)
    {record : Peer} (hRecord : d₀.contacts.get? peer = some record) :
    ∃ record', d.contacts.get? peer = some record' ∧ record.Advances record' := by
  induction h with
  | start => exact ⟨record, hRecord, .refl _⟩
  | step op before _ ih =>
    obtain ⟨record', hRecord', hAdvances⟩ := ih
    obtain ⟨record'', hRecord'', hAdvances'⟩ :=
      (changes_step (P := P) _ op).advances (before.tidy hStart).orderly hRecord'
    exact ⟨record'', hRecord'', hAdvances.trans hAdvances'⟩
  | restart before mem restored ih =>
    obtain ⟨-, hSame, -⟩ := ((before.tidy hStart).stores _ mem).restored restored
    rw [hSame]
    exact ih

-- ---------------------------------------------------------------------------
-- Other keys
-- ---------------------------------------------------------------------------

/-- The event that other keys for a peer on file are. -/
def mismatch (P : Primitives) (peer : String) (keys : PublicKeys) (d : Device) : Audit.Event :=
  ⟨.keyMismatch, [d.id, peer], .failure, "presented fingerprint " ++ (keys.fingerprint P).text⟩

/-- An operation that presents keys for a peer. -/
def Presents (peer : String) (keys : PublicKeys) (op : Operation) : Prop :=
  op = .remember peer keys ∨
    ∃ text bundle, op = .importBundle text ∧ Bundle.parse text = .ok bundle ∧
      bundle.deviceId = peer ∧ bundle.publicKeys = .ok keys

/-- Presenting keys is meeting a peer, whether or not they come in a bundle. -/
theorem step_eq_remember {keys : PublicKeys} {op : Operation} (h : Presents peer keys op)
    (d : Device) : d.step P op = answer .peer (d.remember P peer keys) := by
  rcases h with rfl | ⟨text, bundle, rfl, hText, rfl, hKeys⟩
  · rfl
  · show answer .peer (d.importBundle P text) = _
    unfold importBundle
    simp only [hText, hKeys]

/-- A mismatch is an error, and is put on record. -/
theorem remember_of_mismatch {keys : PublicKeys}
    (h : d.contacts.remember (some d.id) peer keys d.now = .error (.keyMismatch peer)) :
    (∃ failure, (d.remember P peer keys).1 = .error failure) ∧
      (d.remember P peer keys).2 = (d.record P (d.mismatch P peer keys)).2 := by
  unfold remember mismatch
  rw [h]
  dsimp only
  split
  · rename_i hRecorded
    exact ⟨⟨_, rfl⟩, (congrArg Prod.snd hRecorded).symm⟩
  · rename_i hRecorded
    exact ⟨⟨_, rfl⟩, (congrArg Prod.snd hRecorded).symm⟩

/-- **Other keys for a peer on file are refused.** If the configuration allows its id, this is put
on record. -/
theorem step_presents (h : Tidy P peer saved d) {record : Peer} {keys : PublicKeys}
    (hRecord : d.contacts.get? peer = some record) (hKeys : keys ≠ record.keys) {op : Operation}
    (hOp : Presents peer keys op) :
    ∃ failure, (d.step P op).1 = .peer (.error failure) ∧
      (d.step P op).2.contacts = d.contacts ∧
      if peer.utf8ByteSize ≤ d.config.limits.maxDeviceId then
        (d.step P op).2.audit.entries =
          d.audit.entries ++ [d.audit.entryOf P (d.mismatch P peer keys) d.now]
      else
        failure = .invalidInput ("invalid device id " ++ Text.quote peer) ∧ (d.step P op).2 = d := by
  obtain ⟨-, hName, hOther, -⟩ := h.orderly peer record hRecord
  rw [step_eq_remember hOp, ← h.idLimit]
  split
  · -- the id is short enough, so that the keys are compared
    rename_i hShort
    have hMismatch :
        d.contacts.remember (some d.id) peer keys d.now = .error (.keyMismatch peer) := by
      unfold Contacts.remember
      rw [Contacts.refusal?_eq_none_iff.2 ⟨⟨hName, hShort⟩, hOther.symm⟩, hRecord]
      exact if_neg hKeys.symm
    obtain ⟨⟨failure, hFailed⟩, hAfter⟩ := remember_of_mismatch (P := P) hMismatch
    have hContacts : (d.remember P peer keys).2.contacts = d.contacts := by
      rw [hAfter]
      rfl
    have hEntries : (d.remember P peer keys).2.audit.entries =
        d.audit.entries ++ [d.audit.entryOf P (d.mismatch P peer keys) d.now] := by
      rw [hAfter]
      exact d.audit.entries_record (d.mismatch P peer keys) d.now
    exact ⟨failure, congrArg Reply.peer hFailed, hContacts, hEntries⟩
  · -- it is too long, and is refused before the contacts are looked at
    rename_i hLong
    have hFault : (Envelope.idFault? d.contacts.idLimit peer).isSome = true := by
      rw [Option.isSome_iff_ne_none]
      exact fun hNone => hLong (Envelope.idFault?_eq_none_iff.1 hNone).2
    have hRefused : d.contacts.refusal? (some d.id) peer =
        some (.invalidInput ("invalid device id " ++ Text.quote peer)) := if_pos hFault
    have hSame : d.remember P peer keys =
        (.error (.invalidInput ("invalid device id " ++ Text.quote peer)), d) := by
      unfold remember Contacts.remember
      rw [hRefused]
    rw [hSame]
    exact ⟨_, rfl, rfl, rfl, rfl⟩

-- ---------------------------------------------------------------------------
-- The record of a peer
-- ---------------------------------------------------------------------------

/-- **Records only move forward.** A device is created and goes on, through restarts under any
configuration from stores that were written since the record of a peer last changed. It is never its
own peer. Once the peer is on file it stays there: its keys and the time of the first meeting are
the same, trust in it has not fallen, a revocation stands, and so does its reason. Other keys for it
are an error and change no record; they leave one entry in the log, if its id is no longer than the
configuration in force allows, and are refused as invalid without a trace if it is longer.

In the runs no counter passes `2 ^ 64 - 1`. -/
theorem records_move_forward {config : Config} {sink : Audit.Sink} {identity : Option Identity}
    {now : UInt64} {random : RandomSource} {first : Device}
    (hCreated : create P config sink identity now random = .ok first)
    (hBefore : Lineage P peer [] first saved₀ d₀) (hLater : Lineage P peer saved₀ d₀ saved d) :
    d.contacts.get? d.id = none ∧
      ∀ record, d₀.contacts.get? peer = some record →
        ∃ record', d.contacts.get? peer = some record' ∧ record.Advances record' ∧
          ∀ keys op, keys ≠ record.keys → Presents peer keys op →
            ∃ failure, (d.step P op).1 = .peer (.error failure) ∧
              (d.step P op).2.contacts = d.contacts ∧
              if peer.utf8ByteSize ≤ d.config.limits.maxDeviceId then
                (d.step P op).2.audit.entries =
                  d.audit.entries ++ [d.audit.entryOf P (d.mismatch P peer keys) d.now]
              else
                failure = .invalidInput ("invalid device id " ++ Text.quote peer) ∧
                  (d.step P op).2 = d := by
  have hTidy₀ := hBefore.tidy (tidy_created peer hCreated)
  have hTidy := hLater.tidy hTidy₀
  refine ⟨hTidy.orderly.get?_own, fun record hRecord => ?_⟩
  obtain ⟨record', hRecord', hAdvances⟩ := hLater.advances hTidy₀ hRecord
  refine ⟨record', hRecord', hAdvances, fun keys op hKeys hOp => ?_⟩
  exact step_presents hTidy hRecord' (hAdvances.keys ▸ hKeys) hOp

-- ---------------------------------------------------------------------------
-- A narrower bound
-- ---------------------------------------------------------------------------

/-- The stores from which a device may be brought back behind some operations. -/
def keptDuring (P : Primitives) (peer : String) (d : Device) (saved : List Store) :
    List Operation → List Store
  | [] => saved
  | op :: rest =>
    keptDuring P peer (step P d op).2
      (keptSince peer d (step P d op).2 ((History.stored? (op, (step P d op).1)).map (·.1)) saved)
      rest

/-- A lineage goes on with operations that all return. -/
theorem Lineage.after (h : Lineage P peer saved₀ d₀ saved d) {ops : List Operation}
    (hReturn : allReturn P d ops = true) :
    Lineage P peer saved₀ d₀ (keptDuring P peer d saved ops) (Device.after P d ops) := by
  induction ops generalizing saved d with
  | nil => exact h
  | cons op rest ih =>
    simp only [allReturn, Bool.and_eq_true, Bool.not_eq_true'] at hReturn
    exact ih (h.step op hReturn.1) hReturn.2

/-- An id of twenty bytes. -/
def longName : String := "ann-of-the-long-name"

/-- Bob meets a device with a long name, accepts it, and is saved. -/
def longNameOps : List Operation :=
  [meetPlain longName 1, .verify longName .firstContact, .save (.memory none) "secret"]

/-- The standard configuration, but with a bound of sixteen bytes on ids. -/
def narrow : Config := { Config.standard with limits := ⟨1048576, 16⟩ }

/-- The stores from which Bob may be brought back. -/
def longNameStores : List Store :=
  keptDuring .plain longName (plain .standard "bob" 3) [] longNameOps

/-- Bob, brought back under the narrower bound. -/
def narrowed : Except Failure Device :=
  restore .plain narrow .memory (longNameStores.headD (.memory none)) "secret" 7
    ⟨fun _ => 9, 0⟩

theorem mem_longNameStores : longNameStores.headD (.memory none) ∈ longNameStores :=
  headD_mem (by decide +kernel)

/-- Keys that are not those of the device with the long name. -/
def otherKeys : PublicKeys := (plainIdentity longName 5).publicKeys .plain

/-- Bob meets the device with the long name, and is brought back under the narrower bound. -/
theorem records_move_forward_of_longName :
    let met := Device.after .plain (plain .standard "bob" 3) longNameOps
    ∃ back saved, narrowed = .ok back ∧
      let d := Device.after .plain back [.revoke longName "lost"]
      Lineage .plain longName longNameStores met saved d ∧
      d.contacts.get? d.id = none ∧
      ∃ record record', met.contacts.get? longName = some record ∧
        record.trust = .tofuAccepted ∧ d.contacts.get? longName = some record' ∧
        record'.revocationReason = some "lost" ∧ record.Advances record' ∧
        ∀ keys op, keys ≠ record.keys → Presents longName keys op →
          ∃ failure, (d.step .plain op).1 = .peer (.error failure) ∧
            (d.step .plain op).2.contacts = d.contacts ∧
            if longName.utf8ByteSize ≤ d.config.limits.maxDeviceId then
              (d.step .plain op).2.audit.entries =
                d.audit.entries ++ [d.audit.entryOf .plain (d.mismatch .plain longName keys) d.now]
            else
              failure = .invalidInput ("invalid device id " ++ Text.quote longName) ∧
                (d.step .plain op).2 = d := by
  intro met
  have hFacts : narrowed.toOption.map (fun back =>
      (allReturn .plain back [.revoke longName "lost"],
        (((Device.after .plain back [.revoke longName "lost"]).contacts.get? longName).bind
          (·.revocationReason)))) = some (true, some "lost") := by
    decide +kernel
  obtain ⟨back, hBack, hFacts⟩ := exists_ok_of_map hFacts
  obtain ⟨hReturn, hReason⟩ := Prod.mk.inj hFacts
  have hMet : Lineage .plain longName [] (plain .standard "bob" 3) longNameStores met :=
    Lineage.start.after
      (show allReturn .plain (plain .standard "bob" 3) longNameOps = true by decide +kernel)
  have hStart : Lineage .plain longName longNameStores met longNameStores met := .start
  have hLater := (hStart.restart mem_longNameStores hBack).after hReturn
  obtain ⟨hOwn, hRecords⟩ := records_move_forward (create_plain "bob" 3 rfl) hMet hLater
  have hTrust : (met.contacts.get? longName).map (·.trust) = some .tofuAccepted := by
    decide +kernel
  obtain ⟨record, hRecord, hTrust⟩ := Option.map_eq_some_iff.1 hTrust
  obtain ⟨record', hRecord', hAdvances, hOther⟩ := hRecords record hRecord
  rw [hRecord'] at hReason
  exact ⟨back, _, hBack, hLater, hOwn, record, record', hRecord, hTrust, hRecord', hReason,
    hAdvances, hOther⟩

/-- **A long name leaves no entry.** Under a narrower bound on ids, other keys for a device on file
are refused, but nothing is put on record. -/
theorem long_name_leaves_no_entry :
    create .plain .standard .memory (some (plainIdentity "bob" 3)) 0 ⟨fun _ => 3, 0⟩ =
        .ok (plain .standard "bob" 3) ∧
      ∃ saved back record,
        Lineage .plain longName [] (plain .standard "bob" 3) saved back ∧
        back.contacts.get? longName = some record ∧ otherKeys ≠ record.keys ∧
        (back.step .plain (.remember longName otherKeys)).2.audit.entries = back.audit.entries := by
  refine ⟨create_plain "bob" 3 rfl, longNameStores, ?_⟩
  have hFacts : narrowed.toOption.map (fun back =>
      (decide ((back.contacts.get? longName).map (·.keys) =
          some ((plainIdentity longName 1).publicKeys .plain)),
        decide ((back.step .plain (.remember longName otherKeys)).2.audit.entries =
          back.audit.entries))) = some (true, true) := by
    decide +kernel
  obtain ⟨back, hBack, hFacts⟩ := exists_ok_of_map hFacts
  obtain ⟨hKeys, hEntries⟩ := Prod.mk.inj hFacts
  obtain ⟨record, hRecord, hKeys⟩ := Option.map_eq_some_iff.1 (of_decide_eq_true hKeys)
  have hMet : Lineage .plain longName [] (plain .standard "bob" 3) longNameStores _ :=
    Lineage.start.after
      (show allReturn .plain (plain .standard "bob" 3) longNameOps = true by decide +kernel)
  refine ⟨back, record, hMet.restart mem_longNameStores hBack, hRecord, ?_, of_decide_eq_true hEntries⟩
  rw [hKeys]
  decide +kernel

end Device

end EndToEnd
