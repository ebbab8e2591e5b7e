import EndToEnd.Proofs.Waiting

/-!
# Two devices that correspond

What holds between a device that sends and one that receives what it sent: the letters on the one
side, the places on the other, and that they know each other. Each operation of either device keeps
this, and so does a letter that is received.

Main results:

* `Corresponds.sender_cases` — what an operation of the sender does.
* `Corresponds.receiver` — what an operation of the receiver does that is given no letter.
* `Corresponds.tells`, `Corresponds.accept` — a letter that is received, and what it leaves.
-/

namespace EndToEnd

/-- A device that has sent some letters to another, which has accepted some of them at some
places. -/
structure Corresponds (P : Primitives) (a b : Device) (letters : List Letter)
    (places : List (UInt64 × UInt64)) : Prop where
  config : a.config = b.config
  valid : b.config.validate = .ok ()
  filedA : a.contacts.Filed
  filedB : b.contacts.Filed
  posts : a.Posts P b.identity letters
  /-- The sender has the true keys of the receiver on file. -/
  keys : ∃ record, a.contacts.get? b.id = some record ∧ record.keys = b.identity.publicKeys P
  knows : b.Knows P a
  attends : b.Attends P a.identity letters places
  epochs : ∀ p ∈ places, ∃ l ∈ letters, l.envelope.epoch = p.1
  named : b.Named

/-- More letters are as good for a side that keeps to some of them. -/
theorem Inbound.Hears.more {P : Primitives} {a b : Identity} {letters letters' : List Letter}
    {i : Inbound} (h : i.Hears P a b letters) (hMore : ∀ l ∈ letters, l ∈ letters') :
    i.Hears P a b letters' := by
  intro epoch session hSession
  obtain ⟨hEpoch, hChain, l, hMem, hSame⟩ := h epoch session hSession
  exact ⟨hEpoch, hChain, l, hMore l hMem, hSame⟩

namespace Corresponds

variable {P : Primitives} {a a' b : Device} {letters : List Letter}
  {places : List (UInt64 × UInt64)}

theorem keys_of (h : Corresponds P a b letters places) :
    ∀ record, a.contacts.get? b.identity.deviceId = some record →
      record.keys = b.identity.publicKeys P := by
  intro record hRecord
  obtain ⟨known, hKnown, hKeys⟩ := h.keys
  rw [show a.contacts.get? b.identity.deviceId = some known from hKnown] at hRecord
  cases hRecord
  exact hKeys

/-- Every accepted place lies below the epoch that the sender would begin. -/
theorem below (h : Corresponds P a b letters places) :
    ∀ p ∈ places, p.1 < (a.pairs.sending b.id).nextEpoch := by
  intro p hp
  obtain ⟨l, hMem, hEpoch⟩ := h.epochs p hp
  rw [← hEpoch]
  exact h.posts.numbered.used _ (List.mem_map_of_mem hMem)

-- ---------------------------------------------------------------------------
-- The sender
-- ---------------------------------------------------------------------------

/-- A sender later in its life, with more letters. -/
theorem of_posts (h : Corresponds P a b letters places) {letters' : List Letter}
    (hConfig : a'.config = a.config) (hIdentity : a'.identity = a.identity)
    (hFiled : a'.contacts.Filed)
    (hKeys : ∃ record, a'.contacts.get? b.id = some record ∧ record.keys = b.identity.publicKeys P)
    (hPosts : a'.Posts P b.identity letters') (hMore : ∀ l ∈ letters, l ∈ letters') :
    Corresponds P a' b letters' places where
  config := hConfig.trans h.config
  valid := h.valid
  filedA := hFiled
  filedB := h.filedB
  posts := hPosts
  keys := hKeys
  knows := by
    unfold Device.Knows Device.id
    rw [hIdentity]
    exact h.knows
  attends := by
    rw [hIdentity]
    exact ⟨h.attends.tracks, h.attends.hears.more hMore, h.attends.barred⟩
  epochs p hp := by
    obtain ⟨l, hMem, hEpoch⟩ := h.epochs p hp
    exact ⟨l, hMore l hMem, hEpoch⟩
  named := h.named

theorem keys_of_evolves (h : Corresponds P a b letters places) (hEvolves : a.Evolves a') :
    ∃ record, a'.contacts.get? b.id = some record ∧ record.keys = b.identity.publicKeys P := by
  obtain ⟨record, hRecord, hKeys⟩ := h.keys
  obtain ⟨record', hRecord', -, hSame, -⟩ := hEvolves.contacts _ record hRecord
  exact ⟨record', hRecord', hSame.trans hKeys⟩

/-- **What an operation of the sender does:** it writes nothing for the receiver and takes no key,
or it makes a genuine envelope, which is one more letter if it can be written. -/
theorem sender_cases (hP : P.Lawful) (h : Corresponds P a b letters places) (op : Operation)
    (hReturns : Device.overruns P a op = false) :
    (History.written? b.id (op, (a.step P op).1) = none ∧
        (a.pairs.sending b.id).Rests ((a.step P op).2.pairs.sending b.id) ∧
        Corresponds P (a.step P op).2 b letters places) ∨
      ∃ level plaintext record e, op = .send b.id level plaintext ∧
        (a.step P op).1 = .sent (e.encode a.config.limits) ∧
        Outbound.Makes P (a.setting a.now) record level plaintext (a.pairs.sending b.id) e
          ((a.step P op).2.pairs.sending b.id) ∧
        e.Genuine P a.identity b.identity plaintext ∧ e.level = level ∧
        Corresponds P (a.step P op).2 b letters places ∧
        ∀ bytes, e.encode a.config.limits = .ok bytes → bytes = e.write ∧
          Corresponds P (a.step P op).2 b (letters ++ [⟨e, plaintext⟩]) places := by
  have hEvolves := Device.evolves_step (P := P) a op
  have hAfter {letters' : List Letter} (hPosts : (a.step P op).2.Posts P b.identity letters')
      (hMore : ∀ l ∈ letters, l ∈ letters') : Corresponds P (a.step P op).2 b letters' places :=
    h.of_posts hEvolves.config hEvolves.identity (hEvolves.filed h.filedA)
      (h.keys_of_evolves hEvolves)
      hPosts hMore
  rcases Device.posts_cases hP h.filedA h.keys_of h.posts op hReturns with
    ⟨hNone, hRests, hPosts⟩ |
      ⟨level, plaintext, record, e, hOp, hReply, hMakes, hGenuine, hLevel, hPosts, hMore⟩
  · exact .inl ⟨hNone, hRests, hAfter hPosts fun _ hl => hl⟩
  · refine .inr ⟨level, plaintext, record, e, hOp, hReply, hMakes, hGenuine, hLevel,
      hAfter hPosts fun _ hl => hl, fun bytes hEncoded => ?_⟩
    obtain ⟨hBytes, hPosts'⟩ := hMore bytes hEncoded
    exact ⟨hBytes, hAfter hPosts' fun _ hl => List.mem_append_left _ hl⟩

/-- A sender that was brought back from a store in which it was saved since its last epoch. -/
theorem restart (hP : P.Lawful) (h : Corresponds P a b letters places) {saved : Device}
    {store : Store}
    {passphrase : String} {sink : Audit.Sink} {now : UInt64} {random : RandomSource}
    (hSaved : saved.SavedIn P store passphrase) (hFiled : saved.contacts.Filed)
    (hIdentity : saved.identity = a.identity)
    (hKeys : ∃ record, saved.contacts.get? b.id = some record ∧
      record.keys = b.identity.publicKeys P)
    (hEpoch : (saved.pairs.sending b.id).nextEpoch = (a.pairs.sending b.id).nextEpoch)
    (hRestored : Device.restore P a.config sink store passphrase now random = .ok a') :
    Corresponds P a' b letters places ∧ a'.identity = a.identity ∧
      (a'.pairs.sending b.id).nextEpoch = (a.pairs.sending b.id).nextEpoch ∧
      (a'.pairs.sending b.id).current = none := by
  obtain ⟨hConfig, hSame, hContacts⟩ := Device.restore_of_savedIn hP hFiled hSaved hRestored
  obtain ⟨hNext, hNone⟩ := Device.nextEpoch_restore (hSaved.keeps b.id) hRestored
  have hIdentity' : a'.identity = a.identity := hSame.trans hIdentity
  have hNext' : (a'.pairs.sending b.id).nextEpoch = (a.pairs.sending b.id).nextEpoch :=
    hNext.trans hEpoch
  refine ⟨?_, hIdentity', hNext', hNone⟩
  have hPosts : a'.Posts P b.identity letters := by
    refine ⟨?_, fun session hSession => ?_, ?_, ?_⟩
    · refine .of_none h.posts.numbered.ordered ?_ hNone
      rw [show (a'.pairs.sending b.identity.deviceId).nextEpoch = _ from hNext']
      exact h.posts.numbered.used
    · rw [show (a'.pairs.sending b.identity.deviceId).current = none from hNone] at hSession
      cases hSession
    · rw [hIdentity']
      exact h.posts.genuine
    · rw [hConfig]
      exact h.posts.checked
  refine h.of_posts hConfig hIdentity' (Device.Starts.restored hRestored).filed ?_ hPosts
    fun _ hl => hl
  rw [hContacts]
  exact hKeys

-- ---------------------------------------------------------------------------
-- The receiver
-- ---------------------------------------------------------------------------

/-- A receiver knows a sender on while it does not revoke it. -/
theorem knows_step {b : Device} (h : b.Knows P a) (op : Operation)
    (hTrusted : (b.step P op).2.isRevoked a.id = false) : (b.step P op).2.Knows P a := by
  obtain ⟨record, hRecord, hKeys, -⟩ := h
  obtain ⟨record', hRecord', -, hSame, -⟩ := (Device.evolves_step b op).contacts _ record hRecord
  refine ⟨record', hRecord', hSame.trans hKeys, ?_⟩
  unfold Device.isRevoked at hTrusted
  rw [hRecord'] at hTrusted
  exact hTrusted

/-- The receiver after an operation, with what it has accepted then. -/
theorem of_attends (h : Corresponds P a b letters places) (op : Operation)
    (hTrusted : (b.step P op).2.isRevoked a.id = false) {places' : List (UInt64 × UInt64)}
    (hTracks : ((b.step P op).2.pairs.receiving a.id).Tracks places')
    (hHears : ((b.step P op).2.pairs.receiving a.id).Hears P a.identity b.identity letters)
    (hEpochs : ∀ p ∈ places', ∃ l ∈ letters, l.envelope.epoch = p.1) :
    Corresponds P a (b.step P op).2 letters places' := by
  obtain ⟨hConfig, hIdentity, -, hFiled⟩ := Device.evolves_step (P := P) b op
  refine ⟨h.config.trans hConfig.symm, ?_, h.filedA, hFiled h.filedB, ?_, ?_,
    knows_step h.knows op hTrusted, ⟨hTracks, ?_, Device.barred_step op h.attends.barred⟩, hEpochs,
    Device.named_step h.filedB h.named op⟩
  · rw [hConfig]
    exact h.valid
  · rw [hIdentity]
    exact h.posts
  · unfold Device.id
    rw [hIdentity]
    exact h.keys
  · rw [hIdentity]
    exact hHears

/-- **What an operation of the receiver does** that revokes nobody and is given nothing of the
sender: it accepts no letter. -/
theorem receiver (h : Corresponds P a b letters places) (op : Operation)
    (hTrusted : (b.step P op).2.isRevoked a.id = false)
    (hOther : ∀ bytes e, op = .receive bytes → Envelope.decode b.config.limits bytes = .ok e →
      e.sender ≠ a.id) :
    Corresponds P a (b.step P op).2 letters places := by
  rcases Device.receiving_step (P := P) b op a.id with
    ⟨-, hWanes⟩ | ⟨bytes, e, peer, plaintext, hOp, -, hTakes⟩
  · exact h.of_attends op hTrusted (h.attends.tracks.wanes hWanes) (h.attends.hears.wanes hWanes)
      h.epochs
  · refine absurd ?_ (hOther bytes e hOp hTakes.decoded)
    rw [← hTakes.named]
    exact (h.filedB _ _ (Device.authenticate_eq_ok hTakes.authentic).1).symm

/-- A letter is read as it was written, if it is not too large. -/
theorem decode_letter (hP : P.Lawful) (h : Corresponds P a b letters places) {l : Letter}
    (hMem : l ∈ letters) (hShort : l.plaintext.length < UInt32.size)
    (hSize : l.envelope.write.length ≤ Envelope.maxSize b.config.limits) :
    Envelope.decode b.config.limits l.envelope.write = .ok l.envelope := by
  have hIds : a.config.limits.maxDeviceId < UInt32.size := by
    rw [h.config]
    exact Device.maxDeviceId_lt h.valid
  rw [← h.config] at hSize ⊢
  exact h.posts.decode_write hP hIds hMem hShort hSize

variable {l : Letter} {bytes : Bytes}

/-- A letter that is presented in the window is received. -/
theorem receive_iff (hP : P.Lawful) (h : Corresponds P a b letters places) (hMem : l ∈ letters)
    (hDecoded : Envelope.decode b.config.limits bytes = .ok l.envelope) :
    (∃ m, (b.receive P bytes).1 = .ok m) ↔
      b.Awaits a.id places l.envelope.epoch l.envelope.sequence := by
  obtain ⟨record, hRecord, hKeys, hTrusted⟩ := h.knows
  exact h.attends.receive_iff hP hRecord (h.filedB _ _ hRecord) hKeys hTrusted
    h.posts.numbered.ordered hMem (h.posts.genuine l hMem) hDecoded

/-- **What is received from a letter is its text.** -/
theorem tells (hP : P.Lawful) (h : Corresponds P a b letters places) (hMem : l ∈ letters)
    (hDecoded : Envelope.decode b.config.limits bytes = .ok l.envelope) {m : ReceivedMessage}
    (hReceived : (b.receive P bytes).1 = .ok m) : m.Tells a.id l := by
  have hGiven : ∀ bytes' e, Operation.receive bytes = .receive bytes' →
      Envelope.decode b.config.limits bytes' = .ok e →
      ∃ l ∈ letters, l.envelope = e ∧
        l.envelope.Genuine P a.identity b.identity l.plaintext := by
    intro bytes' e hSame hDecoded'
    cases hSame
    exact ⟨l, hMem, Except.ok.inj (hDecoded.symm.trans hDecoded'), h.posts.genuine l hMem⟩
  have hReply : (b.step P (.receive bytes)).1 = .received (.ok m) :=
    congrArg Reply.received hReceived
  obtain ⟨l', hMem', hDecoded', hTold⟩ :=
    (Device.hears_step hP h.filedB h.knows.keys h.attends.hears (.receive bytes) hGiven).2
      bytes m rfl
      hReply
  rw [hDecoded] at hDecoded'
  exact h.posts.tells hP hMem hMem' (Except.ok.inj hDecoded').symm hTold

/-- **A letter that is received adds its place.** -/
theorem accept (hP : P.Lawful) (h : Corresponds P a b letters places) (hMem : l ∈ letters)
    (hDecoded : Envelope.decode b.config.limits bytes = .ok l.envelope) {m : ReceivedMessage}
    (hReceived : (b.receive P bytes).1 = .ok m) :
    Corresponds P a (b.receive P bytes).2 letters
      (places ++ [(l.envelope.epoch, l.envelope.sequence)]) := by
  have hTold := h.tells hP hMem hDecoded hReceived
  have hGenuine := h.posts.genuine l hMem
  have hReply : (b.step P (.receive bytes)).1 = .received (.ok m) :=
    congrArg Reply.received hReceived
  rcases Device.receiving_step (P := P) b (.receive bytes) a.id with
    ⟨hNone, -⟩ | ⟨bytes', e, peer, plaintext, hOp, -, hTakes⟩
  · -- the reply is that of the letter, so something was taken
    rw [hReply] at hNone
    simp [History.message?, hTold.sender] at hNone
  · cases hOp
    -- what was taken is the letter
    have hEnvelope := hTakes.decoded
    rw [hDecoded] at hEnvelope
    cases hEnvelope
    obtain ⟨hRecord, -⟩ := Device.authenticate_eq_ok hTakes.authentic
    rw [hGenuine.sender] at hRecord
    have hHears := (h.attends.hears.accepts hP rfl hTakes.named (h.knows.keys peer hRecord) hMem
      hGenuine hTakes.accepts).2
    have hTrusted : (b.step P (.receive bytes)).2.isRevoked a.id = false := by
      show ((b.receive P bytes).2.contacts.get? a.id).any (·.isRevoked) = false
      rw [Device.contacts_receive]
      exact h.knows.not_revoked
    refine h.of_attends (.receive bytes) hTrusted
      (h.attends.tracks.accepts hTakes.accepts hGenuine.counted)
      hHears fun p hp => ?_
    -- the places are those of before, and that of the letter
    rcases List.mem_append.1 hp with hp | hp
    · exact h.epochs p hp
    · rw [List.mem_singleton.1 hp]
      exact ⟨l, hMem, rfl⟩

end Corresponds

end EndToEnd
