import EndToEnd.Proofs.Chain
import EndToEnd.Proofs.EnvelopeText
import EndToEnd.Proofs.Plain
import EndToEnd.Proofs.Restarts

/-!
# No number is used twice

The envelopes that a device writes for a peer carry ever larger pairs of an epoch and a number in
it, and all envelopes of one epoch carry the same level and the same fresh key. This goes on behind
a restart, if the device is brought back from a store that was written after its last epoch with
the peer had begun.

The invariant is `Outbound.Numbered`: every epoch that was ever used lies below the counter, the
session that sends has the last one, and its chain stands behind all numbers used in it.

Main results:

* `Outbound.Numbered.makes` — a message keeps the invariant, whether or not its envelope is written.
* `Device.Life.numbered` — the invariant holds in every life, restarts included.
* `Device.written_in_order` — the envelopes for a peer, in order.
-/

namespace EndToEnd

/-- An envelope that a sender makes before another: in an earlier epoch, or earlier in the same one,
with the same level and the same fresh key. -/
def Envelope.Before (e e' : Envelope) : Prop :=
  e.epoch < e'.epoch ∨
    e.epoch = e'.epoch ∧ e.sequence < e'.sequence ∧ e.level = e'.level ∧ e.ephemeral = e'.ephemeral

/-- A nonce that begins with the number of its message. -/
def Envelope.NonceTells (e : Envelope) : Prop :=
  e.nonce.take 8 = Bytes.bigEndian 8 e.sequence.toNat

-- ---------------------------------------------------------------------------
-- One envelope
-- ---------------------------------------------------------------------------

namespace Session

variable {P : Primitives} {own : Identity} {plaintext : Bytes} {s s' : Session}
  {random random' : RandomSource} {e : Envelope}

/-- The header of the next envelope of a session. -/
theorem header_of_encrypt (h : s.encrypt P own plaintext random = .ok (e, s', random')) :
    e.epoch = s.id.epoch ∧ e.sequence = s.ratchet.next ∧ e.level = s.level ∧
      e.ephemeral = s.ephemeral ∧ e.NonceTells := by
  obtain ⟨-, -, rfl⟩ := encrypt_cases h
  refine ⟨epoch_signed _, sequence_signed _, level_signed _, ephemeral_signed _, ?_⟩
  unfold Envelope.NonceTells
  rw [nonce_signed, sequence_signed]
  show (Bytes.bigEndian 8 s.ratchet.next.toNat ++ _).take 8 = Bytes.bigEndian 8 s.ratchet.next.toNat
  exact List.take_left' (Bytes.length_bigEndian ..)

/-- The session behind a message: its chain has moved by one, and the rest is as it was. -/
theorem session_of_encrypt (h : s.encrypt P own plaintext random = .ok (e, s', random')) :
    s'.id = s.id ∧ s'.level = s.level ∧ s'.ephemeral = s.ephemeral ∧
      s'.ratchet.next.toNat = s.ratchet.next.toNat + 1 := by
  obtain ⟨hNext, rfl, -⟩ := encrypt_cases h
  exact ⟨rfl, rfl, rfl, Ratchet.toNat_add_one hNext⟩

end Session

namespace Outbound

-- ---------------------------------------------------------------------------
-- The invariant
-- ---------------------------------------------------------------------------

/-- A sending side for which some envelopes were made. -/
structure Numbered (o : Outbound) (es : List Envelope) : Prop where
  ordered : es.Pairwise Envelope.Before
  /-- Every epoch that was used lies below the counter. -/
  used : ∀ e ∈ es, e.epoch < o.nextEpoch
  /-- The session that sends has the last epoch. -/
  last : ∀ session, o.current = some session → session.id.epoch.toNat + 1 = o.nextEpoch.toNat
  /-- Its level and fresh key are those of its epoch, and all numbers of its epoch lie behind. -/
  behind : ∀ session, o.current = some session → ∀ e ∈ es, e.epoch = session.id.epoch →
    e.sequence < session.ratchet.next ∧ e.level = session.level ∧ e.ephemeral = session.ephemeral

namespace Numbered

variable {o o' : Outbound} {es : List Envelope}

/-- A side without a session, whose counter lies behind all epochs that were used. -/
theorem of_none (hOrdered : es.Pairwise Envelope.Before) (hUsed : ∀ e ∈ es, e.epoch < o.nextEpoch)
    (hNone : o.current = none) : Numbered o es where
  ordered := hOrdered
  used := hUsed
  last session hs := by
    rw [hNone] at hs
    cases hs
  behind session hs := by
    rw [hNone] at hs
    cases hs

theorem rests (h : Numbered o es) (hRests : o.Rests o') : Numbered o' es where
  ordered := h.ordered
  used := by
    rw [hRests.nextEpoch]
    exact h.used
  last session hs := by
    rw [hRests.nextEpoch]
    exact h.last session (hRests.current session hs)
  behind session hs := h.behind session (hRests.current session hs)

/-- A session that has the last epoch and stands at the number of a new envelope, and the side
behind that envelope. -/
theorem push {session session' : Session} {e : Envelope} (hOrdered : es.Pairwise Envelope.Before)
    (hLast : session.id.epoch.toNat + 1 = o'.nextEpoch.toNat)
    (hUsed : ∀ f ∈ es, f.epoch < o'.nextEpoch)
    (hBehind : ∀ f ∈ es, f.epoch = session.id.epoch →
      f.sequence < session.ratchet.next ∧ f.level = session.level ∧ f.ephemeral = session.ephemeral)
    (hHeader : e.epoch = session.id.epoch ∧ e.sequence = session.ratchet.next ∧
      e.level = session.level ∧ e.ephemeral = session.ephemeral ∧ e.NonceTells)
    (hSession : session'.id = session.id ∧ session'.level = session.level ∧
      session'.ephemeral = session.ephemeral ∧
      session'.ratchet.next.toNat = session.ratchet.next.toNat + 1)
    (hCurrent : o'.current = some session') : Numbered o' es ∧ Numbered o' (es ++ [e]) := by
  obtain ⟨hEpoch, hSequence, hLevel, hEphemeral, -⟩ := hHeader
  obtain ⟨hId, hLevel', hEphemeral', hNext⟩ := hSession
  -- what was written before is of this epoch or an earlier one
  have hEpochs : ∀ f ∈ es, f.epoch = session.id.epoch ∨ f.epoch < session.id.epoch := by
    intro f hf
    have hBelow := UInt64.lt_iff_toNat_lt.1 (hUsed f hf)
    rw [← UInt64.toNat_inj, UInt64.lt_iff_toNat_lt]
    omega
  have hStep : ∀ n : UInt64, n ≤ session.ratchet.next → n < session'.ratchet.next := by
    intro n hn
    rw [UInt64.le_iff_toNat_le] at hn
    rw [UInt64.lt_iff_toNat_lt]
    omega
  -- the next number is above all that were used, in either list
  have hSame (es' : List Envelope) (hOrdered' : es'.Pairwise Envelope.Before)
      (hUsed' : ∀ f ∈ es', f.epoch < o'.nextEpoch)
      (hBehind' : ∀ f ∈ es', f.epoch = session.id.epoch → f.sequence ≤ session.ratchet.next ∧
        f.level = session.level ∧ f.ephemeral = session.ephemeral) : Numbered o' es' := by
    refine ⟨hOrdered', hUsed', fun t ht => ?_, fun t ht f hf hfEpoch => ?_⟩
    · rw [hCurrent] at ht
      cases ht
      rw [hId]
      exact hLast
    · rw [hCurrent] at ht
      cases ht
      rw [hId] at hfEpoch
      obtain ⟨hNumber, hfLevel, hfEphemeral⟩ := hBehind' f hf hfEpoch
      rw [hLevel', hEphemeral']
      exact ⟨hStep _ hNumber, hfLevel, hfEphemeral⟩
  constructor
  · -- the envelope was not given
    refine hSame es hOrdered hUsed fun f hf hfEpoch => ?_
    obtain ⟨hNumber, hRest⟩ := hBehind f hf hfEpoch
    exact ⟨UInt64.le_of_lt hNumber, hRest⟩
  · -- the envelope was given, and comes behind all others
    refine hSame (es ++ [e]) ?_ ?_ ?_
    · refine List.pairwise_append.2 ⟨hOrdered, List.pairwise_singleton _ _, fun f hf g hg => ?_⟩
      rw [List.mem_singleton] at hg
      subst hg
      -- within the epoch its number is greater, and level and fresh key are the same
      rcases hEpochs f hf with hfEpoch | hfEpoch
      · obtain ⟨hNumber, hfLevel, hfEphemeral⟩ := hBehind f hf hfEpoch
        exact .inr ⟨hfEpoch.trans hEpoch.symm, hSequence ▸ hNumber, hfLevel.trans hLevel.symm,
          hfEphemeral.trans hEphemeral.symm⟩
      · exact .inl (hEpoch ▸ hfEpoch)
    · intro f hf
      rcases List.mem_append.1 hf with hf | hf
      · exact hUsed f hf
      · rw [List.mem_singleton.1 hf, hEpoch, UInt64.lt_iff_toNat_lt]
        omega
    · intro f hf hfEpoch
      rcases List.mem_append.1 hf with hf | hf
      · obtain ⟨hNumber, hRest⟩ := hBehind f hf hfEpoch
        exact ⟨UInt64.le_of_lt hNumber, hRest⟩
      · rw [List.mem_singleton.1 hf]
        exact ⟨UInt64.le_of_eq hSequence, hLevel, hEphemeral⟩

variable {P : Primitives} {s : Setting} {peer : Peer} {level : Level} {plaintext : Bytes}
  {e : Envelope}

/-- **A message keeps the invariant,** whether or not its envelope is written. -/
theorem makes (h : Numbered o es) (hMakes : Makes P s peer level plaintext o e o')
    (hCounter : o.nextEpoch = Device.lastNumber → o'.nextEpoch = Device.lastNumber) :
    Numbered o' es ∧ Numbered o' (es ++ [e]) ∧ e.NonceTells := by
  cases hMakes with
  | @continues session session' random random' current fits made =>
    have hHeader := Session.header_of_encrypt made
    have hPush : Numbered { o with current := some session' } es ∧
        Numbered { o with current := some session' } (es ++ [e]) :=
      push h.ordered (h.last session current) h.used (h.behind session current) hHeader
        (Session.session_of_encrypt made) rfl
    exact ⟨hPush.1, hPush.2, hHeader.2.2.2.2⟩
  | @begins session session' ephemeral random random' begun made =>
    have hHeader := Session.header_of_encrypt made
    obtain ⟨keys, -, hBegin⟩ := beginSession_eq_ok begun
    have hEpoch : session.id.epoch = o.nextEpoch := by rw [hBegin]; rfl
    have hNext : (o.nextEpoch + 1).toNat = o.nextEpoch.toNat + 1 := by
      refine Ratchet.toNat_add_one fun hLast => ?_
      have hWrapped : o.nextEpoch + 1 = Device.lastNumber := hCounter hLast
      rw [hLast] at hWrapped
      exact absurd hWrapped (by decide)
    have hUsed : ∀ f ∈ es, f.epoch < o.nextEpoch + 1 := by
      intro f hf
      have hBelow := UInt64.lt_iff_toNat_lt.1 (h.used f hf)
      rw [UInt64.lt_iff_toNat_lt, hNext]
      omega
    -- nothing was made in an epoch that begins only now
    have hNew : ∀ f ∈ es, f.epoch ≠ session.id.epoch := by
      intro f hf hfEpoch
      have hBelow := h.used f hf
      rw [hfEpoch, hEpoch] at hBelow
      exact absurd hBelow (UInt64.lt_irrefl _)
    generalize hAfter : { o with
      current := some session', expiring := [], nextEpoch := o.nextEpoch + 1,
      requestedAt := none } = o'
    have hNext' : o'.nextEpoch = o.nextEpoch + 1 := by rw [← hAfter]
    have hCurrent : o'.current = some session' := by rw [← hAfter]
    obtain ⟨hSame, hMore⟩ := push h.ordered (by rw [hEpoch, hNext', hNext]) (hNext' ▸ hUsed)
      (fun f hf hfEpoch => absurd hfEpoch (hNew f hf)) hHeader (Session.session_of_encrypt made)
      hCurrent
    exact ⟨hSame, hMore, hHeader.2.2.2.2⟩

end Numbered

end Outbound

namespace Device

variable {P : Primitives} {start d : Device} {history : History} {saved : List Store}
  {peer : String}

-- ---------------------------------------------------------------------------
-- One operation
-- ---------------------------------------------------------------------------

/-- **The envelopes that an operation gives for a peer.** The sending side rests and there is none, or
one is made, and given if it can be written. -/
theorem envelopes_step (hFiled : d.contacts.Filed) (op : Operation) (peer : String) :
    ∃ more, more.map Envelope.write = History.written peer [(op, (d.step P op).1)] ∧
      ((more = [] ∧ (d.pairs.sending peer).Rests ((d.step P op).2.pairs.sending peer)) ∨
        ∃ level plaintext record e, op = .send peer level plaintext ∧
          Outbound.Makes P (d.setting d.now) record level plaintext (d.pairs.sending peer) e
            ((d.step P op).2.pairs.sending peer) ∧ (more = [] ∨ more = [e])) := by
  rcases sending_step (P := P) hFiled op peer with
    ⟨hNone, hRests⟩ | ⟨level, plaintext, record, e, rfl, -, -, hReply, hMakes⟩
  · exact ⟨[], by simp [History.written, hNone], .inl ⟨rfl, hRests⟩⟩
  · cases hEncoded : e.encode d.config.limits with
    | error failure =>
      refine ⟨[], ?_, .inr ⟨level, plaintext, record, e, rfl, hMakes, .inl rfl⟩⟩
      simp [History.written, hReply, hEncoded, History.written?]
    | ok bytes =>
      refine ⟨[e], ?_, .inr ⟨level, plaintext, record, e, rfl, hMakes, .inr rfl⟩⟩
      simp [History.written, hReply, hEncoded, History.written?,
        (Envelope.encode_eq_ok_iff.1 hEncoded).2]

/-- An operation that returns writes at most one envelope for a peer, and keeps the invariant. -/
theorem numbered_step {es : List Envelope} (hFiled : d.contacts.Filed) (op : Operation)
    (hNumbered : (d.pairs.sending peer).Numbered es) (hReturns : overruns P d op = false) :
    ∃ more, more.map Envelope.write = History.written peer [(op, (d.step P op).1)] ∧
      ((d.step P op).2.pairs.sending peer).Numbered (es ++ more) ∧
      ∀ e ∈ more, e.NonceTells := by
  obtain ⟨more, hWritten, ⟨rfl, hRests⟩ | ⟨level, plaintext, record, e, rfl, hMakes, hMore⟩⟩ :=
    envelopes_step (P := P) hFiled op peer
  · refine ⟨[], hWritten, ?_, fun _ h => (nomatch h)⟩
    rw [List.append_nil]
    exact hNumbered.rests hRests
  · obtain ⟨hSame, hNext, hNonce⟩ := hNumbered.makes hMakes (counter_of_returns hReturns)
    rcases hMore with rfl | rfl
    · refine ⟨[], hWritten, ?_, fun _ h => (nomatch h)⟩
      rw [List.append_nil]
      exact hSame
    · refine ⟨[e], hWritten, hNext, fun f hf => ?_⟩
      rw [List.mem_singleton.1 hf]
      exact hNonce

-- ---------------------------------------------------------------------------
-- Lives
-- ---------------------------------------------------------------------------

/-- **The invariant holds in every life:** the written envelopes for a peer are some envelopes for
which the sending side is numbered. -/
theorem Life.numbered (hStart : Starts P start) (hLife : Life P peer start history saved d) :
    ∃ es : List Envelope, es.map Envelope.write = history.written peer ∧
      (d.pairs.sending peer).Numbered es ∧ ∀ e ∈ es, e.NonceTells := by
  induction hLife with
  | start =>
    exact ⟨[], rfl, .of_none .nil (fun _ h => (nomatch h)) (hStart.current peer),
      fun _ h => (nomatch h)⟩
  | step op before returns ih =>
    obtain ⟨es, hWritten, hNumbered, hNonces⟩ := ih
    obtain ⟨more, hMore, hAfter, hNonces'⟩ :=
      numbered_step (before.filed hStart) op hNumbered returns
    refine ⟨es ++ more, ?_, hAfter, fun e he => ?_⟩
    · rw [List.map_append, History.written_append, hWritten, hMore]
    · rcases List.mem_append.1 he with he | he
      · exact hNonces e he
      · exact hNonces' e he
  | restart before mem restored ih =>
    obtain ⟨es, hWritten, hNumbered, hNonces⟩ := ih
    obtain ⟨hNext, hNone⟩ := nextEpoch_restore (before.keeps _ mem) restored
    refine ⟨es, hWritten, .of_none hNumbered.ordered ?_ hNone, hNonces⟩
    rw [hNext]
    exact hNumbered.used

/-- **No epoch and number are ever used twice.** In every life, restarts from stores that were
written since the last epoch with a peer began included, the envelopes that were given for this peer
come in strictly increasing order of epoch and number, those of one epoch have one level and one
fresh key, and every nonce begins with the number of its message.

In the life no counter passes `2 ^ 64 - 1`. -/
theorem written_in_order (hStart : Starts P start) (hLife : Life P peer start history saved d) :
    ∃ es : List Envelope, es.map Envelope.write = history.written peer ∧
      es.Pairwise Envelope.Before ∧
      ∀ e ∈ es, e.nonce.take 8 = Bytes.bigEndian 8 e.sequence.toNat := by
  obtain ⟨es, hWritten, hNumbered, hNonces⟩ := hLife.numbered hStart
  exact ⟨es, hWritten, hNumbered.ordered, hNonces⟩

/-- Ann writes to Bob, also behind a change of level, and is then saved in a file. -/
def numberingOps : List Operation :=
  [meetPlain "bob" 3, .send "bob" .basic [1], .send "bob" .basic [2], .send "bob" .military [3],
    .save (.file .nothing) "secret"]

/-- The stores that Ann may be brought back from. -/
def numberingStores : List Store :=
  savedDuring .plain "bob" (plain .standard "ann" 1) [] numberingOps

/-- Ann, brought back from the store in which she was saved. -/
def numberingRestored : Except Failure Device :=
  restore .plain .standard .memory (numberingStores.headD (.memory none)) "secret" 0
    ⟨fun _ => 9, 0⟩

theorem written_in_order_of_restart : ∃ history saved d,
    Life .plain "bob" (plain .standard "ann" 1) history saved d ∧
      (history.written "bob").length = 4 ∧
      ∃ es : List Envelope, es.map Envelope.write = history.written "bob" ∧
        es.Pairwise Envelope.Before ∧
        ∀ e ∈ es, e.nonce.take 8 = Bytes.bigEndian 8 e.sequence.toNat := by
  let again : List Operation := [.send "bob" .basic [4]]
  have hStores : numberingStores.head?.isSome = true := by decide +kernel
  have hAgain : numberingRestored.toOption.map (fun d =>
      (allReturn .plain d again, ((during .plain d again).written "bob").length)) =
        some (true, 1) := by
    decide +kernel
  have hMem : numberingStores.headD (.memory none) ∈ numberingStores := headD_mem hStores
  have hStart : Life .plain "bob" (plain .standard "ann" 1) [] []
      (plain .standard "ann" 1) := .start
  have hFirst : allReturn .plain (plain .standard "ann" 1) numberingOps = true := by decide +kernel
  have hSaved := hStart.after hFirst
  have hWritten : ((during .plain (plain .standard "ann" 1) numberingOps).written
      "bob").length = 3 := by
    decide +kernel
  obtain ⟨d, hBack, hAgain⟩ := exists_ok_of_map hAgain
  obtain ⟨hReturns, hOne⟩ := Prod.mk.inj hAgain
  have hLife := (hSaved.restart hMem hBack).after hReturns
  refine ⟨_, _, _, hLife, ?_, written_in_order (plain_starts "ann" 1 rfl) hLife⟩
  rw [List.nil_append, History.written_append, List.length_append, hWritten, hOne]

end Device

end EndToEnd
