import EndToEnd.Proofs.Numbering
import EndToEnd.Proofs.Replay

/-!
# What a device opens

Whoever wrote an envelope, it is opened with the key that the chain of its epoch has for its number.
The chain begins with what the device finds from its own lasting key, the keys on file and the
envelope itself. So all sessions of the epoch, whenever they begin, stand on one chain
(`Session.Stands`), and an envelope that decrypts there (`Envelope.Opens`) fails for one of three
reasons only: its sender was revoked, the epoch was begun with another fresh key or at another
level, or its place does not lie in the window (`Device.Awaits`).

Main results:

* `Session.Stands.decrypt_iff` — when a session of the epoch opens an envelope.
* `Inbound.Stands.accepts` — what is accepted decrypts on its chain, and the receiving side stays on
  its chains.
* `Device.Listens.receive_iff` — when an envelope is accepted.
* `Device.Run.stands`, `Device.Run.carries` — what holds in every run.
-/

namespace EndToEnd

variable {P : Primitives} {own : Identity} {sender : String} {keys : PublicKeys} {e : Envelope}
  {plaintext : Bytes} {maxSkip : UInt64}

-- ---------------------------------------------------------------------------
-- Sessions
-- ---------------------------------------------------------------------------

variable (P) in
/-- The key of an epoch for messages of a peer, as the device that receives them finds it. -/
def Inbound.epochKey (own : Identity) (sender : String) (keys : PublicKeys) (epoch : UInt64)
    (level : Level) (ephemeral : Key) : Except CryptoFault Key :=
  EpochKeys.respond P level.suite own.keys.encryption.bytes keys.encryption ephemeral.bytes
    ⟨sender, own.deviceId, epoch, level⟩

variable (P own sender keys) in
/-- A session on the chain of its epoch. -/
def Session.Stands (s : Session) : Prop :=
  ∃ key, Inbound.epochKey P own sender keys s.epoch s.level s.ephemeral = .ok key ∧
    Ratchet.Follows (s.step P) key s.ratchet

variable (P own sender keys) in
/-- An envelope that decrypts under the key that the chain of its epoch has for its number. -/
structure Envelope.Opens (e : Envelope) (plaintext : Bytes) : Prop where
  begun : e.sequence ≠ 0
  tells : e.NonceTells
  decrypts : ∃ key, Inbound.epochKey P own sender keys e.epoch e.level e.ephemeral = .ok key ∧
    e.level.suite.decrypt? P
      (Ratchet.messageKey (e.level.suite.ratchetStep P) key e.sequence) e.nonce
      ⟨e.ciphertext, e.tag⟩ e.associatedData = some plaintext

/-- An envelope opens to one text. -/
theorem Envelope.Opens.unique {plaintext' : Bytes} (h : e.Opens P own sender keys plaintext)
    (h' : e.Opens P own sender keys plaintext') : plaintext = plaintext' := by
  obtain ⟨key, hKey, hText⟩ := h.decrypts
  obtain ⟨key', hKey', hText'⟩ := h'.decrypts
  rw [hKey] at hKey'
  cases hKey'
  rw [hText] at hText'
  exact Option.some.inj hText'

namespace Session

variable {s s' : Session}

/-- A session that begins stands right, with a key that was derived for its epoch. -/
theorem stands_begin (id : SessionId) (now : UInt64) {level : Level} {key ephemeral : Key}
    (h : Inbound.epochKey P own sender keys id.epoch level ephemeral = .ok key) :
    (Session.begin id level key ephemeral now).Stands P own sender keys :=
  ⟨key, h, Ratchet.follows_ofSeed _ key⟩

/-- A session that ages stands where it stood. -/
theorem Ages.stands (hAges : s.Ages s') (h : s.Stands P own sender keys) :
    s'.Stands P own sender keys := by
  rw [hAges.eq]
  exact h

namespace Stands

/-- **A session of its epoch opens an envelope** exactly if it has the same level and fresh key, and
the number can be reached. -/
theorem decrypt_iff (h : s.Stands P own sender keys) (he : e.Opens P own sender keys plaintext)
    (hEpoch : e.epoch = s.epoch) :
    (∃ text s', s.decrypt P maxSkip e = .ok (text, s')) ↔
      (e.level = s.level ∧ e.ephemeral = s.ephemeral) ∧
        s.ratchet.next ≤ e.sequence ∧
          e.sequence.toNat ≤ s.ratchet.next.toNat + maxSkip.toNat := by
  constructor
  · rintro ⟨text, s', hOpened⟩
    obtain ⟨hLevel, hEphemeral, advance, hAdvance, -⟩ := decrypt_eq_ok_iff.1 hOpened
    obtain ⟨hAhead, hReach, -⟩ := Ratchet.deriveAt_eq_ok_iff.1 hAdvance
    exact ⟨⟨hLevel, hEphemeral⟩, hAhead, hReach⟩
  · rintro ⟨⟨hLevel, hEphemeral⟩, hAhead, hReach⟩
    obtain ⟨advance, hAdvance⟩ : ∃ advance,
        s.ratchet.deriveAt (s.step P) e.sequence maxSkip = .ok advance :=
      ⟨_, Ratchet.deriveAt_eq_ok_iff.2 ⟨hAhead, hReach, rfl⟩⟩
    -- the key that is worked out is that of the chain
    obtain ⟨key, hKey, hFollows⟩ := h
    obtain ⟨key', hKey', hText⟩ := he.decrypts
    rw [hEpoch, hLevel, hEphemeral, hKey] at hKey'
    cases hKey'
    rw [hLevel] at hText
    refine ⟨plaintext, _,
      decrypt_eq_ok_iff.2 ⟨hLevel, hEphemeral, advance, hAdvance, he.tells, ?_, rfl⟩⟩
    rw [(hFollows.deriveAt hAdvance).1]
    exact hText

/-- **What a session opens** decrypts under the key that the chain has for it. -/
theorem opens (h : s.Stands P own sender keys) (hEpoch : e.epoch = s.epoch)
    (hOpened : s.decrypt P maxSkip e = .ok (plaintext, s')) :
    e.Opens P own sender keys plaintext := by
  obtain ⟨key, hKey, hFollows⟩ := h
  obtain ⟨hLevel, hEphemeral, advance, hAdvance, hTells, hText, -⟩ := decrypt_eq_ok_iff.1 hOpened
  obtain ⟨hAhead, -⟩ := Ratchet.deriveAt_eq_ok_iff.1 hAdvance
  refine ⟨?_, hTells, key, ?_, ?_⟩
  · intro hZero
    have hBegun := hFollows.begun
    rw [hZero, UInt64.le_iff_toNat_le] at hAhead
    exact absurd (Nat.le_trans hBegun hAhead) (by decide)
  · rw [hEpoch, hLevel, hEphemeral]
    exact hKey
  · rw [(hFollows.deriveAt hAdvance).1] at hText
    rw [hLevel]
    exact hText

/-- A session that opens an envelope stays on its chain. -/
theorem decrypt (h : s.Stands P own sender keys) (hCounted : e.sequence ≠ Device.lastNumber)
    (hOpened : s.decrypt P maxSkip e = .ok (plaintext, s')) : s'.Stands P own sender keys := by
  obtain ⟨key, hKey, hFollows⟩ := h
  obtain ⟨-, -, advance, hAdvance, -, -, rfl⟩ := decrypt_eq_ok_iff.1 hOpened
  exact ⟨key, hKey, hFollows.commit hAdvance hCounted⟩

end Stands

/-- An envelope is still opened until the grace of its epoch is over. -/
theorem canDecrypt_iff {now : UInt64} :
    s.canDecrypt now = true ↔
      s.phase = .active ∨ ∃ deadline, s.phase = .expiring deadline ∧ now < deadline := by
  unfold canDecrypt
  cases s.phase <;> simp

end Session

/-- **A session that an envelope begins** opens it exactly if not too many messages are passed
over. -/
theorem Envelope.Opens.decrypt_begin_iff (h : e.Opens P own sender keys plaintext) (id : SessionId)
    (hEpoch : e.epoch = id.epoch) {key : Key}
    (hKey : Inbound.epochKey P own sender keys e.epoch e.level e.ephemeral = .ok key)
    (maxSkip now : UInt64) :
    (∃ text s', (Session.begin id e.level key e.ephemeral now).decrypt P maxSkip e =
      .ok (text, s')) ↔ e.sequence.toNat ≤ maxSkip.toNat + 1 := by
  rw [hEpoch] at hKey
  rw [(Session.stands_begin id now hKey).decrypt_iff h hEpoch, UInt64.le_iff_toNat_le]
  have hPositive : e.sequence.toNat ≠ 0 := fun hZero => h.begun (UInt64.toNat_inj.1 hZero)
  have hOne : (Session.begin id e.level key e.ephemeral now).ratchet.next.toNat = 1 := rfl
  have hSame : e.level = (Session.begin id e.level key e.ephemeral now).level ∧
      e.ephemeral = (Session.begin id e.level key e.ephemeral now).ephemeral := ⟨rfl, rfl⟩
  rw [and_iff_right hSame, hOne]
  omega

-- ---------------------------------------------------------------------------
-- The receiving side
-- ---------------------------------------------------------------------------

namespace Inbound

variable {i i' : Inbound} {setting : Setting} {peer : Peer}

/-- The session that an envelope begins: there is one if a key is found. -/
theorem beginSession_eq_ok_iff {session : Session} :
    beginSession P setting peer e = .ok session ↔
      ∃ key, epochKey P setting.own peer.deviceId peer.keys e.epoch e.level e.ephemeral = .ok key ∧
        session = .begin ⟨setting.own.deviceId, peer.deviceId, e.epoch, .inbound⟩ e.level key
          e.ephemeral setting.now := by
  unfold beginSession epochKey
  dsimp only
  split
  · rename_i hFound
    simp [hFound]
  · rename_i key hFound
    simp only [hFound, Except.ok.injEq, exists_eq_left']
    exact eq_comm

/-- Accepting an envelope bars nobody. -/
theorem Accepts.isRevoked (h : Accepts P setting peer e plaintext i i')
    (hOpen : i.isRevoked = false) : i'.isRevoked = false := by
  cases h with
  | continues => exact hOpen
  | @begins session session' aged unknown above begun opened wanes =>
    show aged.isRevoked = false
    cases hBarred : aged.isRevoked with
    | false => rfl
    | true =>
      rcases wanes.barred hBarred with hBarred' | hFalse
      · rw [hOpen] at hBarred'
        cases hBarred'
      · exact hFalse.elim

variable (P own sender keys) in
/-- A receiving side whose sessions are on the chains of their epochs. -/
def Stands (i : Inbound) : Prop :=
  ∀ epoch session, i.epochs.get? epoch = some session →
    session.epoch = epoch ∧ session.Stands P own sender keys

namespace Stands

theorem initial : Stands P own sender keys .initial := fun _ _ h => by cases h

theorem wanes {barring : Prop} (h : i.Stands P own sender keys) (hWanes : Wanes barring i i') :
    i'.Stands P own sender keys := by
  intro epoch session' hs'
  obtain ⟨session, hs, hAges⟩ := hWanes.kept epoch session' hs'
  obtain ⟨hEpoch, hStands⟩ := h epoch session hs
  refine ⟨?_, hAges.stands hStands⟩
  rw [hAges.eq]
  exact hEpoch

/-- One more session on its chain. -/
theorem insert (h : i.Stands P own sender keys) {session : Session} {latest : Option UInt64}
    (hStands : session.Stands P own sender keys) :
    Stands P own sender keys
      { i with epochs := i.epochs.insert session.epoch session, latest := latest } := by
  intro epoch t ht
  rw [Table.get?_insert] at ht
  split at ht
  · rename_i hSame
    cases ht
    exact ⟨hSame.symm, hStands⟩
  · exact h epoch t ht

/-- **What is accepted** decrypts on the chain of its epoch, and the receiving side stays on its
chains. -/
theorem accepts (h : i.Stands P setting.own peer.deviceId peer.keys)
    (hAccepts : Accepts P setting peer e plaintext i i') :
    e.Opens P setting.own peer.deviceId peer.keys plaintext ∧
      (e.sequence ≠ Device.lastNumber → i'.Stands P setting.own peer.deviceId peer.keys) := by
  cases hAccepts with
  | @continues session session' known readable opened =>
    obtain ⟨hEpoch, hStands⟩ := h _ session known
    obtain ⟨-, -, hSame⟩ := Session.next_of_decrypt opened
    have hEpoch' : session'.epoch = e.epoch := by
      rw [hSame]
      exact hEpoch
    refine ⟨hStands.opens hEpoch.symm opened, fun hCounted => ?_⟩
    rw [← hEpoch']
    exact h.insert (hStands.decrypt hCounted opened)
  | @begins session session' aged unknown above begun opened wanes =>
    obtain ⟨key, hKey, rfl⟩ := beginSession_eq_ok_iff.1 begun
    have hStands := Session.stands_begin
      ⟨setting.own.deviceId, peer.deviceId, e.epoch, .inbound⟩ setting.now hKey
    obtain ⟨-, -, hSame⟩ := Session.next_of_decrypt opened
    have hEpoch' : session'.epoch = e.epoch := by
      rw [hSame]
      rfl
    refine ⟨hStands.opens rfl opened, fun hCounted => ?_⟩
    rw [← hEpoch']
    exact (h.wanes wanes).insert (hStands.decrypt hCounted opened)

end Stands

end Inbound

-- ---------------------------------------------------------------------------
-- One envelope
-- ---------------------------------------------------------------------------

variable (P own keys) in
/-- An envelope of a peer with some keys, and the message that a device with some identity finds in
it. -/
structure Envelope.Carries (e : Envelope) (m : ReceivedMessage) : Prop where
  sender : m.sender = e.sender
  level : m.level = e.level
  epoch : m.epoch = e.epoch
  sequence : m.sequence = e.sequence
  authentic : e.Authentic P own keys
  opens : e.Opens P own e.sender keys m.plaintext

/-- One envelope carries one message, but the trust in its sender may change. -/
theorem Envelope.Carries.unique {m m' : ReceivedMessage} (h : e.Carries P own keys m)
    (h' : e.Carries P own keys m') : m' = { m with trust := m'.trust } := by
  obtain ⟨sender, level, epoch, sequence, trust, text⟩ := m'
  obtain rfl : m.plaintext = text := h.opens.unique h'.opens
  obtain rfl : m.sender = sender := h.sender.trans h'.sender.symm
  obtain rfl : m.level = level := h.level.trans h'.level.symm
  obtain rfl : m.epoch = epoch := h.epoch.trans h'.epoch.symm
  obtain rfl : m.sequence = sequence := h.sequence.trans h'.sequence.symm
  rfl

namespace Device

variable {start d d' : Device} {history : History} {bytes : Bytes}

/-- An envelope that was read is accepted if its sender can be made out and its text can be
opened. -/
theorem receive_eq_ok_iff (hDecoded : Envelope.decode d.config.limits bytes = .ok e) :
    (∃ m, (d.receive P bytes).1 = .ok m) ↔
      ∃ peer, d.authenticate P e = .ok peer ∧
        ∃ plaintext, (Inbound.decrypt P (d.setting d.now) peer e
          (d.work.withPart (d.pairs.receiving peer.deviceId))).1 = .ok plaintext := by
  have hOpened (peer : Peer) : (d.onPairs P fun s => Pairs.decrypt P s peer e).1 =
      (Inbound.decrypt P (d.setting d.now) peer e
        (d.work.withPart (d.pairs.receiving peer.deviceId))).1 := rfl
  simp only [← hOpened]
  unfold receive receiveEnvelope
  rw [hDecoded]
  dsimp only
  cases d.authenticate P e with
  | error failure =>
    obtain ⟨failure', hFailed⟩ := (reject_cases (P := P) (some e.sender) failure d).1
    simp [hFailed]
  | ok peer =>
    simp only [Except.ok.injEq, exists_eq_left']
    rcases d.onPairs P fun s => Pairs.decrypt P s peer e with ⟨result, d'⟩
    cases result with
    | error failure =>
      obtain ⟨failure', hFailed⟩ := (reject_cases (P := P) (some e.sender) failure d').1
      simp [hFailed]
    | ok plaintext => simp

-- ---------------------------------------------------------------------------
-- Runs
-- ---------------------------------------------------------------------------

/-- **Every operation keeps the receiving sessions of a sender standing right.** -/
theorem stands_step
    (hKeys : ∀ record, d.contacts.get? sender = some record → record.keys = keys)
    (hFiled : d.contacts.Filed) (h : (d.pairs.receiving sender).Stands P d.identity sender keys)
    (op : Operation) (hReturns : overruns P d op = false) :
    ((d.step P op).2.pairs.receiving sender).Stands P d.identity sender keys := by
  rcases receiving_step (P := P) d op sender with
    ⟨-, hWanes⟩ | ⟨bytes, e, peer, text, rfl, hReply, hTakes⟩
  · exact h.wanes hWanes
  · obtain ⟨hPeer, -⟩ := authenticate_eq_ok hTakes.authentic
    have hSender : sender = e.sender := hTakes.named.symm.trans (hFiled _ _ hPeer)
    obtain rfl : peer.keys = keys := hKeys peer (hSender ▸ hPeer)
    obtain rfl : peer.deviceId = sender := hTakes.named
    exact (h.accepts hTakes.accepts).2 (counted_of_returns hReply hReturns)

/-- There is one record of a peer. -/
theorem forall_keys_of {record : Peer} (h : d.contacts.get? sender = some record) :
    ∀ record', d.contacts.get? sender = some record' → record'.keys = record.keys := by
  intro record' h'
  rw [h] at h'
  cases h'
  rfl

/-- **Every receiving side is on its chains** in every run. -/
theorem Run.stands (hStart : Starts P start) (hRun : Run P start history d)
    (hKeys : ∀ record, d.contacts.get? sender = some record → record.keys = keys) :
    (d.pairs.receiving sender).Stands P d.identity sender keys := by
  induction hRun with
  | start =>
    rw [hStart.receiving]
    exact .initial
  | @step history d' op before returns ih =>
    have hEvolves := evolves_step (P := P) d' op
    have hKeys' := hEvolves.keys_of hKeys
    rw [hEvolves.identity]
    exact stands_step hKeys' (before.filed hStart) (ih hKeys') op returns

/-- A message that would be received now is one that an envelope carries. -/
theorem Run.carries_of_receive (hStart : Starts P start) (hRun : Run P start history d)
    {m : ReceivedMessage} (h : (d.receive P bytes).1 = .ok m) :
    ∃ e record, Envelope.decode d.config.limits bytes = .ok e ∧
      d.contacts.get? m.sender = some record ∧ e.Carries P d.identity record.keys m := by
  have hStep : (d.step P (.receive bytes)).1 = .received (.ok m) := congrArg Reply.received h
  rcases receiving_step (P := P) d (.receive bytes) m.sender with
    ⟨hNone, -⟩ | ⟨bytes', e, peer, text, hSame, hReply, hTakes⟩
  · rw [hStep] at hNone
    simp [History.message?] at hNone
  · cases hSame
    obtain ⟨hPeer, -, hAuthentic⟩ := authenticate_eq_ok_iff.1 hTakes.authentic
    have hSender : m.sender = e.sender := hTakes.named.symm.trans (hRun.filed hStart _ _ hPeer)
    rw [← hSender] at hPeer
    -- the side of the sender holds the keys that the two have agreed on, so what it accepts opens
    -- under them
    have hSide : (d.pairs.receiving m.sender).Stands P (d.setting d.now).own peer.deviceId
        peer.keys := by
      rw [hTakes.named]
      exact hRun.stands hStart (forall_keys_of hPeer)
    obtain ⟨hOpens, -⟩ := hSide.accepts hTakes.accepts
    rw [hTakes.named, hSender] at hOpens
    rw [hStep] at hReply
    injection hReply with hReply
    injection hReply with hReply
    refine ⟨e, peer, hTakes.decoded, hPeer, hSender, ?_, ?_, ?_, hAuthentic, ?_⟩
    · rw [hReply]
    · rw [hReply]
    · rw [hReply]
    · rw [hReply]
      exact hOpens

/-- **What was received** in a run is what envelopes carry. -/
theorem Run.carries (hStart : Starts P start) (hRun : Run P start history d) {m : ReceivedMessage}
    (hMem : (Operation.receive bytes, Reply.received (.ok m)) ∈ history) :
    ∃ e record, Envelope.decode d.config.limits bytes = .ok e ∧
      d.contacts.get? m.sender = some record ∧ e.Carries P d.identity record.keys m := by
  induction hRun with
  | start => cases hMem
  | @step history d' op before returns ih =>
    have hEvolves := evolves_step (P := P) d' op
    rw [hEvolves.config, hEvolves.identity]
    have hBefore : ∃ e record, Envelope.decode d'.config.limits bytes = .ok e ∧
        d'.contacts.get? m.sender = some record ∧ e.Carries P d'.identity record.keys m := by
      rcases List.mem_append.1 hMem with hMem | hMem
      · exact ih hMem
      · obtain ⟨rfl, hReply⟩ := Prod.mk.inj (List.mem_singleton.1 hMem)
        have hReceived : (d'.receive P bytes).1 = .ok m := by injection hReply.symm
        exact before.carries_of_receive hStart hReceived
    obtain ⟨e, record, hDecoded, hRecord, hCarries⟩ := hBefore
    obtain ⟨record', hRecord', -, hKeys, -⟩ := hEvolves.contacts _ _ hRecord
    exact ⟨e, record', hDecoded, hRecord', hKeys ▸ hCarries⟩

/-- A side that no operation bars unless the peer is then revoked. -/
theorem barred_step (op : Operation) {peer : String}
    (h : (d.pairs.receiving peer).isRevoked = true → d.isRevoked peer = true) :
    ((d.step P op).2.pairs.receiving peer).isRevoked = true →
      (d.step P op).2.isRevoked peer = true := by
  intro hBarred
  rcases receiving_step (P := P) d op peer with
    ⟨-, hWanes⟩ | ⟨bytes, e, record, plaintext, -, -, hTakes⟩
  · rcases hWanes.barred hBarred with hBefore | hNow
    · exact isRevoked_of_evolves (evolves_step d op) (h hBefore)
    · exact hNow
  · rw [hTakes.accepts.isRevoked hTakes.unbarred] at hBarred
    cases hBarred

/-- A receiving side is barred only if its peer is revoked. -/
theorem Run.barred (hStart : Starts P start) (hRun : Run P start history d) (peer : String) :
    (d.pairs.receiving peer).isRevoked = true → d.isRevoked peer = true := by
  induction hRun with
  | start =>
    rw [hStart.receiving]
    exact fun h => (nomatch h)
  | step op _ _ ih => exact barred_step op ih

-- ---------------------------------------------------------------------------
-- The window
-- ---------------------------------------------------------------------------

/-- Whether a device that has accepted messages of a sender at some places would accept one more:
in an epoch above all of theirs, if not too many messages are passed over; or in an epoch that it
keeps and that has not ended or is in its grace, above the last number there, and again not too
far. -/
def Awaits (d : Device) (sender : String) (places : List (UInt64 × UInt64))
    (epoch sequence : UInt64) : Prop :=
  ((∀ p ∈ places, p.1 < epoch) ∧ sequence.toNat ≤ d.config.maxSkip.toNat + 1) ∨
    ∃ session last, (d.pairs.receiving sender).epochs.get? epoch = some session ∧
      (session.phase = .active ∨ ∃ deadline, session.phase = .expiring deadline ∧
        d.now < deadline) ∧
      (epoch, last) ∈ places ∧ (∀ p ∈ places, p.1 = epoch → p.2 ≤ last) ∧
      last < sequence ∧ sequence.toNat ≤ last.toNat + 1 + d.config.maxSkip.toNat

/-- What was accepted is not awaited. -/
theorem Awaits.not_mem {places : List (UInt64 × UInt64)} {epoch sequence : UInt64}
    (h : d.Awaits sender places epoch sequence) : (epoch, sequence) ∉ places := by
  intro hMem
  rcases h with ⟨hAbove, -⟩ | ⟨-, last, -, -, -, hMax, hLess, -⟩
  · exact UInt64.lt_irrefl _ (hAbove _ hMem)
  · exact UInt64.lt_irrefl _ (UInt64.lt_of_lt_of_le hLess (hMax _ hMem rfl))

/-- A device that has received from a peer with some keys, at some places. -/
structure Listens (P : Primitives) (sender : String) (keys : PublicKeys) (d : Device)
    (places : List (UInt64 × UInt64)) : Prop where
  tracks : (d.pairs.receiving sender).Tracks places
  stands : (d.pairs.receiving sender).Stands P d.identity sender keys
  barred : (d.pairs.receiving sender).isRevoked = true → d.isRevoked sender = true

/-- Whatever a device does, its receiving sessions stand right and track what was accepted. -/
theorem Run.listens (hStart : Starts P start) (hRun : Run P start history d)
    (hKeys : ∀ record, d.contacts.get? sender = some record → record.keys = keys) :
    d.Listens P sender keys (history.places sender) :=
  ⟨(hRun.tracks hStart sender).1, hRun.stands hStart hKeys, hRun.barred hStart sender⟩

namespace Listens

variable {places : List (UInt64 × UInt64)}

/-- A session that is kept opens an envelope in the window behind the last number there. -/
theorem decrypt_iff (h : d.Listens P sender keys places)
    (he : e.Opens P d.identity sender keys plaintext) {session : Session} {last : UInt64}
    (hSession : (d.pairs.receiving sender).epochs.get? e.epoch = some session)
    (hLast : (e.epoch, last) ∈ places) (hMax : ∀ p ∈ places, p.1 = e.epoch → p.2 ≤ last) :
    (∃ text s', session.decrypt P maxSkip e = .ok (text, s')) ↔
      (e.level = session.level ∧ e.ephemeral = session.ephemeral) ∧ last < e.sequence ∧
        e.sequence.toNat ≤ last.toNat + 1 + maxSkip.toNat := by
  obtain ⟨hEpoch, hStands⟩ := h.stands _ session hSession
  obtain ⟨last', hLast', hNext, hMax'⟩ := h.tracks.behind _ session hSession
  obtain rfl : last' = last := UInt64.le_antisymm (hMax _ hLast' rfl) (hMax' _ hLast rfl)
  rw [hStands.decrypt_iff he hEpoch.symm, UInt64.le_iff_toNat_le, UInt64.lt_iff_toNat_lt, hNext]
  exact Iff.rfl

/-- **When an envelope is accepted** that decrypts under the key of its number: if its sender is not
revoked, its place is awaited, and a session of its epoch, if one is kept, has the same level and
fresh key. -/
theorem receive_iff (h : d.Listens P e.sender keys places) {peer : Peer}
    (hPeer : d.contacts.get? e.sender = some peer) (hId : peer.deviceId = e.sender)
    (hKeys : peer.keys = keys) (hAuthentic : e.Authentic P d.identity keys)
    (hOpens : e.Opens P d.identity e.sender keys plaintext)
    (hDecoded : Envelope.decode d.config.limits bytes = .ok e) :
    (∃ m, (d.receive P bytes).1 = .ok m) ↔
      d.isRevoked e.sender = false ∧ d.Awaits e.sender places e.epoch e.sequence ∧
        ∀ session, (d.pairs.receiving e.sender).epochs.get? e.epoch = some session →
          e.level = session.level ∧ e.ephemeral = session.ephemeral := by
  subst hKeys
  have hRevoked : d.isRevoked e.sender = peer.isRevoked := by
    unfold isRevoked
    rw [hPeer]
    rfl
  -- the session that the envelope would begin
  obtain ⟨key, hKey, -⟩ := hOpens.decrypts
  have hBegun : Inbound.beginSession P (d.setting d.now) peer e =
      .ok (.begin ⟨d.identity.deviceId, peer.deviceId, e.epoch, .inbound⟩ e.level key e.ephemeral
        d.now) :=
    Inbound.beginSession_eq_ok_iff.2 ⟨key, hId ▸ hKey, rfl⟩
  have hNew := hOpens.decrypt_begin_iff ⟨d.identity.deviceId, peer.deviceId, e.epoch, .inbound⟩ rfl
    hKey d.config.maxSkip d.now
  rw [receive_eq_ok_iff hDecoded, hRevoked]
  constructor
  · -- what was accepted was awaited: the code either knew the epoch or began it
    rintro ⟨peer', hPasses, text, hOpened⟩
    obtain ⟨hPeer', hTrusted, -⟩ := authenticate_eq_ok_iff.1 hPasses
    rw [hPeer] at hPeer'
    cases hPeer'
    rw [hId] at hOpened
    obtain ⟨-, ⟨session, hSession, hReadable, s', hOpened⟩ |
      ⟨hUnknown, hAbove, session, hBegins, s', hOpened⟩⟩ := Inbound.fst_decrypt_eq_ok_iff.1 hOpened
    · -- the epoch is known
      obtain ⟨last, hLast, -, hMax⟩ := h.tracks.behind _ session hSession
      obtain ⟨hSame, hLess, hReach⟩ :=
        (h.decrypt_iff hOpens hSession hLast hMax).1 ⟨text, s', hOpened⟩
      refine ⟨hTrusted, .inr ⟨session, last, hSession, Session.canDecrypt_iff.1 hReadable, hLast,
        hMax, hLess, hReach⟩, fun session' hSession' => ?_⟩
      obtain rfl : session = session' := Option.some.inj (hSession.symm.trans hSession')
      exact hSame
    · -- the epoch begins
      rw [hBegun] at hBegins
      cases hBegins
      exact ⟨hTrusted, .inl ⟨h.tracks.lt_of_isPast_eq_false hAbove, hNew.1 ⟨text, s', hOpened⟩⟩,
        fun session' hSession' => nomatch hUnknown.symm.trans hSession'⟩
  · -- the window is awaited: the side is open, and the envelope is authentic
    rintro ⟨hTrusted, hAwaits, hSame⟩
    have hOpen : (d.pairs.receiving e.sender).isRevoked = false := by
      rw [← Bool.not_eq_true]
      intro hBarred
      have hBoth := h.barred hBarred
      rw [hRevoked, hTrusted] at hBoth
      cases hBoth
    refine ⟨peer, authenticate_eq_ok_iff.2 ⟨hPeer, hTrusted, hAuthentic⟩, ?_⟩
    simp only [hId, Inbound.fst_decrypt_eq_ok_iff]
    rcases hAwaits with
      ⟨hAbove, hReach⟩ | ⟨session, last, hSession, hReadable, hLast, hMax, hWindow⟩
    · -- the epoch is above all that were accepted, so no session of it is kept
      obtain ⟨text, s', hOpened⟩ := hNew.2 hReach
      have hPast := h.tracks.isPast_eq_false hAbove
      refine ⟨text, hOpen, .inr ⟨?_, hPast, _, hBegun, s', hOpened⟩⟩
      refine Option.eq_none_iff_forall_ne_some.2 fun session hSession => ?_
      rw [h.tracks.isPast hSession] at hPast
      cases hPast
    · -- the epoch is known, so its own session reads the envelope
      obtain ⟨text, s', hOpened⟩ :=
        (h.decrypt_iff hOpens hSession hLast hMax).2 ⟨hSame session hSession, hWindow⟩
      exact ⟨text, hOpen, .inl ⟨session, hSession, Session.canDecrypt_iff.2 hReadable, s', hOpened⟩⟩

/-- When an envelope is accepted, in terms of the message that it carries. -/
theorem receive_iff_of_carries {m : ReceivedMessage} {record : Peer}
    (h : d.Listens P m.sender record.keys places)
    (hRecord : d.contacts.get? m.sender = some record) (hId : record.deviceId = m.sender)
    (hCarries : e.Carries P d.identity record.keys m)
    (hDecoded : Envelope.decode d.config.limits bytes = .ok e) :
    (∃ m', (d.receive P bytes).1 = .ok m') ↔
      d.isRevoked m.sender = false ∧ d.Awaits m.sender places m.epoch m.sequence ∧
        ∀ session, (d.pairs.receiving m.sender).epochs.get? m.epoch = some session →
          m.level = session.level ∧ e.ephemeral = session.ephemeral := by
  rw [hCarries.level, hCarries.epoch, hCarries.sequence]
  rw [hCarries.sender] at h hRecord hId ⊢
  exact h.receive_iff hRecord hId rfl hCarries.authentic hCarries.opens hDecoded

end Listens

end Device

end EndToEnd
