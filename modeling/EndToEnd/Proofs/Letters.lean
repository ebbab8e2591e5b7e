import EndToEnd.Proofs.Agreement
import EndToEnd.Proofs.Replay

/-!
# Letters

One device sends to another, which is given nothing but what was sent. On the sending side, the
envelopes that were written are letters: genuine, and in order (`Device.Posts`). On the receiving
side, every session is on the chain of an epoch of which there is a letter (`Inbound.Hears`).

Main results:

* `Outbound.Speaks.makes`, `Inbound.Hears.accepts` — one message, at either side.
* `Device.Run.posts` — what was sent is a list of letters.
* `Device.Run.hears` — the receiving side keeps to the letters, and what it accepts is their text.
-/

namespace EndToEnd

/-- A message that was sent, and the bytes it was sent as. -/
structure SentMessage where
  level : Level
  plaintext : Bytes
  bytes : Bytes
  deriving DecidableEq

/-- An envelope and the text that it carries. -/
structure Letter where
  envelope : Envelope
  plaintext : Bytes
  deriving DecidableEq

/-- What sending a letter looks like. -/
def Letter.sent (l : Letter) : SentMessage := ⟨l.envelope.level, l.plaintext, l.envelope.write⟩

namespace History

/-- The message for a peer that an operation sent, if it sent one. -/
def sent? (peer : String) : Operation × Reply → Option SentMessage
  | (.send other level plaintext, .sent (.ok bytes)) =>
    if other = peer then some ⟨level, plaintext, bytes⟩ else none
  | _ => none

/-- The messages that were sent to a peer, earliest first. -/
def sent (peer : String) (h : History) : List SentMessage := h.filterMap (sent? peer)

@[simp] theorem sent_append (peer : String) (h h' : History) :
    sent peer (h ++ h') = sent peer h ++ sent peer h' :=
  List.filterMap_append

/-- What was written is the bytes of what was sent. -/
theorem written?_eq (peer : String) (e : Operation × Reply) :
    written? peer e = (sent? peer e).map (·.bytes) := by
  obtain ⟨op, reply⟩ := e
  cases op with
  | send other level plaintext =>
    cases reply with
    | sent result =>
      cases result with
      | error failure => rfl
      | ok bytes => by_cases hOther : other = peer <;> simp [written?, sent?, hOther]
    | _ => rfl
  | _ => rfl

theorem written_eq (peer : String) (h : History) :
    h.written peer = (h.sent peer).map (·.bytes) := by
  unfold written sent
  rw [List.map_filterMap]
  congr 1
  funext e
  exact written?_eq peer e

/-- The bytes that were presented to a device. -/
def presented (h : History) : List Bytes :=
  h.filterMap fun e => match e.1 with
    | .receive bytes => some bytes
    | _ => none

@[simp] theorem presented_append (h h' : History) :
    presented (h ++ h') = presented h ++ presented h' :=
  List.filterMap_append

end History

variable {P : Primitives} {a b : Identity}

-- ---------------------------------------------------------------------------
-- The sending side
-- ---------------------------------------------------------------------------

namespace Outbound

variable (P a b) in
/-- A sending side whose session makes genuine envelopes. -/
def Speaks (o : Outbound) : Prop :=
  ∀ session, o.current = some session →
    session.OnChain P a b ∧ session.id.device = a.deviceId ∧ session.id.peer = b.deviceId

variable {o o' : Outbound}

/-- A side from which no key was taken goes on to speak as it did. -/
theorem Speaks.rests (h : o.Speaks P a b) (hRests : o.Rests o') : o'.Speaks P a b :=
  fun session hs => h session (hRests.current session hs)

variable {setting : Setting} {peer : Peer} {level : Level} {plaintext : Bytes} {e : Envelope}

/-- What a sending side makes is genuine, and carries the level that was asked for. -/
theorem Speaks.makes (hP : P.Lawful) (h : o.Speaks P a b) (hOwn : setting.own = a)
    (hPeer : peer.deviceId = b.deviceId) (hKeys : peer.keys = b.publicKeys P)
    (hMakes : Makes P setting peer level plaintext o e o') :
    o'.Speaks P a b ∧ e.Genuine P a b plaintext ∧ e.level = level := by
  -- what holds of the session that makes the envelope holds behind it
  have hMade {session session' : Session} {random random' : RandomSource}
      (hChain : session.OnChain P a b) (hDevice : session.id.device = a.deviceId)
      (hTo : session.id.peer = b.deviceId)
      (made : session.encrypt P setting.own plaintext random = .ok (e, session', random'))
      (hCurrent : o'.current = some session') : o'.Speaks P a b ∧ e.Genuine P a b plaintext := by
    rw [hOwn] at made
    refine ⟨fun t ht => ?_, Session.genuine_of_encrypt hChain hDevice hTo made⟩
    rw [hCurrent] at ht
    cases ht
    rw [(Session.session_of_encrypt made).1]
    exact ⟨Session.onChain_encrypt hChain made, hDevice, hTo⟩
  cases hMakes with
  | @continues session session' random random' current fits made =>
    obtain ⟨hChain, hDevice, hTo⟩ := h session current
    obtain ⟨hSpeaks, hGenuine⟩ := hMade hChain hDevice hTo made rfl
    refine ⟨hSpeaks, hGenuine, ?_⟩
    rw [(Session.header_of_encrypt made).2.2.1]
    exact Classical.not_not.1 fun hOther =>
      by simp [Rotation.Policy.evaluate, Session.usage, hOther] at fits
  | @begins session session' ephemeral random random' begun made =>
    have hChain := onChain_beginSession hP hOwn hPeer hKeys begun
    obtain ⟨keys, -, hSession⟩ := beginSession_eq_ok begun
    obtain ⟨hSpeaks, hGenuine⟩ := hMade hChain (by rw [hSession, hOwn]; rfl)
      (by rw [hSession]; exact hPeer) made rfl
    refine ⟨hSpeaks, hGenuine, ?_⟩
    rw [(Session.header_of_encrypt made).2.2.1, hSession]
    rfl

end Outbound

-- ---------------------------------------------------------------------------
-- The receiving side
-- ---------------------------------------------------------------------------

namespace Inbound

variable (P a b) in
/-- A receiving side that keeps to the epochs of some letters. -/
def Hears (letters : List Letter) (i : Inbound) : Prop :=
  ∀ epoch session, i.epochs.get? epoch = some session →
    session.epoch = epoch ∧ session.OnChain P a b ∧
      ∃ l ∈ letters, l.envelope.epoch = epoch ∧ l.envelope.level = session.level ∧
        l.envelope.ephemeral = session.ephemeral

variable {i i' : Inbound} {letters : List Letter}

theorem hears_initial : Hears P a b letters .initial := fun _ _ h => by cases h

/-- Sessions that hear the letters stand right. -/
theorem Hears.stands (h : i.Hears P a b letters) : i.Stands P b a.deviceId (a.publicKeys P) :=
  fun epoch session hSession => ⟨(h epoch session hSession).1, (h epoch session hSession).2.1⟩

/-- Where no session begins, those that are left hear what they heard. -/
theorem Hears.wanes {barring : Prop} (h : i.Hears P a b letters) (hWanes : Wanes barring i i') :
    i'.Hears P a b letters := by
  intro epoch session' hs'
  obtain ⟨session, hs, hAges⟩ := hWanes.kept epoch session' hs'
  obtain ⟨hEpoch, hChain, hLetter⟩ := h epoch session hs
  refine ⟨?_, hAges.onChain hChain, ?_⟩
  · rw [hAges.eq]
    exact hEpoch
  · rw [hAges.eq]
    exact hLetter

variable {setting : Setting} {peer : Peer} {l : Letter} {text : Bytes}

/-- What is accepted from a letter is its text. -/
theorem Hears.accepts (hP : P.Lawful) (h : i.Hears P a b letters) (hOwn : setting.own = b)
    (hPeer : peer.deviceId = a.deviceId) (hKeys : peer.keys = a.publicKeys P) (hMem : l ∈ letters)
    (hGenuine : l.envelope.Genuine P a b l.plaintext)
    (hAccepts : Accepts P setting peer l.envelope text i i') :
    text = l.plaintext ∧ i'.Hears P a b letters := by
  have hSide : i.Stands P setting.own peer.deviceId peer.keys := by
    rw [hOwn, hPeer, hKeys]
    exact h.stands
  obtain ⟨hOpened, hStays⟩ := hSide.accepts hAccepts
  rw [hOwn, hPeer, hKeys] at hOpened hStays
  -- the session of the letter's epoch has its level and its fresh key
  have hLetter {session session' : Session}
      (hOpened : session.decrypt P setting.config.maxSkip l.envelope = .ok (text, session')) :
      l.envelope.level = session'.level ∧ l.envelope.ephemeral = session'.ephemeral := by
    obtain ⟨hLevel, hEphemeral, -⟩ := Session.decrypt_eq_ok_iff.1 hOpened
    obtain ⟨-, -, hSame⟩ := Session.next_of_decrypt hOpened
    rw [hSame]
    exact ⟨hLevel, hEphemeral⟩
  refine ⟨hOpened.unique (hGenuine.opens hP), fun epoch t ht => ?_⟩
  obtain ⟨hEpoch, hStands⟩ := hStays hGenuine.counted epoch t ht
  refine ⟨hEpoch, Session.onChain_iff.2 hStands, ?_⟩
  cases hAccepts with
  | @continues session session' known readable opened =>
    rw [Table.get?_insert] at ht
    split at ht
    · rename_i hSame
      cases ht
      exact ⟨l, hMem, hSame.symm, hLetter opened⟩
    · exact (h epoch t ht).2.2
  | @begins session session' aged unknown above begun opened wanes =>
    rw [Table.get?_insert] at ht
    split at ht
    · rename_i hSame
      cases ht
      exact ⟨l, hMem, hSame.symm, hLetter opened⟩
    · exact (h.wanes wanes epoch t ht).2.2

end Inbound

/-- A message that was received as some letter of a sender. -/
structure ReceivedMessage.Tells (m : ReceivedMessage) (sender : String) (l : Letter) : Prop where
  sender : m.sender = sender
  plaintext : m.plaintext = l.plaintext
  level : m.level = l.envelope.level
  epoch : m.epoch = l.envelope.epoch
  sequence : m.sequence = l.envelope.sequence

namespace Device

variable {start d d' : Device} {history : History} {letters : List Letter}

/-- Whoever knows the other has its true keys on file. -/
theorem Knows.keys {other : Device} (h : d.Knows P other) :
    ∀ record, d.contacts.get? other.id = some record →
      record.keys = other.identity.publicKeys P := by
  intro record hRecord
  obtain ⟨known, hKnown, hKeys, -⟩ := h
  rw [hKnown] at hRecord
  cases hRecord
  exact hKeys

-- ---------------------------------------------------------------------------
-- Sending
-- ---------------------------------------------------------------------------

/-- A device that has sent some letters to another. -/
structure Posts (P : Primitives) (b : Identity) (d : Device) (letters : List Letter) : Prop where
  numbered : (d.pairs.sending b.deviceId).Numbered (letters.map (·.envelope))
  speaks : (d.pairs.sending b.deviceId).Speaks P d.identity b
  genuine : ∀ l ∈ letters, l.envelope.Genuine P d.identity b l.plaintext
  checked : ∀ l ∈ letters, l.envelope.check d.config.limits = .ok ()

/-- A device without a session for sending, before its first letter. -/
theorem Posts.of_idle (h : (d.pairs.sending b.deviceId).current = none) : d.Posts P b [] := by
  refine ⟨.of_none .nil (fun _ h => (nomatch h)) h, fun session hSession => ?_,
    fun _ h => (nomatch h), fun _ h => (nomatch h)⟩
  rw [h] at hSession
  cases hSession

/-- A letter is read as it was written, if its text can be counted in the 32 bits of the format and
the whole is not too large. -/
theorem Posts.decode_write (hP : P.Lawful) (h : d.Posts P b letters)
    (hIds : d.config.limits.maxDeviceId < UInt32.size) {l : Letter} (hMem : l ∈ letters)
    (hShort : l.plaintext.length < UInt32.size)
    (hSize : l.envelope.write.length ≤ Envelope.maxSize d.config.limits) :
    Envelope.decode d.config.limits l.envelope.write = .ok l.envelope := by
  refine Envelope.decode_write (h.checked l hMem) hSize hIds ?_
  rw [(h.genuine l hMem).length_ciphertext hP]
  exact hShort

/-- What was received from an envelope is the text of every letter with this envelope. -/
theorem Posts.tells (hP : P.Lawful) (h : d.Posts P b letters) {l l' : Letter} (hMem : l ∈ letters)
    (hMem' : l' ∈ letters) (hSame : l'.envelope = l.envelope) {m : ReceivedMessage}
    {sender : String}
    (hTold : m.Tells sender l') : m.Tells sender l := by
  have hGenuine := h.genuine l' hMem'
  rw [hSame] at hGenuine
  have hText : l'.plaintext = l.plaintext := hGenuine.plaintext_unique hP (h.genuine l hMem)
  obtain ⟨hSender, hPlaintext, hLevel, hEpoch, hSequence⟩ := hTold
  rw [hSame] at hLevel hEpoch hSequence
  exact ⟨hSender, hPlaintext.trans hText, hLevel, hEpoch, hSequence⟩

/-- Of an operation that returns, a device whose peer is on file with its true keys either sends
nothing, or makes a genuine envelope, which is one more letter if it can be written. -/
theorem posts_cases (hP : P.Lawful) (hFiled : d.contacts.Filed)
    (hKeys : ∀ record, d.contacts.get? b.deviceId = some record → record.keys = b.publicKeys P)
    (h : d.Posts P b letters) (op : Operation) (hReturns : overruns P d op = false) :
    (History.written? b.deviceId (op, (d.step P op).1) = none ∧
        (d.pairs.sending b.deviceId).Rests ((d.step P op).2.pairs.sending b.deviceId) ∧
        (d.step P op).2.Posts P b letters) ∨
      ∃ level plaintext record e, op = .send b.deviceId level plaintext ∧
        (d.step P op).1 = .sent (e.encode d.config.limits) ∧
        Outbound.Makes P (d.setting d.now) record level plaintext (d.pairs.sending b.deviceId) e
          ((d.step P op).2.pairs.sending b.deviceId) ∧
        e.Genuine P d.identity b plaintext ∧ e.level = level ∧
        (d.step P op).2.Posts P b letters ∧
        ∀ bytes, e.encode d.config.limits = .ok bytes →
          bytes = e.write ∧ (d.step P op).2.Posts P b (letters ++ [⟨e, plaintext⟩]) := by
  obtain ⟨hConfig, hIdentity, -, -⟩ := evolves_step (P := P) d op
  rcases sending_step (P := P) hFiled op b.deviceId with
    ⟨hNone, hRests⟩ | ⟨level, plaintext, record, e, rfl, hRecord, -, hReply, hMakes⟩
  · -- nothing is written: what was posted is as it was
    refine .inl ⟨hNone, hRests, h.numbered.rests hRests, ?_, ?_, ?_⟩
    · rw [hIdentity]
      exact h.speaks.rests hRests
    · rw [hIdentity]
      exact h.genuine
    · rw [hConfig]
      exact h.checked
  · -- an envelope is made: it speaks of the right place with the right key
    obtain ⟨hSpeaks, hGenuine, hLevel⟩ :=
      h.speaks.makes hP rfl (hFiled _ _ hRecord) (hKeys record hRecord) hMakes
    obtain ⟨hSame, hMore, -⟩ := h.numbered.makes hMakes (counter_of_returns hReturns)
    refine .inr ⟨level, plaintext, record, e, rfl, hReply, hMakes, hGenuine, hLevel, ?_, ?_⟩
    · -- the sender has moved on, whether or not the envelope is given
      refine ⟨hSame, ?_, ?_, ?_⟩
      · rw [hIdentity]
        exact hSpeaks
      · rw [hIdentity]
        exact h.genuine
      · rw [hConfig]
        exact h.checked
    · -- if it is given, it is one letter more
      intro bytes hEncoded
      obtain ⟨hCheck, hBytes⟩ := Envelope.encode_eq_ok_iff.1 hEncoded
      have hAll {p : Letter → Prop} (hOld : ∀ l ∈ letters, p l) (hNew : p ⟨e, plaintext⟩) :
          ∀ l ∈ letters ++ [⟨e, plaintext⟩], p l := by
        intro l hl
        rcases List.mem_append.1 hl with hl | hl
        · exact hOld l hl
        · rw [List.mem_singleton.1 hl]
          exact hNew
      refine ⟨hBytes, ?_, ?_, ?_, ?_⟩
      · rw [List.map_append]
        exact hMore
      · rw [hIdentity]
        exact hSpeaks
      · rw [hIdentity]
        exact hAll h.genuine hGenuine
      · rw [hConfig]
        exact hAll h.checked hCheck

/-- An operation that returns sends at most one letter to a peer whose true keys are on file. -/
theorem posts_step (hP : P.Lawful) (hFiled : d.contacts.Filed)
    (hKeys : ∀ record, d.contacts.get? b.deviceId = some record → record.keys = b.publicKeys P)
    (h : d.Posts P b letters) (op : Operation) (hReturns : overruns P d op = false) :
    ∃ more, more.map Letter.sent = History.sent b.deviceId [(op, (d.step P op).1)] ∧
      (d.step P op).2.Posts P b (letters ++ more) := by
  rcases posts_cases hP hFiled hKeys h op hReturns with
    ⟨hNone, -, hPosts⟩ | ⟨level, plaintext, record, e, rfl, hReply, -, -, hLevel, hSame, hMore⟩
  · refine ⟨[], ?_, ?_⟩
    · rw [History.written?_eq, Option.map_eq_none_iff] at hNone
      simp [History.sent, hNone]
    · rw [List.append_nil]
      exact hPosts
  · cases hEncoded : e.encode d.config.limits with
    | error failure =>
      refine ⟨[], ?_, ?_⟩
      · simp [History.sent, hReply, hEncoded, History.sent?]
      · rw [List.append_nil]
        exact hSame
    | ok bytes =>
      obtain ⟨rfl, hPosts⟩ := hMore bytes hEncoded
      refine ⟨[⟨e, plaintext⟩], ?_, hPosts⟩
      simp [History.sent, hReply, hEncoded, History.sent?, Letter.sent, hLevel]

/-- **What was sent is a list of letters,** in every run of a device that has the true keys of the
other on file. -/
theorem Run.posts (hP : P.Lawful) (hStart : Starts P start) (hRun : Run P start history d)
    (hKeys : ∀ record, d.contacts.get? b.deviceId = some record → record.keys = b.publicKeys P) :
    ∃ letters, letters.map Letter.sent = history.sent b.deviceId ∧ d.Posts P b letters := by
  induction hRun with
  | start => exact ⟨[], rfl, .of_idle (hStart.current _)⟩
  | @step history d' op before returns ih =>
    have hKeys' := (evolves_step d' op).keys_of hKeys
    obtain ⟨letters, hSent, hPosts⟩ := ih hKeys'
    obtain ⟨more, hMore, hAfter⟩ := posts_step hP (before.filed hStart) hKeys' hPosts op returns
    refine ⟨letters ++ more, ?_, hAfter⟩
    rw [List.map_append, History.sent_append, hSent, hMore]

-- ---------------------------------------------------------------------------
-- Receiving
-- ---------------------------------------------------------------------------

/-- A message that is received was read from the bytes, and is from the sender that they name. -/
theorem receive_eq_ok (hFiled : d.contacts.Filed) {bytes : Bytes} {m : ReceivedMessage}
    (h : (d.receive P bytes).1 = .ok m) :
    ∃ e, Envelope.decode d.config.limits bytes = .ok e ∧ m.sender = e.sender := by
  rcases receive_cases (d.receive P bytes).eta.symm with
    ⟨failure, hFailed, -⟩ | ⟨e, sender, opened, w, hDecoded, hAuthentic, -, -, -, hResult⟩
  · rw [hFailed] at h
    cases h
  · refine ⟨e, hDecoded, ?_⟩
    rcases hResult with ⟨-, failure', -, hFailed⟩ | ⟨plaintext, -, hOk⟩
    · rw [hFailed] at h
      cases h
    · rw [hOk] at h
      cases h
      exact hFiled _ _ (authenticate_eq_ok hAuthentic).1

/-- A device that reads letters only keeps to them, and what it receives is their text. -/
theorem hears_step (hP : P.Lawful) (hFiled : d.contacts.Filed)
    (hKeys : ∀ record, d.contacts.get? a.deviceId = some record → record.keys = a.publicKeys P)
    (h : (d.pairs.receiving a.deviceId).Hears P a d.identity letters) (op : Operation)
    (hGiven : ∀ bytes e, op = .receive bytes → Envelope.decode d.config.limits bytes = .ok e →
      ∃ l ∈ letters, l.envelope = e ∧ l.envelope.Genuine P a d.identity l.plaintext) :
    ((d.step P op).2.pairs.receiving a.deviceId).Hears P a d.identity letters ∧
      ∀ bytes m, op = .receive bytes → (d.step P op).1 = .received (.ok m) →
        ∃ l ∈ letters, Envelope.decode d.config.limits bytes = .ok l.envelope ∧
          m.Tells a.deviceId l := by
  rcases receiving_step (P := P) d op a.deviceId with
    ⟨hNone, hWanes⟩ | ⟨bytes, e, peer, plaintext, rfl, hReply, hTakes⟩
  · refine ⟨h.wanes hWanes, ?_⟩
    rintro bytes m rfl hReply
    have hReceived : (d.receive P bytes).1 = .ok m := by injection hReply
    obtain ⟨e, hDecoded, hSender⟩ := receive_eq_ok hFiled hReceived
    obtain ⟨l, -, rfl, hGenuine⟩ := hGiven bytes e rfl hDecoded
    rw [hReply] at hNone
    simp [History.message?, hSender, hGenuine.sender] at hNone
  · obtain ⟨l, hMem, rfl, hGenuine⟩ := hGiven bytes e rfl hTakes.decoded
    obtain ⟨hRecord, -⟩ := authenticate_eq_ok hTakes.authentic
    rw [hGenuine.sender] at hRecord
    obtain ⟨hText, hHears⟩ := h.accepts hP rfl hTakes.named (hKeys peer hRecord) hMem hGenuine
      hTakes.accepts
    refine ⟨hHears, ?_⟩
    intro bytes' m hSame hReply'
    cases hSame
    rw [hReply] at hReply'
    cases hReply'
    exact ⟨l, hMem, hTakes.decoded, rfl, hText, rfl, rfl, rfl⟩

/-- **The receiving side keeps to the letters** in every run in which nothing else that can be read
is presented to the device, and every message that it receives is the text of one. -/
theorem Run.hears (hP : P.Lawful) (hStart : Starts P start) (hRun : Run P start history d)
    (hKeys : ∀ record, d.contacts.get? a.deviceId = some record → record.keys = a.publicKeys P)
    (hGiven : ∀ bytes ∈ history.presented, ∀ e, Envelope.decode d.config.limits bytes = .ok e →
      ∃ l ∈ letters, l.envelope = e ∧ l.envelope.Genuine P a d.identity l.plaintext) :
    (d.pairs.receiving a.deviceId).Hears P a d.identity letters ∧
      ∀ bytes m, (Operation.receive bytes, Reply.received (.ok m)) ∈ history →
        ∃ l ∈ letters, Envelope.decode d.config.limits bytes = .ok l.envelope ∧
          m.Tells a.deviceId l := by
  induction hRun with
  | start =>
    rw [hStart.receiving]
    exact ⟨Inbound.hears_initial, fun _ _ h => (nomatch h)⟩
  | @step history d' op before returns ih =>
    have hEvolves := evolves_step (P := P) d' op
    have hKeys' := hEvolves.keys_of hKeys
    rw [hEvolves.config, hEvolves.identity] at hGiven ⊢
    obtain ⟨hHears, hPast⟩ := ih hKeys' fun bytes hBytes => hGiven bytes (by simp [hBytes])
    have hNow : ∀ bytes e, op = .receive bytes →
        Envelope.decode d'.config.limits bytes = .ok e →
        ∃ l ∈ letters, l.envelope = e ∧ l.envelope.Genuine P a d'.identity l.plaintext := by
      rintro bytes e rfl hDecoded
      exact hGiven bytes (by simp [History.presented]) e hDecoded
    obtain ⟨hAfter, hTells⟩ := hears_step hP (before.filed hStart) hKeys' hHears op hNow
    refine ⟨hAfter, fun bytes m hMem => ?_⟩
    rcases List.mem_append.1 hMem with hMem | hMem
    · exact hPast bytes m hMem
    · obtain ⟨rfl, hReply⟩ := Prod.mk.inj (List.mem_singleton.1 hMem)
      exact hTells bytes m rfl hReply.symm

end Device

end EndToEnd
