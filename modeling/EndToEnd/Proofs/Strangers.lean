import EndToEnd.Proofs.BundleText
import EndToEnd.Proofs.TextLengths
import EndToEnd.Proofs.Vouching
import EndToEnd.Proofs.Writing

/-!
# Strangers that meet

Two devices that were just made know nobody. Each is shown the other's bundle, accepts the other if
it likes, and then they write to each other. What a configuration has to allow for this, besides
being one that can be used, is the length of the ids that devices draw. A text comes through as long
as the format can count its bytes and the largest size of an envelope does not wrap around.

Whoever was accepted may be written to; that the message is received again is the invariant of
conversations, once in each direction.

Main results:

* `Uuid.isName_text` — what a drawn id looks like.
* `Device.importBundle_of_stranger` — who is put on file.
* `Turn.Talk.pass`, `Turn.Talk.exchange` — one turn, and any number of them.
* `Device.Acquainted.first_iff`, `Device.Acquainted.firsts_iff` — which first messages come through.
* `Device.strangers_can_talk_iff` — which configurations let strangers talk.
-/

namespace EndToEnd

-- ---------------------------------------------------------------------------
-- Drawn ids
-- ---------------------------------------------------------------------------

/-- Whether a character can stand in a name and takes one byte. -/
def Envelope.IsPlain (c : Char) : Prop := c.utf8Size = 1 ∧ isControl c = false

/-- A name of plain characters has one byte for each of them. -/
theorem Envelope.utf8ByteSize_plain {chars : List Char} (h : ∀ c ∈ chars, IsPlain c) :
    (String.ofList chars).utf8ByteSize = chars.length := by
  induction chars with
  | nil => rfl
  | cons c rest ih =>
    rw [String.ofList_cons, String.utf8ByteSize_append, String.utf8ByteSize_singleton,
      (h c (.head _)).1, ih fun d hd => h d (.tail _ hd), List.length_cons, Nat.add_comm]

/-- Two digits for each byte. -/
theorem Hex.length_digits (bytes : Bytes) : (digits bytes).length = 2 * bytes.length := by
  induction bytes with
  | nil => rfl
  | cons b rest ih =>
    show (digits rest).length + 2 = 2 * (rest.length + 1)
    omega

theorem Hex.plain_of_mem_digits {bytes : Bytes} {c : Char} (h : c ∈ digits bytes) :
    Envelope.IsPlain c := by
  have hDigit : ∀ n < 16, (digit n).utf8Size = 1 ∧ Envelope.isControl (digit n) = false := by
    decide
  obtain ⟨b, -, hMem⟩ := List.mem_flatMap.1 h
  have hByte : b.toNat < 256 := b.toNat_lt
  rw [List.mem_pair] at hMem
  rcases hMem with rfl | rfl
  · exact hDigit _ (by omega)
  · exact hDigit _ (by omega)

/-- **A drawn id is a name** of thirty-six bytes. -/
theorem Uuid.isName_text (n : Nat) :
    Envelope.IsName (text n) ∧ (text n).utf8ByteSize = 36 := by
  have hDash : Envelope.IsPlain '-' := by
    unfold Envelope.IsPlain
    decide
  have hPart (start count : Nat) :
      ∀ c ∈ ((Hex.digits (Bytes.bigEndian 16 n)).drop start).take count, Envelope.IsPlain c :=
    fun c hc => Hex.plain_of_mem_digits (List.mem_of_mem_drop (List.mem_of_mem_take hc))
  obtain ⟨chars, hText, hLength, hPlain⟩ : ∃ chars, text n = String.ofList chars ∧
      chars.length = 36 ∧ ∀ c ∈ chars, Envelope.IsPlain c := by
    refine ⟨_, rfl, ?_, ?_⟩
    · simp [Hex.length_digits]
    · simp only [List.forall_mem_append, List.forall_mem_cons, and_assoc]
      exact ⟨hPart 0 8, hDash, hPart 8 4, hDash, hPart 12 4, hDash, hPart 16 4, hDash, hPart 20 12⟩
  have hSize : (text n).utf8ByteSize = 36 := by
    rw [hText, Envelope.utf8ByteSize_plain hPlain, hLength]
  refine ⟨⟨by rw [hSize]; decide, ?_⟩, hSize⟩
  rw [hText, String.toList_ofList, List.any_eq_false]
  intro c hc
  rw [(hPlain c hc).2]
  exact Bool.false_ne_true

-- ---------------------------------------------------------------------------
-- Meeting
-- ---------------------------------------------------------------------------

namespace Device

variable {P : Primitives} {a b d other : Device} {made : Nat}

/-- **What becomes of the bundle of a stranger:** it is put on file, if its id is short enough. -/
theorem importBundle_of_stranger (hStranger : d.contacts.get? other.id = none)
    (hName : Envelope.IsName other.id) (hOther : d.id ≠ other.id) :
    d.importBundle P (other.exportBundle P) =
      if other.id.utf8ByteSize ≤ d.contacts.idLimit then
        let peer : Peer := .met other.id (other.identity.publicKeys P) d.now
        (.ok peer,
          { d with contacts := { d.contacts with peers := d.contacts.peers.insert other.id peer } })
      else (.error (.invalidInput ("invalid device id " ++ Text.quote other.id)), d) := by
  rw [importBundle_exportBundle]
  unfold remember Contacts.remember
  rw [hStranger]
  by_cases hShort : other.id.utf8ByteSize ≤ d.contacts.idLimit
  · rw [if_pos hShort, Contacts.refusal?_eq_none_iff.2 ⟨⟨hName, hShort⟩, hOther⟩]
  · have hFault : (Envelope.idFault? d.contacts.idLimit other.id).isSome = true := by
      rw [Option.isSome_iff_ne_none, ne_eq, Envelope.idFault?_eq_none_iff]
      exact fun h => hShort h.2
    rw [if_neg hShort]
    unfold Contacts.refusal?
    rw [if_pos hFault]

/-- What a device does to write to another: it puts the other on file and, if it likes, accepts the
keys that it was shown. -/
def acquaint (P : Primitives) (accepts : Bool) (other : Device) : List Operation :=
  .importBundle (other.exportBundle P) ::
    if accepts then [.verify other.id .firstContact] else []

/-- A device behind its first meeting with another. -/
def met (P : Primitives) (accepts : Bool) (d other : Device) : Device :=
  after P d (acquaint P accepts other)

/-- Getting acquainted returns: it moves no counter. -/
theorem allReturn_acquaint (accepts : Bool) (other d : Device) :
    allReturn P d (acquaint P accepts other) = true := by
  cases accepts <;> rfl

/-- Keys that were shown are accepted at first contact. -/
theorem verifyPeer_firstContact {record : Peer} (hRecord : d.contacts.get? other.id = some record)
    (hNew : record.trust = .unverified) :
    (d.verifyPeer P other.id .firstContact).1 = .ok .tofuAccepted ∧
      (d.verifyPeer P other.id .firstContact).2.pairs = d.pairs ∧
      (d.verifyPeer P other.id .firstContact).2.contacts.get? other.id =
        some { record with trust := .tofuAccepted, updatedAt := d.now } := by
  -- a first contact is all the evidence that an unverified peer needs
  have hAssessed : Evidence.assess P d.contacts d.roots record .firstContact =
      .ok .tofuAccepted := by
    unfold Evidence.assess Peer.isRevoked
    rw [hNew]
    rfl
  have hMerged : record.trust.merge .tofuAccepted = .tofuAccepted := by
    rw [hNew]
    rfl
  obtain ⟨hResult, hContacts⟩ :=
    verify_of_assessed hRecord hAssessed (by rw [hMerged]; decide)
  have hPeer : (d.verify P other.id .firstContact).2.contacts.get? other.id =
      some { record with trust := .tofuAccepted, updatedAt := d.now } := by
    rw [hContacts, Contacts.get?_update, if_pos rfl, hRecord]
    show some { record with trust := record.trust.merge .tofuAccepted, updatedAt := d.now } = _
    rw [hMerged]
  have hTrusted : (d.verify P other.id .firstContact).2.isRevoked other.id = false := by
    unfold isRevoked
    rw [hPeer]
    rfl
  rw [verifyPeer_eq_verify hTrusted]
  refine ⟨hMerged ▸ hResult, ?_, hPeer⟩
  exact congrArg Work.part (verify_same (P := P) other.id .firstContact d).2.2

/-- **Behind a meeting,** the other is on file with its true keys, not revoked, and accepted if it
was to be; and there are as few sessions as before. -/
theorem record_met (hStranger : d.contacts.get? other.id = none)
    (hName : Envelope.IsName other.id) (hOther : d.id ≠ other.id)
    (hShort : other.id.utf8ByteSize ≤ d.contacts.idLimit) (accepts : Bool) :
    (d.met P accepts other).pairs = d.pairs ∧
      ∃ record, (d.met P accepts other).contacts.get? other.id = some record ∧
        record.keys = other.identity.publicKeys P ∧ record.isRevoked = false ∧
        (accepts = true → record.trust ≠ .unverified) := by
  have hImported := importBundle_of_stranger (P := P) hStranger hName hOther
  rw [if_pos hShort] at hImported
  have hFirst : (d.importBundle P (other.exportBundle P)).2.pairs = d.pairs := by
    rw [hImported]
  have hRecord : (d.importBundle P (other.exportBundle P)).2.contacts.get? other.id =
      some (.met other.id (other.identity.publicKeys P) d.now) := by
    rw [hImported]
    exact Table.get?_insert_self ..
  have hMet : d.met P accepts other = after P (d.importBundle P (other.exportBundle P)).2
      (if accepts then [.verify other.id .firstContact] else []) := rfl
  rw [hMet]
  generalize (d.importBundle P (other.exportBundle P)).2 = d₁ at hFirst hRecord
  cases accepts with
  | false => exact ⟨hFirst, _, hRecord, rfl, rfl, fun h => (nomatch h)⟩
  | true =>
    obtain ⟨-, hPairs, hAccepted⟩ := verifyPeer_firstContact (P := P) hRecord rfl
    exact ⟨hPairs.trans hFirst, _, hAccepted, rfl, rfl, fun _ h => by cases h⟩

end Device

/-- **A message between two devices in good order** is written and received, and they stay in good
order. -/
theorem Conversation.Good.passes {P : Primitives} {s : Conversation} {letters : List Letter}
    {places : List (UInt64 × UInt64)} {made : Nat} (hP : P.Lawful) (hAgree : P.Contributory)
    (h : s.Good P letters places) (hLanded : s.underway = none)
    (hMay : s.sender.MayWrite P s.b made)
    (hOwn : Envelope.idFault? s.a.config.limits.maxDeviceId s.a.id = none)
    (hPeer : Envelope.idFault? s.a.config.limits.maxDeviceId s.b.id = none)
    (hMade : made + 1 < Device.lastNumber.toNat) (level : Level) {plaintext : Bytes}
    (hConveys : s.a.config.limits.Conveys plaintext) :
    ∃ bytes r, (s.sender.send P s.b.id level plaintext).1 = .ok bytes ∧
      (s.receiver.receive P bytes).1 = .ok r ∧ r.sender = s.a.id ∧ r.level = level ∧
      r.plaintext = plaintext ∧ Device.overruns P s.receiver (.receive bytes) = false ∧
      (s.sender.send P s.b.id level plaintext).2.MayWrite P s.b (made + 1) ∧
      ∃ saved letters' places', Good P ⟨(s.sender.send P s.b.id level plaintext).2,
        (s.receiver.receive P bytes).2, s.clock, none, saved⟩ letters' places' := by
  obtain ⟨record, e, hSend, hMakes⟩ :=
    hMay.writes hP hAgree h.atSender hOwn hPeer hMade level hConveys.allowed
  obtain ⟨letters', hAsked⟩ := h.asked hP (.send s.b.id level plaintext)
    (hMay.returns (Nat.lt_of_succ_lt hMade) level plaintext) fun level plaintext hSame => by
      cases hSame
      exact ⟨hLanded, hConveys⟩
  have hUnderway : (s.asked P (.send s.b.id level plaintext)).underway =
      some ⟨level, plaintext, e.write⟩ := by
    unfold Conversation.asked
    show (History.sent? s.b.id (.send s.b.id level plaintext,
      .sent (s.sender.send P s.b.id level plaintext).1)).or s.underway = _
    rw [hSend]
    exact congrArg (Option.or · s.underway) (if_pos rfl)
  obtain ⟨r, hReceived, hSender, hText, hLevel, hReturns⟩ := hAsked.received hP hUnderway
  obtain ⟨places', hDelivered⟩ := hAsked.delivered hP hUnderway
  rw [id_asked] at hSender
  exact ⟨e.write, r, hSend, hReceived, hSender, hLevel, hText, hReturns, hMay.send hMakes, _, _, _,
    hDelivered⟩

-- ---------------------------------------------------------------------------
-- Taking turns
-- ---------------------------------------------------------------------------

/-- A message that is written at some time, by the second of two devices if it is a reply. -/
structure Turn where
  clock : UInt64
  isReply : Bool
  level : Level
  plaintext : Bytes
  deriving DecidableEq

namespace Turn

variable (P : Primitives)

/-- One device writes a message, and the other is given what was written. -/
def pass (a b : Device) (t : Turn) : Except Failure (ReceivedMessage × Device × Device) :=
  match Device.send P b.id t.level t.plaintext { a with now := t.clock } with
  | (.error failure, _) => .error failure
  | (.ok bytes, a) =>
    match Device.receive P bytes { b with now := t.clock } with
    | (.error failure, _) => .error failure
    | (.ok m, b) => .ok (m, a, b)

/-- Two devices take turns. Gives what was received. -/
def exchange : Device → Device → List Turn → Except Failure (List ReceivedMessage)
  | _, _, [] => .ok []
  | a, b, t :: rest =>
    if t.isReply then
      match pass P b a t with
      | .error failure => .error failure
      | .ok (m, b, a) => (exchange a b rest).map (m :: ·)
    else
      match pass P a b t with
      | .error failure => .error failure
      | .ok (m, a, b) => (exchange a b rest).map (m :: ·)

variable {P}

/-- Two devices that write to each other, as a clock reads, and have written few messages. -/
structure Talk (P : Primitives) (config : Config) (clock : UInt64) (made : Nat) (a b : Device) :
    Prop where
  configured : a.config = config
  there : ∃ saved letters places,
    Conversation.Good P ⟨a, b, clock, none, saved⟩ letters places
  back : ∃ saved letters places,
    Conversation.Good P ⟨b, a, clock, none, saved⟩ letters places
  writes : a.MayWrite P b made
  replies : b.MayWrite P a made
  named : Envelope.idFault? config.limits.maxDeviceId a.id = none ∧
    Envelope.idFault? config.limits.maxDeviceId b.id = none

variable {config : Config} {clock : UInt64} {made : Nat} {a b : Device}

/-- What holds of two who talk holds the other way round. -/
theorem Talk.swap (h : Talk P config clock made a b) : Talk P config clock made b a where
  configured := by
    obtain ⟨saved, letters, places, hGood⟩ := h.there
    exact hGood.corresponds.config.symm.trans h.configured
  there := h.back
  back := h.there
  writes := h.replies
  replies := h.writes
  named := h.named.symm

/-- **A turn** goes as it should: the message is received as what it is, and both can go on. -/
theorem Talk.pass (hP : P.Lawful) (hAgree : P.Contributory) (h : Talk P config clock made a b)
    {t : Turn} (hConveys : config.limits.Conveys t.plaintext)
    (hMade : made + 1 < Device.lastNumber.toNat)
    (hLater : clock ≤ t.clock) (hBounded : t.clock ≠ Device.lastNumber) :
    ∃ m a' b', pass P a b t = .ok (m, a', b') ∧ m.sender = a.id ∧ m.level = t.level ∧
      m.plaintext = t.plaintext ∧ a'.id = a.id ∧ b'.id = b.id ∧
      Talk P config t.clock (made + 1) a' b' := by
  obtain ⟨saved, letters, places, hThere⟩ := h.there
  obtain ⟨saved', letters', places', hBack⟩ := h.back
  obtain rfl := h.configured
  obtain ⟨bytes, r, hSend, hReceived, hSender, hLevel, hText, hReturns, hWrites, hThere'⟩ :=
    (hThere.ticked rfl hLater hBounded).passes hP hAgree rfl (h.writes.ticked t.clock)
      h.named.1 h.named.2 hMade t.level hConveys
  let op : Operation := .send b.id t.level t.plaintext
  have hEvolvesA := Device.evolves_step (P := P) { a with now := t.clock } op
  have hEvolvesB := Device.evolves_receive (P := P) bytes { b with now := t.clock }
  -- for messages the other way, the writer hears and the reader is asked
  obtain ⟨letters'', hBack'⟩ := ((hBack.ticked rfl hLater hBounded).heard op nofun rfl
    hWrites.not_revoked nofun).asked hP (.receive bytes) hReturns nofun
  have hIdA : (Device.send P b.id t.level t.plaintext { a with now := t.clock }).2.id = a.id :=
    congrArg Identity.deviceId hEvolvesA.identity
  have hIdB : (Device.receive P bytes { b with now := t.clock }).2.id = b.id :=
    congrArg Identity.deviceId hEvolvesB.identity
  refine ⟨r, _, _, ?_, hSender, hLevel, hText, hIdA, hIdB, hEvolvesA.config, hThere',
    ⟨_, letters'', places', hBack'⟩, hWrites.congr hEvolvesB.identity,
    (((h.replies.ticked t.clock).receive bytes).congr hEvolvesA.identity).more, ?_⟩
  · have hSent : Device.send P b.id t.level t.plaintext { a with now := t.clock } = (.ok bytes, _) :=
      Prod.ext hSend rfl
    have hRead : Device.receive P bytes { b with now := t.clock } = (.ok r, _) :=
      Prod.ext hReceived rfl
    unfold Turn.pass
    rw [hSent]
    dsimp only
    rw [hRead]
  · rw [hIdA, hIdB]
    exact h.named

/-- Turns of two devices whose texts come through, by a clock that never goes back and never reads
the last number. -/
structure Orderly (config : Config) (turns : List Turn) : Prop where
  conveys : ∀ t ∈ turns, config.limits.Conveys t.plaintext
  clock : turns.Pairwise (·.clock ≤ ·.clock)
  bounded : ∀ t ∈ turns, t.clock ≠ Device.lastNumber

/-- What a message tells: who wrote it, at which level, and its text. -/
def tale (m : ReceivedMessage) : String × Level × Bytes := (m.sender, m.level, m.plaintext)

/-- What a turn should tell. -/
def told (a b : Device) (t : Turn) : String × Level × Bytes :=
  (if t.isReply then b.id else a.id, t.level, t.plaintext)

/-- The first message and the rest tell what they tell together. -/
theorem map_tale_cons {received : Except Failure (List ReceivedMessage)} {m : ReceivedMessage}
    {first : String × Level × Bytes} {rest : List (String × Level × Bytes)}
    (hFirst : tale m = first) (hRest : received.map (List.map tale) = .ok rest) :
    (received.map (m :: ·)).map (List.map tale) = .ok (first :: rest) := by
  cases received with
  | error failure => cases hRest
  | ok ms =>
    cases hRest
    cases hFirst
    rfl

/-- **Turns go as they should,** one after the other. -/
theorem Talk.exchange (hP : P.Lawful) (hAgree : P.Contributory)
    (h : Talk P config clock made a b) {turns : List Turn} (hOrderly : Orderly config turns)
    (hLater : ∀ t ∈ turns, clock ≤ t.clock)
    (hMade : made + turns.length < Device.lastNumber.toNat) :
    (exchange P a b turns).map (List.map tale) = .ok (turns.map (told a b)) := by
  -- turn by turn; each begins where the one before it has led
  induction turns generalizing clock made a b with
  | nil => rfl
  | cons t rest ih =>
    obtain ⟨hConveys, hConveysAll⟩ := List.forall_mem_cons.1 hOrderly.conveys
    obtain ⟨hBounded, hBoundedAll⟩ := List.forall_mem_cons.1 hOrderly.bounded
    obtain ⟨hClock, hClockAll⟩ := List.pairwise_cons.1 hOrderly.clock
    rw [List.length_cons] at hMade
    have hNow : clock ≤ t.clock := hLater t (.head _)
    have hRest {a' b' : Device} (hIdA : a'.id = a.id) (hIdB : b'.id = b.id)
        (h' : Talk P config t.clock (made + 1) a' b') :
        (Turn.exchange P a' b' rest).map (List.map tale) = .ok (rest.map (told a b)) := by
      rw [ih h' ⟨hConveysAll, hClockAll, hBoundedAll⟩ hClock (by omega)]
      unfold told
      rw [hIdA, hIdB]
    unfold Turn.exchange
    cases hReply : t.isReply with
    | false =>
      obtain ⟨m, a', b', hPass, hSender, hLevel, hText, hIdA, hIdB, hNext⟩ :=
        h.pass hP hAgree hConveys (by omega) hNow hBounded
      rw [if_neg Bool.false_ne_true, hPass]
      refine map_tale_cons ?_ (hRest hIdA hIdB hNext)
      unfold tale told
      rw [hReply, hSender, hLevel, hText, if_neg Bool.false_ne_true]
    -- in a reply the two have changed places
    | true =>
      obtain ⟨m, b', a', hPass, hSender, hLevel, hText, hIdB, hIdA, hNext⟩ :=
        h.swap.pass hP hAgree hConveys (by omega) hNow hBounded
      rw [if_pos rfl, hPass]
      refine map_tale_cons ?_ (hRest hIdA hIdB hNext.swap)
      unfold tale told
      rw [hReply, hSender, hLevel, hText, if_pos rfl]

end Turn

namespace Device

variable {P : Primitives} {config : Config} {sinkA sinkB : Audit.Sink} {nowA nowB : UInt64}
  {randomA randomB : RandomSource}

-- ---------------------------------------------------------------------------
-- Strangers
-- ---------------------------------------------------------------------------

/-- A device is made of any configuration that can be used. -/
theorem create_of_validate (h : config.validate = .ok ()) (sink : Audit.Sink)
    (identity : Option Identity) (now : UInt64) (random : RandomSource) :
    create P config sink identity now random = .ok (fresh P config sink identity now random) := by
  unfold create
  rw [h]

/-- Operations that handle no message send and receive nothing. -/
theorem during_of_calm {ops : List Operation} (h : ∀ op ∈ ops, op.handlesMessage = false)
    (d : Device) (peer : String) :
    (during P d ops).Unsent peer ∧ (during P d ops).accepted peer = [] := by
  induction ops generalizing d with
  | nil => exact ⟨List.forall_mem_nil _, rfl⟩
  | cons op rest ih =>
    obtain ⟨hCalm, hRest⟩ := List.forall_mem_cons.1 h
    obtain ⟨hUnsent, hAccepted⟩ := ih hRest (step P d op).2
    refine ⟨List.forall_mem_cons.2 ⟨?_, hUnsent⟩, ?_⟩
    · rintro level plaintext rfl
      cases hCalm
    · simp only [during, History.accepted, List.filterMap_cons, message?_step d op hCalm peer]
      exact hAccepted

theorem calm_acquaint (accepts : Bool) (other : Device) :
    ∀ op ∈ acquaint P accepts other, op.handlesMessage = false := by
  cases accepts <;> simp [acquaint, Operation.handlesMessage]

/-- Two devices of one configuration that have met, each accepting the other or not. -/
theorem begins_met {a b : Device} {acceptsA acceptsB : Bool}
    (hA : create P config sinkA none nowA randomA = .ok a)
    (hB : create P config sinkB none nowB randomB = .ok b)
    (hKnowsB : (a.met P acceptsA b).Knows P (b.met P acceptsB a))
    (hKnowsA : (b.met P acceptsB a).Knows P (a.met P acceptsA b)) :
    Conversation.Begins P ⟨a.met P acceptsA b, b.met P acceptsB a, 0, none, []⟩ := by
  have hRunA : Run P a _ (a.met P acceptsA b) := run_after (allReturn_acquaint acceptsA b a)
  have hRunB : Run P b _ (b.met P acceptsB a) := run_after (allReturn_acquaint acceptsB a b)
  have hConfig : (a.met P acceptsA b).config = (b.met P acceptsB a).config := by
    rw [hRunA.evolves.config, hRunB.evolves.config, (create_eq_ok hA).2, (create_eq_ok hB).2]
    rfl
  obtain ⟨hUnsent, -⟩ :=
    during_of_calm (P := P) (calm_acquaint acceptsA b) a (b.met P acceptsB a).id
  obtain ⟨-, hAccepted⟩ :=
    during_of_calm (P := P) (calm_acquaint acceptsB a) b (a.met P acceptsA b).id
  have hClock : (0 : UInt64) ≠ lastNumber := by decide
  refine ⟨⟨a, _, .created hA, hRunA, hUnsent⟩, ⟨b, _, .created hB, hRunB, ?_⟩, hConfig, hKnowsB,
    hKnowsA, hClock, rfl, List.forall_mem_nil _⟩
  unfold History.places
  rw [hAccepted]
  rfl

/-- Two devices that have met and have written nothing yet, of which the first may write. -/
structure Acquainted (P : Primitives) (a b : Device) : Prop where
  writes : a.MayWrite P b 0
  corresponds : Corresponds P a b [] []
  unsent : (a.pairs.sending b.id).current = none
  named : Envelope.idFault? a.config.limits.maxDeviceId a.id = none ∧
    Envelope.idFault? a.config.limits.maxDeviceId b.id = none

section Acquainted

variable {a b : Device} {level : Level} {plaintext : Bytes}

/-- It does not matter what the clocks of the two read. -/
theorem Acquainted.ticked (h : Acquainted P a b) (clockA clockB : UInt64) :
    Acquainted P { a with now := clockA } { b with now := clockB } := by
  have hWrites : a.MayWrite P { b with now := clockB } 0 := h.writes.congr rfl
  exact ⟨hWrites.ticked clockA,
    Conversation.corresponds_clocks (s := ⟨a, b, 0, none, []⟩) h.corresponds clockA clockB,
    h.unsent, h.named⟩

/-- The first message is sent. It is received if the format can count its text and it is not too
large to be read. -/
theorem Acquainted.first (h : Acquainted P a b) (hP : P.Lawful) (hAgree : P.Contributory)
    (level : Level) (hAllowed : plaintext.length ≤ a.config.limits.maxCiphertext) :
    ∃ bytes, (a.send P b.id level plaintext).1 = .ok bytes ∧
      (plaintext.length < UInt32.size → bytes.length ≤ Envelope.maxSize b.config.limits →
        ∃ m, (b.receive P bytes).1 = .ok m ∧ Turn.tale m = (a.id, level, plaintext)) ∧
      (a.config.limits.Countable → bytes.length ≤ Envelope.maxSize a.config.limits) := by
  obtain ⟨record, e, hSend, -⟩ :=
    h.writes.writes hP hAgree h.corresponds h.named.1 h.named.2 (by decide) level hAllowed
  rcases h.corresponds.sender_cases hP (.send b.id level plaintext)
      (h.writes.returns (by decide) level plaintext) with
    ⟨hWritten, -⟩ | ⟨level', text, record', e', hOp, hReply, hMakes, -, hLevel, -, hMore⟩
  · have hReply : (a.step P (.send b.id level plaintext)).1 = .sent (.ok e.write) :=
      congrArg Reply.sent hSend
    rw [hReply] at hWritten
    simp [History.written?] at hWritten
  cases hOp
  have hReply : Reply.sent (a.send P b.id level plaintext).1 = .sent (e'.encode a.config.limits) :=
    hReply
  rw [hSend] at hReply
  injection hReply with hEncoded
  obtain ⟨hBytes, hAfter⟩ := hMore _ hEncoded.symm
  refine ⟨e.write, hSend, fun hCounted hSize => ?_, fun hRoom => ?_⟩
  · rw [hBytes] at hSize ⊢
    have hMem : (⟨e', plaintext⟩ : Letter) ∈ [] ++ [⟨e', plaintext⟩] := .head _
    have hDecoded := hAfter.decode_letter hP hMem hCounted hSize
    -- it is the first of its epoch, and nothing was accepted yet
    have hAwaits :
        b.Awaits (a.step P (.send b.id level plaintext)).2.id [] e'.epoch e'.sequence := by
      obtain ⟨session, -, -, -, -, hBegun⟩ := hMakes.current
      refine .inl ⟨List.forall_mem_nil _, ?_⟩
      rcases hBegun with ⟨before, hCurrent, -⟩ | ⟨-, hFirst, -⟩
      · rw [h.unsent] at hCurrent
        cases hCurrent
      · rw [hFirst]
        exact Nat.le_add_left ..
    obtain ⟨m, hReceived⟩ := (hAfter.receive_iff hP hMem hDecoded).2 hAwaits
    have hTells := hAfter.tells hP hMem hDecoded hReceived
    have hSame : (a.step P (.send b.id level plaintext)).2.id = a.id :=
      congrArg Identity.deviceId (evolves_step (P := P) a (.send b.id level plaintext)).identity
    refine ⟨m, hReceived, ?_⟩
    unfold Turn.tale
    rw [hTells.sender, hTells.level, hTells.plaintext, hLevel, hSame]
  · rw [hBytes]
    exact Envelope.length_write_le (Envelope.encode_eq_ok_iff.1 hEncoded.symm).1 hRoom

/-- **The first message** is received as what it is exactly if the format can count its text and it
is not too large to be read. -/
theorem Acquainted.first_iff (h : Acquainted P a b) (hP : P.Lawful) (hAgree : P.Contributory)
    (hKeeps : P.KeepsLength) (level : Level) (plaintext : Bytes) (clockA clockB : UInt64)
    (hAllowed : plaintext.length ≤ a.config.limits.maxCiphertext) :
    ∃ bytes, (send P b.id level plaintext { a with now := clockA }).1 = .ok bytes ∧
      ((∃ m, (receive P bytes { b with now := clockB }).1 = .ok m ∧
          Turn.tale m = (a.id, level, plaintext)) ↔
        plaintext.length < UInt32.size ∧ bytes.length ≤ Envelope.maxSize a.config.limits) ∧
      (a.config.limits.Countable → bytes.length ≤ Envelope.maxSize a.config.limits) := by
  obtain ⟨bytes, hSend, hReads, hSmall⟩ := (h.ticked clockA clockB).first hP hAgree level hAllowed
  refine ⟨bytes, hSend, ⟨?_, fun ⟨hCounted, hSize⟩ => hReads hCounted ?_⟩, hSmall⟩
  · rintro ⟨m, hReceived, hTale⟩
    have hText : m.plaintext = plaintext := congrArg (·.2.2) hTale
    have hLengths := length_received_lt hKeeps hReceived
    rw [hText] at hLengths
    exact ⟨hLengths.1, h.corresponds.config ▸ hLengths.2⟩
  · show bytes.length ≤ Envelope.maxSize b.config.limits
    rw [← h.corresponds.config]
    exact hSize

/-- Every first message that the limits let pass is received exactly if the format can count every
text that they let pass. -/
theorem Acquainted.firsts_iff (h : Acquainted P a b) (hP : P.Lawful) (hAgree : P.Contributory)
    (hKeeps : P.KeepsLength) (hValid : a.config.validate = .ok ()) :
    (∀ level plaintext clockA clockB, plaintext.length ≤ a.config.limits.maxCiphertext →
        ∃ bytes m, (send P b.id level plaintext { a with now := clockA }).1 = .ok bytes ∧
          (receive P bytes { b with now := clockB }).1 = .ok m ∧
          Turn.tale m = (a.id, level, plaintext)) ↔
      a.config.limits.maxCiphertext < UInt32.size := by
  constructor
  · -- a text of as many bytes as can just not be counted is sent, but not received
    intro hAll
    by_contra hMany
    obtain ⟨text, hLength⟩ : ∃ text : Bytes, text.length = UInt32.size :=
      ⟨List.replicate UInt32.size 0, List.length_replicate⟩
    have hAllowed : text.length ≤ a.config.limits.maxCiphertext := by
      rw [hLength]
      exact Nat.not_lt.1 hMany
    obtain ⟨bytes, m, hSend, hReceived, hTale⟩ := hAll .basic text 0 0 hAllowed
    obtain ⟨bytes', hSend', hIff, -⟩ := h.first_iff hP hAgree hKeeps .basic text 0 0 hAllowed
    obtain rfl : bytes = bytes' := Except.ok.inj (hSend.symm.trans hSend')
    have hShort := (hIff.1 ⟨m, hReceived, hTale⟩).1
    rw [hLength] at hShort
    exact Nat.lt_irrefl _ hShort
  · -- limits that can be counted leave the largest size as it is meant
    intro hCounted level plaintext clockA clockB hAllowed
    obtain ⟨bytes, hSend, hIff, hSmall⟩ :=
      h.first_iff hP hAgree hKeeps level plaintext clockA clockB hAllowed
    have hRoom := Envelope.Limits.countable_of_lt hCounted (maxDeviceId_lt hValid)
    obtain ⟨m, hReceived, hTale⟩ :=
      hIff.2 ⟨Nat.lt_of_le_of_lt hAllowed hCounted, hSmall hRoom⟩
    exact ⟨bytes, m, hSend, hReceived, hTale⟩

end Acquainted

/-- Whether a device puts another on file when it is shown the other's bundle. -/
def Admits (P : Primitives) (d other : Device) : Prop :=
  ∃ peer, (d.importBundle P (other.exportBundle P)).1 = .ok peer

/-- A new device puts a stranger on file exactly if the stranger's id is short enough, and is then
ready to write to it if it accepted the stranger where it has to. -/
theorem met_created {a other : Device} (hA : create P config sinkA none nowA randomA = .ok a)
    (hName : Envelope.IsName other.id) (hOther : a.id ≠ other.id) :
    (a.Admits P other ↔ other.id.utf8ByteSize ≤ config.limits.maxDeviceId) ∧
      (other.id.utf8ByteSize ≤ config.limits.maxDeviceId → ∀ accepts,
        (a.met P accepts other).Knows P other ∧ (a.met P accepts other).pairs = .empty ∧
          ((config.requireVerification = true → accepts = true) →
            (a.met P accepts other).MayWrite P other 0)) := by
  obtain ⟨-, rfl⟩ := create_eq_ok hA
  have hStranger : (fresh P config sinkA none nowA randomA).contacts.get? other.id = none :=
    Table.get?_empty ..
  have hImported := importBundle_of_stranger (P := P) hStranger hName hOther
  have hLimit : (fresh P config sinkA none nowA randomA).contacts.idLimit =
    config.limits.maxDeviceId := rfl
  rw [hLimit] at hImported
  constructor
  · -- the other is admitted if its name is short enough
    unfold Admits
    rw [hImported]
    by_cases hShort : other.id.utf8ByteSize ≤ config.limits.maxDeviceId
    · rw [if_pos hShort]
      exact ⟨fun _ => hShort, fun _ => ⟨_, rfl⟩⟩
    · rw [if_neg hShort]
      exact ⟨fun ⟨_, hOk⟩ => (nomatch hOk), fun h => absurd h hShort⟩
  · intro hShort accepts
    obtain ⟨hPairs, record, hRecord, hKeys, hTrusted, hAccepted⟩ :=
      record_met (P := P) hStranger hName hOther hShort accepts
    have hRun : Run P _ _ ((fresh P config sinkA none nowA randomA).met P accepts other) :=
      run_after (allReturn_acquaint accepts other _)
    refine ⟨⟨record, hRecord, hKeys, hTrusted⟩, hPairs, fun hEnough => ⟨?_, ?_⟩⟩
    · -- no message was sent to it, so all numbers are left
      refine ⟨record, hRecord, hKeys, hTrusted, fun ⟨hUnverified, hRequired⟩ => ?_⟩
      rw [hRun.evolves.config] at hRequired
      exact hAccepted (hEnough hRequired) hUnverified
    · rw [hPairs]
      exact ⟨rfl, rfl, Nat.le_refl 0, nofun⟩

/-- **When two strangers can talk.** Two devices of one configuration draw their identities. Each puts
the other on file when it is shown the other's bundle exactly if the configuration lets ids have
thirty-six bytes. If it does, and the devices have met and accepted each other where they have to
before they write, then, whatever the two clocks read,

* the first message of one, at any level, of a text that the limits let pass, is sent; and it is
  received by the other as what it is exactly if the text has less than `2 ^ 32` bytes and what was
  sent is not too large to be read, as nothing is unless the largest size wraps around;
* so this goes well for every such text exactly if no text of `2 ^ 32` bytes is let pass;
* every message comes through, of whichever of the two, when they take turns by one clock. -/
theorem strangers_can_talk_iff (hP : P.Lawful) (hAgree : P.Contributory) (hKeeps : P.KeepsLength)
    (hValid : config.validate = .ok ()) (sinkA sinkB : Audit.Sink)
    (hOther : (Identity.generate nowA randomA).1.deviceId ≠
      (Identity.generate nowB randomB).1.deviceId) :
    ∃ a b, create P config sinkA none nowA randomA = .ok a ∧
      create P config sinkB none nowB randomB = .ok b ∧
      (a.Admits P b ↔ 36 ≤ config.limits.maxDeviceId) ∧
      (b.Admits P a ↔ 36 ≤ config.limits.maxDeviceId) ∧
      (36 ≤ config.limits.maxDeviceId → ∀ acceptsA acceptsB,
        (config.requireVerification = true → acceptsA = true) →
          (∀ level plaintext clockA clockB, plaintext.length ≤ config.limits.maxCiphertext →
            ∃ bytes, (send P b.id level plaintext
                { a.met P acceptsA b with now := clockA }).1 = .ok bytes ∧
              ((∃ m, (receive P bytes { b.met P acceptsB a with now := clockB }).1 = .ok m ∧
                  Turn.tale m = (a.id, level, plaintext)) ↔
                plaintext.length < UInt32.size ∧
                  bytes.length ≤ Envelope.maxSize config.limits) ∧
              (config.limits.Countable → bytes.length ≤ Envelope.maxSize config.limits)) ∧
          ((∀ level plaintext clockA clockB, plaintext.length ≤ config.limits.maxCiphertext →
              ∃ bytes m, (send P b.id level plaintext
                  { a.met P acceptsA b with now := clockA }).1 = .ok bytes ∧
                (receive P bytes { b.met P acceptsB a with now := clockB }).1 = .ok m ∧
                Turn.tale m = (a.id, level, plaintext)) ↔
            config.limits.maxCiphertext < UInt32.size) ∧
          ((config.requireVerification = true → acceptsB = true) → ∀ turns,
            Turn.Orderly config turns → turns.length < lastNumber.toNat →
              (Turn.exchange P (a.met P acceptsA b) (b.met P acceptsB a) turns).map
                (List.map Turn.tale) = .ok (turns.map (Turn.told a b)))) := by
  have hNamed (sink : Audit.Sink) (now : UInt64) (random : RandomSource) :
      Envelope.IsName (fresh P config sink none now random).id ∧
        (fresh P config sink none now random).id.utf8ByteSize = 36 := Uuid.isName_text _
  have hA := create_of_validate (P := P) hValid sinkA none nowA randomA
  have hB := create_of_validate (P := P) hValid sinkB none nowB randomB
  obtain ⟨hNameA, hSizeA⟩ := hNamed sinkA nowA randomA
  obtain ⟨hNameB, hSizeB⟩ := hNamed sinkB nowB randomB
  have hOther : (fresh P config sinkA none nowA randomA).id ≠
    (fresh P config sinkB none nowB randomB).id := hOther
  have hConfig : (fresh P config sinkA none nowA randomA).config = config := rfl
  generalize fresh P config sinkA none nowA randomA = a at *
  generalize fresh P config sinkB none nowB randomB = b at *
  obtain ⟨hAdmitsB, hMetB⟩ := met_created hA hNameB hOther
  obtain ⟨hAdmitsA, hMetA⟩ := met_created hB hNameA hOther.symm
  rw [hSizeB] at hAdmitsB hMetB
  rw [hSizeA] at hAdmitsA hMetA
  refine ⟨a, b, hA, hB, hAdmitsB, hAdmitsA, fun hRoom acceptsA acceptsB hEnoughA => ?_⟩
  obtain ⟨hKnowsB, hPairsA, hMayA⟩ := hMetB hRoom acceptsA
  obtain ⟨hKnowsA, -, hMayB⟩ := hMetA hRoom acceptsB
  -- neither is another device behind the meeting
  have hEvolvesA : a.Evolves (a.met P acceptsA b) :=
    (run_after (allReturn_acquaint acceptsA b a)).evolves
  have hEvolvesB : b.Evolves (b.met P acceptsB a) :=
    (run_after (allReturn_acquaint acceptsB a b)).evolves
  have hIdA : (a.met P acceptsA b).id = a.id := congrArg Identity.deviceId hEvolvesA.identity
  have hIdB : (b.met P acceptsB a).id = b.id := congrArg Identity.deviceId hEvolvesB.identity
  have hKnowsB := hKnowsB.congr hEvolvesB.identity
  have hKnowsA := hKnowsA.congr hEvolvesA.identity
  have hThere := (begins_met hA hB hKnowsB hKnowsA).good
  have hBack := (begins_met hB hA hKnowsA hKnowsB).good
  have hWrites := (hMayA hEnoughA).congr hEvolvesB.identity
  have hConfigA : (a.met P acceptsA b).config = config := hEvolvesA.config.trans hConfig
  generalize a.met P acceptsA b = a' at *
  generalize b.met P acceptsB a = b' at *
  have hFineA : Envelope.idFault? config.limits.maxDeviceId a'.id = none := by
    rw [hIdA, Envelope.idFault?_eq_none_iff, hSizeA]
    exact ⟨hNameA, hRoom⟩
  have hFineB : Envelope.idFault? config.limits.maxDeviceId b'.id = none := by
    rw [hIdB, Envelope.idFault?_eq_none_iff, hSizeB]
    exact ⟨hNameB, hRoom⟩
  have hAcquainted : Acquainted P a' b' := by
    refine ⟨hWrites, hThere.corresponds, ?_, hConfigA.symm ▸ ⟨hFineA, hFineB⟩⟩
    rw [hPairsA]
    rfl
  refine ⟨?_, ?_, ?_⟩
  · rw [← hIdA, ← hIdB, ← hConfigA]
    exact hAcquainted.first_iff hP hAgree hKeeps
  · rw [← hIdA, ← hIdB, ← hConfigA]
    exact hAcquainted.firsts_iff hP hAgree hKeeps (hConfigA.symm ▸ hValid)
  · intro hEnoughB turns hOrderly hFew
    have hTalk : Turn.Talk P config 0 0 a' b' :=
      ⟨hConfigA, ⟨_, _, _, hThere⟩, ⟨_, _, _, hBack⟩, hWrites,
        (hMayB hEnoughB).congr hEvolvesA.identity, hFineA, hFineB⟩
    rw [hTalk.exchange hP hAgree hOrderly (fun _ _ => UInt64.zero_le) (by omega)]
    unfold Turn.told
    rw [hIdA, hIdB]

/-- Short texts for accepted peers only, two to an epoch, and just room enough for drawn ids. -/
def snug : Config :=
  { Config.standard with
    requireVerification := true
    rotation := ⟨.ofSecs 60, 2, .ofSecs 5⟩
    limits := ⟨4, 36⟩ }

/-- One device writes three times, the second time at another level, and is answered in between. -/
def firstWords : List Turn :=
  [⟨5, false, .basic, [1, 2, 3, 4]⟩, ⟨5, true, .military, []⟩, ⟨7, false, .enhanced, [5]⟩,
    ⟨7, false, .enhanced, [6]⟩]

/-- Two devices draw their identities, meet, and take turns. -/
theorem strangers_can_talk_iff_of_firstWords :
    let randomA : RandomSource := ⟨fun _ => 1, 0⟩
    let randomB : RandomSource := ⟨fun _ => 2, 0⟩
    snug.validate = .ok () ∧ Turn.Orderly snug firstWords ∧
      (Identity.generate 0 randomA).1.deviceId ≠ (Identity.generate 3 randomB).1.deviceId ∧
      ∃ a b, create .plain snug .memory none 0 randomA = .ok a ∧
        create .plain snug .memory none 3 randomB = .ok b ∧ a.Admits .plain b ∧ b.Admits .plain a ∧
        (Turn.exchange .plain (a.met .plain true b) (b.met .plain true a) firstWords).map
          (List.map Turn.tale) = .ok (firstWords.map (Turn.told a b)) := by
  intro randomA randomB
  have hValid : snug.validate = .ok () := by decide
  have hOrderly : Turn.Orderly snug firstWords := ⟨by decide, by decide, by decide⟩
  have hOther : (Identity.generate 0 randomA).1.deviceId ≠
      (Identity.generate 3 randomB).1.deviceId := by decide +kernel
  obtain ⟨a, b, hA, hB, hAdmitsB, hAdmitsA, hTalk⟩ :=
    strangers_can_talk_iff Primitives.plain_lawful (fun _ _ => rfl) Primitives.plain_keepsLength
      hValid .memory .memory hOther
  obtain ⟨-, hAll, hTurns⟩ := hTalk (by decide) true true fun _ => rfl
  exact ⟨hValid, hOrderly, hOther, a, b, hA, hB, hAdmitsB.2 (by decide), hAdmitsA.2 (by decide),
    hTurns (fun _ => rfl) firstWords hOrderly (by decide)⟩

/-- No room for drawn ids. -/
def cramped : Config := { Config.standard with limits := ⟨1048576, 8⟩ }

/-- **A configuration can be used with which no two strangers can talk:** none admits another. -/
theorem cramped_admits_nobody :
    let a := fresh .plain cramped .memory none 0 ⟨fun _ => 1, 0⟩
    let b := fresh .plain cramped .memory none 0 ⟨fun _ => 2, 0⟩
    cramped.validate = .ok () ∧ create .plain cramped .memory none 0 ⟨fun _ => 1, 0⟩ = .ok a ∧
      create .plain cramped .memory none 0 ⟨fun _ => 2, 0⟩ = .ok b ∧ a.id ≠ b.id ∧
      (a.importBundle .plain (b.exportBundle .plain)).1 =
        .error (.invalidInput ("invalid device id " ++ Text.quote b.id)) := by
  intro a b
  have hValid : cramped.validate = .ok () := by decide
  have hOther : a.id ≠ b.id := by decide +kernel
  obtain ⟨hName, hSize⟩ : Envelope.IsName b.id ∧ b.id.utf8ByteSize = 36 := Uuid.isName_text _
  have hLong : ¬b.id.utf8ByteSize ≤ a.contacts.idLimit := by
    show ¬b.id.utf8ByteSize ≤ 8
    rw [hSize]
    decide
  have hStranger : a.contacts.get? b.id = none := Table.get?_empty ..
  have hImported := importBundle_of_stranger (P := .plain) hStranger hName hOther
  rw [if_neg hLong] at hImported
  exact ⟨hValid, create_of_validate hValid .., create_of_validate hValid .., hOther,
    congrArg Prod.fst hImported⟩

end Device

end EndToEnd
