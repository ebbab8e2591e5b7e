import EndToEnd.Proofs.Positions
import EndToEnd.Proofs.Rotations
import EndToEnd.Proofs.Sweeps

/-!
# Rotation by count

Messages to a peer that are all sent at one level, and none of them when the epoch in use is too old,
are numbered by division. With a threshold of `T`, the one that `n` of them come before has the number
`n % T + 1`, in the epoch that is `n / T` behind the first. A session does not end with its last
message, but only when the next one is sent, so the end of the epoch that fills up last is not on
record yet, while the counter has gone past it.

A side behind `n` messages therefore stands at the place of the last of them (`Outbound.Counted`), and
what one message more does to it depends only on whether that place is the last of its epoch.

Main results:

* `Outbound.Counted.makes` — one message more.
* `Device.counted_send`, `Device.counted_step` — one operation, and what it puts on record.
* `Device.messages_are_counted` — any number of messages, whatever else the device is asked for.
* `Device.endless_rotates_at_once` — where the age of an epoch is not counted as it was meant.
-/

namespace EndToEnd

variable {P : Primitives}

-- ---------------------------------------------------------------------------
-- Which sessions fit
-- ---------------------------------------------------------------------------

namespace Rotation.Policy

variable {p : Policy} {used : Usage} {level : Level} {now : UInt64}

/-- Whether an epoch is not too old for a message, as its age and the interval are counted. -/
def InTime (p : Policy) (created now : UInt64) : Prop := saturatingSub now created < p.interval.millis

instance (p : Policy) (created now : UInt64) : Decidable (p.InTime created now) :=
  inferInstanceAs (Decidable (_ < _))

/-- A session of the level that has room and time left is used on. -/
theorem evaluate_eq_none (hLevel : used.level = level) (hMore : used.messages < p.threshold)
    (hTime : p.InTime used.createdAt now) : p.evaluate used level now = none := by
  unfold evaluate
  rw [if_neg (not_not_intro hLevel), if_neg (UInt64.not_le.2 hMore), if_neg (UInt64.not_le.2 hTime)]

/-- A session that is full is not used on, whatever else is wrong with it. -/
theorem exists_evaluate_of_full (h : p.threshold ≤ used.messages) :
    ∃ reason, p.evaluate used level now = some reason := by
  refine Option.ne_none_iff_exists'.1 fun hNone => ?_
  exact UInt64.not_lt.2 h (of_evaluate_eq_none hNone).2.1

end Rotation.Policy

-- ---------------------------------------------------------------------------
-- Sessions that have made some messages
-- ---------------------------------------------------------------------------

namespace Session

variable {own : Identity} {plaintext : Bytes} {s s' : Session} {random random' : RandomSource}
  {e : Envelope} {level : Level} {epoch made : Nat}

/-- A session at a level, in an epoch, that has made some messages. -/
structure HasMade (level : Level) (epoch made : Nat) (s : Session) : Prop where
  level : s.level = level
  epoch : s.epoch.toNat = epoch
  messages : s.messages.toNat = made
  next : s.ratchet.next.toNat = made + 1

/-- One message more. -/
theorem HasMade.encrypt (h : s.HasMade level epoch made)
    (hMade : s.encrypt P own plaintext random = .ok (e, s', random')) :
    s'.HasMade level epoch (made + 1) := by
  obtain ⟨hId, hLevel, -, hNext⟩ := session_of_encrypt hMade
  obtain ⟨-, hMessages, -⟩ := usage_of_encrypt hMade
  have hCount : (s.messages + 1).toNat = s.messages.toNat + 1 := by
    refine Ratchet.toNat_add_one fun hLast => ?_
    -- the chain is one ahead of the count
    have hSize := s.ratchet.next.toNat_lt
    rw [h.next, ← h.messages, hLast] at hSize
    exact absurd hSize (by decide)
  exact ⟨hLevel.trans h.level, (congrArg (·.epoch.toNat) hId).trans h.epoch,
    by rw [hMessages, hCount, h.messages], by rw [hNext, h.next]⟩

theorem hasMade_begin (id : SessionId) (level : Level) (key ephemeral : Key) (now : UInt64) :
    (begin id level key ephemeral now).HasMade level id.epoch.toNat 0 := ⟨rfl, rfl, rfl, rfl⟩

end Session

-- ---------------------------------------------------------------------------
-- Sides that have made some messages
-- ---------------------------------------------------------------------------

namespace Outbound

variable {s : Setting} {peer : Peer} {level : Level} {plaintext : Bytes} {o o' : Outbound}
  {e : Envelope} {threshold first n : Nat}

/-- A session that fits a message makes it, so no epoch begins. -/
theorem nextEpoch_encrypt_of_fits {w : Work Outbound} {session : Session}
    (hCurrent : w.part.current = some session)
    (hFits : s.config.rotation.evaluate session.usage level s.now = none) :
    (encrypt P s peer level plaintext w).2.part.nextEpoch = w.part.nextEpoch := by
  have hStays : rotateIfDue s peer.deviceId level w = w := by
    simp [rotateIfDue, hCurrent, hFits]
  have hReady : ready P s peer level w = (.ok session, w) := by
    simp [ready, hCurrent]
  unfold encrypt
  rw [hStays, hReady]
  split
  · rfl
  split
  · rfl
  dsimp only
  split <;> rfl

/-- A side behind `n` messages that began when it had no session, and its counter was `first`. It
stands at the place of the last of them. -/
def Counted (threshold first : Nat) (level : Level) (o : Outbound) : Nat → Prop
  | 0 => o.current = none ∧ o.nextEpoch.toNat = first
  | n + 1 => (∃ session, o.current = some session ∧
      session.HasMade level (first + n / threshold) (n % threshold + 1)) ∧
    o.nextEpoch.toNat = first + n / threshold + 1

/-- Only the session that sends and the counter matter. -/
theorem Counted.congr (h : Counted threshold first level o n) (hCurrent : o'.current = o.current)
    (hNext : o'.nextEpoch = o.nextEpoch) : Counted threshold first level o' n := by
  cases n <;> simpa only [Counted, hCurrent, hNext] using h

/-- The counter stands behind all epochs that have begun. -/
theorem Counted.nextEpoch (h : Counted threshold first level o n) (hSome : 0 < threshold) :
    o.nextEpoch.toNat = first + (n + threshold - 1) / threshold := by
  cases n with
  | zero => rw [h.2, Nat.div_eq_of_lt (by omega), Nat.add_zero]
  | succ n =>
    have hShift : n + 1 + threshold - 1 = n + threshold := by omega
    rw [h.2, hShift, Nat.add_div_right n hSome, Nat.add_assoc]

/-- The place behind one that is not the last of its epoch, and behind one that is. -/
theorem next_place (n : Nat) (hSome : 0 < threshold) :
    (n % threshold + 1 < threshold ∧
        (n + 1) / threshold = n / threshold ∧ (n + 1) % threshold = n % threshold + 1) ∨
      (n % threshold + 1 = threshold ∧
        (n + 1) / threshold = n / threshold + 1 ∧ (n + 1) % threshold = 0) := by
  have hBelow : n % threshold + 1 ≤ threshold := Nat.mod_lt n hSome
  have hSplit : n + 1 = threshold * (n / threshold) + (n % threshold + 1) := by
    rw [← Nat.add_assoc, Nat.div_add_mod]
  rcases Nat.lt_or_eq_of_le hBelow with hLess | hLast
  · refine .inl ⟨hLess, ?_, ?_⟩
    · rw [hSplit, Nat.mul_add_div hSome, Nat.div_eq_of_lt hLess, Nat.add_zero]
    · rw [hSplit, Nat.mul_add_mod, Nat.mod_eq_of_lt hLess]
  · refine .inr ⟨hLast, ?_, ?_⟩
    · rw [hSplit, Nat.mul_add_div hSome, hLast, Nat.div_self hSome]
    · rw [hSplit, Nat.mul_add_mod, hLast, Nat.mod_self]

/-- The place of a message is where its session stands behind it. -/
theorem Counted.place (h : Counted threshold first level o' (n + 1))
    (hMakes : Makes P s peer level plaintext o e o') :
    e.epoch.toNat = first + n / threshold ∧ e.sequence.toNat = n % threshold + 1 ∧
      e.level = level := by
  obtain ⟨⟨session, hCurrent, hPlace⟩, -⟩ := h
  obtain ⟨session', hCurrent', hEpoch, hNext, -⟩ := hMakes.used
  obtain ⟨-, -, -, -, hLevel, -⟩ := hMakes.current
  cases hCurrent.symm.trans hCurrent'
  have hEpoch := congrArg UInt64.toNat hEpoch
  have hThere := hPlace.epoch
  have hAhead := hPlace.next
  exact ⟨by omega, by omega, hLevel⟩

/-- A message for which no session fits begins an epoch. -/
theorem hasMade_of_begins (hMakes : Makes P s peer level plaintext o e o')
    (hNone : ∀ session, o.current = some session →
      s.config.rotation.evaluate session.usage level s.now ≠ none)
    (hCounter : o.nextEpoch = Device.lastNumber → o'.nextEpoch = Device.lastNumber) :
    (∃ session, o'.current = some session ∧ session.HasMade level o.nextEpoch.toNat 1) ∧
      o'.nextEpoch.toNat = o.nextEpoch.toNat + 1 := by
  cases hMakes with
  | continues current fits made => exact absurd fits (hNone _ current)
  | @begins session session' ephemeral random random' begun made =>
    obtain ⟨keys, -, rfl⟩ := beginSession_eq_ok begun
    refine ⟨⟨session', rfl, (Session.hasMade_begin ..).encrypt made⟩, ?_⟩
    refine Ratchet.toNat_add_one fun hLast => ?_
    have hWrapped : o.nextEpoch + 1 = Device.lastNumber := hCounter hLast
    rw [hLast] at hWrapped
    exact absurd hWrapped (by decide)

/-- **One message more.** It goes on in the epoch in use, or that one is full: then it is the first of
the next, and the end of the full one is put on record. -/
theorem Counted.makes (h : Counted threshold first level o n)
    (hThreshold : s.config.rotation.threshold.toNat = threshold) (hSome : 0 < threshold)
    (hMakes : Makes P s peer level plaintext o e o')
    (hTime : ∀ session, o.current = some session →
      session.messages < s.config.rotation.threshold →
        s.config.rotation.InTime session.createdAt s.now)
    (hStays : ∀ session, o.current = some session →
      s.config.rotation.evaluate session.usage level s.now = none → o'.nextEpoch = o.nextEpoch)
    (hCounter : o.nextEpoch = Device.lastNumber → o'.nextEpoch = Device.lastNumber) :
    Counted threshold first level o' (n + 1) ∧
      (n - 1) / threshold + (turns s peer.deviceId level o).length = n / threshold := by
  cases n with
  | zero =>
    -- no session yet: the message begins the first epoch
    obtain ⟨hNone, hFirst⟩ := h
    have hBegins := hasMade_of_begins hMakes (fun _ hs => nomatch hNone.symm.trans hs) hCounter
    rw [hFirst] at hBegins
    constructor
    · simpa only [Counted, Nat.zero_div, Nat.zero_mod, Nat.add_zero, Nat.zero_add] using hBegins
    · simp [turns, hNone]
  | succ n =>
    obtain ⟨⟨session, hCurrent, hPlace⟩, hNext⟩ := h
    rcases next_place n hSome with ⟨hLess, hDiv, hMod⟩ | ⟨hLast, hDiv, hMod⟩
    · -- the epoch is not full
      have hMore : session.messages < s.config.rotation.threshold := by
        rw [UInt64.lt_iff_toNat_lt, hPlace.messages, hThreshold]
        exact hLess
      have hFits : s.config.rotation.evaluate session.usage level s.now = none :=
        Rotation.Policy.evaluate_eq_none hPlace.level hMore (hTime session hCurrent hMore)
      -- the session is used on, so the message is the next of its epoch
      have hSame := hStays session hCurrent hFits
      constructor
      · cases hMakes with
        | continues current _ made =>
          cases hCurrent.symm.trans current
          refine ⟨⟨_, rfl, ?_⟩, ?_⟩
          · rw [hDiv, hMod]
            exact hPlace.encrypt made
          · rw [hDiv]
            exact hNext
        | begins _ _ => exact absurd hSame (by simp)
      · simp [turns, hCurrent, hFits, hDiv]
    · -- the epoch is full
      have hFull : s.config.rotation.threshold ≤ session.messages := by
        rw [UInt64.le_iff_toNat_le, hPlace.messages, hThreshold, hLast]
      obtain ⟨reason, hReason⟩ :
          ∃ reason, s.config.rotation.evaluate session.usage level s.now = some reason :=
        Rotation.Policy.exists_evaluate_of_full hFull
      have hBegins := hasMade_of_begins hMakes (fun t ht => by
        cases hCurrent.symm.trans ht
        rw [hReason]
        exact nofun) hCounter
      rw [hNext] at hBegins
      constructor
      · simpa only [Counted, hDiv, hMod, Nat.zero_add, Nat.add_assoc] using hBegins
      · simp [turns, hCurrent, hReason, hDiv]

end Outbound

-- ---------------------------------------------------------------------------
-- What is asked of the device
-- ---------------------------------------------------------------------------

/-- Whether an operation is a message to a peer. -/
def Operation.isFor (peer : String) : Operation → Bool
  | send other _ _ => other = peer
  | _ => false

/-- Whether an event is of a kind, and names a pair. -/
def Audit.Event.isOf (kind : Kind) (own peer : String) (event : Event) : Bool :=
  event.kind = kind && event.devices = [own, peer]

namespace Device

variable (P) in
/-- Whether an operation is a message to a peer at a level, is sent, and finds the epoch in use full or
not too old. -/
def sendsInTime (peer : String) (level : Level) (d : Device) : Operation → Bool
  | .send other asked plaintext =>
    other = peer && asked = level && (d.send P other asked plaintext).1.toOption.isSome &&
      (d.pairs.sending peer).current.all fun session =>
        d.config.rotation.threshold ≤ session.messages ||
          d.config.rotation.InTime session.createdAt d.now
  | _ => false

variable (P) in
/-- Whether an operation is no message to a peer, and does nothing to the session that sends to it. -/
def leavesAlone (peer : String) (d : Device) (op : Operation) : Bool :=
  !op.isFor peer &&
    ((d.step P op).2.pairs.sending peer).current = (d.pairs.sending peer).current

variable (P) in
/-- Whether all that some operations do to a pair is to send messages at a level, in time. -/
def onlySends (peer : String) (level : Level) (d : Device) : List Operation → Bool
  | [] => true
  | op :: rest =>
    (sendsInTime P peer level d op || leavesAlone P peer d op) &&
      onlySends peer level (d.step P op).2 rest

-- ---------------------------------------------------------------------------
-- One operation
-- ---------------------------------------------------------------------------

variable {start d d' d'' : Device} {history : History} {peer : String} {level : Level}
  {plaintext : Bytes} {op : Operation} {ops : List Operation} {own : String}
  {threshold first n : Nat} {es more : List Envelope} {entries others : List Audit.Entry}

/-- The same for a message that the device is asked to send. -/
theorem nextEpoch_send_of_fits (hFiled : d.contacts.Filed) {session : Session}
    (hCurrent : (d.pairs.sending peer).current = some session)
    (hFits : d.config.rotation.evaluate session.usage level d.now = none) :
    ((d.send P peer level plaintext).2.pairs.sending peer).nextEpoch =
      (d.pairs.sending peer).nextEpoch := by
  rcases send_cases (d.send P peer level plaintext).eta.symm with
    ⟨failure, -, -, w, hCalm, hPairs, -⟩ | ⟨record, made, w, hRecord, -, hw, -, ⟨hPairs, -⟩, -⟩
  · rw [hPairs]
    exact (hCalm.quiet.rests peer).nextEpoch
  · have hId := hFiled peer record hRecord
    have hSide := Pairs.sending_encrypt (d.setting d.now) P record level plaintext d.work peer
    rw [hw, if_pos hId.symm, hId] at hSide
    rw [hPairs, hSide]
    exact Outbound.nextEpoch_encrypt_of_fits hCurrent hFits

/-- What is no message to a peer gives no envelope for it. -/
theorem written?_of_not_isFor (h : op.isFor peer = false) (reply : Reply) :
    History.written? peer (op, reply) = none := by
  cases op with
  | send other level plaintext =>
    have hOther : other ≠ peer := of_decide_eq_false h
    cases reply with
    | sent result => cases result <;> simp [History.written?, hOther]
    | _ => rfl
  | _ => rfl

/-- What a message that is sent puts on record of its pair. -/
theorem countP_gained_send (hFiled : d.contacts.Filed) {bytes : Bytes}
    (hSent : (d.send P peer level plaintext).1 = .ok bytes) :
    (gained P d (.send peer level plaintext)).countP (·.isOf .keyRotated d.id peer) =
        (Outbound.turns (d.setting d.now) peer level (d.pairs.sending peer)).length ∧
      (gained P d (.send peer level plaintext)).countP (·.isOf .forcedRotation d.id peer) = 0 := by
  obtain ⟨turned, others, hAdds, hOthers, hTurned⟩ := adds_send (P := P) hFiled peer level plaintext
  -- the message was sent, so the side has turned before it and did not fail
  obtain rfl : turned = _ := hTurned.resolve_right fun ⟨_, failure, hFailed⟩ => by
    rw [hSent] at hFailed
    cases hFailed
  have hCount (kind : Audit.Kind) (hRotation : kind.isRotation = true) :
      (gained P d (.send peer level plaintext)).countP (·.isOf kind d.id peer) =
        (Outbound.turns (d.setting d.now) peer level (d.pairs.sending peer)).countP
          (·.isOf kind d.id peer) := by
    -- whatever else was put in the log is no rotation
    have hNone : others.countP (·.isOf kind d.id peer) = 0 := by
      refine List.countP_eq_zero.2 fun event hEvent hOf => ?_
      simp only [Audit.Event.isOf, Bool.and_eq_true, decide_eq_true_eq] at hOf
      have hOther : event.kind.isRotation = false := hOthers event hEvent
      rw [hOf.1, hRotation] at hOther
      cases hOther
    have hMap := congrArg (List.countP (·.isOf kind d.id peer)) hAdds.drop
    rw [List.countP_map, List.countP_append, hNone] at hMap
    exact hMap
  constructor
  · rw [hCount _ rfl]
    refine List.countP_eq_length.2 fun event hEvent => ?_
    obtain ⟨hKind, hNames⟩ := Outbound.of_mem_turns hEvent
    have hNames : event.devices = [d.id, peer] := hNames
    simp [Audit.Event.isOf, hKind, hNames]
  · rw [hCount _ rfl]
    refine List.countP_eq_zero.2 fun event hEvent => ?_
    obtain ⟨hKind, -⟩ := Outbound.of_mem_turns hEvent
    simp [Audit.Event.isOf, hKind]

/-- An operation that leaves a session alone puts no end of it on record. -/
theorem countP_gained_of_leavesAlone (hFiled : d.contacts.Filed)
    (h : leavesAlone P peer d op = true) {kind : Audit.Kind} (hRotation : kind.isRotation = true) :
    (gained P d op).countP (·.isOf kind d.id peer) = 0 := by
  refine List.countP_eq_zero.2 fun e he hOf => ?_
  simp only [leavesAlone, Bool.and_eq_true, Bool.not_eq_true', decide_eq_true_eq] at h
  simp only [Audit.Event.isOf, Bool.and_eq_true, decide_eq_true_eq] at hOf
  obtain ⟨other, hNames, hCause⟩ := rotations_gained hFiled op he (hOf.1 ▸ hRotation)
  obtain rfl : peer = other := by simpa using hOf.2.symm.trans hNames
  rcases hCause with ⟨level, plaintext, rfl⟩ | hEnded
  · exact absurd h.1 (by simp [Operation.isFor])
  · exact hEnded h.2

/-- An operation that leaves a session alone sends no message. -/
theorem written_of_leavesAlone (hFiled : d.contacts.Filed) (h : leavesAlone P peer d op = true) :
    History.written peer [(op, (d.step P op).1)] = [] ∧
      ((d.step P op).2.pairs.sending peer).current = (d.pairs.sending peer).current ∧
      ((d.step P op).2.pairs.sending peer).nextEpoch = (d.pairs.sending peer).nextEpoch := by
  simp only [leavesAlone, Bool.and_eq_true, Bool.not_eq_true', decide_eq_true_eq] at h
  rcases sending_step (P := P) hFiled op peer with
    ⟨hNone, hRests⟩ | ⟨level, plaintext, record, e, rfl, -⟩
  · exact ⟨by simp [History.written, hNone], h.2, hRests.nextEpoch⟩
  · exact absurd h.1 (by simp [Operation.isFor])

/-- Behind `n` messages, some operations gave some envelopes and put some entries on record: the places
of the envelopes, where the side stands now, and how many ends of epochs are among the entries. -/
structure Counts (threshold first : Nat) (level : Level) (own peer : String) (n : Nat) (d : Device)
    (es : List Envelope) (entries : List Audit.Entry) : Prop where
  placed : ∀ i e, es[i]? = some e → e.epoch.toNat = first + (n + i) / threshold ∧
    e.sequence.toNat = (n + i) % threshold + 1 ∧ e.level = level
  counted : (d.pairs.sending peer).Counted threshold first level (n + es.length)
  rotated : (n - 1) / threshold + entries.countP (·.isOf .keyRotated own peer) =
    (n + es.length - 1) / threshold
  unforced : entries.countP (·.isOf .forcedRotation own peer) = 0

namespace Counts

/-- Nothing was sent yet. -/
theorem nil (h : (d.pairs.sending peer).Counted threshold first level n) :
    Counts threshold first level own peer n d [] [] :=
  ⟨fun _ _ h => (nomatch h), h, rfl, rfl⟩

/-- First some operations, then others. -/
theorem append (h : Counts threshold first level own peer n d es entries)
    (h' : Counts threshold first level own peer (n + es.length) d' more others) :
    Counts threshold first level own peer n d' (es ++ more) (entries ++ others) where
  placed i e he := by
    rcases Nat.lt_or_ge i es.length with hEarly | hLate
    · rw [List.getElem?_append_left hEarly] at he
      exact h.placed i e he
    · rw [List.getElem?_append_right hLate] at he
      have hPlaced := h'.placed _ e he
      rwa [Nat.add_assoc, Nat.add_sub_of_le hLate] at hPlaced
  counted := by
    rw [List.length_append, ← Nat.add_assoc]
    exact h'.counted
  rotated := by
    rw [List.countP_append, ← Nat.add_assoc, h.rotated, h'.rotated, List.length_append,
      Nat.add_assoc]
  unforced := by rw [List.countP_append, h.unforced, h'.unforced]

end Counts

/-- What it is that is sent in time. -/
theorem sent_of_sendsInTime (h : sendsInTime P peer level d op = true) :
    ∃ plaintext bytes, op = .send peer level plaintext ∧
      (d.send P peer level plaintext).1 = .ok bytes ∧
      ∀ session, (d.pairs.sending peer).current = some session →
        session.messages < d.config.rotation.threshold →
          d.config.rotation.InTime session.createdAt d.now := by
  cases op with
  | send other asked plaintext =>
    simp only [sendsInTime, Bool.and_eq_true, decide_eq_true_eq] at h
    obtain ⟨⟨⟨rfl, rfl⟩, hSent⟩, hTime⟩ := h
    cases hReply : (d.send P other asked plaintext).1 with
    | error failure =>
      rw [hReply] at hSent
      cases hSent
    | ok bytes =>
      refine ⟨plaintext, bytes, rfl, hReply, fun session hCurrent hMore => ?_⟩
      rw [hCurrent, Option.all_some, Bool.or_eq_true, decide_eq_true_eq, decide_eq_true_eq] at hTime
      exact hTime.resolve_left (UInt64.not_le.2 hMore)
  | _ => cases h

theorem written_of_sent {bytes : Bytes} (hSent : (d.send P peer level plaintext).1 = .ok bytes) :
    History.written peer [(.send peer level plaintext,
      (d.step P (.send peer level plaintext)).1)] = [bytes] := by
  simp [History.written, History.written?, step, answer, hSent]

/-- A message that is sent is an envelope that was made. -/
theorem makes_of_sent (hFiled : d.contacts.Filed) {bytes : Bytes}
    (hSent : (d.send P peer level plaintext).1 = .ok bytes) :
    ∃ record e, record.deviceId = peer ∧ e.write = bytes ∧
      Outbound.Makes P (d.setting d.now) record level plaintext (d.pairs.sending peer) e
        ((d.send P peer level plaintext).2.pairs.sending peer) := by
  rcases send_effect (P := P) hFiled peer level plaintext with
    ⟨failure, hFailed, -⟩ | ⟨record, e, hRecord, hReply, hMakes, -⟩
  · cases hSent.symm.trans hFailed
  · exact ⟨record, e, hFiled peer record hRecord,
      (Envelope.encode_eq_ok_iff.1 (hReply.symm.trans hSent)).2.symm, hMakes⟩

/-- **A message that is sent in time** is the next. -/
theorem counted_send (hFiled : d.contacts.Filed) (hSome : 0 < d.config.rotation.threshold.toNat)
    (h : (d.pairs.sending peer).Counted d.config.rotation.threshold.toNat first level n)
    (hReturns : overruns P d op = false) (hSends : sendsInTime P peer level d op = true) :
    ∃ e, [e].map Envelope.write = History.written peer [(op, (d.step P op).1)] ∧
      Counts d.config.rotation.threshold.toNat first level d.id peer n (d.step P op).2 [e]
        (gained P d op) := by
  obtain ⟨plaintext, bytes, rfl, hSent, hTime⟩ := sent_of_sendsInTime hSends
  obtain ⟨record, e, rfl, rfl, hMakes⟩ := makes_of_sent hFiled hSent
  obtain ⟨hNext, hTurned⟩ := h.makes rfl hSome hMakes hTime
    (fun session hCurrent hFits => nextEpoch_send_of_fits hFiled hCurrent hFits)
    (counter_of_returns hReturns)
  obtain ⟨hRotated, hForced⟩ := countP_gained_send hFiled hSent
  refine ⟨e, (written_of_sent hSent).symm, fun i f hf => ?_, hNext, ?_, hForced⟩
  · cases i with
    | zero =>
      cases hf
      exact hNext.place hMakes
    | succ i => cases hf
  · rw [hRotated]
    exact hTurned

/-- **One operation** gives the next message, or has nothing to do with them. -/
theorem counted_step (hFiled : d.contacts.Filed) (hSome : 0 < d.config.rotation.threshold.toNat)
    (h : (d.pairs.sending peer).Counted d.config.rotation.threshold.toNat first level n)
    (hReturns : overruns P d op = false)
    (hSends : (sendsInTime P peer level d op || leavesAlone P peer d op) = true) :
    ∃ es, es.map Envelope.write = History.written peer [(op, (d.step P op).1)] ∧
      Counts d.config.rotation.threshold.toNat first level d.id peer n (d.step P op).2 es
        (gained P d op) := by
  rcases Bool.or_eq_true_iff.1 hSends with hSent | hAlone
  · obtain ⟨e, hWritten, hCounts⟩ := counted_send hFiled hSome h hReturns hSent
    exact ⟨[e], hWritten, hCounts⟩
  · obtain ⟨hWritten, hCurrent, hNext⟩ := written_of_leavesAlone hFiled hAlone
    refine ⟨[], hWritten.symm, fun _ _ h => (nomatch h), h.congr hCurrent hNext, ?_,
      countP_gained_of_leavesAlone hFiled hAlone rfl⟩
    rw [countP_gained_of_leavesAlone hFiled hAlone rfl]
    rfl

-- ---------------------------------------------------------------------------
-- Any operations
-- ---------------------------------------------------------------------------

/-- A device that works allows at least one message for an epoch. -/
theorem threshold_pos (hStart : Starts P start) (hRun : Run P start history d) :
    0 < d.config.rotation.threshold.toNat := by
  have hThreshold : d.config.rotation.threshold ≠ 0 :=
    hRun.evolves.config ▸ (Config.validate_eq_ok_iff.1 hStart.validate).1
  exact UInt64.lt_iff_toNat_lt.1 (UInt64.pos_iff_ne_zero.2 hThreshold)

/-- **Any operations** of which all that reach a pair are messages at one level, in time. -/
theorem counted_during (hStart : Starts P start) (hRun : Run P start history d)
    (h : (d.pairs.sending peer).Counted d.config.rotation.threshold.toNat first level n)
    (hReturn : allReturn P d ops = true) (hSends : onlySends P peer level d ops = true) :
    ∃ es, es.map Envelope.write = (during P d ops).written peer ∧
      Counts d.config.rotation.threshold.toNat first level d.id peer n (after P d ops) es
        (gainedDuring P d ops) := by
  induction ops generalizing d history n with
  | nil => exact ⟨[], rfl, .nil h⟩
  | cons op rest ih =>
    simp only [allReturn, Bool.and_eq_true, Bool.not_eq_true'] at hReturn
    simp only [onlySends, Bool.and_eq_true] at hSends
    obtain ⟨es, hWritten, hCounts⟩ :=
      counted_step (hRun.filed hStart) (threshold_pos hStart hRun) h hReturn.1 hSends.1
    have hEvolves := evolves_step (P := P) d op
    have hId : (d.step P op).2.id = d.id := congrArg Identity.deviceId hEvolves.identity
    -- the rest counts on from where the first operation has left the side
    obtain ⟨more, hMore, hCountsMore⟩ := ih (hRun.step op hReturn.1)
      (by rw [hEvolves.config]; exact hCounts.counted) hReturn.2 hSends.2
    rw [hEvolves.config, hId] at hCountsMore
    refine ⟨es ++ more, ?_, hCounts.append hCountsMore⟩
    rw [List.map_append, hWritten, hMore]
    exact (History.written_append peer [_] _).symm

/-- All messages to the peer are sent. -/
theorem length_written (h : onlySends P peer level d ops = true) :
    ((during P d ops).written peer).length = ops.countP (·.isFor peer) := by
  induction ops generalizing d with
  | nil => rfl
  | cons op rest ih =>
    simp only [onlySends, Bool.and_eq_true, Bool.or_eq_true] at h
    have hOne : (History.written peer [(op, (d.step P op).1)]).length =
        if op.isFor peer then 1 else 0 := by
      rcases h.1 with hSent | hAlone
      · obtain ⟨plaintext, bytes, rfl, hSent, -⟩ := sent_of_sendsInTime hSent
        simp [written_of_sent hSent, Operation.isFor]
      · simp only [leavesAlone, Bool.and_eq_true, Bool.not_eq_true'] at hAlone
        simp [History.written, written?_of_not_isFor hAlone.1, hAlone.1]
    have hSplit : History.written peer (during P d (op :: rest)) = _ :=
      History.written_append peer [_] _
    rw [hSplit, List.length_append, hOne, ih h.2, List.countP_cons, Nat.add_comm]

/-- Messages to a peer put no other pair's rotations on record. -/
theorem devices_of_gainedDuring (hFiled : d.contacts.Filed)
    (hAll : ∀ op ∈ ops, op.isFor peer = true) {e : Audit.Entry} (he : e ∈ gainedDuring P d ops)
    (hRotation : e.kind.isRotation = true) : e.devices = [d.id, peer] := by
  induction ops generalizing d with
  | nil => cases he
  | cons op rest ih =>
    obtain ⟨hFor, hAll⟩ := List.forall_mem_cons.1 hAll
    have hEvolves := evolves_step (P := P) d op
    rcases List.mem_append.1 he with hFirst | hLater
    · cases op with
      | send other asked plaintext =>
        obtain rfl : other = peer := of_decide_eq_true hFor
        exact devices_of_gained_send hFiled hFirst hRotation
      | _ => cases hFor
    · rw [ih (hEvolves.filed hFiled) hAll hLater]
      exact congrArg (fun identity : Identity => [identity.deviceId, peer]) hEvolves.identity

/-- **Messages are counted.** A device has no session for sending to a peer, and is asked for some
things of which all that reach the pair are `n` messages at one level, which are sent, each of them
when the epoch in use is full or younger than the interval. Then there are `n` envelopes, and the one
that `i` come before lies in the epoch `i / T` behind the next one there was, with the number
`i % T + 1`. The ends of `(n - 1) / T` epochs are on record, none of them forced, and the counter has
moved by `n / T`, rounded up. The entries are those behind the ones that were there, unless some were
dropped, and if nothing else was asked for, no other rotation is among them.

In the run, and in what is asked behind it, no counter passes `2 ^ 64 - 1`. -/
theorem messages_are_counted (hStart : Starts P start) (hRun : Run P start history d)
    (hIdle : (d.pairs.sending peer).current = none) (hReturn : allReturn P d ops = true)
    (hSends : onlySends P peer level d ops = true) :
    let threshold := d.config.rotation.threshold.toNat
    let first := (d.pairs.sending peer).nextEpoch.toNat
    let n := ops.countP (·.isFor peer)
    let entries := gainedDuring P d ops
    (∃ es : List Envelope, es.map Envelope.write = (during P d ops).written peer ∧ es.length = n ∧
        ∀ i e, es[i]? = some e → e.epoch.toNat = first + i / threshold ∧
          e.sequence.toNat = i % threshold + 1 ∧ e.level = level) ∧
      entries.countP (·.isOf .keyRotated d.id peer) = (n - 1) / threshold ∧
      entries.countP (·.isOf .forcedRotation d.id peer) = 0 ∧
      ((after P d ops).pairs.sending peer).nextEpoch.toNat =
        first + (n + threshold - 1) / threshold ∧
      (.sweepAudit ∉ ops → (after P d ops).audit.entries = d.audit.entries ++ entries) ∧
      ((∀ op ∈ ops, op.isFor peer = true) → ∀ e ∈ entries, e.kind.isRotation = true →
        e.devices = [d.id, peer]) := by
  intro threshold first n entries
  have hBegins : (d.pairs.sending peer).Counted threshold first level 0 := ⟨hIdle, rfl⟩
  obtain ⟨es, hWritten, hCounts⟩ := counted_during hStart hRun hBegins hReturn hSends
  have hLength : es.length = n := by
    have hMapped := congrArg List.length hWritten
    rw [List.length_map, length_written hSends] at hMapped
    exact hMapped
  have hRotated := hCounts.rotated
  have hCounter := hCounts.counted.nextEpoch (threshold_pos hStart hRun)
  rw [hLength, Nat.zero_add] at hRotated hCounter
  rw [Nat.zero_sub, Nat.zero_div, Nat.zero_add] at hRotated
  have hFiled := hRun.filed hStart
  refine ⟨⟨es, hWritten, hLength, fun i e he => ?_⟩, hRotated, hCounts.unforced, hCounter,
    fun hKeeps => entries_after hFiled hKeeps,
    fun hAll e he hRotation => devices_of_gainedDuring hFiled hAll he hRotation⟩
  have hPlaced := hCounts.placed i e he
  rwa [Nat.zero_add] at hPlaced

/-- Ann has met Bob and Eve, and the first epoch with Bob has ended. -/
def countedBefore : List Operation :=
  [meetPlain "bob" 3, meetPlain "eve" 5, .send "bob" .basic [1], .rotate "bob"]

/-- Five messages to Bob, and more that does not concern him. -/
def countedOps : List Operation :=
  [.send "bob" .basic [2], .send "eve" .military [3], .send "bob" .basic [4], .setClock 9000,
    .send "bob" .basic [5], .maintain 9000, .rotate "eve", .send "bob" .basic [6], .flushAudit,
    .send "bob" .basic [7]]

/-- Ann writes more than an epoch holds. -/
theorem messages_are_counted_of_countedOps :
    let ann := after .plain (plain hasty "ann" 1) countedBefore
    let entries := gainedDuring .plain ann countedOps
    (∃ es : List Envelope, es.map Envelope.write = (during .plain ann countedOps).written "bob" ∧
        es.length = 5 ∧ ∀ i e, es[i]? = some e → e.epoch.toNat = 1 + i / 2 ∧
          e.sequence.toNat = i % 2 + 1 ∧ e.level = .basic) ∧
      entries.countP (·.isOf .keyRotated "ann" "bob") = 2 ∧
      entries.countP (·.isOf .forcedRotation "ann" "bob") = 0 ∧
      ((after .plain ann countedOps).pairs.sending "bob").nextEpoch.toNat = 4 ∧
      (after .plain ann countedOps).audit.entries = ann.audit.entries ++ entries := by
  intro ann entries
  have hRun : Run .plain (plain hasty "ann" 1)
      (during .plain (plain hasty "ann" 1) countedBefore) ann := run_after (by decide +kernel)
  obtain ⟨hEnvelopes, hRotated, hForced, hCounter, hEntries, -⟩ :=
    messages_are_counted (plain_starts "ann" 1 rfl) hRun
      (show (ann.pairs.sending "bob").current = none by decide +kernel)
      (show allReturn .plain ann countedOps = true by decide +kernel)
      (show onlySends .plain "bob" .basic ann countedOps = true by decide +kernel)
  have hFirst : (ann.pairs.sending "bob").nextEpoch.toNat = 1 := by decide +kernel
  have hThreshold : ann.config.rotation.threshold.toNat = 2 := by decide +kernel
  have hMessages : countedOps.countP (·.isFor "bob") = 5 := by decide
  have hId : ann.id = "ann" := by decide +kernel
  rw [hFirst, hThreshold, hMessages] at hEnvelopes hCounter
  rw [hThreshold, hMessages, hId] at hRotated
  rw [hId] at hForced
  exact ⟨hEnvelopes, hRotated, hForced, hCounter, hEntries (by decide)⟩

/-- **The age of an epoch goes by what is counted of the interval:** two messages are sent at once, in
an interval that is longer than the clock can ever show, and far fewer than the threshold. The second
one begins an epoch all the same, and the end of the first is on record. -/
theorem endless_rotates_at_once :
    let ann := after .plain (plain endless "ann" 1) [meetPlain "bob" 3]
    let ops : List Operation := [.send "bob" .basic [1], .send "bob" .basic [2]]
    let between := after .plain ann (ops.take 1)
    let places := ((during .plain ann ops).written "bob").map fun bytes =>
      (Envelope.decode endless.limits bytes).toOption.map fun e => (e.epoch, e.sequence)
    endless.validate = .ok () ∧ endless.rotation.interval.wholeMillis = UInt64.size ∧
      allReturn .plain (plain endless "ann" 1) (meetPlain "bob" 3 :: ops) = true ∧
      ((ann.pairs.sending "bob").current = none ∧ (ann.pairs.sending "bob").nextEpoch = 0) ∧
      ((between.pairs.sending "bob").current.map (·.createdAt) = some 0 ∧ between.now = 0) ∧
      places = [some (0, 1), some (1, 1)] ∧
      (1 / endless.rotation.threshold.toNat, 1 % endless.rotation.threshold.toNat + 1) = (0, 2) ∧
      (gainedDuring .plain ann ops).countP (·.isOf .keyRotated "ann" "bob") = 1 ∧
      ((after .plain ann ops).pairs.sending "bob").nextEpoch = 2 := by
  intro ann ops between places
  exact ⟨rfl, by decide, by decide +kernel, by decide +kernel, by decide +kernel, by decide +kernel,
    by decide, by decide +kernel, by decide +kernel⟩

end Device

end EndToEnd
