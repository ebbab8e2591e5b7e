import EndToEnd.Proofs.SinkMoods
import EndToEnd.Proofs.Sweeps
import EndToEnd.Proofs.Waiting

/-!
# Sends without sweeps

A session that sends ends in two ways when its time is over: a sweep ends it by the index, or the
next message looks at its age and ends it then. Between the two a device that sweeps has no session
where one that does not keeps an old one. Nothing of this shows in what is sent.

Two devices are kept together by `Device.OnPar`: they know the same, draw the same random bytes, and
on every sending side the sessions whose time is not over are the same (`Outbound.OnPar`). A sweep
of one of them takes away only what is over; a message brings both to the same session, and
everything else does the same to both.

Main results:

* `Outbound.concur_encrypt_of_onPar` — a message.
* `Outbound.OnPar.swept` — a sweep of one of the two.
* `Device.OnPar.step`, `Device.OnPar.unswept` — an operation, and a run without its sweeps.
* `Device.sends_agree` — two runs that differ in their sweeps.
-/

namespace EndToEnd

instance (p : Rotation.Policy) (created now : UInt64) : Decidable (p.Over created now) :=
  inferInstanceAs (Decidable (_ ≤ _))

/-- Whether an operation is a sweep. -/
def Operation.isSweep : Operation → Bool
  | maintain _ => true
  | _ => false

/-- Whether an operation sends a message. -/
def Operation.isSend : Operation → Bool
  | send .. => true
  | _ => false

-- ---------------------------------------------------------------------------
-- One sending side
-- ---------------------------------------------------------------------------

namespace Outbound

/-- The session that sends, if its time is not over. -/
def standing (p : Rotation.Policy) (now : UInt64) (o : Outbound) : Option Session :=
  o.current.filter fun session => !p.Over session.createdAt now

/-- Two sending sides with nothing asked for. Their session is the same if its time is not over. -/
structure OnPar (p : Rotation.Policy) (now : UInt64) (o o' : Outbound) : Prop where
  standing : o'.standing p now = o.standing p now
  nextEpoch : o'.nextEpoch = o.nextEpoch
  isRevoked : o'.isRevoked = o.isRevoked
  unasked : o.requestedAt = none
  unasked' : o'.requestedAt = none

variable {p : Rotation.Policy} {now now' : UInt64} {o o' : Outbound}

theorem OnPar.refl (h : o.requestedAt = none) : OnPar p now o o := ⟨rfl, rfl, rfl, h, h⟩

/-- Of the sessions that are not over now, some are over later. -/
theorem standing_later (hLater : now ≤ now') (o : Outbound) :
    o.standing p now' =
      (o.standing p now).filter fun session => !p.Over session.createdAt now' := by
  unfold standing
  rw [Option.filter_filter]
  congr 1
  funext session
  by_cases hOver : p.Over session.createdAt now
  · simp [hOver.later hLater]
  · simp [hOver]

/-- Sides that are on a par stay so as the clock goes on: more sessions are over, on both. -/
theorem OnPar.later (h : OnPar p now o o') (hLater : now ≤ now') : OnPar p now' o o' := by
  refine ⟨?_, h.nextEpoch, h.isRevoked, h.unasked, h.unasked'⟩
  rw [standing_later hLater, standing_later hLater, h.standing]

/-- Both have no session any more. -/
theorem OnPar.ended (h : OnPar p now o o') {v v' : Outbound} (hNone : v.current = none)
    (hNone' : v'.current = none) (hNext : v.nextEpoch = o.nextEpoch)
    (hNext' : v'.nextEpoch = o'.nextEpoch) (hBarred : v'.isRevoked = v.isRevoked)
    (hUnasked : v.requestedAt = none) (hUnasked' : v'.requestedAt = none) : OnPar p now v v' := by
  refine ⟨?_, hNext'.trans (h.nextEpoch.trans hNext.symm), hBarred, hUnasked, hUnasked'⟩
  unfold Outbound.standing
  rw [hNone, hNone']

/-- **A sweep of one side** takes nothing from it but what is over. -/
theorem OnPar.swept {c : Config} {time : UInt64} (h : OnPar c.rotation now o o')
    (hTime : time ≤ now) (hLast : time ≠ Device.lastNumber) :
    OnPar c.rotation now (o.swept c time) o' := by
  have hStanding : (o.swept c time).standing c.rotation now = o.standing c.rotation now := by
    show (o.current.filter _).filter _ = o.current.filter _
    rw [Option.filter_filter]
    congr 1
    funext session
    cases hAged : session.hasAged c.rotation time with
    | false => simp [hAged]
    | true =>
      have hDue : c.rotation.expiry session.createdAt ≤ time :=
        of_decide_eq_true (Bool.and_eq_true_iff.1 hAged).2
      simp [(Rotation.Policy.over_of_expiry_le hDue hLast).later hTime]
  refine ⟨h.standing.trans hStanding.symm, h.nextEpoch, h.isRevoked, ?_, h.unasked'⟩
  show (if o.isOverdue c.establishmentTimeout time then none else o.requestedAt) = none
  rw [h.unasked, ite_self]

-- ---------------------------------------------------------------------------
-- A message
-- ---------------------------------------------------------------------------

/-- Work on two sides with the same session and the same random bytes. What has ended before may
differ, and the index. -/
structure InStep (w w' : Work Outbound) : Prop where
  current : w'.part.current = w.part.current
  nextEpoch : w'.part.nextEpoch = w.part.nextEpoch
  isRevoked : w'.part.isRevoked = w.part.isRevoked
  unasked : w.part.requestedAt = none
  unasked' : w'.part.requestedAt = none
  random : w'.random = w.random

variable {w w' : Work Outbound} (s : Setting)

/-- Sides in step are on a par at any time. -/
theorem InStep.onPar (h : InStep w w') : OnPar p now w.part w'.part :=
  ⟨congrArg (Option.filter _) h.current, h.nextEpoch, h.isRevoked, h.unasked, h.unasked'⟩

/-- **Before a message,** what is left is the session that fits it, if it is there. -/
theorem current_rotateIfDue (peer : String) (level : Level) (w : Work Outbound) :
    (rotateIfDue s peer level w).part.current = w.part.current.filter fun session =>
      (s.config.rotation.evaluate session.usage level s.now).isNone := by
  unfold rotateIfDue
  cases hCurrent : w.part.current with
  | none => simpa using hCurrent
  | some session =>
    cases hDue : s.config.rotation.evaluate session.usage level s.now with
    | none => simp [hCurrent, hDue, Option.filter_some]
    | some reason => simp [rotate, expireCurrent, hCurrent, hDue, Option.filter_some]

/-- A rotation draws nothing. -/
theorem random_rotateIfDue (peer : String) (level : Level) (w : Work Outbound) :
    (rotateIfDue s peer level w).random = w.random ∧
      (rotateIfDue s peer level w).part.requestedAt = w.part.requestedAt := by
  unfold rotateIfDue
  split
  · unfold rotate expireCurrent
    cases w.part.current <;> exact ⟨rfl, rfl⟩
  · exact ⟨rfl, rfl⟩

/-- A session that fits a message is not over. -/
theorem filter_standing (level : Level) (o : Outbound) :
    ((o.standing s.config.rotation s.now).filter fun session =>
        (s.config.rotation.evaluate session.usage level s.now).isNone) =
      o.current.filter fun session =>
        (s.config.rotation.evaluate session.usage level s.now).isNone := by
  unfold standing
  rw [Option.filter_filter]
  congr 1
  funext session
  cases hFits : s.config.rotation.evaluate session.usage level s.now with
  | some reason => simp
  | none =>
    have hYoung : ¬s.config.rotation.Over session.createdAt s.now :=
      (Rotation.Policy.of_evaluate_eq_none hFits).2.2
    simp [hYoung]

/-- **Before a message, both come to the same session.** -/
theorem OnPar.inStep (h : OnPar s.config.rotation s.now w.part w'.part)
    (hRandom : w'.random = w.random) (peer : String) (level : Level) :
    InStep (rotateIfDue s peer level w) (rotateIfDue s peer level w') := by
  have hSide (w : Work Outbound) : (rotateIfDue s peer level w).part.nextEpoch = w.part.nextEpoch ∧
      (rotateIfDue s peer level w).part.isRevoked = w.part.isRevoked := by
    rcases rotateIfDue_cases s peer level w with ⟨_, -, -, hSame⟩ | ⟨-, hRests, hBarred⟩
    · rw [hSame]
      exact ⟨rfl, rfl⟩
    · exact ⟨hRests.nextEpoch, hBarred⟩
  obtain ⟨hNext, hBarred⟩ := hSide w
  obtain ⟨hNext', hBarred'⟩ := hSide w'
  obtain ⟨hDrawn, hAsked⟩ := random_rotateIfDue s peer level w
  obtain ⟨hDrawn', hAsked'⟩ := random_rotateIfDue s peer level w'
  refine ⟨?_, hNext'.trans (h.nextEpoch.trans hNext.symm),
    hBarred'.trans (h.isRevoked.trans hBarred.symm), hAsked.trans h.unasked,
    hAsked'.trans h.unasked', hDrawn'.trans (hRandom.trans hDrawn.symm)⟩
  rw [current_rotateIfDue, current_rotateIfDue, ← filter_standing, ← filter_standing, h.standing]

variable (P : Primitives)

/-- A session begins in step, with one key and one draw. -/
theorem InStep.establish (h : InStep w w') (peer : Peer) (level : Level) :
    Concur InStep (establish P s peer level w) (establish P s peer level w') := by
  obtain ⟨⟨current, expiring, next, asked, barred⟩, deadlines, random, events⟩ := w
  obtain ⟨⟨current', expiring', next', asked', barred'⟩, deadlines', random', events'⟩ := w'
  obtain ⟨hCurrent, hNext, hBarred, -, -, hRandom⟩ := h
  obtain rfl : current' = current := hCurrent
  obtain rfl : next' = next := hNext
  obtain rfl : barred' = barred := hBarred
  obtain rfl : random' = random := hRandom
  unfold Outbound.establish
  dsimp only
  split
  · exact ⟨rfl, rfl, rfl, rfl, rfl, rfl, rfl⟩
  · refine ⟨rfl, ?_⟩
    constructor <;> simp only [Work.part_retireAll, Work.random_retireAll, Work.part_note]
    rfl

/-- A session is made ready in step, be it the one in use or a new one. -/
theorem InStep.ready (h : InStep w w') (peer : Peer) (level : Level) :
    Concur InStep (ready P s peer level w) (ready P s peer level w') := by
  unfold Outbound.ready
  rw [h.current]
  split
  · exact ⟨rfl, h⟩
  · exact h.establish s P peer level

/-- One envelope comes of one session. -/
theorem concur_encryptWith_of_inStep {x x' : Except Failure Session × Work Outbound}
    (h : Concur InStep x x') (plaintext : Bytes) :
    Concur InStep (encryptWith P s plaintext x) (encryptWith P s plaintext x') := by
  obtain ⟨found, v, v', rfl, rfl, hInStep⟩ := h.exists_eq
  cases found with
  | error failure => exact ⟨rfl, hInStep⟩
  | ok session =>
    unfold encryptWith
    dsimp only
    rw [hInStep.random]
    split
    · exact ⟨rfl, hInStep⟩
    · exact ⟨rfl, rfl, hInStep.nextEpoch, hInStep.isRevoked, hInStep.unasked, hInStep.unasked', rfl⟩

/-- Nothing that was asked for has run out. -/
theorem hasTimedOut_of_unasked (h : o.requestedAt = none) : o.hasTimedOut s = false := by
  unfold hasTimedOut
  rw [h, Option.any_none, Bool.and_false]

/-- Work on two sides on a par, with the same random bytes. -/
structure OnParWork (w w' : Work Outbound) : Prop where
  part : OnPar s.config.rotation s.now w.part w'.part
  random : w'.random = w.random

/-- **A message is the same from both.** -/
theorem concur_encrypt_of_onPar (h : OnParWork s w w') (peer : Peer) (level : Level)
    (plaintext : Bytes) :
    Concur (OnParWork s) (encrypt P s peer level plaintext w)
      (encrypt P s peer level plaintext w') := by
  by_cases hBarred : w.part.isRevoked = true
  · unfold encrypt
    rw [h.part.isRevoked, if_pos hBarred, if_pos hBarred]
    exact ⟨rfl, h⟩
  rw [Bool.not_eq_true] at hBarred
  rw [encrypt_eq_encryptWith hBarred (hasTimedOut_of_unasked s h.part.unasked),
    encrypt_eq_encryptWith (h.part.isRevoked.trans hBarred)
      (hasTimedOut_of_unasked s h.part.unasked')]
  have hReady := (h.part.inStep s h.random peer.deviceId level).ready s P peer level
  obtain ⟨hAnswer, hInStep⟩ := concur_encryptWith_of_inStep s P hReady plaintext
  exact ⟨hAnswer, hInStep.onPar, hInStep.random⟩

end Outbound

-- ---------------------------------------------------------------------------
-- All sending sides
-- ---------------------------------------------------------------------------

namespace Pairs

/-- Work on sending sides that are on a par, with the same random bytes. -/
structure OnPar (p : Rotation.Policy) (now : UInt64) (w w' : Work Pairs) : Prop where
  sending : ∀ peer, Outbound.OnPar p now (w.part.sending peer) (w'.part.sending peer)
  random : w'.random = w.random

variable {p : Rotation.Policy} {now : UInt64} {w w' : Work Pairs} (s : Setting)

/-- **A message is the same from both.** -/
theorem concur_encrypt_of_onPar (P : Primitives) (h : OnPar s.config.rotation s.now w w')
    (peer : Peer) (level : Level) (plaintext : Bytes) :
    Concur (OnPar s.config.rotation s.now) (encrypt P s peer level plaintext w)
      (encrypt P s peer level plaintext w') := by
  let side (w : Work Pairs) : Work Outbound := w.withPart (w.part.sending peer.deviceId)
  have hSide : Outbound.OnParWork s (side w) (side w') := ⟨h.sending peer.deviceId, h.random⟩
  obtain ⟨hAnswer, hPart, hRandom⟩ :=
    Outbound.concur_encrypt_of_onPar s P hSide peer level plaintext
  refine ⟨hAnswer, fun other => ?_, hRandom⟩
  rw [sending_encrypt, sending_encrypt]
  split
  · exact hPart
  · exact h.sending other

/-- Where nothing was asked for, there is nothing to give up. -/
theorem checkEstablishment_of_unasked {peer : String}
    (h : (w.part.sending peer).requestedAt = none) :
    (checkEstablishment s peer w).1 = .ok () ∧
      (∀ other, (checkEstablishment s peer w).2.part.sending other = w.part.sending other) ∧
      (checkEstablishment s peer w).2.random = w.random := by
  unfold checkEstablishment onExistingOutbound
  split
  · have hInTime : (w.withPart (w.part.sending peer)).part.hasTimedOut s = false :=
      Outbound.hasTimedOut_of_unasked s h
    have hChecked (v : Work Outbound) (hv : v.part.hasTimedOut s = false) :
        (if v.part.hasTimedOut s then
          ((.error (.establishmentTimeout peer) : Except Failure Unit), Outbound.timeOut s peer v)
        else (.ok (), v)) = (.ok (), v) := if_neg (by simp [hv])
    refine ⟨congrArg Prod.fst (hChecked _ hInTime), fun other => ?_,
      congrArg (·.2.random) (hChecked _ hInTime)⟩
    rw [sending_onOutbound]
    split
    · rename_i hOther
      rw [hOther]
      exact congrArg (·.2.part) (hChecked _ hInTime)
    · rfl
  · exact ⟨rfl, fun _ => rfl, rfl⟩

/-- Nothing is waited for on either side, so nothing is given up. -/
theorem OnPar.checkEstablishment (h : OnPar p now w w') (peer : String) :
    Concur (OnPar p now) (checkEstablishment s peer w) (checkEstablishment s peer w') := by
  obtain ⟨hOk, hSending, hRandom⟩ := checkEstablishment_of_unasked s (h.sending peer).unasked
  obtain ⟨hOk', hSending', hRandom'⟩ := checkEstablishment_of_unasked s (h.sending peer).unasked'
  refine ⟨hOk'.trans hOk.symm, fun other => ?_, hRandom'.trans (h.random.trans hRandom.symm)⟩
  rw [hSending, hSending']
  exact h.sending other

/-- Behind a forced rotation, no session sends to the peer. -/
theorem sending_rotate (peer : String) (w : Work Pairs) :
    (∀ other, other ≠ peer → (rotate s peer w).2.part.sending other = w.part.sending other) ∧
      ((rotate s peer w).2.part.sending peer).current = none ∧
      ((rotate s peer w).2.part.sending peer).nextEpoch = (w.part.sending peer).nextEpoch ∧
      ((rotate s peer w).2.part.sending peer).isRevoked = (w.part.sending peer).isRevoked ∧
      ((rotate s peer w).2.part.sending peer).requestedAt = (w.part.sending peer).requestedAt ∧
      (rotate s peer w).2.random = w.random := by
  unfold rotate onExistingOutbound
  split
  · have hEnded (v : Work Outbound) : (Outbound.expireCurrent s v).2.part.current = none ∧
        (Outbound.expireCurrent s v).2.part.nextEpoch = v.part.nextEpoch ∧
        (Outbound.expireCurrent s v).2.part.isRevoked = v.part.isRevoked ∧
        (Outbound.expireCurrent s v).2.part.requestedAt = v.part.requestedAt ∧
        (Outbound.expireCurrent s v).2.random = v.random := by
      unfold Outbound.expireCurrent
      split
      · exact ⟨‹_›, rfl, rfl, rfl, rfl⟩
      · exact ⟨rfl, rfl, rfl, rfl, rfl⟩
    refine ⟨fun other hOther => ?_, ?_⟩
    · rw [sending_onOutbound, if_neg hOther]
    · rw [sending_onOutbound, if_pos rfl]
      exact hEnded _
  · rename_i hNone
    refine ⟨fun _ _ => rfl, ?_, rfl, rfl, rfl, rfl⟩
    show (w.part.sending peer).current = none
    unfold sending
    rw [Option.not_isSome_iff_eq_none.1 hNone]
    rfl

/-- A forced rotation ends the session on both sides, or the one session that is left. -/
theorem OnPar.rotate (h : OnPar p now w w') (peer : String) :
    OnPar p now (rotate s peer w).2 (rotate s peer w').2 := by
  obtain ⟨hOthers, hNone, hNext, hBarred, hAsked, hRandom⟩ := sending_rotate s peer w
  obtain ⟨hOthers', hNone', hNext', hBarred', hAsked', hRandom'⟩ := sending_rotate s peer w'
  have hPeer := h.sending peer
  refine ⟨fun other => ?_, hRandom'.trans (h.random.trans hRandom.symm)⟩
  by_cases hOther : other = peer
  · subst hOther
    exact hPeer.ended hNone hNone' hNext hNext'
      (hBarred'.trans (hPeer.isRevoked.trans hBarred.symm)) (hAsked.trans hPeer.unasked)
      (hAsked'.trans hPeer.unasked')
  · rw [hOthers other hOther, hOthers' other hOther]
    exact h.sending other

/-- A revocation clears both sides. -/
theorem OnPar.revoke (h : OnPar p now w w') (peer : String) :
    OnPar p now (revoke s peer w).2 (revoke s peer w').2 := by
  obtain ⟨-, hDrops⟩ := drops_revoke s peer w
  obtain ⟨-, hDrops'⟩ := drops_revoke s peer w'
  refine ⟨fun other => ?_, hDrops'.random.trans (h.random.trans hDrops.random.symm)⟩
  rw [hDrops.sending, hDrops'.sending]
  split
  · exact (h.sending peer).ended rfl rfl rfl rfl rfl rfl rfl
  · exact h.sending other

/-- Closing clears both. -/
theorem OnPar.shutdown (h : OnPar p now w w') :
    OnPar p now (shutdown s w).2 (shutdown s w').2 := by
  have hClosed := closed_shutdown s w
  have hClosed' := closed_shutdown s w'
  refine ⟨fun peer => ?_, hClosed'.random.trans (h.random.trans hClosed.random.symm)⟩
  rw [hClosed.sending, hClosed'.sending]
  exact (h.sending peer).ended rfl rfl rfl rfl (h.sending peer).isRevoked rfl rfl

/-- Raising counters asks for nothing. -/
theorem requestedAt_raiseCounters {p : Pairs} (h : ∀ peer, (p.sending peer).requestedAt = none)
    (counters : Table String UInt64) (peer : String) :
    ((p.raiseCounters counters).sending peer).requestedAt = none := by
  unfold raiseCounters
  refine List.foldlRecOn (motive := fun p : Pairs => ∀ peer, (p.sending peer).requestedAt = none)
    _ _ h (fun p hp e _ other => ?_) peer
  rw [sending_raiseCounter]
  split
  · exact hp e.1
  · exact hp other

/-- **A sweep of one of the two** leaves them on a par. -/
theorem OnPar.sweep {own : String} {may : String → Prop} (h : OnPar s.config.rotation now w w')
    (hSettled : Settled own may w) (hDated : Dated s.config.rotation w) (hTime : s.now ≤ now)
    (hLast : s.now ≠ Device.lastNumber) : OnPar s.config.rotation now (sweep s w).2 w' := by
  obtain ⟨-, hPart, hRandom⟩ := sweep_eq hSettled hDated
  refine ⟨fun peer => ?_, h.random.trans hRandom.symm⟩
  have hSwept : (Pairs.sweep s w).2.part.sending peer =
      (w.part.sending peer).swept s.config s.now ∨
        (Pairs.sweep s w).2.part.sending peer = w.part.sending peer := by
    rw [hPart]
    unfold Pairs.sending outbound? swept
    rw [Table.get?_mapValues]
    cases w.part.outbound.get? peer with
    | none => exact .inr rfl
    | some o => exact .inl rfl
  rcases hSwept with hSwept | hSame
  · rw [hSwept]
    exact (h.sending peer).swept hTime hLast
  · rw [hSame]
    exact h.sending peer

end Pairs

/-- Opening an envelope draws nothing. -/
theorem Inbound.random_decrypt (P : Primitives) (s : Setting) (sender : Peer) (e : Envelope)
    (w : Work Inbound) : (decrypt P s sender e w).2.random = w.random := by
  -- a session that ends takes no randomness with it
  have hExpire (w : Work Inbound) (epoch : UInt64) : (expire s w epoch).2.random = w.random := by
    unfold expire
    split
    · split <;> rfl
    · rfl
  have hAll : (expireAll s w).random = w.random := by
    unfold expireAll
    exact List.foldlRecOn (motive := fun v : Work Inbound => v.random = w.random) _ _ rfl
      fun v hv epoch _ => (hExpire v epoch).trans hv
  unfold decrypt
  split
  · rfl
  split
  · unfold continueEpoch
    split
    · split <;> rfl
    · rfl
  split
  · rfl
  unfold beginEpoch
  split
  · rfl
  split
  · rfl
  · exact hAll

-- ---------------------------------------------------------------------------
-- Two devices
-- ---------------------------------------------------------------------------

namespace Device

/-- Two devices that know the same and draw the same random bytes, with sending sides that are on a
par. What they receive with and what they have on record may differ. -/
structure OnPar (d d' : Device) : Prop where
  config : d'.config = d.config
  identity : d'.identity = d.identity
  contacts : d'.contacts = d.contacts
  roots : d'.roots = d.roots
  now : d'.now = d.now
  sessions : Pairs.OnPar d.config.rotation d.now d.work d'.work

/-- A device that differs in its log, in what it receives with, and in its index. -/
def SameButReceiving (d d' : Device) : Prop :=
  ∃ inbound deadlines log, d' =
    { d with pairs := { d.pairs with inbound := inbound }, deadlines := deadlines, audit := log }

variable {P : Primitives} {d d' d₁ d₁' : Device} {α : Type}

theorem SameButReceiving.refl (d : Device) : d.SameButReceiving d := ⟨_, _, _, rfl⟩

theorem SameButLog.receiving (h : d.SameButLog d₁) : d.SameButReceiving d₁ := by
  obtain ⟨log, rfl⟩ := h
  exact ⟨_, _, log, rfl⟩

/-- What is put on record changes the log only. -/
theorem sameButLog_recording (event : Audit.Event) (result : Except Failure α) (d : Device) :
    d.SameButLog (d.recording P event result).2 := by
  rw [recording_eq]
  exact sameButLog_record event d

/-- **Receiving** leaves alone what a device sends with. -/
theorem sameButReceiving_receive (bytes : Bytes) (d : Device) :
    d.SameButReceiving (d.receive P bytes).2 := by
  -- a refusal touches the log alone
  have hReject (sender : Option String) (failure : Failure) {d₁ : Device}
      (h : d.SameButReceiving d₁) : d.SameButReceiving (d₁.reject P sender failure).2 := by
    obtain ⟨-, hLog⟩ := reject_cases (P := P) sender failure d₁
    obtain ⟨_, _, _, rfl⟩ := h
    obtain ⟨log, hLog⟩ := hLog
    rw [hLog]
    exact ⟨_, _, _, rfl⟩
  unfold receive
  split
  · exact hReject none _ (.refl d)
  rename_i e _
  unfold receiveEnvelope
  split
  · exact hReject (some e.sender) _ (.refl d)
  rename_i sender _
  -- no randomness is drawn for reading
  have hOpened : d.SameButReceiving (d.onPairs P fun s => Pairs.decrypt P s sender e).2 := by
    have hRandom : (Pairs.decrypt P (d.setting d.now) sender e d.work).2.random = d.random :=
      Inbound.random_decrypt ..
    have hLeft : (d.onPairs P fun s => Pairs.decrypt P s sender e).2 =
        { d with
          pairs := { d.pairs with
            inbound := (Pairs.decrypt P (d.setting d.now) sender e d.work).2.part.inbound }
          deadlines := (Pairs.decrypt P (d.setting d.now) sender e d.work).2.deadlines
          random := (Pairs.decrypt P (d.setting d.now) sender e d.work).2.random
          audit := d.audit.appendAll P
            (Pairs.decrypt P (d.setting d.now) sender e d.work).2.events d.now } := rfl
    rw [hLeft, hRandom]
    exact ⟨_, _, _, rfl⟩
  split
  · rename_i failure d₁ hWork
    rw [hWork] at hOpened
    exact hReject (some e.sender) failure hOpened
  · rename_i plaintext d₁ hWork
    rw [hWork] at hOpened
    exact hOpened

namespace OnPar

/-- Each of the two goes on without touching what it sends with. -/
theorem aside (h : OnPar d d') (hLeft : d.SameButReceiving d₁) (hRight : d'.SameButReceiving d₁') :
    OnPar d₁ d₁' := by
  obtain ⟨_, _, _, rfl⟩ := hLeft
  obtain ⟨_, _, _, rfl⟩ := hRight
  exact ⟨h.config, h.identity, h.contacts, h.roots, h.now, h.sessions.sending, h.sessions.random⟩

/-- Logs may go apart. -/
theorem log (h : OnPar d d') (hLeft : d.SameButLog d₁) (hRight : d'.SameButLog d₁') :
    OnPar d₁ d₁' := h.aside hLeft.receiving hRight.receiving

/-- Devices on a par have one id. -/
theorem id (h : OnPar d d') : d'.id = d.id := congrArg Identity.deviceId h.identity

/-- Devices on a par work in one setting. -/
theorem setting (h : OnPar d d') : d'.setting d'.now = d.setting d.now := by
  unfold Device.setting
  rw [h.identity, h.config, h.now]

/-- Work on the sessions of both. -/
theorem onPairs (h : OnPar d d') (op : Setting → Work Pairs → α × Work Pairs)
    (hOp : Pairs.OnPar d.config.rotation d.now (op (d.setting d.now) d.work).2
      (op (d.setting d.now) d'.work).2) :
    OnPar (d.onPairs P op).2 (d'.onPairs P op).2 := by
  have hSessions : Pairs.OnPar d.config.rotation d.now (op (d.setting d.now) d.work).2
      (op (d'.setting d'.now) d'.work).2 := by
    rw [h.setting]
    exact hOp
  exact ⟨h.config, h.identity, h.contacts, h.roots, h.now, hSessions.sending, hSessions.random⟩

/-- **Work on the pairs that keeps sides on a par keeps devices on a par,** with one result. -/
theorem concur_onPairs (h : OnPar d d') (op : Setting → Work Pairs → α × Work Pairs)
    (hOp : Concur (Pairs.OnPar d.config.rotation d.now) (op (d.setting d.now) d.work)
      (op (d.setting d.now) d'.work)) :
    Concur OnPar (d.onPairs P op) (d'.onPairs P op) := by
  have hAnswer : (op (d'.setting d'.now) d'.work).1 = (op (d.setting d.now) d'.work).1 :=
    congrArg (fun s => (op s d'.work).1) h.setting
  exact ⟨hAnswer.trans hOp.answer, h.onPairs op hOp.states⟩

/-- **Both send the same.** -/
theorem send (h : OnPar d d') (peer : String) (level : Level) (plaintext : Bytes) :
    Concur OnPar (d.send P peer level plaintext) (d'.send P peer level plaintext) := by
  unfold Device.send refuseUnknown sendTo
  rw [h.contacts, h.config]
  split
  · -- not on file
    obtain ⟨checked, d₁, d₁', hd, hd', hOnPar⟩ :=
      (h.concur_onPairs (P := P) (fun s => Pairs.checkEstablishment s peer)
        (h.sessions.checkEstablishment _ peer)).exists_eq
    rw [hd, hd']
    cases checked with
    | error failure => exact ⟨rfl, hOnPar⟩
    | ok _ => exact ⟨rfl, hOnPar.log (sameButLog_note _ _) (sameButLog_note _ _)⟩
  · rename_i record _
    split
    · exact ⟨rfl, h.log (sameButLog_note _ _) (sameButLog_note _ _)⟩
    split
    · exact ⟨rfl, h.log (sameButLog_note _ _) (sameButLog_note _ _)⟩
    -- the sending sides agree, so the same envelope is made
    have hMade :=
      Pairs.concur_encrypt_of_onPar (d.setting d.now) P h.sessions record level plaintext
    obtain ⟨made, d₁, d₁', hd, hd', hOnPar⟩ := (h.concur_onPairs (P := P)
      (fun s => Pairs.encrypt P s record level plaintext) hMade).exists_eq
    rw [hd, hd']
    cases made with
    | error failure => exact ⟨rfl, hOnPar⟩
    | ok e => exact ⟨congrArg (fun c : Config => e.encode c.limits) hOnPar.config, hOnPar⟩

/-- Meeting a peer looks at nothing in which the two differ. -/
theorem remember (h : OnPar d d') (name : String) (keys : PublicKeys) :
    OnPar (d.remember P name keys).2 (d'.remember P name keys).2 := by
  unfold Device.remember
  rw [h.contacts, h.id, h.now]
  split
  · exact ⟨h.config, h.identity, rfl, h.roots, rfl, h.sessions.sending, h.sessions.random⟩
  · rename_i other _
    exact h.log (sameButLog_recording _ (.error (.keyMismatch other)) d)
      (sameButLog_recording _ (.error (.keyMismatch other)) d')
  · exact h

/-- Importing a bundle looks at nothing in which the two differ. -/
theorem importBundle (h : OnPar d d') (text : Bytes) :
    OnPar (d.importBundle P text).2 (d'.importBundle P text).2 := by
  unfold Device.importBundle
  split
  · exact h
  split
  · exact h
  exact h.remember ..

/-- Both assess evidence in the same way. -/
theorem verify (h : OnPar d d') (name : String) (evidence : Evidence) :
    OnPar (d.verify P name evidence).2 (d'.verify P name evidence).2 := by
  unfold Device.verify
  rw [h.contacts, h.roots]
  split
  · exact h
  rename_i peer _
  split
  · exact h.log (sameButLog_recording _ (.ok peer.trust) d)
      (sameButLog_recording _ (.ok peer.trust) d')
  rename_i proposed _
  have hMoved : OnPar
      { d with contacts := d.contacts.update name d.now (evidence.apply proposed) }
      { d' with contacts := d.contacts.update name d'.now (evidence.apply proposed) } :=
    ⟨h.config, h.identity, by rw [h.now], h.roots, h.now, h.sessions.sending, h.sessions.random⟩
  dsimp only
  split
  · rw [h.roots] at hMoved
    exact hMoved
  · rw [h.roots] at hMoved
    exact hMoved.log (sameButLog_recording _ (.ok (peer.trust.merge proposed)) _)
      (sameButLog_recording _ (.ok (peer.trust.merge proposed)) _)

/-- A peer that becomes revoked loses the session in both. -/
theorem applyEvidence (h : OnPar d d') (name : String) (evidence : Evidence) :
    OnPar (d.applyEvidence P name evidence).2 (d'.applyEvidence P name evidence).2 := by
  have hVerified := h.verify (P := P) name evidence
  unfold Device.applyEvidence
  generalize d.verify P name evidence = x at *
  generalize d'.verify P name evidence = x' at *
  obtain ⟨result, d₁⟩ := x
  obtain ⟨result', d₁'⟩ := x'
  dsimp only at *
  unfold isRevoked
  rw [hVerified.contacts]
  split
  · exact hVerified.onPairs (fun s => Pairs.revoke s name) (hVerified.sessions.revoke _ name)
  · exact hVerified

/-- Vouching for a peer looks at nothing in which the two differ. -/
theorem crossSignPeer (h : OnPar d d') (name : String) :
    OnPar (d.crossSignPeer P name).2 (d'.crossSignPeer P name).2 := by
  have hSame : d'.crossSign P name = d.crossSign P name := by
    unfold crossSign
    rw [h.contacts, h.identity]
  unfold Device.crossSignPeer
  rw [hSame]
  split
  · exact h
  · exact h.applyEvidence ..

/-- **A forced rotation** takes the session from both, if there is one. -/
theorem rotate (h : OnPar d d') (peer : String) :
    OnPar (d.rotate P peer).2 (d'.rotate P peer).2 := by
  have hLog (d : Device) : (d.onPairs P fun s => Pairs.rotate s peer).2.SameButLog
      (d.rotate P peer).2 := by
    unfold Device.rotate
    split
    · rename_i d₁ hRotated
      rw [hRotated]
      exact ⟨_, rfl⟩
    · rename_i epoch d₁ hRotated
      rw [hRotated]
      exact sameButLog_recording _ (.ok (some epoch)) d₁
  exact (h.onPairs (fun s => Pairs.rotate s peer) (h.sessions.rotate _ peer)).log (hLog d) (hLog d')

/-- Closing looks at nothing in which the two differ. -/
theorem shutdown (h : OnPar d d') : OnPar (d.shutdown P).2 (d'.shutdown P).2 := by
  rw [shutdown_eq, shutdown_eq]
  exact (h.onPairs Pairs.shutdown (h.sessions.shutdown _)).log
    (sameButLog_flushAudit _) (sameButLog_flushAudit _)

/-- Saving looks at nothing in which the two differ: neither the index nor a session is saved. -/
theorem save (h : OnPar d d') (store : Store) (passphrase : String) :
    OnPar (d.save P store passphrase).2 (d'.save P store passphrase).2 := by
  have hRandom : d'.random = d.random := h.sessions.random
  rw [snd_save, snd_save, h.identity, h.config, hRandom]
  exact ⟨rfl, rfl, h.contacts, h.roots, h.now, h.sessions.sending, rfl⟩

/-- **A sweep of one of the two,** not ahead of its clock. -/
theorem maintain {may : String → Prop} {time : UInt64} (h : OnPar d d') (hSettled : d.Settled may)
    (hDated : d.Dated) (hTime : time ≤ d.now) (hLast : time ≠ lastNumber) :
    OnPar (d.maintain P time).2 d' := by
  have hSwept := h.sessions.sweep (d.setting time) hSettled hDated hTime hLast
  exact ⟨h.config, h.identity, h.contacts, h.roots, h.now, hSwept.sending, hSwept.random⟩

/-- The clock of both goes on. -/
theorem setClock (h : OnPar d d') {now : UInt64} (hLater : d.now ≤ now) :
    OnPar { d with now := now } { d' with now := now } :=
  ⟨h.config, h.identity, h.contacts, h.roots, rfl,
    fun peer => (h.sessions.sending peer).later hLater, h.sessions.random⟩

/-- **Whatever both are asked,** they stay on a par. -/
theorem step (h : OnPar d d') (op : Operation) (hAsked : ∀ peer, op ≠ .request peer)
    (hSweep : op.isSweep = false) (hClock : d.now ≤ (d.step P op).2.now) :
    OnPar (d.step P op).2 (d'.step P op).2 := by
  cases op with
  | send peer level plaintext => exact (h.send peer level plaintext).states
  | receive bytes => exact h.aside (sameButReceiving_receive ..) (sameButReceiving_receive ..)
  | remember name keys => exact h.remember ..
  | importBundle text => exact h.importBundle ..
  | verify name evidence => exact h.applyEvidence ..
  | revoke name reason => exact h.applyEvidence name (.revocation reason)
  | crossSignPeer name => exact h.crossSignPeer ..
  | addRoot name keys =>
    exact ⟨h.config, h.identity, h.contacts, congrArg (·.insert name keys) h.roots, h.now,
      h.sessions.sending, h.sessions.random⟩
  | rotate peer => exact h.rotate ..
  | request peer => exact absurd rfl (hAsked peer)
  | maintain now => cases hSweep
  | shutdown => exact h.shutdown
  | flushAudit => exact h.log (sameButLog_flushAudit d) (sameButLog_flushAudit d')
  | sweepAudit => exact h.log (sameButLog_sweepAudit d) (sameButLog_sweepAudit d')
  | save store passphrase => exact h.save ..
  | setClock now => exact h.setClock hClock
  | setSink isFull => exact h.log ⟨_, rfl⟩ ⟨_, rfl⟩

end OnPar

-- ---------------------------------------------------------------------------
-- Two runs
-- ---------------------------------------------------------------------------

/-- Operations that all return, by a clock that goes on and stops short of the last number. Nobody
asks for an establishment, and no sweep is ahead of the clock. -/
structure Punctual (P : Primitives) (d : Device) (ops : List Operation) : Prop where
  returns : allReturn P d ops = true
  clock : clockGoesOn P d ops = true
  early : (after P d ops).now ≠ lastNumber
  sweeps : sweepsInTime P d ops = true
  unasked : ∀ peer, .request peer ∉ ops

variable {start : Device} {history : History} {ops ops' : List Operation} {op : Operation}

/-- Behind the first of some punctual operations the rest is punctual. -/
theorem Punctual.rest (h : Punctual P d (op :: ops)) : Punctual P (d.step P op).2 ops where
  returns := (Bool.and_eq_true_iff.1 h.returns).2
  clock := (Bool.and_eq_true_iff.1 h.clock).2
  early := h.early
  sweeps := (Bool.and_eq_true_iff.1 h.sweeps).2
  unasked peer hMem := h.unasked peer (.tail _ hMem)

/-- A clock that stops short of the last number has not come to it before, nor has a sweep that is
not ahead of it. -/
theorem Punctual.time_ne (h : Punctual P d ops) {time : UInt64} (hTime : time ≤ d.now) :
    time ≠ lastNumber := by
  rintro rfl
  have hLe : lastNumber ≤ (after P d ops).now := UInt64.le_trans hTime (now_le_after h.clock)
  have hLe : UInt64.size - 1 ≤ (after P d ops).now.toNat := UInt64.le_iff_toNat_le.1 hLe
  have hLt : (after P d ops).now.toNat < UInt64.size := (after P d ops).now.toNat_lt
  exact h.early (UInt64.toNat_inj.1 (show (after P d ops).now.toNat = UInt64.size - 1 by omega))

/-- Nothing is asked for at the beginning. -/
theorem Starts.requestedAt (h : Starts P start) (peer : String) :
    (start.pairs.sending peer).requestedAt = none := by
  cases h with
  | created h =>
    obtain ⟨-, rfl⟩ := create_eq_ok h
    rfl
  | restored h =>
    obtain ⟨identity, d₀, hCreate, hMade⟩ := restore_eq_ok h
    obtain ⟨-, rfl⟩ := create_eq_ok hCreate
    rcases hMade with ⟨-, -, rfl⟩ | ⟨state, -, -, rfl⟩
    · rfl
    · exact Pairs.requestedAt_raiseCounters (fun _ => rfl) state.nextEpochs peer

/-- **Without its sweeps,** a run has the same sends. -/
theorem OnPar.unswept (h : OnPar d d') (hStart : Starts P start) (hRun : Run P start history d)
    (hOps : Punctual P d ops) :
    (during P d' (ops.filter fun op => !op.isSweep)).filter (·.1.isSend) =
      (during P d ops).filter (·.1.isSend) := by
  induction ops generalizing d d' history with
  | nil => rfl
  | cons op rest ih =>
    have hReturns : overruns P d op = false := by
      have hAll := (Bool.and_eq_true_iff.1 hOps.returns).1
      rwa [Bool.not_eq_true'] at hAll
    have hRest := hRun.step op hReturns
    cases hSweep : op.isSweep with
    | true =>
      -- only the one device sweeps, and this is no send
      cases op with
      | maintain time =>
        have hTime : time ≤ d.now := of_decide_eq_true (Bool.and_eq_true_iff.1 hOps.sweeps).1
        exact ih (h.maintain (hRun.settled hStart) (hRun.dated hStart) hTime (hOps.time_ne hTime))
          hRest hOps.rest
      | _ => cases hSweep
    | false =>
      have hStep := h.step (P := P) op (fun peer hAsked => hOps.unasked peer (hAsked ▸ .head _))
        hSweep (of_decide_eq_true (Bool.and_eq_true_iff.1 hOps.clock).1)
      have hLater := ih hStep hRest hOps.rest
      rw [List.filter_cons_of_pos (by simp [hSweep])]
      unfold during
      cases hSend : op.isSend with
      | false =>
        rw [List.filter_cons_of_neg (by simp [hSend]), List.filter_cons_of_neg (by simp [hSend])]
        exact hLater
      | true =>
        have hReply : (d'.step P op).1 = (d.step P op).1 := by
          cases op with
          | send peer level plaintext =>
            exact congrArg Reply.sent (h.send peer level plaintext).answer
          | _ => cases hSend
        rw [List.filter_cons_of_pos (by simp [hSend]), List.filter_cons_of_pos (by simp [hSend]),
          hLater, hReply]

/-- **Sweeps make no difference to what is sent.** A device that was created or restored is asked
two lists of operations that differ in their sweeps only. No establishment is asked for, no sweep is
ahead of the clock, and the clock goes on and stops short of the last number. Then both times every
send has the same answer, be it the bytes of the envelope or the failure.

What is asked returns: no counter passes `2 ^ 64 - 1`. -/
theorem sends_agree (hStart : Starts P start) (h : Punctual P start ops)
    (h' : Punctual P start ops')
    (hSame : (ops.filter fun op => !op.isSweep) = ops'.filter fun op => !op.isSweep) :
    (during P start ops).filter (·.1.isSend) = (during P start ops').filter (·.1.isSend) := by
  have hOnPar : OnPar start start :=
    ⟨rfl, rfl, rfl, rfl, rfl, fun peer => .refl (hStart.requestedAt peer), rfl⟩
  have hUnswept := hOnPar.unswept hStart .start h
  have hUnswept' := hOnPar.unswept hStart .start h'
  exact hUnswept.symm.trans ((congrArg (fun ops => (during P start ops).filter (·.1.isSend))
    hSame).trans hUnswept')

/-- Ann writes to Bob, a day later again, then at another level and behind a forced rotation. A day
later, and before the last letter, she may sweep. -/
def dailyLetters (sweeps : Bool) : List Operation :=
  let sweep (now : UInt64) : List Operation := if sweeps then [.maintain now] else []
  [meetPlain "bob" 3, .send "bob" .basic [1], .setClock 86400000] ++ sweep 86400000 ++
    [.send "bob" .basic [2], .send "bob" .military [3], .rotate "bob", .setClock 86700000] ++
    sweep 86700000 ++ [.send "bob" .military [4], .send "eve" .basic [5]]

/-- Ann's letters with her daily sweeps and without them. -/
theorem sends_agree_of_dailyLetters :
    let ann := plain .standard "ann" 1
    (after .plain ann ((dailyLetters true).take 4)).pairs.currentEpoch "bob" = none ∧
      (after .plain ann ((dailyLetters false).take 3)).pairs.currentEpoch "bob" = some 0 ∧
      ((during .plain ann (dailyLetters true)).written "bob").length = 4 ∧
      (during .plain ann (dailyLetters true)).filter (·.1.isSend) =
        (during .plain ann (dailyLetters false)).filter (·.1.isSend) := by
  intro ann
  have hPunctual (sweeps : Bool) : Punctual .plain ann (dailyLetters sweeps) := by
    refine ⟨?_, ?_, ?_, ?_, fun peer => ?_⟩
    · cases sweeps <;> decide +kernel
    · cases sweeps <;> decide +kernel
    · cases sweeps <;> decide +kernel
    · cases sweeps <;> decide +kernel
    · cases sweeps <;> simp [dailyLetters, meetPlain]
  exact ⟨by decide +kernel, by decide +kernel, by decide +kernel,
    sends_agree (plain_starts "ann" 1 rfl) (hPunctual true) (hPunctual false) (by decide +kernel)⟩

end Device

end EndToEnd
