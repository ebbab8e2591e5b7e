import EndToEnd.Session.Outbound

/-!
# What can become of a sending side

Only a message takes a key from a sending side. Whatever else happens to it, its session stays as it
is or is taken away (`Outbound.Rests`). A message takes the next key of the session, or of a new one
under the next epoch number (`Outbound.Makes`); if it fails, no key is taken.

Main results:

* `Outbound.encrypt_cases` — an encryption either fails and the side rests, or it makes an envelope.
* `Session.encrypt_cases` — what the envelope of a message carries.
-/

namespace EndToEnd

-- ---------------------------------------------------------------------------
-- One session
-- ---------------------------------------------------------------------------

namespace Session

variable {P : Primitives} {own : Identity} {plaintext : Bytes} {s s' : Session}
  {random random' : RandomSource} {e : Envelope}

/-- **What a message takes from a session, and what its envelope carries:** the next key, the number
of that key in the nonce, and a signature of the whole at the levels that sign. -/
theorem encrypt_cases (h : s.encrypt P own plaintext random = .ok (e, s', random')) :
    s.ratchet.next ≠ UInt64.ofNat (UInt64.size - 1) ∧
      s' = { s with
        ratchet := ⟨(s.step P s.ratchet.chainKey).2, s.ratchet.next + 1⟩
        messages := s.messages + 1 } ∧
      e = signed P own (s.envelope P ⟨(s.step P s.ratchet.chainKey).1, s.ratchet.next⟩
        (nonce s.ratchet.next (random.draw s.level.suite.nonceSize).1) plaintext) := by
  unfold encrypt Ratchet.advance at h
  split at h
  · cases h
  · rename_i m ratchet hAdvance
    split at hAdvance
    · cases hAdvance
    · rename_i hNext
      cases hAdvance
      cases h
      exact ⟨hNext, rfl, rfl⟩

/-- Signing changes nothing but the signature. -/
theorem signed_eq (e : Envelope) :
    signed P own e = { e with signature := (signed P own e).signature } := by
  unfold signed
  split <;> rfl

@[simp] theorem sender_signed (e : Envelope) : (signed P own e).sender = e.sender := by
  rw [signed_eq]

@[simp] theorem recipient_signed (e : Envelope) : (signed P own e).recipient = e.recipient := by
  rw [signed_eq]

@[simp] theorem epoch_signed (e : Envelope) : (signed P own e).epoch = e.epoch := by
  rw [signed_eq]

@[simp] theorem sequence_signed (e : Envelope) : (signed P own e).sequence = e.sequence := by
  rw [signed_eq]

@[simp] theorem level_signed (e : Envelope) : (signed P own e).level = e.level := by
  rw [signed_eq]

@[simp] theorem ephemeral_signed (e : Envelope) : (signed P own e).ephemeral = e.ephemeral := by
  rw [signed_eq]

@[simp] theorem nonce_signed (e : Envelope) : (signed P own e).nonce = e.nonce := by
  rw [signed_eq]

@[simp] theorem ciphertext_signed (e : Envelope) : (signed P own e).ciphertext = e.ciphertext := by
  rw [signed_eq]

@[simp] theorem tag_signed (e : Envelope) : (signed P own e).tag = e.tag := by
  rw [signed_eq]

/-- A session that has just begun has a key for a message. -/
theorem exists_encrypt_eq_ok (P : Primitives) (own : Identity) (plaintext : Bytes)
    (random : RandomSource) (hNext : s.ratchet.next ≠ UInt64.ofNat (UInt64.size - 1)) :
    ∃ e s' random', s.encrypt P own plaintext random = .ok (e, s', random') := by
  unfold encrypt Ratchet.advance
  rw [if_neg hNext]
  exact ⟨_, _, _, rfl⟩

end Session

namespace Outbound

-- ---------------------------------------------------------------------------
-- Resting
-- ---------------------------------------------------------------------------

/-- A sending side from which no key was taken: its session is as it was or gone, and the next epoch
has the same number. -/
structure Rests (o o' : Outbound) : Prop where
  nextEpoch : o'.nextEpoch = o.nextEpoch
  current : ∀ session, o'.current = some session → o.current = some session

namespace Rests

theorem refl (o : Outbound) : Rests o o := ⟨rfl, fun _ h => h⟩

/-- No key was taken in two stretches in which none was. -/
theorem trans {o o' o'' : Outbound} (h : Rests o o') (h' : Rests o' o'') : Rests o o'' :=
  ⟨h'.nextEpoch.trans h.nextEpoch, fun session hs => h.current session (h'.current session hs)⟩

theorem cleared (o : Outbound) : Rests o o.cleared := ⟨rfl, fun _ h => nomatch h⟩

/-- Barring a side. -/
theorem barred (o : Outbound) : Rests o { o.cleared with isRevoked := true } :=
  ⟨rfl, fun _ h => nomatch h⟩

end Rests

variable (s : Setting)

/-- Asking for an establishment takes no key. -/
theorem rests_request (now : UInt64) (o : Outbound) : Rests o (o.request now).2 := by
  unfold request
  split
  · exact .refl o
  · exact ⟨rfl, fun _ h => h⟩

theorem rests_timeOut (peer : String) (w : Work Outbound) : Rests w.part (timeOut s peer w).part :=
  ⟨rfl, fun _ h => h⟩

/-- Ending the session in use takes no key. -/
theorem rests_expireCurrent (w : Work Outbound) : Rests w.part (expireCurrent s w).2.part := by
  unfold expireCurrent
  split
  · exact .refl _
  · exact ⟨rfl, fun _ h => nomatch h⟩

/-- A rotation takes no key. -/
theorem rests_rotate (peer : String) (reason : Rotation.Reason) (w : Work Outbound) :
    Rests w.part (rotate s peer reason w).2.part := by
  have h := rests_expireCurrent s w
  unfold rotate
  split <;> simp_all

/-- A rotation bars nothing. -/
theorem isRevoked_rotate (peer : String) (reason : Rotation.Reason) (w : Work Outbound) :
    (rotate s peer reason w).2.part.isRevoked = w.part.isRevoked := by
  unfold rotate expireCurrent
  cases w.part.current <;> rfl

/-- Before a message, the session is the one it was, and fits the message, or there is none. -/
theorem rotateIfDue_cases (peer : String) (level : Level) (w : Work Outbound) :
    (∃ session, w.part.current = some session ∧
        s.config.rotation.evaluate session.usage level s.now = none ∧
        rotateIfDue s peer level w = w) ∨
      ((rotateIfDue s peer level w).part.current = none ∧
        Rests w.part (rotateIfDue s peer level w).part ∧
        (rotateIfDue s peer level w).part.isRevoked = w.part.isRevoked) := by
  unfold rotateIfDue
  cases hCurrent : w.part.current with
  | none => exact .inr ⟨by simpa using hCurrent, by simpa using .refl _, rfl⟩
  | some session =>
    cases hDue : s.config.rotation.evaluate session.usage level s.now with
    | none => exact .inl ⟨session, rfl, hDue, by simp [hDue]⟩
    | some reason =>
      refine .inr ?_
      simp only [Option.bind_some, hDue]
      refine ⟨?_, rests_rotate s peer reason w, isRevoked_rotate s peer reason w⟩
      simp [rotate, expireCurrent, hCurrent]

-- ---------------------------------------------------------------------------
-- Making an envelope
-- ---------------------------------------------------------------------------

variable {P : Primitives} {s}

/-- What a message to a peer does to a sending side. -/
inductive Makes (P : Primitives) (s : Setting) (peer : Peer) (level : Level) (plaintext : Bytes)
    (o : Outbound) (e : Envelope) : Outbound → Prop where
  /-- The session fits the message, and its chain moves. -/
  | continues {session session' : Session} {random random' : RandomSource}
      (current : o.current = some session)
      (fits : s.config.rotation.evaluate session.usage level s.now = none)
      (made : session.encrypt P s.own plaintext random = .ok (e, session', random')) :
      Makes P s peer level plaintext o e { o with current := some session' }
  /-- A session begins for the message, and with it an epoch. -/
  | begins {session session' : Session} {ephemeral : Key} {random random' : RandomSource}
      (begun : beginSession P s peer level o.nextEpoch ephemeral = .ok session)
      (made : session.encrypt P s.own plaintext random = .ok (e, session', random')) :
      Makes P s peer level plaintext o e { o with
        current := some session', expiring := [], nextEpoch := o.nextEpoch + 1,
        requestedAt := none }

/-- The session for the next message of a side that has none. -/
theorem establish_cases {peer : Peer} {level : Level} {w w' : Work Outbound}
    {result : Except Failure Session} (h : establish P s peer level w = (result, w')) :
    (∃ failure, result = .error failure ∧
        w'.part = { w.part with requestedAt := none }) ∨
      ∃ session, result = .ok session ∧
        (∃ ephemeral, beginSession P s peer level w.part.nextEpoch ephemeral = .ok session) ∧
        w'.part = { w.part with
          current := some session, expiring := [], nextEpoch := w.part.nextEpoch + 1,
          requestedAt := none } := by
  dsimp only [establish] at h
  split at h
  · cases h
    exact .inl ⟨_, rfl, rfl⟩
  · rename_i session hBegun
    cases h
    exact .inr ⟨session, rfl, ⟨_, hBegun⟩, by rw [Work.part_retireAll]; rfl⟩

/-- A session that begins is at its start. -/
theorem beginSession_eq_ok {peer : Peer} {level : Level} {epoch : UInt64} {ephemeral : Key}
    {session : Session} (h : beginSession P s peer level epoch ephemeral = .ok session) :
    ∃ keys, EpochKeys.initiateWith P level.suite ephemeral s.own.keys.encryption.bytes
        peer.keys.encryption ⟨s.own.deviceId, peer.deviceId, epoch, level⟩ = .ok keys ∧
      session = .begin ⟨s.own.deviceId, peer.deviceId, epoch, .outbound⟩ level keys.key
        keys.ephemeral s.now := by
  dsimp only [beginSession] at h
  split at h
  · cases h
  · rename_i keys hKeys
    cases h
    exact ⟨keys, hKeys, rfl⟩

/-- **An encryption** fails, and then the side rests, or it makes an envelope. -/
theorem encrypt_cases {peer : Peer} {level : Level} {plaintext : Bytes} {w w' : Work Outbound}
    {result : Except Failure Envelope} (h : encrypt P s peer level plaintext w = (result, w')) :
    (∃ failure, result = .error failure ∧ Rests w.part w'.part) ∨
      ∃ e, result = .ok e ∧ w.part.isRevoked = false ∧
        Makes P s peer level plaintext w.part e w'.part := by
  unfold encrypt at h
  split at h
  · -- the side was closed by a revocation
    cases h
    exact .inl ⟨_, rfl, .refl _⟩
  rename_i hOpen
  rw [Bool.not_eq_true] at hOpen
  split at h
  · -- an establishment has run out of time
    cases h
    exact .inl ⟨_, rfl, rests_timeOut s peer.deviceId w⟩
  unfold ready at h
  rcases rotateIfDue_cases s peer.deviceId level w with
    ⟨session, hCurrent, hFits, hSame⟩ | ⟨hNone, hRests, hBarred⟩
  · -- the session fits
    simp only [hSame, hCurrent] at h
    split at h
    · -- the numbers of the epoch are used up
      cases h
      exact .inl ⟨_, rfl, .refl _⟩
    · rename_i hMade
      cases h
      exact .inr ⟨_, rfl, hOpen, .continues hCurrent hFits hMade⟩
  · -- a session begins
    generalize rotateIfDue s peer.deviceId level w = w₁ at h hNone hRests hBarred
    simp only [hNone] at h
    split at h
    · rename_i w₂ hFailed
      -- the key agreement has failed, and nothing has begun
      cases h
      rcases establish_cases hFailed with ⟨failure, -, hPart⟩ | ⟨session, hOk, -⟩
      · refine .inl ⟨_, rfl, hRests.trans ?_⟩
        rw [hPart]
        exact ⟨rfl, fun _ h => h⟩
      · cases hOk
    · rename_i session w₂ hBegun
      rcases establish_cases hBegun with ⟨failure, hFail, -⟩ |
        ⟨begun, hOk, ⟨ephemeral, hSession⟩, hPart⟩
      · cases hFail
      · cases hOk
        rw [hRests.nextEpoch] at hSession
        obtain ⟨keys, -, hStart⟩ := beginSession_eq_ok hSession
        -- a chain begins at one, so that a first envelope is always made
        have hNext : session.ratchet.next ≠ UInt64.ofNat (UInt64.size - 1) := by
          rw [hStart]
          show (1 : UInt64) ≠ _
          decide
        obtain ⟨e, session', random', hMade⟩ :=
          Session.exists_encrypt_eq_ok P s.own plaintext w₂.random hNext
        simp only [hMade] at h
        cases h
        refine .inr ⟨e, rfl, hOpen, ?_⟩
        have hFinal : { w₂.part with current := some session' } = { w.part with
            current := some session', expiring := [], nextEpoch := w.part.nextEpoch + 1,
            requestedAt := none } := by
          simp only [hPart, hBarred, hRests.nextEpoch]
        show Makes P s peer level plaintext w.part e { w₂.part with current := some session' }
        rw [hFinal]
        exact .begins hSession hMade

end Outbound

end EndToEnd
