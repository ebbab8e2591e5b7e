import EndToEnd.Session.Inbound

/-!
# What can become of a receiving side

Apart from an accepted envelope, nothing that happens to a receiving side gives it a key: its epochs
may end or be dropped, and no more (`Inbound.Wanes`). What an accepted envelope does is
`Inbound.Accepts`: it moves the chain of its epoch, or begins an epoch above all earlier ones.

Main results:

* `Inbound.decrypt_cases` — a decryption either fails and the side wanes, or it accepts.
* `Inbound.fst_decrypt_eq_ok_iff` — exactly when a decryption succeeds.
-/

namespace EndToEnd

-- ---------------------------------------------------------------------------
-- Ageing
-- ---------------------------------------------------------------------------

/-- A session as it was, or ended since. -/
def Session.Ages (s s' : Session) : Prop :=
  s' = s ∨ ∃ deadline, s.phase = .active ∧ s' = { s with phase := .expiring deadline }

namespace Session.Ages

theorem refl (s : Session) : s.Ages s := .inl rfl

/-- A session that ages twice has aged. -/
theorem trans {s s' s'' : Session} (h : s.Ages s') (h' : s'.Ages s'') : s.Ages s'' := by
  rcases h' with rfl | ⟨deadline, hActive, rfl⟩
  · exact h
  · rcases h with rfl | ⟨earlier, -, rfl⟩
    · exact .inr ⟨deadline, hActive, rfl⟩
    · cases hActive

/-- A session that ages keeps everything but its phase. -/
theorem eq {s s' : Session} (h : s.Ages s') : s' = { s with phase := s'.phase } := by
  rcases h with rfl | ⟨deadline, -, rfl⟩ <;> rfl

/-- To end is to age. -/
theorem expire (s : Session) (deadline : UInt64) : s.Ages (s.expire deadline) := by
  unfold Session.expire
  split
  · exact .inr ⟨deadline, ‹_›, rfl⟩
  · exact refl s

end Session.Ages

namespace Inbound

/-- An epoch lies behind if it is no later than the latest one that was accepted. -/
theorem isPast_iff {i : Inbound} {epoch : UInt64} :
    i.isPast epoch = true ↔ ∃ latest, i.latest = some latest ∧ epoch ≤ latest := by
  simp [isPast, Option.any_eq_true]

-- ---------------------------------------------------------------------------
-- Waning
-- ---------------------------------------------------------------------------

/-- A receiving side that has gained nothing: each epoch it has is one it had, and has at most
ended since. It is barred only if it was, or if `barring` holds. -/
structure Wanes (barring : Prop) (i i' : Inbound) : Prop where
  latest : i'.latest = i.latest
  kept : ∀ epoch s', i'.epochs.get? epoch = some s' → ∃ s, i.epochs.get? epoch = some s ∧ s.Ages s'
  barred : i'.isRevoked = true → i.isRevoked = true ∨ barring

namespace Wanes

theorem refl {barring : Prop} (i : Inbound) : Wanes barring i i where
  latest := rfl
  kept _ s' h := ⟨s', h, .refl s'⟩
  barred := .inl

theorem trans {barring : Prop} {i i' i'' : Inbound} (h : Wanes barring i i')
    (h' : Wanes barring i' i'') : Wanes barring i i'' where
  latest := h'.latest.trans h.latest
  kept epoch s'' hs'' := by
    obtain ⟨s', hs', hAged'⟩ := h'.kept epoch s'' hs''
    obtain ⟨s, hs, hAged⟩ := h.kept epoch s' hs'
    exact ⟨s, hs, hAged.trans hAged'⟩
  barred hr := by
    rcases h'.barred hr with hr' | hb
    · exact h.barred hr'
    · exact .inr hb

theorem mono {barring barring' : Prop} {i i' : Inbound} (h : Wanes barring i i')
    (hImp : barring → barring') : Wanes barring' i i' :=
  ⟨h.latest, h.kept, fun hr => (h.barred hr).imp_right hImp⟩

/-- Dropping an epoch. -/
theorem erase {barring : Prop} (i : Inbound) (epoch : UInt64) :
    Wanes barring i { i with epochs := i.epochs.erase epoch } where
  latest := rfl
  kept other s' h := by
    rw [Table.get?_erase] at h
    split at h
    · cases h
    · exact ⟨s', h, .refl s'⟩
  barred := .inl

/-- Putting a session back into its place after it has aged. -/
theorem insert {barring : Prop} {i : Inbound} {epoch : UInt64} {s s' : Session}
    (hs : i.epochs.get? epoch = some s) (hAged : s.Ages s') :
    Wanes barring i { i with epochs := i.epochs.insert epoch s' } where
  latest := rfl
  kept other t' h := by
    rw [Table.get?_insert] at h
    split at h
    · rename_i hOther
      cases h
      exact ⟨s, hOther ▸ hs, hAged⟩
    · exact ⟨t', h, .refl t'⟩
  barred := .inl

/-- Dropping all epochs. -/
theorem cleared {barring : Prop} (i : Inbound) : Wanes barring i i.cleared where
  latest := rfl
  kept _ _ h := by simp [Inbound.cleared] at h
  barred := .inl

end Wanes

/-- Ending one epoch. -/
theorem wanes_expire (s : Setting) (w : Work Inbound) (epoch : UInt64) :
    Wanes False w.part (expire s w epoch).2.part := by
  unfold expire
  split
  · rename_i session hSession
    split
    · exact .insert hSession (.expire ..)
    · exact .refl _
  · exact .refl _

/-- Ending every epoch. -/
theorem wanes_expireAll (s : Setting) (w : Work Inbound) :
    Wanes False w.part (expireAll s w).part := by
  unfold expireAll
  generalize w.part.epochs.keys = epochs
  induction epochs generalizing w with
  | nil => exact .refl _
  | cons epoch rest ih =>
    rw [List.foldl_cons]
    exact (wanes_expire s w epoch).trans (ih _)

-- ---------------------------------------------------------------------------
-- Accepting
-- ---------------------------------------------------------------------------

variable {P : Primitives}

/-- A session at its start is active and goes by the id of its place. -/
theorem beginSession_eq_ok {s : Setting} {sender : Peer} {e : Envelope} {session : Session}
    (h : beginSession P s sender e = .ok session) :
    session.id = ⟨s.own.deviceId, sender.deviceId, e.epoch, .inbound⟩ ∧
      session.phase = .active ∧ session.createdAt = s.now := by
  unfold beginSession at h
  dsimp only at h
  split at h
  · cases h
  · cases h
    exact ⟨rfl, rfl, rfl⟩

/-- What an accepted envelope does to a receiving side. -/
inductive Accepts (P : Primitives) (s : Setting) (sender : Peer) (e : Envelope) (plaintext : Bytes)
    (i : Inbound) : Inbound → Prop where
  /-- The epoch is known, and its chain moves. -/
  | continues {session session' : Session} (known : i.epochs.get? e.epoch = some session)
      (readable : session.canDecrypt s.now = true)
      (opened : session.decrypt P s.config.maxSkip e = .ok (plaintext, session')) :
      Accepts P s sender e plaintext i { i with epochs := i.epochs.insert e.epoch session' }
  /-- The epoch lies above all earlier ones; those have ended. -/
  | begins {session session' : Session} {aged : Inbound}
      (unknown : i.epochs.get? e.epoch = none) (above : i.isPast e.epoch = false)
      (begun : beginSession P s sender e = .ok session)
      (opened : session.decrypt P s.config.maxSkip e = .ok (plaintext, session'))
      (wanes : Wanes False i aged) :
      Accepts P s sender e plaintext i
        { aged with epochs := aged.epochs.insert e.epoch session', latest := some e.epoch }

/-- **A decryption** fails, and then the side has at most lost something, or it accepts. -/
theorem decrypt_cases {s : Setting} {sender : Peer} {e : Envelope} {w w' : Work Inbound}
    {result : Except Failure Bytes} (h : decrypt P s sender e w = (result, w')) :
    (∃ failure, result = .error failure ∧ Wanes False w.part w'.part) ∨
      ∃ plaintext, result = .ok plaintext ∧ w.part.isRevoked = false ∧
        Accepts P s sender e plaintext w.part w'.part := by
  unfold decrypt at h
  split at h
  · cases h
    exact .inl ⟨_, rfl, .refl _⟩
  · rename_i hOpen
    rw [Bool.not_eq_true] at hOpen
    split at h
    · -- the epoch is known
      rename_i session hKnown
      unfold continueEpoch at h
      split at h
      · rename_i hReadable
        split at h
        · cases h
          exact .inl ⟨_, rfl, .refl _⟩
        · rename_i hOpened
          cases h
          exact .inr ⟨_, rfl, hOpen, .continues hKnown hReadable hOpened⟩
      · cases h
        -- the session has run out, and is dropped
        exact .inl ⟨_, rfl, .erase ..⟩
    · -- the epoch is not known
      rename_i hUnknown
      split at h
      · cases h
        exact .inl ⟨_, rfl, .refl _⟩
      · rename_i hAbove
        rw [Bool.not_eq_true] at hAbove
        unfold beginEpoch at h
        split at h
        · cases h
          exact .inl ⟨_, rfl, .refl _⟩
        · rename_i session hBegun
          split at h
          · cases h
            exact .inl ⟨_, rfl, .refl _⟩
          · rename_i hOpened
            cases h
            exact .inr ⟨_, rfl, hOpen, .begins hUnknown hAbove hBegun hOpened (wanes_expireAll s w)⟩

/-- **When a decryption succeeds:** in an epoch that is known and can still be read, or in one above
all earlier ones, if the session there opens the envelope. -/
theorem fst_decrypt_eq_ok_iff {s : Setting} {sender : Peer} {e : Envelope} {w : Work Inbound}
    {plaintext : Bytes} :
    (decrypt P s sender e w).1 = .ok plaintext ↔
      w.part.isRevoked = false ∧
        ((∃ session, w.part.epochs.get? e.epoch = some session ∧
            session.canDecrypt s.now = true ∧
            ∃ session', session.decrypt P s.config.maxSkip e = .ok (plaintext, session')) ∨
          (w.part.epochs.get? e.epoch = none ∧ w.part.isPast e.epoch = false ∧
            ∃ session, beginSession P s sender e = .ok session ∧
              ∃ session', session.decrypt P s.config.maxSkip e = .ok (plaintext, session'))) := by
  constructor
  · intro h
    rcases hd : decrypt P s sender e w with ⟨result, w'⟩
    rw [hd] at h
    obtain rfl : result = .ok plaintext := h
    rcases decrypt_cases hd with ⟨failure, hFail, -⟩ | ⟨opened, hOk, hOpen, hAccepts⟩
    · cases hFail
    · cases hOk
      refine ⟨hOpen, ?_⟩
      generalize w'.part = i' at hAccepts
      cases hAccepts with
      | continues known readable opened => exact .inl ⟨_, known, readable, _, opened⟩
      | begins unknown above begun opened _ => exact .inr ⟨unknown, above, _, begun, _, opened⟩
  · rintro ⟨hOpen, ⟨session, hKnown, hReadable, session', hOpened⟩ |
      ⟨hUnknown, hAbove, session, hBegun, session', hOpened⟩⟩
    · simp [decrypt, hOpen, hKnown, continueEpoch, hReadable, hOpened]
    · simp [decrypt, hOpen, hUnknown, hAbove, beginEpoch, hBegun, hOpened]

end Inbound

end EndToEnd
