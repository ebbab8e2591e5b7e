import EndToEnd.Proofs.EnvelopeText
import EndToEnd.Proofs.EpochBinding
import EndToEnd.Proofs.Opening

/-!
# Both ends of an epoch

The two ends of an epoch find one key (`EpochKeys.initiateWith_eq`), and so both their sessions stand
on one chain of keys (`Session.OnChain`). What the sending session makes is `Envelope.Genuine`:
everything in it is what the receiving session expects.

Main results:

* `Session.genuine_of_encrypt` — what a session on the chain makes is genuine.
* `Envelope.Genuine.opens`, `Envelope.Genuine.authentic` — what is genuine decrypts at the other
  end, and passes as its sender's.
-/

namespace EndToEnd

variable {P : Primitives}

-- ---------------------------------------------------------------------------
-- What is genuine
-- ---------------------------------------------------------------------------

variable (P) in
/-- The key of an epoch for messages of `a` to `b`, as `b` finds it. -/
def sharedKey (a b : Identity) (epoch : UInt64) (level : Level) (ephemeral : Key) :
    Except CryptoFault Key :=
  EpochKeys.respond P level.suite b.keys.encryption.bytes (a.publicKeys P).encryption
    ephemeral.bytes
    ⟨a.deviceId, b.deviceId, epoch, level⟩

variable {a b : Identity} {s s' : Session} {e : Envelope} {plaintext : Bytes}
  {random random' : RandomSource}

variable (P a b) in
/-- A session on the chain of its epoch, at either end. -/
def Session.OnChain (s : Session) : Prop :=
  ∃ key, sharedKey P a b s.epoch s.level s.ephemeral = .ok key ∧
    Ratchet.Follows (s.step P) key s.ratchet

/-- A session on the chain is on the one that the receiver has. -/
theorem Session.onChain_iff : s.OnChain P a b ↔ s.Stands P b a.deviceId (a.publicKeys P) := Iff.rfl

variable (P a b) in
/-- What `a` makes for `b`, for a message of the epoch and the number that it carries. -/
structure Envelope.Genuine (e : Envelope) (plaintext : Bytes) : Prop where
  sender : e.sender = a.deviceId
  recipient : e.recipient = b.deviceId
  begun : e.sequence ≠ 0
  counted : e.sequence ≠ Device.lastNumber
  tells : e.NonceTells
  /-- The text is encrypted with the key that the chain has for the number. -/
  encrypted : ∃ key, sharedKey P a b e.epoch e.level e.ephemeral = .ok key ∧
    e.level.suite.encrypt P (Ratchet.messageKey (e.level.suite.ratchetStep P) key
      e.sequence) e.nonce
      plaintext e.associatedData = .ok ⟨e.ciphertext, e.tag⟩
  signed : e.signature =
    if e.level.suite.isSigned = true then some (a.sign P e.signingBytes) else none

theorem Envelope.Genuine.length_ciphertext (hP : P.Lawful) (h : e.Genuine P a b plaintext) :
    e.ciphertext.length = plaintext.length := by
  obtain ⟨key, -, hEncrypted⟩ := h.encrypted
  obtain ⟨-, hBox⟩ := Suite.encrypt_eq_ok_iff.1 hEncrypted
  have hLength := hP.length_encrypt e.level.suite.aead
    (Ratchet.messageKey (e.level.suite.ratchetStep P) key e.sequence) e.nonce plaintext
      e.associatedData
  rw [hBox] at hLength
  exact hLength

/-- **What is genuine** decrypts under the key that the receiver has for it. -/
theorem Envelope.Genuine.opens (hP : P.Lawful) (h : e.Genuine P a b plaintext) :
    e.Opens P b a.deviceId (a.publicKeys P) plaintext := by
  obtain ⟨key, hKey, hEncrypted⟩ := h.encrypted
  exact ⟨h.begun, h.tells, key, hKey, Suite.decrypt?_of_encrypt hP hEncrypted⟩

/-- A genuine envelope is authentic. -/
theorem Envelope.Genuine.authentic (hP : P.Lawful) (h : e.Genuine P a b plaintext) :
    e.Authentic P b (a.publicKeys P) :=
  ⟨h.recipient, fun hSigned =>
    ⟨_, h.signed.trans (if_pos hSigned), hP.verify_sign a.keys.signing e.signingBytes⟩⟩

/-- A genuine envelope carries one text. -/
theorem Envelope.Genuine.plaintext_unique (hP : P.Lawful) {plaintext' : Bytes}
    (h : e.Genuine P a b plaintext) (h' : e.Genuine P a b plaintext') : plaintext = plaintext' :=
  (h.opens hP).unique (h'.opens hP)

/-- A genuine envelope passes the checks if its ids do and its text is not too long. -/
theorem Envelope.Genuine.check (hP : P.Lawful) {limits : Envelope.Limits}
    (h : e.Genuine P a b plaintext)
    (hSender : Envelope.idFault? limits.maxDeviceId a.deviceId = none)
    (hRecipient : Envelope.idFault? limits.maxDeviceId b.deviceId = none)
    (hText : plaintext.length ≤ limits.maxCiphertext) : e.check limits = .ok () := by
  obtain ⟨key, -, hEncrypted⟩ := h.encrypted
  obtain ⟨hNonce, hBox⟩ := Suite.encrypt_eq_ok_iff.1 hEncrypted
  have hTag := hP.length_tag e.level.suite.aead
    (Ratchet.messageKey (e.level.suite.ratchetStep P) key e.sequence) e.nonce plaintext
      e.associatedData
  rw [hBox] at hTag
  refine Envelope.check_eq_ok_iff.2 ⟨?_, ?_, h.begun, hNonce, hTag, ?_, ?_⟩
  · rw [h.sender]
    exact hSender
  · rw [h.recipient]
    exact hRecipient
  · -- a ciphertext is as long as its plaintext
    rw [h.length_ciphertext hP]
    exact hText
  · -- the signature is there, and of its length, exactly where the level signs
    have hSignature := h.signed
    refine Envelope.signatureFault?_eq_none_iff.2 ?_
    cases hSigned : e.level.suite.isSigned with
    | true =>
      rw [hSigned, if_pos rfl] at hSignature
      exact .inl ⟨rfl, _, hSignature, (P.sign a.keys.signing e.signingBytes).length_eq⟩
    | false =>
      rw [hSigned, if_neg Bool.false_ne_true] at hSignature
      exact .inr ⟨rfl, hSignature⟩

-- ---------------------------------------------------------------------------
-- Sessions that begin
-- ---------------------------------------------------------------------------

variable {setting : Setting} {peer : Peer}

/-- The session that a sender begins is on the chain. -/
theorem Outbound.onChain_beginSession (hP : P.Lawful) {level : Level} {epoch : UInt64}
    {ephemeral : Key} (hOwn : setting.own = a) (hPeer : peer.deviceId = b.deviceId)
    (hKeys : peer.keys = b.publicKeys P)
    (h : beginSession P setting peer level epoch ephemeral = .ok s) : s.OnChain P a b := by
  obtain ⟨keys, hInitiated, rfl⟩ := beginSession_eq_ok h
  have hBoth := EpochKeys.initiateWith_eq hP.agree_comm level.suite ephemeral a.keys.encryption
    b.keys.encryption
    ⟨a.deviceId, b.deviceId, epoch, level⟩
  have hKey : peer.keys.encryption = P.agreementPublic b.keys.encryption := by
    rw [hKeys]
    rfl
  rw [hOwn, hPeer, hKey, hBoth] at hInitiated
  cases hResponded : EpochKeys.respond P level.suite b.keys.encryption.bytes
      (P.agreementPublic a.keys.encryption) (P.agreementPublic ephemeral).bytes
      ⟨a.deviceId, b.deviceId, epoch, level⟩ with
  | error fault =>
    rw [hResponded] at hInitiated
    cases hInitiated
  | ok key =>
    rw [hResponded] at hInitiated
    cases hInitiated
    exact ⟨key, hResponded, Ratchet.follows_ofSeed _ key⟩

-- ---------------------------------------------------------------------------
-- Sessions that go on
-- ---------------------------------------------------------------------------

namespace Session

theorem Ages.onChain (hAges : s.Ages s') (h : s.OnChain P a b) : s'.OnChain P a b :=
  onChain_iff.2 (hAges.stands (onChain_iff.1 h))

/-- A session that makes an envelope stays on the chain. -/
theorem onChain_encrypt (h : s.OnChain P a b)
    (hMade : s.encrypt P a plaintext random = .ok (e, s', random')) : s'.OnChain P a b := by
  obtain ⟨key, hKey, hFollows⟩ := h
  obtain ⟨hNext, rfl, -⟩ := encrypt_cases hMade
  exact ⟨key, hKey, hFollows.next hNext⟩

/-- Signing does not change the header. -/
theorem associatedData_signed (own : Identity) (e : Envelope) :
    (signed P own e).associatedData = e.associatedData := by
  rw [signed_eq]
  rfl

/-- **What a session on the chain makes is genuine.** -/
theorem genuine_of_encrypt (h : s.OnChain P a b) (hDevice : s.id.device = a.deviceId)
    (hPeer : s.id.peer = b.deviceId)
    (hMade : s.encrypt P a plaintext random = .ok (e, s', random')) :
    e.Genuine P a b plaintext := by
  obtain ⟨key, hKey, hFollows⟩ := h
  obtain ⟨hEpoch, hSequence, hLevel, hEphemeral, hTells⟩ := header_of_encrypt hMade
  obtain ⟨hNext, -, hEnvelope⟩ := encrypt_cases hMade
  have hNonceSize : 8 ≤ s.level.suite.nonceSize := by cases s.level <;> decide
  refine ⟨?_, ?_, ?_, ?_, hTells, ⟨key, ?_, ?_⟩, ?_⟩
  · -- whose envelope it is, and to whom
    rw [hEnvelope, sender_signed]
    exact hDevice
  · rw [hEnvelope, recipient_signed]
    exact hPeer
  · -- no chain stands before its first number
    rw [hSequence]
    intro hZero
    have hBegun := hFollows.begun
    rw [hZero] at hBegun
    cases hBegun
  · rw [hSequence]
    exact hNext
  · -- the key of its level and epoch, with the ephemeral key that the session keeps
    rw [hEpoch, hLevel, hEphemeral]
    exact hKey
  · -- the key is the one that the chain has for this number
    have hChainKey : (s.step P s.ratchet.chainKey).1 =
        Ratchet.messageKey (s.step P) key s.ratchet.next := by
      rw [hFollows.place]
      rfl
    rw [Suite.encrypt_eq_ok_iff, hLevel, hSequence]
    rw [hEnvelope, nonce_signed, ciphertext_signed, tag_signed, associatedData_signed]
    refine ⟨?_, ?_⟩
    · -- eight bytes of number and the rest at random make a nonce of the right length
      show (Bytes.bigEndian 8 _ ++ List.drop 8 _).length = _
      rw [List.length_append, Bytes.length_bigEndian, List.length_drop, RandomSource.length_draw]
      omega
    · show _ = P.encrypt s.level.suite.aead (s.step P s.ratchet.chainKey).1 _ plaintext _
      rw [hChainKey]
      rfl
  · -- a signature, exactly at the levels that sign
    rw [hLevel, hEnvelope]
    unfold signed
    -- whether there is a signature depends on the level alone
    by_cases hSigned : s.level.suite.isSigned = true
    · rw [if_pos hSigned, if_pos (show (s.envelope P _ _ plaintext).level.suite.isSigned =
        true from hSigned)]
      rfl
    · rw [if_neg hSigned, if_neg (show ¬(s.envelope P _ _ plaintext).level.suite.isSigned =
        true from hSigned)]
      rfl

end Session

-- ---------------------------------------------------------------------------
-- Devices
-- ---------------------------------------------------------------------------

namespace Device

/-- A device has the true keys of another on file, and has not revoked it. -/
def Knows (P : Primitives) (d other : Device) : Prop :=
  ∃ record, d.contacts.get? other.id = some record ∧ record.keys = other.identity.publicKeys P ∧
    record.isRevoked = false

/-- A genuine envelope passes as one of its sender, if the sender is on file. -/
theorem authenticate_genuine (hP : P.Lawful) {d : Device} (he : e.Genuine P a d.identity plaintext)
    (hPeer : d.contacts.get? a.deviceId = some peer) (hKeys : peer.keys = a.publicKeys P)
    (hTrusted : peer.isRevoked = false) : d.authenticate P e = .ok peer := by
  have hAuthentic : e.Authentic P d.identity peer.keys := hKeys ▸ he.authentic hP
  rw [← he.sender] at hPeer
  exact authenticate_eq_ok_iff.2 ⟨hPeer, hTrusted, hAuthentic⟩

end Device

end EndToEnd
