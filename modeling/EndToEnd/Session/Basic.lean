import EndToEnd.Envelope.Basic
import EndToEnd.Identity.Basic
import EndToEnd.Rotation.Policy
import EndToEnd.Session.Id
import EndToEnd.Suite.Epoch
import EndToEnd.Suite.Ratchet

/-!
# Sessions

One epoch between two devices: its key chain, how far it is used, and whether it has ended. An
outbound session makes envelopes, an inbound one opens them. A session that is dropped is not kept
in any state: its keys are gone.

Main facts: `decrypt_eq_ok_iff` (exactly which envelopes are opened, and how far the chain moves
then).
-/

namespace EndToEnd

/-- Whether a session that is kept has ended. -/
inductive Phase where
  | active
  /-- Ended, and dropped at the deadline. -/
  | expiring (deadline : UInt64)
  deriving DecidableEq, Repr

/-- A session that is kept. -/
structure Session where
  id : SessionId
  level : Level
  ratchet : Ratchet
  /-- The fresh public key of the epoch. -/
  ephemeral : Key
  createdAt : UInt64
  /-- How many messages were sent or received. -/
  messages : UInt64
  phase : Phase
  deriving DecidableEq

/-- What can be said about a session from outside. -/
inductive SessionState where
  | noSession
  | establishing
  | active
  | expiring
  | retired
  deriving DecidableEq, Repr

/-- The name of a state. -/
def SessionState.name : SessionState → String
  | noSession => "NoSession"
  | establishing => "Establishing"
  | active => "Active"
  | expiring => "Expiring"
  | retired => "Retired"

namespace Session

/-- A session at its start. -/
def begin (id : SessionId) (level : Level) (key ephemeral : Key) (now : UInt64) : Session :=
  ⟨id, level, .ofSeed key, ephemeral, now, 0, .active⟩

/-- The number of the epoch. -/
def epoch (s : Session) : UInt64 := s.id.epoch

/-- Whether the session has not ended. -/
def isActive (s : Session) : Bool := s.phase = .active

/-- The state of a session that is kept. -/
def state (s : Session) : SessionState :=
  match s.phase with
  | .active => .active
  | .expiring _ => .expiring

/-- What decides about the end of the session. -/
def usage (s : Session) : Rotation.Usage := ⟨s.createdAt, s.messages, s.level⟩

/-- Whether envelopes are still opened. -/
def canDecrypt (s : Session) (now : UInt64) : Bool :=
  match s.phase with
  | .active => true
  | .expiring deadline => now < deadline

/-- Ends a session; one that has ended keeps its deadline. -/
def expire (s : Session) (deadline : UInt64) : Session :=
  match s.phase with
  | .active => { s with phase := .expiring deadline }
  | .expiring _ => s

variable (P : Primitives)

/-- The step of the key chain. -/
def step (s : Session) : Ratchet.Step := s.level.suite.ratchetStep P

-- ---------------------------------------------------------------------------
-- Sending
-- ---------------------------------------------------------------------------

/-- A nonce: the number of the message, then random bytes. -/
def nonce (sequence : UInt64) (drawn : Bytes) : Bytes :=
  Bytes.bigEndian 8 sequence.toNat ++ drawn.drop 8

/-- The envelope of a message, before it is signed. -/
def envelope (s : Session) (m : MessageKey) (nonce plaintext : Bytes) : Envelope :=
  let blank : Envelope := ⟨s.id.device, s.id.peer, s.id.epoch, m.sequence, s.level, s.ephemeral, nonce,
    [], [], none⟩
  let box := P.encrypt s.level.suite.aead m.key nonce plaintext blank.associatedData
  { blank with ciphertext := box.ciphertext, tag := box.tag }

/-- Signs an envelope, at the levels that sign. -/
def signed (own : Identity) (e : Envelope) : Envelope :=
  if e.level.suite.isSigned then { e with signature := some (own.sign P e.signingBytes) } else e

/-- Makes the envelope of the next message. -/
def encrypt (own : Identity) (plaintext : Bytes) (s : Session) (random : RandomSource) :
    Except Failure (Envelope × Session × RandomSource) :=
  match s.ratchet.advance (s.step P) with
  | .error fault => .error (.ofCrypto fault)
  | .ok (m, ratchet) =>
    let (drawn, random) := random.draw s.level.suite.nonceSize
    let e := signed P own (s.envelope P m (nonce m.sequence drawn) plaintext)
    .ok (e, { s with ratchet := ratchet, messages := s.messages + 1 }, random)

-- ---------------------------------------------------------------------------
-- Receiving
-- ---------------------------------------------------------------------------

/-- Opens an envelope. The chain moves only if the envelope proves genuine. -/
def decrypt (maxSkip : UInt64) (e : Envelope) (s : Session) : Except Failure (Bytes × Session) :=
  if e.level ≠ s.level ∨ e.ephemeral ≠ s.ephemeral then .error .authentication
  else
    match s.ratchet.deriveAt (s.step P) e.sequence maxSkip with
    | .error failure => .error failure
    | .ok advance =>
      if e.nonce.take 8 ≠ Bytes.bigEndian 8 e.sequence.toNat then .error .authentication
      else
        match s.level.suite.decrypt? P advance.messageKey.key e.nonce ⟨e.ciphertext, e.tag⟩
            e.associatedData with
        | none => .error .authentication
        | some plaintext =>
          .ok (plaintext,
            { s with ratchet := s.ratchet.commit advance, messages := s.messages + 1 })

variable {P}

/-- An envelope is opened exactly if it belongs to the epoch, its number can be reached, its nonce
carries that number, and it decrypts under the key of that number. -/
theorem decrypt_eq_ok_iff {maxSkip : UInt64} {e : Envelope} {s s' : Session} {plaintext : Bytes} :
    s.decrypt P maxSkip e = .ok (plaintext, s') ↔
      e.level = s.level ∧ e.ephemeral = s.ephemeral ∧
        ∃ advance, s.ratchet.deriveAt (s.step P) e.sequence maxSkip = .ok advance ∧
          e.nonce.take 8 = Bytes.bigEndian 8 e.sequence.toNat ∧
          s.level.suite.decrypt? P advance.messageKey.key e.nonce ⟨e.ciphertext, e.tag⟩
            e.associatedData = some plaintext ∧
          s' = { s with ratchet := s.ratchet.commit advance, messages := s.messages + 1 } := by
  unfold decrypt
  by_cases hl : e.level = s.level
  · by_cases he : e.ephemeral = s.ephemeral
    · cases hd : s.ratchet.deriveAt (s.step P) e.sequence maxSkip with
      | error failure => simp [hl, he]
      | ok advance =>
        by_cases hn : e.nonce.take 8 = Bytes.bigEndian 8 e.sequence.toNat
        · cases hp : s.level.suite.decrypt? P advance.messageKey.key e.nonce ⟨e.ciphertext, e.tag⟩
              e.associatedData with
          | none => simp [hl, he, hn, hp]
          | some text =>
            simp only [hl, he, hn, hp, ne_eq, not_true_eq_false, or_self, if_false,
              Except.ok.injEq, Prod.mk.injEq, true_and, exists_eq_left', Option.some.injEq]
            exact and_congr_right fun _ => eq_comm
        · simp [hl, he, hn]
    · simp [hl, he]
  · simp [hl]

end Session

end EndToEnd
