import EndToEnd.Proofs.Plain
import EndToEnd.Proofs.SplitBytes

/-!
# The key of an epoch

Each end of an epoch mixes two agreements, and each works them out from its own half: the initiator
from its fresh key and its lasting key, the responder from its lasting key alone. All that the two
results have in common is that an agreement is the same from both ends (`Primitives.Agrees`). From
that both ends find one key, or both fail and for one reason.

The key is derived under the bytes of the context and of the fresh public key, and these bytes can be
taken apart again. So the keys of two epochs that differ in anything are derived under different
bytes.

Main results:

* `EpochKeys.initiateWith_eq` — both ends find one key, or fail alike.
* `EpochKeys.deriveKey_suite` — what the key is derived from, in each stage.
* `EpochContext.eq_of_bytes` — the bytes determine the context and the fresh key.
* `EpochKeys.ends_agree` — both together.
-/

namespace EndToEnd

variable {P : Primitives}

-- ---------------------------------------------------------------------------
-- Contexts
-- ---------------------------------------------------------------------------

namespace EpochContext

/-- The two bytes of their counts can count the ids of a context. -/
structure IdsFit (c : EpochContext) : Prop where
  initiator : (Bytes.ofText c.initiator).length ≤ Bytes.maxIdLength
  responder : (Bytes.ofText c.responder).length ≤ Bytes.maxIdLength

/-- **What a key is derived under determines the context and the fresh key.** -/
theorem eq_of_bytes {c c' : EpochContext} {fresh fresh' : Key} (hc : c.IdsFit) (hc' : c'.IdsFit)
    (h : c.bytes fresh.bytes = c'.bytes fresh'.bytes) : c = c' ∧ fresh = fresh' := by
  simp only [bytes, List.append_assoc, List.append_cancel_left_eq] at h
  obtain ⟨hInitiator, h⟩ := Bytes.eq_of_id_append hc.initiator hc'.initiator h
  obtain ⟨hResponder, h⟩ := Bytes.eq_of_id_append hc.responder hc'.responder h
  obtain ⟨hEpoch, h⟩ := Bytes.eq_of_bigEndian_append h
  obtain ⟨hLevel, hFresh⟩ := Level.eq_of_tag_append h
  refine ⟨?_, FixedBytes.ext hFresh⟩
  show mk c.initiator c.responder c.epoch c.level =
    mk c'.initiator c'.responder c'.epoch c'.level
  rw [hInitiator, hResponder, hEpoch, hLevel]

end EpochContext

-- ---------------------------------------------------------------------------
-- Agreements
-- ---------------------------------------------------------------------------

/-- Both ends of an agreement find the same secret, or both find none. -/
def Primitives.Agrees (P : Primitives) : Prop :=
  ∀ a b : Key, P.agree? a (P.agreementPublic b) = P.agree? b (P.agreementPublic a)

/-- An agreement over keys of the right length succeeds exactly if the primitive does. -/
theorem Suite.agree_eq_ok_iff {privateKey publicKey secret : Key} :
    Suite.agree P privateKey.bytes publicKey.bytes = .ok secret ↔
      P.agree? privateKey publicKey = some secret := by
  unfold Suite.agree
  simp only [FixedBytes.ofBytes?_bytes]
  cases P.agree? privateKey publicKey with
  | none => exact iff_of_false (fun h => by cases h) (fun h => by cases h)
  | some found => rw [Except.ok.injEq, Option.some.injEq]

/-- An agreement is the same from both ends. -/
theorem Suite.agree_comm (hAgree : P.Agrees) (a b : Key) :
    Suite.agree P a.bytes (P.agreementPublic b).bytes =
      Suite.agree P b.bytes (P.agreementPublic a).bytes := by
  unfold Suite.agree
  simp only [FixedBytes.ofBytes?_bytes]
  rw [hAgree a b]

-- ---------------------------------------------------------------------------
-- Keys
-- ---------------------------------------------------------------------------

namespace EpochKeys

/-- **Both ends find one key,** or neither finds any. -/
theorem initiateWith_eq (hAgree : P.Agrees) (suite : Suite) (ephemeral a b : Key)
    (context : EpochContext) :
    initiateWith P suite ephemeral a.bytes (P.agreementPublic b) context =
      (respond P suite b.bytes (P.agreementPublic a) (P.agreementPublic ephemeral).bytes
        context).map (⟨P.agreementPublic ephemeral, ·⟩) := by
  unfold initiateWith respond
  rw [if_neg (not_not_intro (P.agreementPublic ephemeral).length_eq),
    Suite.agree_comm hAgree ephemeral b,
    Suite.agree_comm hAgree a b]
  cases Suite.agree P b.bytes (P.agreementPublic ephemeral).bytes with
  | error fault => rfl
  | ok first =>
    cases Suite.agree P b.bytes (P.agreementPublic a).bytes with
    | error fault => rfl
    | ok second => rfl

/-- **What derives the key of an epoch:** HKDF, given the secret and the context, and once more, given
the key of the first stage and the same context, where keys pass a second stage. -/
theorem deriveKey_suite (level : Level) (secret context : Bytes) :
    level.suite.deriveKey P secret context =
      if level = .quantumSafe then
        P.deriveKey .sha512 Suite.stageSalt
          (P.deriveKey .sha512 Suite.derivationSalt secret context).bytes context
      else P.deriveKey level.suite.hash Suite.derivationSalt secret context := by
  cases level <;> rfl

/-- What the responder finds: its two agreements, derived under the context and the fresh key. -/
theorem respond_eq_ok_iff {suite : Suite} {own peer fresh key : Key} {context : EpochContext} :
    respond P suite own.bytes peer fresh.bytes context = .ok key ↔
      ∃ first second, P.agree? own fresh = some first ∧ P.agree? own peer = some second ∧
        key = suite.deriveKey P (first.bytes ++ second.bytes) (context.bytes fresh.bytes) := by
  unfold respond
  rw [if_neg (not_not_intro fresh.length_eq)]
  constructor
  · intro h
    cases hFirst : Suite.agree P own.bytes fresh.bytes with
    | error fault =>
      rw [hFirst] at h
      cases h
    | ok first =>
      cases hSecond : Suite.agree P own.bytes peer.bytes with
      | error fault =>
        rw [hFirst, hSecond] at h
        cases h
      | ok second =>
        rw [hFirst, hSecond] at h
        cases h
        exact ⟨first, second, Suite.agree_eq_ok_iff.1 hFirst, Suite.agree_eq_ok_iff.1 hSecond, rfl⟩
  · rintro ⟨first, second, hFirst, hSecond, rfl⟩
    rw [Suite.agree_eq_ok_iff.2 hFirst, Suite.agree_eq_ok_iff.2 hSecond]
    rfl

/-- **Both ends of an epoch find one key, bound to its context.** With one draw of the fresh key the
initiator succeeds exactly if the responder does, given the public keys of the other end and of the
draw. The key is what HKDF makes of the two agreements, the one with the fresh key first, under the
context and the fresh key; with a second stage HKDF makes the key of what it made first, under the
same bytes. No other context or fresh key has these bytes. -/
theorem ends_agree (hAgree : P.Agrees) (level : Level) (a b draw : Key) (context : EpochContext) :
    ((∃ keys, initiateWith P level.suite draw a.bytes (P.agreementPublic b) context = .ok keys) ↔
      ∃ key, respond P level.suite b.bytes (P.agreementPublic a) (P.agreementPublic draw).bytes
        context = .ok key) ∧
    (∀ keys key,
      initiateWith P level.suite draw a.bytes (P.agreementPublic b) context = .ok keys →
      respond P level.suite b.bytes (P.agreementPublic a) (P.agreementPublic draw).bytes
        context = .ok key →
      keys = ⟨P.agreementPublic draw, key⟩ ∧
        ∃ first second, P.agree? b (P.agreementPublic draw) = some first ∧
          P.agree? b (P.agreementPublic a) = some second ∧
          let secret := first.bytes ++ second.bytes
          let info := context.bytes (P.agreementPublic draw).bytes
          key = if level = .quantumSafe then
              P.deriveKey .sha512 Suite.stageSalt
                (P.deriveKey .sha512 Suite.derivationSalt secret info).bytes info
            else P.deriveKey level.suite.hash Suite.derivationSalt secret info) ∧
    ∀ (c c' : EpochContext) (fresh fresh' : Key), c.IdsFit → c'.IdsFit → c ≠ c' ∨ fresh ≠ fresh' →
      c.bytes fresh.bytes ≠ c'.bytes fresh'.bytes := by
  have hBoth := initiateWith_eq hAgree level.suite draw a b context
  refine ⟨?_, ?_, ?_⟩
  · rw [hBoth]
    cases respond P level.suite b.bytes (P.agreementPublic a) (P.agreementPublic draw).bytes
        context with
    | error fault =>
      exact iff_of_false (fun ⟨_, h⟩ => by cases h) (fun ⟨_, h⟩ => by cases h)
    | ok key => exact iff_of_true ⟨_, rfl⟩ ⟨_, rfl⟩
  · intro keys key hInitiated hResponded
    rw [hBoth, hResponded] at hInitiated
    cases hInitiated
    obtain ⟨first, second, hFirst, hSecond, hKey⟩ := respond_eq_ok_iff.1 hResponded
    rw [deriveKey_suite] at hKey
    exact ⟨rfl, first, second, hFirst, hSecond, hKey⟩
  · intro c c' fresh fresh' hc hc' hOther hBytes
    obtain ⟨hContext, hFresh⟩ := EpochContext.eq_of_bytes hc hc' hBytes
    rcases hOther with hOther | hOther
    · exact hOther hContext
    · exact hOther hFresh

/-- An initiator that succeeds has a responder that does; and with the border between the two ids
moved, the bytes are others. -/
theorem ends_agree_plain :
    (∃ key, respond .plain Level.quantumSafe.suite (.ofNat 32 3 : Key).bytes (.ofNat 32 1)
      (.ofNat 32 7 : Key).bytes ⟨"ann", "bob", 1, .quantumSafe⟩ = .ok key) ∧
    EpochContext.bytes ⟨"ann", "bob", 1, .quantumSafe⟩ (.ofNat 32 7 : Key).bytes ≠
      EpochContext.bytes ⟨"annb", "ob", 1, .quantumSafe⟩ (.ofNat 32 7 : Key).bytes := by
  obtain ⟨hSucceeds, -, hContexts⟩ := ends_agree Primitives.plain_lawful.agree_comm .quantumSafe
    (.ofNat 32 1) (.ofNat 32 3) (.ofNat 32 7) ⟨"ann", "bob", 1, .quantumSafe⟩
  refine ⟨hSucceeds.1 ⟨_, rfl⟩, ?_⟩
  exact hContexts _ _ _ _ ⟨by decide, by decide⟩ ⟨by decide, by decide⟩ (.inl (by decide))

end EpochKeys

end EndToEnd
