import EndToEnd.Envelope.Basic
import EndToEnd.Proofs.Plain
import EndToEnd.Proofs.SplitBytes
import EndToEnd.Trust.Evidence

/-!
# What a signature covers

A device signs for two purposes: its envelopes at the levels that sign, and the keys of devices that
it vouches for. It signs byte strings, so a signature says what it is meant to say only if no two
contents are laid out alike. They are not, as long as the counts in front of the parts are wide
enough for them: the parts are split off one behind the other, and the two purposes differ in their
first bytes. The same holds for the header alone, which the cipher authenticates with the text.

The device of a vouching may have an id of any length. The id is the only part whose length is not
fixed, so the length of the whole tells where it ends, whatever the count in front of it says.

Main results:

* `Envelope.sameHeader_of_append` — a header can be split off from whatever follows.
* `Signable.bytes_eq_iff` — what is signed determines the purpose and the contents.
* `Signable.unambiguous` — both together, and what it means for signatures.
-/

namespace EndToEnd

-- ---------------------------------------------------------------------------
-- Envelopes
-- ---------------------------------------------------------------------------

namespace Envelope

/-- Two envelopes with one header. -/
structure SameHeader (e e' : Envelope) : Prop where
  sender : e.sender = e'.sender
  recipient : e.recipient = e'.recipient
  epoch : e.epoch = e'.epoch
  sequence : e.sequence = e'.sequence
  level : e.level = e'.level
  ephemeral : e.ephemeral = e'.ephemeral

/-- Two envelopes that differ in nothing but their signatures. -/
structure SameContent (e e' : Envelope) : Prop extends SameHeader e e' where
  nonce : e.nonce = e'.nonce
  ciphertext : e.ciphertext = e'.ciphertext
  tag : e.tag = e'.tag

/-- The two bytes of their counts can count the ids of an envelope. -/
structure IdsFit (e : Envelope) : Prop where
  sender : (Bytes.ofText e.sender).length ≤ Bytes.maxIdLength
  recipient : (Bytes.ofText e.recipient).length ≤ Bytes.maxIdLength

/-- So can those of the nonce; and the ciphertext is no longer than any byte string of a machine
with addresses of 64 bits. -/
structure Fits (e : Envelope) : Prop extends IdsFit e where
  nonce : e.nonce.length ≤ 65535
  ciphertext : e.ciphertext.length < UInt64.size

variable {e e' : Envelope} {s t : Bytes}

/-- **A header is split off from what follows,** part by part in the order in which they stand. -/
theorem sameHeader_of_append (he : e.IdsFit) (he' : e'.IdsFit)
    (h : e.associatedData ++ s = e'.associatedData ++ t) : e.SameHeader e' ∧ s = t := by
  simp only [associatedData, List.append_assoc, List.append_cancel_left_eq] at h
  obtain ⟨hSender, h⟩ := Bytes.eq_of_id_append he.sender he'.sender h
  obtain ⟨hRecipient, h⟩ := Bytes.eq_of_id_append he.recipient he'.recipient h
  obtain ⟨hEpoch, h⟩ := Bytes.eq_of_bigEndian_append h
  obtain ⟨hSequence, h⟩ := Bytes.eq_of_bigEndian_append h
  obtain ⟨hLevel, h⟩ := Level.eq_of_tag_append h
  obtain ⟨hEphemeral, h⟩ := FixedBytes.eq_of_append h
  exact ⟨⟨hSender, hRecipient, hEpoch, hSequence, hLevel, hEphemeral⟩, h⟩

theorem SameHeader.associatedData_eq (h : e.SameHeader e') :
    e.associatedData = e'.associatedData := by
  unfold associatedData
  rw [h.sender, h.recipient, h.epoch, h.sequence, h.level, h.ephemeral]

/-- **What the cipher authenticates determines the header.** -/
theorem associatedData_eq_iff (he : e.IdsFit) (he' : e'.IdsFit) :
    e.associatedData = e'.associatedData ↔ e.SameHeader e' := by
  refine ⟨fun h => ?_, SameHeader.associatedData_eq⟩
  have hFollowed : e.associatedData ++ [] = e'.associatedData ++ [] := by rw [h]
  exact (sameHeader_of_append he he' hFollowed).1

/-- **What is signed determines all of an envelope but its signature.** -/
theorem signingBytes_eq_iff (he : e.Fits) (he' : e'.Fits) :
    e.signingBytes = e'.signingBytes ↔ e.SameContent e' := by
  constructor
  · intro h
    simp only [signingBytes, List.append_assoc] at h
    obtain ⟨hHeader, h⟩ := sameHeader_of_append he.toIdsFit he'.toIdsFit h
    have hNonceCapacity : 65535 < Bytes.capacity 2 := by decide
    obtain ⟨hNonce, h⟩ := Bytes.eq_of_counted_append (Nat.lt_of_le_of_lt he.nonce hNonceCapacity)
      (Nat.lt_of_le_of_lt he'.nonce hNonceCapacity) h
    obtain ⟨hCiphertext, hTag⟩ := Bytes.eq_of_counted_append he.ciphertext he'.ciphertext h
    exact ⟨hHeader, hNonce, hCiphertext, hTag⟩
  · intro h
    unfold signingBytes
    rw [h.toSameHeader.associatedData_eq, h.nonce, h.ciphertext, h.tag]

end Envelope

-- ---------------------------------------------------------------------------
-- Vouchings
-- ---------------------------------------------------------------------------

namespace TrustLink

theorem length_payload (subject : String) (keys : PublicKeys) :
    (payload subject keys).length = (Bytes.ofText subject).length + 88 := by
  have hDomain : domain.length = 22 := by decide
  simp only [payload, Bytes.counted, List.length_append, Bytes.length_bigEndian, hDomain,
    keys.signing.length_eq, keys.encryption.length_eq]
  omega

/-- **What is signed to vouch for a device determines its id and its keys,** however long the id. -/
theorem payload_eq_iff {subject subject' : String} {keys keys' : PublicKeys} :
    payload subject keys = payload subject' keys' ↔ subject = subject' ∧ keys = keys' := by
  constructor
  · intro h
    have hLength : (Bytes.ofText subject).length = (Bytes.ofText subject').length := by
      have hWhole := congrArg List.length h
      rw [length_payload, length_payload] at hWhole
      omega
    simp only [payload, Bytes.counted, List.append_assoc, List.append_cancel_left_eq] at h
    obtain ⟨-, h⟩ := List.append_inj h (by simp)
    obtain ⟨hSubject, h⟩ := List.append_inj h hLength
    obtain ⟨hSigning, hEncryption⟩ := FixedBytes.eq_of_append h
    refine ⟨Bytes.ofText_inj.1 hSubject, ?_⟩
    show PublicKeys.mk keys.signing keys.encryption = PublicKeys.mk keys'.signing keys'.encryption
    rw [hSigning, FixedBytes.ext hEncryption]
  · rintro ⟨rfl, rfl⟩
    rfl

/-- **No envelope is laid out like a vouching:** the two begin differently. -/
theorem signingBytes_ne_payload (e : Envelope) (subject : String) (keys : PublicKeys) :
    e.signingBytes ≠ payload subject keys := by
  intro h
  have hEnvelope : Envelope.domain <+: e.signingBytes := by
    simp only [Envelope.signingBytes, Envelope.associatedData, List.append_assoc]
    exact List.prefix_append _ _
  have hVouching : domain <+: e.signingBytes := by
    rw [h]
    simp only [payload, List.append_assoc]
    exact List.prefix_append _ _
  have hApart : ¬Envelope.domain <+: domain ∧ ¬domain <+: Envelope.domain := by decide
  rcases List.prefix_or_prefix_of_prefix hEnvelope hVouching with hFirst | hSecond
  · exact hApart.1 hFirst
  · exact hApart.2 hSecond

end TrustLink

-- ---------------------------------------------------------------------------
-- Both purposes
-- ---------------------------------------------------------------------------

/-- What a device signs. -/
inductive Signable where
  | envelope (e : Envelope)
  | vouching (subject : String) (keys : PublicKeys)

namespace Signable

/-- What the signature is made over. -/
def bytes : Signable → Bytes
  | envelope e => e.signingBytes
  | vouching subject keys => TrustLink.payload subject keys

/-- The counts in front of the parts are wide enough for them. -/
def Fits : Signable → Prop
  | envelope e => e.Fits
  | vouching _ _ => True

/-- One purpose, and one content. -/
def Same : Signable → Signable → Prop
  | envelope e, envelope e' => e.SameContent e'
  | vouching subject keys, vouching subject' keys' => subject = subject' ∧ keys = keys'
  | envelope _, vouching _ _ => False
  | vouching _ _, envelope _ => False

variable {x y : Signable}

/-- **What is signed determines the purpose and the content.** -/
theorem bytes_eq_iff (hx : x.Fits) (hy : y.Fits) : x.bytes = y.bytes ↔ x.Same y := by
  match x, y with
  | envelope e, envelope e' => exact Envelope.signingBytes_eq_iff hx hy
  | vouching subject keys, vouching subject' keys' => exact TrustLink.payload_eq_iff
  | envelope e, vouching subject keys =>
    exact iff_of_false (TrustLink.signingBytes_ne_payload e subject keys) id
  | vouching subject keys, envelope e =>
    exact iff_of_false (TrustLink.signingBytes_ne_payload e subject keys).symm id

/-- A signature passes for two byte strings under one key. Signature schemes are made so that nobody
can bring one about. -/
def PassesTwice (P : Primitives) (keys : PublicKeys) (signature : Bytes) : Prop :=
  ∃ m m', m ≠ m' ∧ keys.verify P m signature = true ∧ keys.verify P m' signature = true

/-- **What is signed and what is authenticated is unambiguous.** The header is determined by what
the cipher authenticates, all else of an envelope by what is signed, and the device of a vouching
and its keys by what is signed for it. No envelope is signed as a vouching is, so a signature that
passes for another purpose or another content passes for two byte strings. -/
theorem unambiguous :
    (∀ e e' : Envelope, e.IdsFit → e'.IdsFit →
      (e.associatedData = e'.associatedData ↔ e.SameHeader e')) ∧
    (∀ e e' : Envelope, e.Fits → e'.Fits →
      (e.signingBytes = e'.signingBytes ↔ e.SameContent e')) ∧
    (∀ subject subject' keys keys',
      TrustLink.payload subject keys = TrustLink.payload subject' keys' ↔
        subject = subject' ∧ keys = keys') ∧
    (∀ (e : Envelope) subject keys, e.signingBytes ≠ TrustLink.payload subject keys) ∧
    ∀ (P : Primitives) keys signature (x y : Signable), x.Fits → y.Fits → ¬x.Same y →
      keys.verify P x.bytes signature = true → keys.verify P y.bytes signature = true →
        PassesTwice P keys signature := by
  refine ⟨fun e e' => Envelope.associatedData_eq_iff, fun e e' => Envelope.signingBytes_eq_iff,
    fun subject subject' keys keys' => TrustLink.payload_eq_iff,
    TrustLink.signingBytes_ne_payload, ?_⟩
  intro P keys signature x y hx hy hOther hPasses hPassesToo
  have hBytes : x.bytes ≠ y.bytes := fun h => hOther ((bytes_eq_iff hx hy).1 h)
  exact ⟨x.bytes, y.bytes, hBytes, hPasses, hPassesToo⟩

/-- A letter, whose border between ciphertext and tag can be moved. -/
def letter (ciphertext tag : Bytes) : Envelope :=
  ⟨"ann", "bob", 1, 1, .military, .ofNat 32 9, [0], ciphertext, tag, none⟩

/-- With the border moved, the cipher authenticates the same but a signature covers something else.
Under primitives that look at no message, one signature passes for both. -/
theorem letters_unambiguous :
    (letter [1, 2] [3]).associatedData = (letter [1] [2, 3]).associatedData ∧
      (letter [1, 2] [3]).signingBytes ≠ (letter [1] [2, 3]).signingBytes ∧
      PassesTwice .plain ⟨.ofNat 32 9, .ofNat 32 9⟩
        (Primitives.plain.sign (.ofNat 32 9) (letter [1, 2] [3]).signingBytes).bytes := by
  obtain ⟨hHeaders, hContents, -, -, hSignatures⟩ := unambiguous
  have hFits : (letter [1, 2] [3]).Fits := ⟨⟨by decide, by decide⟩, by decide, by decide⟩
  have hFitsToo : (letter [1] [2, 3]).Fits := ⟨⟨by decide, by decide⟩, by decide, by decide⟩
  have hOther : ¬(letter [1, 2] [3]).SameContent (letter [1] [2, 3]) :=
    fun h => absurd h.tag (by decide)
  refine ⟨(hHeaders _ _ hFits.toIdsFit hFitsToo.toIdsFit).2 ⟨rfl, rfl, rfl, rfl, rfl, rfl⟩,
    fun h => hOther ((hContents _ _ hFits hFitsToo).1 h), ?_⟩
  exact hSignatures .plain _ _ (.envelope (letter [1, 2] [3])) (.envelope (letter [1] [2, 3]))
    hFits hFitsToo hOther (by decide) (by decide)

end Signable

end EndToEnd
