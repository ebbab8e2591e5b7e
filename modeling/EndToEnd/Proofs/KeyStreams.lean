import EndToEnd.Suite.Basic

/-!
# What encryption keeps and what it covers

At every level a text is masked with a key stream and the tag is a code of what was masked. The key
stream comes in whole blocks, sixteen or sixty-four bytes each, and there are enough of them for the
text whatever its length, so no byte is left unmasked and none is added. To decrypt is to compute
the code again, so one tag is right for a ciphertext and every other is refused.

This is about the ciphers that run (`Primitives.standard`). Nothing is said of how hard it is to
find the right tag without the key.

Main results:

* `Aes256.length_encryptBlock`, `Aead.length_le_stream` — the key stream is long enough.
* `Aead.eq_of_decrypt?` — one tag for a ciphertext.
* `Level.encryption_is_exact` — all that is seen of encryption at a level.
-/

namespace EndToEnd

-- ---------------------------------------------------------------------------
-- Blocks
-- ---------------------------------------------------------------------------

namespace Bytes

theorem length_flatMap_range {size : Nat} {block : Nat → Bytes}
    (h : ∀ i, (block i).length = size) (count : Nat) :
    ((List.range count).flatMap block).length = count * size := by
  simp [List.length_flatMap, h, List.map_const']

/-- Where the stream is long enough, every byte is masked. -/
theorem xorWith_eq_zipWith {bytes stream : Bytes} (h : bytes.length ≤ stream.length) :
    xorWith bytes stream = bytes.zipWith (· ^^^ ·) stream := by
  fun_induction xorWith bytes stream with
  | case1 stream => rfl
  | case2 bytes hSome => exact absurd (List.length_eq_zero_iff.1 (Nat.le_zero.1 h)) hSome
  | case3 b bytes m stream ih => rw [List.zipWith_cons_cons, ih (Nat.le_of_succ_le_succ h)]

end Bytes

namespace Aes256

theorem length_mixColumns (state : Bytes) : (mixColumns state).length = state.length := by
  fun_induction mixColumns state with
  | case1 a b c d rest all ih => simp [ih]
  | case2 short _ => rfl

theorem length_rounds (keys : List Bytes) {state : Bytes} (h : state.length = 16) :
    (rounds state keys).length = 16 := by
  have hRows (state : Bytes) : (shiftRows state).length = 16 := by simp [shiftRows]
  fun_induction rounds state keys with
  | case1 state => exact h
  | case2 state last => rw [Bytes.length_xorWith, hRows]
  | case3 state key keys _ ih => exact ih (by rw [Bytes.length_xorWith, length_mixColumns, hRows])

/-- A block is encrypted to a block, whatever the round keys. -/
theorem length_encryptBlock (keys : List Bytes) {block : Bytes} (h : block.length = 16) :
    (encryptBlock keys block).length = 16 := by
  cases keys with
  | nil => exact h
  | cons first keys => exact length_rounds keys ((Bytes.length_xorWith ..).trans h)

end Aes256

-- ---------------------------------------------------------------------------
-- Key streams
-- ---------------------------------------------------------------------------

theorem ChaCha20.length_le_stream (key : Key) (nonce : Bytes) (counter length : Nat) :
    length ≤ (stream key nonce counter length).length := by
  have hBlock (i : Nat) : (block key nonce (counter + i)).length = 64 := State.length_bytes _
  unfold stream
  rw [Bytes.length_flatMap_range hBlock]
  omega

theorem Gcm.length_le_stream (key : Key) {nonce : Bytes} (h : nonce.length = 12) (length : Nat) :
    length ≤ (stream key nonce length).length := by
  have hBlock (i : Nat) : (counterBlock (Aes256.roundKeys key) nonce (i + 2)).length = 16 :=
    Aes256.length_encryptBlock _ (by rw [List.length_append, h, Bytes.length_bigEndian])
  unfold stream
  dsimp only
  rw [Bytes.length_flatMap_range hBlock]
  omega

namespace Aead

variable {alg : Aead} {key : Key} {nonce associated plaintext plaintext' : Bytes}

/-- **The key stream is long enough** for any text. -/
theorem length_le_stream (h : nonce.length = alg.nonceSize) (length : Nat) :
    length ≤ (alg.stream key nonce length).length := by
  cases alg with
  | chaCha20Poly1305 => exact ChaCha20.length_le_stream key nonce 1 length
  | aes256Gcm => exact Gcm.length_le_stream key h length
  | xChaCha20Poly1305 => exact ChaCha20.length_le_stream _ (shortNonce nonce) 1 length

/-- **One tag is accepted for a ciphertext.** -/
theorem eq_of_decrypt? {box box' : Sealed} (hCiphertext : box.ciphertext = box'.ciphertext)
    (h : alg.decrypt? key nonce box associated = some plaintext)
    (h' : alg.decrypt? key nonce box' associated = some plaintext') : box.tag = box'.tag := by
  obtain ⟨-, hTag, -⟩ := decrypt?_eq_some_iff.1 h
  obtain ⟨-, hTag', -⟩ := decrypt?_eq_some_iff.1 h'
  rw [hTag, hTag', hCiphertext]

end Aead

-- ---------------------------------------------------------------------------
-- Levels
-- ---------------------------------------------------------------------------

/-- What a suite accepts, its cipher accepts. -/
theorem Suite.decrypt?_eq_some_iff {P : Primitives} {s : Suite} {key : Key}
    {nonce associated plaintext : Bytes} {box : Aead.Sealed} :
    s.decrypt? P key nonce box associated = some plaintext ↔
      nonce.length = s.nonceSize ∧ box.tag.length = s.tagSize ∧
        P.decrypt? s.aead key nonce box associated = some plaintext := by
  unfold decrypt?
  split <;> simp_all

/-- **Encryption is exact at every level.** It succeeds for the nonces of the right length and no
others. What it gives is as long as the text, every byte of it masked, with a tag of the right
length, and is decrypted to the text; under any other tag it is refused. Whatever is decrypted, a
nonce or tag of another length is refused, and at most one tag is accepted for a ciphertext. -/
theorem Level.encryption_is_exact (level : Level) (key : Key) (nonce associated : Bytes) :
    let s := level.suite
    let decrypt? (box : Aead.Sealed) := s.decrypt? .standard key nonce box associated
    (∀ plaintext,
      ((∃ box, s.encrypt .standard key nonce plaintext associated = .ok box) ↔
        nonce.length = s.nonceSize) ∧
      ∀ box, s.encrypt .standard key nonce plaintext associated = .ok box →
        box.ciphertext.length = plaintext.length ∧ box.tag.length = s.tagSize ∧
        (plaintext.length ≤ (s.aead.stream key nonce plaintext.length).length ∧
          box.ciphertext =
            plaintext.zipWith (· ^^^ ·) (s.aead.stream key nonce plaintext.length)) ∧
        decrypt? box = some plaintext ∧
        ∀ tag, tag ≠ box.tag → decrypt? ⟨box.ciphertext, tag⟩ = none) ∧
    (∀ box, nonce.length ≠ s.nonceSize ∨ box.tag.length ≠ s.tagSize → decrypt? box = none) ∧
    ∀ ciphertext tag tag', decrypt? ⟨ciphertext, tag⟩ ≠ none → decrypt? ⟨ciphertext, tag'⟩ ≠ none →
      tag = tag' := by
  intro s decrypt?
  -- the cipher recomputes the tag, so two that it accepts are the same
  have hUnique (ciphertext tag tag' : Bytes) (h : decrypt? ⟨ciphertext, tag⟩ ≠ none)
      (h' : decrypt? ⟨ciphertext, tag'⟩ ≠ none) : tag = tag' := by
    obtain ⟨text, hText⟩ := Option.ne_none_iff_exists'.1 h
    obtain ⟨text', hText'⟩ := Option.ne_none_iff_exists'.1 h'
    obtain ⟨-, -, hOpened⟩ := Suite.decrypt?_eq_some_iff.1 hText
    obtain ⟨-, -, hOpened'⟩ := Suite.decrypt?_eq_some_iff.1 hText'
    exact Aead.eq_of_decrypt? (by rfl) hOpened hOpened'
  refine ⟨fun plaintext => ⟨?_, fun box hBox => ?_⟩, fun _ => Suite.decrypt?_eq_none_of_length,
    hUnique⟩
  · exact ⟨fun ⟨_, hBox⟩ => (Suite.encrypt_eq_ok_iff.1 hBox).1,
      fun hNonce => ⟨_, Suite.encrypt_eq_ok_iff.2 ⟨hNonce, rfl⟩⟩⟩
  · obtain ⟨hNonce, rfl⟩ := Suite.encrypt_eq_ok_iff.1 hBox
    have hCovered : plaintext.length ≤ (s.aead.stream key nonce plaintext.length).length :=
      Aead.length_le_stream hNonce plaintext.length
    have hTag := Aead.length_tag_encrypt s.aead key nonce plaintext associated
    have hText : decrypt? (s.aead.encrypt key nonce plaintext associated) = some plaintext :=
      Suite.decrypt?_eq_some_iff.2
        ⟨hNonce, hTag, Aead.decrypt?_encrypt s.aead key plaintext associated hNonce⟩
    refine ⟨Aead.length_encrypt .., hTag, ⟨hCovered, Bytes.xorWith_eq_zipWith hCovered⟩, hText,
      fun tag hOther => ?_⟩
    have hRight : decrypt? (s.aead.encrypt key nonce plaintext associated) ≠ none := by
      rw [hText]
      exact nofun
    exact Decidable.by_contra fun hAccepted => hOther (hUnique _ _ _ hAccepted hRight)

/-- A text of three bytes under a long nonce, and the nonces that are refused. -/
theorem Level.encryption_is_exact_quantumSafe :
    let s := Level.quantumSafe.suite
    let key : Key := .ofNat 32 7
    let nonce : Bytes := List.replicate 24 1
    (∃ box, s.encrypt .standard key nonce [1, 2, 3] [4] = .ok box ∧ box.ciphertext.length = 3 ∧
      box.tag.length = 16 ∧ s.decrypt? .standard key nonce box [4] = some [1, 2, 3] ∧
      ∀ tag, tag ≠ box.tag → s.decrypt? .standard key nonce ⟨box.ciphertext, tag⟩ [4] = none) ∧
    ¬∃ box, s.encrypt .standard key (nonce.take 12) [1, 2, 3] [4] = .ok box := by
  intro s key nonce
  obtain ⟨hSucceeds, hGives⟩ :=
    (Level.encryption_is_exact .quantumSafe key nonce [4]).1 [1, 2, 3]
  obtain ⟨box, hBox⟩ := hSucceeds.2 (by decide)
  obtain ⟨hLength, hTag, -, hText, hOthers⟩ := hGives box hBox
  refine ⟨⟨box, hBox, hLength, hTag, hText, hOthers⟩, fun hShort => ?_⟩
  exact absurd (((Level.encryption_is_exact .quantumSafe key (nonce.take 12) [4]).1 [1, 2, 3]).1.1
    hShort) (by decide)

end EndToEnd
