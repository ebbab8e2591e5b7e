import EndToEnd.Envelope.Codec
import EndToEnd.Proofs.JsonText

/-!
# A written envelope is read back

An envelope that passes the checks is read from its written form as it was. The format counts the
bytes of every part in 32 bits, so this needs limits that 32 bits can count; and the size of the
largest envelope must not wrap around.

Main results:

* `MessagePack.gives_unsigned`, `MessagePack.gives_str`, `MessagePack.gives_bin` — single values.
* `Envelope.read_write` — a whole envelope.
* `Envelope.decode_write` — the same, with the checks.
* `Envelope.format_round_trips` — every well-formed envelope has a written form, and every form
  that is read is a form of a well-formed envelope.
-/

namespace EndToEnd

namespace MessagePack

variable {α β : Type}

/-- A reader that takes a value from some bytes, whatever follows them. -/
def Gives (read : Reader α) (bytes : Bytes) (a : α) : Prop :=
  ∀ rest, read (bytes ++ rest) = .ok (a, rest)

theorem Gives.pure (a : α) : Gives (Pure.pure a) [] a := fun _ => rfl

/-- What is read first is read from the front, and what is read next from behind it. -/
theorem Gives.bind {read : Reader α} {next : α → Reader β} {first second : Bytes} {a : α} {b : β}
    (h : Gives read first a) (h' : Gives (next a) second b) :
    Gives (read >>= next) (first ++ second) b := by
  intro rest
  show (read (first ++ second ++ rest)).bind (fun p => next p.1 p.2) = .ok (b, rest)
  rw [List.append_assoc, h]
  exact h' rest

/-- A reader whose last step takes nothing. -/
theorem Gives.last {read : Reader α} {next : α → Reader β} {bytes : Bytes} {a : α} {b : β}
    (h : Gives read bytes a) (h' : Gives (next a) [] b) : Gives (read >>= next) bytes b := by
  have hBind := h.bind h'
  rwa [List.append_nil] at hBind

-- ---------------------------------------------------------------------------
-- Markers, digits and contents
-- ---------------------------------------------------------------------------

/-- Bytes that are there are taken, and what follows is left. -/
theorem takeExactly_append (bytes rest : Bytes) :
    takeExactly bytes.length (bytes ++ rest) = some (bytes, rest) := by
  simp [takeExactly]

/-- Content is read back by its length. -/
theorem gives_content (bytes : Bytes) : Gives (content bytes.length) bytes bytes := by
  intro rest
  simp [content, takeExactly_append]

/-- A number is read back from digits that can hold it. -/
theorem gives_digits {width n : Nat} (h : n < Bytes.capacity width) :
    Gives (digits width) (Bytes.bigEndian width n) n := by
  intro rest
  have hTake := takeExactly_append (Bytes.bigEndian width n) rest
  rw [Bytes.length_bigEndian] at hTake
  simp only [digits, hTake]
  rw [Bytes.ofBigEndian_bigEndian, Nat.mod_eq_of_lt h]

theorem gives_marker (b : UInt8) : Gives marker [b] (.ofByte b) := fun _ => rfl

/-- A header is what its marker and the bytes behind it say. -/
theorem gives_header {b : UInt8} {m : Marker} {bytes : Bytes} {h : Header}
    (hMarker : Marker.ofByte b = m) (hRest : Gives (headerOf m) bytes h) :
    Gives header (b :: bytes) h :=
  (gives_marker b).bind (hMarker ▸ hRest)

/-- A number that a byte holds is read back from it. -/
theorem toNat_ofNat {n : Nat} (h : n < 256) : (UInt8.ofNat n).toNat = n := by
  rw [UInt8.toNat_ofNat']
  omega

-- ---------------------------------------------------------------------------
-- Values
-- ---------------------------------------------------------------------------

/-- A number is read back, if it fits the width that is asked for. -/
theorem gives_unsigned {width n : Nat} (hWidth : n < Bytes.capacity width)
    (hSize : n < UInt64.size) : Gives (natural width) (unsigned n) n := by
  -- behind a marker of a number stands the number, and it fits
  have hNumber {b : UInt8} {m : Marker} {bytes : Bytes} (hMarker : Marker.ofByte b = m)
      (hKind : (∃ k, m = .positive k) ∨ ∃ k, m = .unsigned k)
      (hRest : Gives (headerOf m) bytes (.number (.unsigned n))) :
      Gives (natural width) (b :: bytes) n := by
    refine (gives_marker b).bind (hMarker ▸ ?_)
    rcases hKind with ⟨k, rfl⟩ | ⟨k, rfl⟩ <;>
    · refine hRest.last ?_
      dsimp only
      rw [if_pos hWidth]
      exact .pure n
  have hDigits {k : Nat} (h : n < Bytes.capacity k) :
      Gives (headerOf (.unsigned k)) (Bytes.bigEndian k n) (.number (.unsigned n)) :=
    (gives_digits h).last (.pure _)
  unfold unsigned
  split
  · rename_i hSmall
    refine hNumber (m := .positive n) ?_ (.inl ⟨n, rfl⟩) (.pure _)
    simp [Marker.ofByte, toNat_ofNat (by omega : n < 256), hSmall]
  split
  · exact hNumber (by decide : Marker.ofByte 0xcc = .unsigned 1) (.inr ⟨1, rfl⟩) (hDigits ‹_›)
  split
  · exact hNumber (by decide : Marker.ofByte 0xcd = .unsigned 2) (.inr ⟨2, rfl⟩) (hDigits ‹_›)
  split
  · exact hNumber (by decide : Marker.ofByte 0xce = .unsigned 4) (.inr ⟨4, rfl⟩) (hDigits ‹_›)
  · exact hNumber (by decide : Marker.ofByte 0xcf = .unsigned 8) (.inr ⟨8, rfl⟩) (hDigits hSize)

/-- The header of a string is read back as its length. -/
theorem gives_header_str {bytes : Bytes} (h : bytes.length < UInt32.size) :
    ∃ front, str bytes = front ++ bytes ∧ Gives header front (.str bytes.length) := by
  have hDigits {k : Nat} (h : bytes.length < Bytes.capacity k) :
      Gives (headerOf (.str k)) (Bytes.bigEndian k bytes.length) (.str bytes.length) :=
    (gives_digits h).last (.pure _)
  refine ⟨_, rfl, ?_⟩
  split
  · rename_i hShort
    refine gives_header (m := .shortStr bytes.length) ?_ (.pure _)
    have hByte := toNat_ofNat (by omega : 0xa0 + bytes.length < 256)
    simp only [Marker.ofByte, hByte]
    rw [if_neg (by omega), if_neg (by omega), if_neg (by omega), if_pos (by omega),
      Nat.add_sub_cancel_left]
  split
  · exact gives_header (by decide : Marker.ofByte 0xd9 = .str 1) (hDigits ‹_›)
  split
  · exact gives_header (by decide : Marker.ofByte 0xda = .str 2) (hDigits ‹_›)
  · exact gives_header (by decide : Marker.ofByte 0xdb = .str 4) (hDigits h)

/-- A string is read back if 32 bits can count it. -/
theorem gives_str {s : String} (h : (Bytes.ofText s).length < UInt32.size) :
    Gives text (str (Bytes.ofText s)) s := by
  obtain ⟨front, hFront, hHeader⟩ := gives_header_str h
  rw [hFront]
  refine hHeader.bind ?_
  refine (gives_content (Bytes.ofText s)).last ?_
  rw [Bytes.toText?_ofText]
  exact .pure s

/-- The header of bytes is read back as their number, and is not taken for nothing. -/
theorem gives_header_bin {bytes : Bytes} (h : bytes.length < UInt32.size) :
    ∃ b front, bin bytes = b :: front ++ bytes ∧ Marker.ofByte b ≠ .nil ∧
      Gives (headerOf (.ofByte b)) front (.bin bytes.length) := by
  have hDigits {b : UInt8} {k : Nat} (hMarker : Marker.ofByte b = .bin k)
      (h : bytes.length < Bytes.capacity k) : Marker.ofByte b ≠ .nil ∧
        Gives (headerOf (.ofByte b)) (Bytes.bigEndian k bytes.length) (.bin bytes.length) := by
    rw [hMarker]
    exact ⟨nofun, (gives_digits h).last (.pure _)⟩
  unfold bin
  dsimp only
  split
  · exact ⟨0xc4, _, rfl, hDigits (by decide : Marker.ofByte 0xc4 = .bin 1) ‹_›⟩
  split
  · exact ⟨0xc5, _, rfl, hDigits (by decide : Marker.ofByte 0xc5 = .bin 2) ‹_›⟩
  · exact ⟨0xc6, _, rfl, hDigits (by decide : Marker.ofByte 0xc6 = .bin 4) h⟩

/-- Bytes are read back if 32 bits can count them. -/
theorem gives_bin {found : Bytes} (h : found.length < UInt32.size) :
    Gives bytes (bin found) found := by
  obtain ⟨b, front, hFront, -, hHeader⟩ := gives_header_bin h
  rw [hFront]
  exact (gives_header rfl hHeader).bind (gives_content found)

/-- A part that is there is read back as one that is there. -/
theorem gives_bin? {found : Bytes} (h : found.length < UInt32.size) :
    Gives bytes? (bin found) (some found) := by
  obtain ⟨b, front, hFront, hMarker, hHeader⟩ := gives_header_bin h
  rw [hFront]
  refine (gives_marker b).bind ?_
  split
  · exact absurd ‹_› hMarker
  · exact hHeader.bind ((gives_content found).last (.pure _))

/-- A part that is missing is read back as missing. -/
theorem gives_nil : Gives bytes? nil none := (gives_marker 0xc0).last (.pure none)

end MessagePack

/-- A result that is found when it is worked out. -/
theorem eq_ok_of_toOption {ε α : Type} {r : Except ε α} {a : α} (h : r.toOption = some a) :
    r = .ok a := by
  cases r with
  | error fault => cases h
  | ok b => exact congrArg Except.ok (Option.some.inj h)

namespace Envelope

open MessagePack (Gives)

-- ---------------------------------------------------------------------------
-- The body
-- ---------------------------------------------------------------------------

/-- An envelope of whose parts none is too long to be counted. -/
structure Countable (e : Envelope) : Prop where
  sender : (Bytes.ofText e.sender).length < UInt32.size
  recipient : (Bytes.ofText e.recipient).length < UInt32.size
  nonce : e.nonce.length < UInt32.size
  ciphertext : e.ciphertext.length < UInt32.size
  tag : e.tag.length < UInt32.size
  signature : ∀ bytes, e.signature = some bytes → bytes.length < UInt32.size

/-- The written value of a field. -/
def valueBytes (e : Envelope) : Field → Bytes
  | .sender => MessagePack.str (Bytes.ofText e.sender)
  | .recipient => MessagePack.str (Bytes.ofText e.recipient)
  | .epoch => MessagePack.unsigned e.epoch.toNat
  | .sequence => MessagePack.unsigned e.sequence.toNat
  | .level => MessagePack.unsigned e.level.tag.toNat
  | .ephemeral => MessagePack.bin e.ephemeral.bytes
  | .nonce => MessagePack.bin e.nonce
  | .ciphertext => MessagePack.bin e.ciphertext
  | .tag => MessagePack.bin e.tag
  | .signature => match e.signature with
    | some signature => MessagePack.bin signature
    | none => MessagePack.nil

namespace Parts

/-- Whether a field was read. -/
def given (p : Parts) : Field → Bool
  | .sender => p.sender.isSome
  | .recipient => p.recipient.isSome
  | .epoch => p.epoch.isSome
  | .sequence => p.sequence.isSome
  | .level => p.level.isSome
  | .ephemeral => p.ephemeral.isSome
  | .nonce => p.nonce.isSome
  | .ciphertext => p.ciphertext.isSome
  | .tag => p.tag.isSome
  | .signature => p.signature.isSome

/-- The fields after one more was read from an envelope. -/
def put (e : Envelope) (p : Parts) : Field → Parts
  | .sender => { p with sender := some e.sender }
  | .recipient => { p with recipient := some e.recipient }
  | .epoch => { p with epoch := some e.epoch.toNat }
  | .sequence => { p with sequence := some e.sequence.toNat }
  | .level => { p with level := some e.level.tag.toNat }
  | .ephemeral => { p with ephemeral := some e.ephemeral.bytes }
  | .nonce => { p with nonce := some e.nonce }
  | .ciphertext => { p with ciphertext := some e.ciphertext }
  | .tag => { p with tag := some e.tag }
  | .signature => { p with signature := some e.signature }

/-- Reading one field gives no other. -/
theorem given_put (e : Envelope) (p : Parts) (field other : Field) (h : other ≠ field) :
    (p.put e field).given other = p.given other := by
  cases field <;> cases other <;> first | rfl | exact absurd rfl h

/-- A field that was not given before is read like any value. -/
theorem gives_fresh {α : Type} {field : Field} {given : Option α} {read : MessagePack.Reader α}
    {bytes : Bytes} {a : α} (hNew : given.isSome = false) (h : Gives read bytes a) :
    Gives (fresh field given read) bytes (some a) := by
  intro rest
  unfold fresh
  rw [hNew]
  show (read (bytes ++ rest)).bind _ = _
  rw [h]
  rfl

variable {e : Envelope}

/-- A field for which no value was given before is read from its written value. -/
theorem gives_read (h : e.Countable) {p : Parts} {field : Field} (hNew : p.given field = false) :
    Gives (p.read field) (e.valueBytes field) (p.put e field) := by
  cases field with
  | sender => exact (gives_fresh hNew (MessagePack.gives_str h.sender)).last (.pure _)
  | recipient => exact (gives_fresh hNew (MessagePack.gives_str h.recipient)).last (.pure _)
  | epoch =>
    have hEpoch := e.epoch.toNat_lt
    exact (gives_fresh hNew (MessagePack.gives_unsigned hEpoch hEpoch)).last (.pure _)
  | sequence =>
    have hSequence := e.sequence.toNat_lt
    exact (gives_fresh hNew (MessagePack.gives_unsigned hSequence hSequence)).last (.pure _)
  | level =>
    have hLevel : e.level.tag.toNat < 256 := e.level.tag.toNat_lt
    have hSize : e.level.tag.toNat < UInt64.size := Nat.lt_trans hLevel (by decide)
    exact (gives_fresh hNew (MessagePack.gives_unsigned hLevel hSize)).last (.pure _)
  | ephemeral =>
    have hKey : e.ephemeral.bytes.length < UInt32.size := by
      rw [e.ephemeral.length_eq]
      decide
    exact (gives_fresh hNew (MessagePack.gives_bin hKey)).last (.pure _)
  | nonce => exact (gives_fresh hNew (MessagePack.gives_bin h.nonce)).last (.pure _)
  | ciphertext => exact (gives_fresh hNew (MessagePack.gives_bin h.ciphertext)).last (.pure _)
  | tag => exact (gives_fresh hNew (MessagePack.gives_bin h.tag)).last (.pure _)
  | signature =>
    have hSignature : Gives MessagePack.bytes? (e.valueBytes .signature) e.signature := by
      unfold valueBytes
      cases hSome : e.signature with
      | none => exact MessagePack.gives_nil
      | some signature => exact MessagePack.gives_bin? (h.signature signature hSome)
    exact (gives_fresh hNew hSignature).last (.pure _)

/-- Fields are read one after the other, if none is read twice. -/
theorem gives_foldlM (h : e.Countable) {fields : List Field} (hNodup : fields.Nodup) {p : Parts}
    (hNew : ∀ field ∈ fields, p.given field = false) :
    Gives (fields.foldlM read p) (fields.flatMap e.valueBytes) (fields.foldl (put e) p) := by
  induction fields generalizing p with
  | nil => exact .pure p
  | cons field rest ih =>
    obtain ⟨hFirst, hRest⟩ := List.nodup_cons.1 hNodup
    rw [List.foldlM_cons, List.flatMap_cons]
    refine (gives_read h (hNew field (.head _))).bind (ih hRest fun other hOther => ?_)
    rw [given_put]
    · exact hNew other (.tail _ hOther)
    · rintro rfl
      exact hFirst hOther

end Parts

/-- The body as it is written: ten values, in order. -/
theorem write_eq (e : Envelope) :
    e.write = magic ++ [version] ++
      (MessagePack.shortArray 10 ++ Field.all.flatMap e.valueBytes) := by
  cases hSignature : e.signature <;> simp [write, Field.all, valueBytes, hSignature]

/-- The parts of an envelope as its body says them. -/
def draft (e : Envelope) : Draft :=
  ⟨e.sender, e.recipient, e.epoch, e.sequence, e.level.tag, e.ephemeral.bytes, e.nonce,
    e.ciphertext, e.tag, e.signature⟩

/-- **A body is read back** as the parts that it was written from. -/
theorem gives_body {e : Envelope} (h : e.Countable) :
    Gives readBody (MessagePack.shortArray 10 ++ Field.all.flatMap e.valueBytes) e.draft := by
  have hHeader : Gives MessagePack.header (MessagePack.shortArray 10) (.array 10) :=
    MessagePack.gives_header (by decide : MessagePack.Marker.ofByte 0x9a = .shortArray 10) (.pure _)
  have hFields : Gives (readItems 10) (Field.all.flatMap e.valueBytes)
      (Field.all.foldl (Parts.put e) {}) :=
    (Parts.gives_foldlM h (by decide) (by decide)).last (.pure _)
  refine hHeader.bind (hFields.last fun rest => ?_)
  have hComplete : (Field.all.foldl (Parts.put e) {}).complete = .ok e.draft := by
    show Except.ok (⟨e.sender, e.recipient, UInt64.ofNat e.epoch.toNat,
      UInt64.ofNat e.sequence.toNat,
      UInt8.ofNat e.level.tag.toNat, e.ephemeral.bytes, e.nonce, e.ciphertext, e.tag, e.signature⟩ :
      Draft) = _
    rw [UInt64.ofNat_toNat, UInt64.ofNat_toNat, UInt8.ofNat_toNat]
    rfl
  rw [hComplete]
  rfl

-- ---------------------------------------------------------------------------
-- The whole
-- ---------------------------------------------------------------------------

/-- What an envelope is read as makes the envelope again. -/
theorem ofDraft_draft (e : Envelope) : ofDraft e.draft = .ok e := by
  simp [ofDraft, draft]

/-- What a check that was passed says about the parts. -/
theorem check_eq_ok_iff {limits : Limits} {e : Envelope} :
    e.check limits = .ok () ↔
      idFault? limits.maxDeviceId e.sender = none ∧ idFault? limits.maxDeviceId e.recipient = none ∧
        e.sequence ≠ 0 ∧ e.nonce.length = e.level.suite.nonceSize ∧
        e.tag.length = e.level.suite.tagSize ∧ e.ciphertext.length ≤ limits.maxCiphertext ∧
        e.signatureFault? = none := by
  unfold check fault?
  cases hSender : idFault? limits.maxDeviceId e.sender with
  | some fault => simp
  | none =>
    cases hRecipient : idFault? limits.maxDeviceId e.recipient with
    | some fault => simp
    | none =>
      by_cases hSequence : e.sequence = 0
      · simp [hSequence]
      by_cases hNonce : e.nonce.length = e.level.suite.nonceSize
      · by_cases hTag : e.tag.length = e.level.suite.tagSize
        · by_cases hSize : limits.maxCiphertext < e.ciphertext.length
          · simp [hSequence, hNonce, hTag, hSize, Nat.not_le.2 hSize]
          · cases hSignature : e.signatureFault? <;>
              simp [hSequence, hNonce, hTag, hSize, Nat.not_lt.1 hSize]
        · simp [hSequence, hNonce, hTag]
      · simp [hSequence, hNonce]

/-- A signature that has no fault stands exactly at the levels that sign, and has 64 bytes. -/
theorem signatureFault?_eq_none_iff {e : Envelope} :
    e.signatureFault? = none ↔
      (e.level.suite.isSigned = true ∧ ∃ signature, e.signature = some signature ∧
        signature.length = 64) ∨
        (e.level.suite.isSigned = false ∧ e.signature = none) := by
  unfold signatureFault?
  cases e.signature <;> cases e.level.suite.isSigned <;> simp

/-- An id that passes has no more bytes than it may have. -/
theorem length_ofText_le {limit : Nat} {id : String} (h : idFault? limit id = none) :
    (Bytes.ofText id).length ≤ limit := by
  have hLength : (Bytes.ofText id).length = id.utf8ByteSize := by
    simp [Bytes.ofText]
  unfold idFault? at h
  rw [hLength]
  split at h
  · cases h
  · split at h
    · cases h
    · omega

/-- What passes the checks can be counted, if the limit of ids and the text can. -/
theorem countable_of_check {limits : Limits} {e : Envelope} (h : e.check limits = .ok ())
    (hId : limits.maxDeviceId < UInt32.size) (hText : e.ciphertext.length < UInt32.size) :
    e.Countable := by
  obtain ⟨hSender, hRecipient, -, hNonce, hTag, -, hSignature⟩ := check_eq_ok_iff.1 h
  refine ⟨?_, ?_, ?_, hText, ?_, fun signature hSome => ?_⟩
  · exact Nat.lt_of_le_of_lt (length_ofText_le hSender) hId
  · exact Nat.lt_of_le_of_lt (length_ofText_le hRecipient) hId
  · rw [hNonce]
    cases e.level <;> decide
  · rw [hTag]
    cases e.level <;> decide
  · rcases signatureFault?_eq_none_iff.1 hSignature with ⟨-, signature', hSigned, hLength⟩ |
      ⟨-, hNone⟩
    · rw [hSigned] at hSome
      cases hSome
      rw [hLength]
      decide
    · rw [hNone] at hSome
      cases hSome

/-- No text and no bytes take more than five bytes besides themselves. -/
theorem length_str_le (bytes : Bytes) : (MessagePack.str bytes).length ≤ bytes.length + 5 := by
  unfold MessagePack.str
  dsimp only
  rw [List.length_append]
  have hFront : ∀ width, (Bytes.bigEndian width bytes.length).length = width :=
    fun width => Bytes.length_bigEndian ..
  split
  · simp
    omega
  split
  · simp [hFront]
    omega
  split
  · simp [hFront]
    omega
  · simp [hFront]
    omega

/-- Bytes take at most five more when they are written. -/
theorem length_bin_le (bytes : Bytes) : (MessagePack.bin bytes).length ≤ bytes.length + 5 := by
  unfold MessagePack.bin
  dsimp only
  rw [List.length_append]
  split
  · simp [Bytes.length_bigEndian]
    omega
  split
  · simp [Bytes.length_bigEndian]
    omega
  · simp [Bytes.length_bigEndian]
    omega

/-- A number takes at most nine bytes. -/
theorem length_unsigned_le (n : Nat) : (MessagePack.unsigned n).length ≤ 9 := by
  unfold MessagePack.unsigned
  split
  · simp
  split
  · simp [Bytes.length_bigEndian]
  split
  · simp [Bytes.length_bigEndian]
  split
  · simp [Bytes.length_bigEndian]
  · simp [Bytes.length_bigEndian]

/-- Limits with which the size of the largest envelope can be counted in 64 bits. -/
def Limits.Countable (limits : Limits) : Prop :=
  3 + limits.maxCiphertext + 2 * limits.maxDeviceId + 512 < UInt64.size

instance (limits : Limits) : Decidable limits.Countable :=
  inferInstanceAs (Decidable (_ < _))

/-- A sum that can be counted is not wrapped around. -/
theorem Limits.Countable.maxSize_eq {limits : Limits} (h : limits.Countable) :
    maxSize limits = 3 + limits.maxCiphertext + 2 * limits.maxDeviceId + 512 :=
  Nat.mod_eq_of_lt h

/-- Limits that 32 bits can count leave room for the rest. -/
theorem Limits.countable_of_lt {limits : Limits} (hText : limits.maxCiphertext < UInt32.size)
    (hId : limits.maxDeviceId < UInt32.size) : limits.Countable := by
  unfold Countable
  have hSizes : 3 * UInt32.size + 515 < UInt64.size := by decide
  omega

/-- A text that comes through: the limits let it pass, the 32 bits of the format can count its
length, and 64 bits the size of the largest envelope. -/
structure Limits.Conveys (limits : Limits) (text : Bytes) : Prop where
  allowed : text.length ≤ limits.maxCiphertext
  counted : text.length < UInt32.size
  room : limits.Countable

instance (limits : Limits) (text : Bytes) : Decidable (limits.Conveys text) :=
  decidable_of_iff (text.length ≤ limits.maxCiphertext ∧ text.length < UInt32.size ∧
    limits.Countable) ⟨fun ⟨h, h', h''⟩ => ⟨h, h', h''⟩, fun ⟨h, h', h''⟩ => ⟨h, h', h''⟩⟩

/-- What passes the checks is not too large to be read, if the sizes can be counted. -/
theorem length_write_le {limits : Limits} {e : Envelope} (h : e.check limits = .ok ())
    (hRoom : limits.Countable) : e.write.length ≤ maxSize limits := by
  obtain ⟨hSender, hRecipient, -, hNonce, hTag, hCiphertext, hSignature⟩ := check_eq_ok_iff.1 h
  -- the length of each field, once its header is counted
  have hSender := length_ofText_le hSender
  have hRecipient := length_ofText_le hRecipient
  have hSender' := length_str_le (Bytes.ofText e.sender)
  have hRecipient' := length_str_le (Bytes.ofText e.recipient)
  have hEpoch := length_unsigned_le e.epoch.toNat
  have hSequence := length_unsigned_le e.sequence.toNat
  have hLevel := length_unsigned_le e.level.tag.toNat
  have hEphemeral := length_bin_le e.ephemeral.bytes
  have hKey := e.ephemeral.length_eq
  have hNonce' := length_bin_le e.nonce
  have hCiphertext' := length_bin_le e.ciphertext
  have hTag' := length_bin_le e.tag
  have hNonceSize : e.level.suite.nonceSize ≤ 24 := by cases e.level <;> decide
  have hTagSize : e.level.suite.tagSize = 16 := rfl
  have hSigned : (e.valueBytes .signature).length ≤ 69 := by
    unfold valueBytes
    rcases signatureFault?_eq_none_iff.1 hSignature with ⟨-, signature, hSome, hLength⟩ | ⟨-, hNone⟩
    · rw [hSome]
      have hBin := length_bin_le signature
      dsimp only
      omega
    · rw [hNone]
      exact Nat.le_add_left 1 68
  -- the magic bytes, the version, the header of the array, and the fields
  have hLength : e.write.length = 4 + ((MessagePack.str (Bytes.ofText e.sender)).length
      + (MessagePack.str (Bytes.ofText e.recipient)).length
      + (MessagePack.unsigned e.epoch.toNat).length + (MessagePack.unsigned e.sequence.toNat).length
      + (MessagePack.unsigned e.level.tag.toNat).length + (MessagePack.bin e.ephemeral.bytes).length
      + (MessagePack.bin e.nonce).length + (MessagePack.bin e.ciphertext).length
      + (MessagePack.bin e.tag).length + (e.valueBytes .signature).length) := by
    have hMagic : magic.length = 2 := by decide
    rw [write_eq]
    simp [Field.all, valueBytes, hMagic, MessagePack.shortArray]
    omega
  -- where the limits can be counted, the sum of the gate is the sum of the numbers
  rw [hLength, hRoom.maxSize_eq]
  omega

/-- **A written envelope is read back,** whatever its parts are, if they can be counted and are not
too large. -/
theorem read_write {limits : Limits} {e : Envelope} (h : e.Countable)
    (hSize : e.write.length ≤ maxSize limits) : read limits e.write = .ok e := by
  have hMagic : magic = [0x50, 0x53] := by decide
  have hWrite : e.write =
      0x50 :: 0x53 :: version :: (MessagePack.shortArray 10 ++ Field.all.flatMap e.valueBytes) := by
    rw [write_eq, hMagic]
    rfl
  have hBody := gives_body h []
  rw [List.append_nil] at hBody
  rw [hWrite] at hSize ⊢
  unfold read
  dsimp only
  rw [if_neg (by simp [hMagic]), if_neg (by simp), if_neg (Nat.not_lt.2 hSize), hBody]
  exact ofDraft_draft e

/-- **An envelope that passes the checks is read back from its written form,** if this is not too
large. -/
theorem decode_write {limits : Limits} {e : Envelope} (h : e.check limits = .ok ())
    (hSize : e.write.length ≤ maxSize limits) (hId : limits.maxDeviceId < UInt32.size)
    (hText : e.ciphertext.length < UInt32.size) : decode limits e.write = .ok e := by
  unfold decode
  rw [read_write (countable_of_check h hId hText) hSize]
  dsimp only
  rw [h]

-- ---------------------------------------------------------------------------
-- The format
-- ---------------------------------------------------------------------------

/-- Only an envelope that passes the checks is written. -/
theorem encode_eq_ok_iff {limits : Limits} {e : Envelope} {bytes : Bytes} :
    encode limits e = .ok bytes ↔ e.check limits = .ok () ∧ bytes = e.write := by
  unfold encode
  cases e.check limits <;> simp [eq_comm]

/-- What is decoded was read. -/
theorem read_of_decode_eq_ok {limits : Limits} {bytes : Bytes} {e : Envelope}
    (h : decode limits bytes = .ok e) : read limits bytes = .ok e := by
  unfold decode at h
  split at h
  · cases h
  · rename_i found hFound
    split at h
    · cases h
      exact hFound
    · cases h

/-- What is read is not too large. -/
theorem length_le_of_decode {limits : Limits} {e : Envelope} {bytes : Bytes}
    (h : decode limits bytes = .ok e) : bytes.length ≤ maxSize limits := by
  have hRead := read_of_decode_eq_ok h
  unfold read at hRead
  split at hRead
  · split at hRead
    · cases hRead
    split at hRead
    · cases hRead
    split at hRead
    · cases hRead
    · rename_i hSize
      exact Nat.not_lt.1 hSize
  · cases hRead

/-- What is read has passed the checks, in whatever form it was written. -/
theorem check_of_decode {limits : Limits} {e : Envelope} {bytes : Bytes}
    (h : decode limits bytes = .ok e) : e.check limits = .ok () := by
  unfold decode at h
  cases hRead : read limits bytes with
  | error reason => simp [hRead] at h
  | ok found =>
    cases hCheck : found.check limits with
    | error failure => simp [hRead, hCheck] at h
    | ok =>
      have hFound : found = e := by simpa [hRead, hCheck] using h
      rw [← hFound]
      exact hCheck

/-- **The format holds exactly the well-formed envelopes.** With limits that 32 bits can count, an
envelope has a written form if and only if it passes the checks; the form is not too large to be
read, and is read as that envelope. Whatever else is read is another form of an envelope that passes
the checks, so it has a written form too, and that one is read as the same envelope. -/
theorem format_round_trips {limits : Limits} (hText : limits.maxCiphertext < UInt32.size)
    (hId : limits.maxDeviceId < UInt32.size) :
    (∀ e : Envelope,
      ((∃ bytes, encode limits e = .ok bytes) ↔ e.check limits = .ok ()) ∧
      ∀ bytes, encode limits e = .ok bytes →
        bytes.length ≤ maxSize limits ∧ decode limits bytes = .ok e) ∧
    ∀ (found : Bytes) (e : Envelope), decode limits found = .ok e →
      e.check limits = .ok () ∧
        ∃ bytes, encode limits e = .ok bytes ∧ decode limits bytes = .ok e := by
  have hRoom := Limits.countable_of_lt hText hId
  have hDecode {e : Envelope} (hCheck : e.check limits = .ok ()) :
      decode limits e.write = .ok e := by
    have hLength := (check_eq_ok_iff.1 hCheck).2.2.2.2.2.1
    exact decode_write hCheck (length_write_le hCheck hRoom) hId (by omega)
  refine ⟨fun e => ⟨⟨?_, ?_⟩, ?_⟩, ?_⟩
  · rintro ⟨bytes, hEncode⟩
    exact (encode_eq_ok_iff.1 hEncode).1
  · intro hCheck
    exact ⟨e.write, encode_eq_ok_iff.2 ⟨hCheck, rfl⟩⟩
  · intro bytes hEncode
    obtain ⟨hCheck, rfl⟩ := encode_eq_ok_iff.1 hEncode
    exact ⟨length_write_le hCheck hRoom, hDecode hCheck⟩
  · intro found e hFound
    have hCheck := check_of_decode hFound
    exact ⟨hCheck, e.write, encode_eq_ok_iff.2 ⟨hCheck, rfl⟩, hDecode hCheck⟩

/-- A signed envelope that says nothing. -/
def silence : Envelope :=
  ⟨"ann", "bob", 7, 300, .military, .leading 32 [], List.replicate 12 1, [], List.replicate 16 2,
    some (List.replicate 64 3)⟩

/-- The envelope as an array whose length takes two bytes. -/
def silenceSpelled : Bytes :=
  magic ++ [version] ++ [0xdc, 0, 10] ++ silence.write.drop 4

/-- The other spelling is read, so what it says has a written form, which is not that spelling. -/
theorem format_round_trips_of_silenceSpelled :
    (64 < UInt32.size ∧ 16 < UInt32.size) ∧ decode ⟨64, 16⟩ silenceSpelled = .ok silence ∧
      silence.check ⟨64, 16⟩ = .ok () ∧
      ∃ bytes, encode ⟨64, 16⟩ silence = .ok bytes ∧ decode ⟨64, 16⟩ bytes = .ok silence ∧
        bytes ≠ silenceSpelled := by
  have hSpelled : decode ⟨64, 16⟩ silenceSpelled = .ok silence :=
    eq_ok_of_toOption (by decide +kernel)
  obtain ⟨hCheck, bytes, hEncode, hDecode⟩ :=
    (@format_round_trips ⟨64, 16⟩ (by decide) (by decide)).2 silenceSpelled silence hSpelled
  refine ⟨by decide, hSpelled, hCheck, bytes, hEncode, hDecode, ?_⟩
  rw [(encode_eq_ok_iff.1 hEncode).2]
  decide +kernel

end Envelope

end EndToEnd
