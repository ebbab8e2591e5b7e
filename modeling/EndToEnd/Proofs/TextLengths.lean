import EndToEnd.Proofs.Letters
import EndToEnd.Proofs.PrefixFree

/-!
# What cannot be counted is not received

MessagePack counts the bytes of a part in at most four bytes. So no part of an envelope that is read
has `2 ^ 32` bytes or more, in whatever form it is written and however long that is; and a cipher
that keeps lengths makes no longer text of it. Limits may let longer texts pass all the same: then
they are sent, but never received.

Main results:

* `Envelope.length_ciphertext_lt` — the ciphertext of an envelope that is read.
* `Device.length_received_lt` — the text of a message that is received.
-/

namespace EndToEnd

namespace MessagePack

variable {α β : Type} {p : α → Prop} {q : β → Prop}

/-- Whatever the reader takes has a property. -/
def Yields (read : Reader α) (p : α → Prop) : Prop :=
  ∀ bytes a rest, read bytes = .ok (a, rest) → p a

-- ---------------------------------------------------------------------------
-- Steps
-- ---------------------------------------------------------------------------

theorem Yields.pure {a : α} (h : p a) : Yields (Pure.pure a) p := by
  intro bytes a' rest hRead
  cases hRead
  exact h

theorem Yields.throw (fault : Fault) : Yields (throw fault : Reader α) p := nofun

/-- Nothing is claimed of what is taken. -/
theorem Yields.trivial (read : Reader α) : Yields read fun _ => True := fun _ _ _ _ => ⟨⟩

/-- What the first step takes may be used of the second. -/
theorem Yields.bind {read : Reader α} {next : α → Reader β} (h : Yields read p)
    (h' : ∀ a, p a → Yields (next a) q) : Yields (read >>= next) q := by
  intro bytes b rest hRead
  change (read bytes).bind (fun found => next found.1 found.2) = .ok (b, rest) at hRead
  cases hFirst : read bytes with
  | error fault =>
    rw [hFirst] at hRead
    cases hRead
  | ok found =>
    obtain ⟨a, behind⟩ := found
    rw [hFirst] at hRead
    exact h' a (h bytes a behind hFirst) behind b rest hRead

/-- A value is refused. -/
theorem yields_refuse (expected : Expected) (h : Header) :
    Yields (refuse expected h : Reader α) p := by
  cases h with
  | nil | bool | number | array | map | ext => exact .throw _
  | bin length => exact (Yields.trivial (content length)).bind fun _ _ => .throw _
  | str length =>
    refine (Yields.trivial (content length)).bind fun bytes _ => ?_
    cases Bytes.toText? bytes with
    | none => exact .throw _
    | some text => exact .throw _

-- ---------------------------------------------------------------------------
-- Lengths
-- ---------------------------------------------------------------------------

/-- So many bytes make a number that they can hold. -/
theorem ofBigEndian_lt (bytes : Bytes) : Bytes.ofBigEndian bytes < Bytes.capacity bytes.length := by
  rw [← List.reverse_reverse bytes, Bytes.ofBigEndian_reverse, List.length_reverse]
  induction bytes.reverse with
  | nil => exact Nat.one_pos
  | cons b rest ih =>
    have hByte : b.toNat < 256 := b.toNat_lt
    show b.toNat + 256 * Bytes.ofLittleEndian rest < 256 * Bytes.capacity rest.length
    omega

/-- Digits make a number that so many bytes can hold. -/
theorem yields_digits (width : Nat) : Yields (digits width) (· < Bytes.capacity width) := by
  intro bytes n rest h
  unfold digits at h
  split at h
  · rename_i found behind hTake
    cases h
    obtain ⟨rfl, -⟩ := takeExactly_eq_some_iff.1 hTake
    exact ofBigEndian_lt found
  · cases h

/-- Content has the length that was asked for. -/
theorem yields_content (length : Nat) : Yields (content length) (·.length = length) := by
  intro bytes found rest h
  unfold content at h
  split at h
  · rename_i hTake
    cases h
    exact (takeExactly_eq_some_iff.1 hTake).1
  · cases h

/-- A marker whose length, or the number of bytes that it follows in, is one of the format. -/
def Marker.IsSmall : Marker → Prop
  | .shortStr length | .shortArray length => length < UInt32.size
  | .str width | .bin width | .array width => Bytes.capacity width ≤ UInt32.size
  | _ => True

instance : DecidablePred Marker.IsSmall := fun m => by
  cases m <;> unfold Marker.IsSmall <;> infer_instance

/-- There are no other markers. -/
theorem Marker.isSmall_ofByte (b : UInt8) : (ofByte b).IsSmall := by
  have hAll : ∀ n < 256, (ofByte (UInt8.ofNat n)).IsSmall := by decide +kernel
  rw [← UInt8.ofNat_toNat (x := b)]
  exact hAll b.toNat b.toNat_lt

/-- A header that announces less than `2 ^ 32` bytes or values. -/
def Header.IsSmall : Header → Prop
  | .str length | .bin length | .array length => length < UInt32.size
  | _ => True

/-- No marker announces a length of more than 32 bits. -/
theorem yields_headerOf {m : Marker} (h : m.IsSmall) : Yields (headerOf m) Header.IsSmall := by
  cases m with
  | nil | false | true | positive | negative | shortMap | shortExt => exact .pure ⟨⟩
  | shortStr | shortArray => exact .pure h
  | unsigned width | signed width | float width | map width | ext width =>
    exact (Yields.trivial (digits width)).bind fun _ _ => .pure ⟨⟩
  | str width | bin width | array width =>
    exact (yields_digits width).bind fun n hn => .pure (Nat.lt_of_lt_of_le hn h)
  | reserved => exact .throw _

/-- No header announces a length of more than 32 bits. -/
theorem yields_header : Yields header Header.IsSmall := by
  have hMarker : Yields marker Marker.IsSmall := by
    intro bytes m rest hRead
    cases bytes with
    | nil => cases hRead
    | cons b behind =>
      cases hRead
      exact Marker.isSmall_ofByte b
  exact hMarker.bind fun m hSmall => yields_headerOf hSmall

/-- Bytes that come as an array are as many as it has items. -/
theorem yields_byteItems (done : Bytes) (n : Nat) :
    Yields (byteItems done n) (·.length = done.length + n) := by
  induction n generalizing done with
  | zero => exact .pure List.length_reverse
  | succ n ih =>
    rw [byteItems_succ]
    refine (Yields.trivial (natural 1)).bind fun b _ => ?_
    have hItems := ih (UInt8.ofNat b :: done)
    rw [List.length_cons, Nat.add_assoc, Nat.add_comm 1] at hItems
    exact hItems

/-- **Bytes are less than `2 ^ 32`,** whether they are written as such, as a string or as numbers. -/
theorem yields_bytes : Yields bytes (·.length < UInt32.size) := by
  refine yields_header.bind fun h hSmall => ?_
  have hExact {read : Reader Bytes} {length : Nat} (hRead : Yields read (·.length = length))
      (hLength : length < UInt32.size) : Yields read (·.length < UInt32.size) := by
    intro bytes found rest hFound
    rw [hRead bytes found rest hFound]
    exact hLength
  unfold bytesOf
  split
  · exact hExact (yields_content _) hSmall
  · exact hExact (yields_content _) hSmall
  · rename_i length
    have hItems := yields_byteItems [] length
    rw [List.length_nil, Nat.zero_add] at hItems
    exact hExact hItems hSmall
  · exact yields_refuse .bytes _

end MessagePack

namespace Envelope

open MessagePack (Reader Yields)

-- ---------------------------------------------------------------------------
-- Envelopes
-- ---------------------------------------------------------------------------

/-- The ciphertext that was read so far, if it was, has less than `2 ^ 32` bytes. -/
def Parts.IsSmall (p : Parts) : Prop :=
  ∀ ciphertext, p.ciphertext = some ciphertext → ciphertext.length < UInt32.size

/-- A field keeps the ciphertext, or is it. -/
theorem Parts.yields_read {p : Parts} (h : p.IsSmall) (field : Field) :
    Yields (p.read field) IsSmall := by
  have hOther {α : Type} {read : Reader α} {put : α → Parts}
      (hSame : ∀ a, (put a).ciphertext = p.ciphertext) :
      Yields (do return put (← read)) IsSmall := by
    refine (Yields.trivial read).bind fun a _ => .pure ?_
    unfold IsSmall
    rw [hSame a]
    exact h
  cases field with
  | sender | recipient | epoch | sequence | level | ephemeral | nonce | tag | signature =>
    exact hOther fun _ => rfl
  | ciphertext =>
    have hFresh : Yields (fresh .ciphertext p.ciphertext MessagePack.bytes)
        fun found => ∀ ciphertext, found = some ciphertext → ciphertext.length < UInt32.size := by
      unfold fresh
      split
      · exact .throw _
      · refine MessagePack.yields_bytes.bind fun bytes hLength => .pure ?_
        rintro ciphertext ⟨⟩
        exact hLength
    exact hFresh.bind fun found hFound => .pure hFound

/-- An envelope written as an array has a ciphertext that 32 bits can count. -/
theorem Parts.yields_foldlM (fields : List Field) {p : Parts} (h : p.IsSmall) :
    Yields (fields.foldlM read p) IsSmall := by
  induction fields generalizing p with
  | nil => exact .pure h
  | cons field rest ih =>
    rw [List.foldlM_cons]
    exact (yields_read h field).bind fun _ hParts => ih hParts

/-- An envelope written as a map has a ciphertext that 32 bits can count. -/
theorem yields_readEntries {p : Parts} (h : p.IsSmall) (n : Nat) :
    Yields (readEntries p n) Parts.IsSmall := by
  induction n generalizing p with
  | zero => exact .pure h
  | succ n ih =>
    rw [readEntries_succ]
    have hEntry : Yields (readEntry p) Parts.IsSmall := by
      refine (Yields.trivial Field.read).bind fun found _ => ?_
      cases found with
      | some field => exact Parts.yields_read h field
      | none => exact (Yields.trivial (MessagePack.skip _)).bind fun _ _ => .pure h
    exact hEntry.bind fun _ hParts => ih hParts

/-- A draft has the ciphertext that was read. -/
theorem Parts.ciphertext_of_complete {p : Parts} {draft : Draft} (h : p.complete = .ok draft) :
    p.ciphertext = some draft.ciphertext := by
  have hStep {α β : Type} {result : Except MessagePack.Fault α}
      {next : α → Except MessagePack.Fault β} {b : β} (h : result >>= next = .ok b) :
      ∃ a, result = .ok a ∧ next a = .ok b := by
    cases result with
    | error fault => cases h
    | ok a => exact ⟨a, rfl, h⟩
  -- the fields are asked for one after another, and the ciphertext is the eighth
  unfold complete at h
  obtain ⟨sender, -, h⟩ := hStep h
  obtain ⟨recipient, -, h⟩ := hStep h
  obtain ⟨epoch, -, h⟩ := hStep h
  obtain ⟨sequence, -, h⟩ := hStep h
  obtain ⟨level, -, h⟩ := hStep h
  obtain ⟨ephemeral, -, h⟩ := hStep h
  obtain ⟨nonce, -, h⟩ := hStep h
  obtain ⟨ciphertext, hCiphertext, h⟩ := hStep h
  obtain ⟨tag, -, h⟩ := hStep h
  cases h
  unfold need at hCiphertext
  split at hCiphertext
  · rename_i found
    cases hCiphertext
    exact found
  · cases hCiphertext

/-- **Every body that is read has a ciphertext that 32 bits can count,** whichever way it is
spelled. -/
theorem yields_readBody : Yields readBody (·.ciphertext.length < UInt32.size) := by
  have hNone : Parts.IsSmall {} := nofun
  have hLift {p : Parts} (h : p.IsSmall) :
      Yields (liftM p.complete : Reader Draft) (·.ciphertext.length < UInt32.size) := by
    cases hComplete : p.complete with
    | error fault => exact .throw _
    | ok draft => exact .pure (h _ (Parts.ciphertext_of_complete hComplete))
  refine (Yields.trivial MessagePack.header).bind fun h _ => ?_
  cases h with
  | array length =>
    refine Yields.bind (p := Parts.IsSmall) ?_ fun _ h => hLift h
    refine (Parts.yields_foldlM _ hNone).bind fun parts hParts => ?_
    split
    · exact .throw _
    split
    · exact .throw _
    · exact .pure hParts
  | map length => exact (yields_readEntries hNone length).bind fun _ h => hLift h
  | nil | bool | number | str | bin | ext => exact MessagePack.yields_refuse bodyType _

/-- **The ciphertext of an envelope that is read** has less than `2 ^ 32` bytes. -/
theorem length_ciphertext_lt {limits : Limits} {bytes : Bytes} {e : Envelope}
    (h : decode limits bytes = .ok e) : e.ciphertext.length < UInt32.size := by
  have hRead := read_of_decode_eq_ok h
  obtain ⟨body, draft, rfl, hBody⟩ := of_read_eq_ok hRead
  rw [read_opening (length_le_of_decode h), hBody] at hRead
  have hDraft : ofDraft draft = .ok e := hRead
  have hSame : e.ciphertext = draft.ciphertext := by
    unfold ofDraft at hDraft
    split at hDraft
    · cases hDraft
    · cases hDraft
    · cases hDraft
      rfl
  rw [hSame]
  exact yields_readBody body draft [] hBody

end Envelope

-- ---------------------------------------------------------------------------
-- Messages
-- ---------------------------------------------------------------------------

/-- Decryption gives a text as long as the ciphertext. -/
def Primitives.KeepsLength (P : Primitives) : Prop :=
  ∀ alg key nonce box associated plaintext,
    P.decrypt? alg key nonce box associated = some plaintext →
      plaintext.length = box.ciphertext.length

/-- So do the ciphers that run. -/
theorem Primitives.standard_keepsLength : standard.KeepsLength := by
  intro alg key nonce box associated plaintext h
  obtain ⟨-, -, rfl⟩ := Aead.decrypt?_eq_some_iff.1 h
  exact Bytes.length_xorWith ..

/-- What is accepted was decrypted in a session. -/
theorem Inbound.Accepts.opened {P : Primitives} {s : Setting} {sender : Peer} {e : Envelope}
    {plaintext : Bytes} {i i' : Inbound} (h : Accepts P s sender e plaintext i i') :
    ∃ session session' : Session,
      session.decrypt P s.config.maxSkip e = .ok (plaintext, session') := by
  cases h with
  | continues known readable opened => exact ⟨_, _, opened⟩
  | begins unknown above begun opened wanes => exact ⟨_, _, opened⟩

/-- And so do those that hide nothing. -/
theorem Primitives.plain_keepsLength : plain.KeepsLength := by
  intro alg key nonce box associated plaintext h
  change (if box.tag = key.bytes.take 16 then some box.ciphertext else none) = _ at h
  split at h
  · cases h
    rfl
  · cases h

namespace Device

variable {P : Primitives} {d : Device}

/-- **No message that is received** has `2 ^ 32` bytes or more, and none was too large to be read. -/
theorem length_received_lt (hKeeps : P.KeepsLength) {bytes : Bytes} {m : ReceivedMessage}
    (h : (d.receive P bytes).1 = .ok m) :
    m.plaintext.length < UInt32.size ∧ bytes.length ≤ Envelope.maxSize d.config.limits := by
  have hReply : (d.step P (.receive bytes)).1 = .received (.ok m) := congrArg Reply.received h
  rcases receiving_step (P := P) d (.receive bytes) m.sender with
    ⟨hNone, -⟩ | ⟨bytes', e, peer, plaintext, hOp, hReply', hTakes⟩
  · rw [hReply] at hNone
    simp [History.message?] at hNone
  cases hOp
  have hSame : m.plaintext = plaintext := by
    injection hReply.symm.trans hReply' with hResult
    rw [Except.ok.inj hResult]
  obtain ⟨session, session', hOpened⟩ := hTakes.accepts.opened
  obtain ⟨-, -, advance, -, -, hDecrypted, -⟩ := Session.decrypt_eq_ok_iff.1 hOpened
  refine ⟨?_, Envelope.length_le_of_decode hTakes.decoded⟩
  unfold Suite.decrypt? at hDecrypted
  split at hDecrypted
  · rw [hSame, hKeeps _ _ _ _ _ _ hDecrypted]
    exact Envelope.length_ciphertext_lt hTakes.decoded
  · cases hDecrypted

end Device

end EndToEnd
