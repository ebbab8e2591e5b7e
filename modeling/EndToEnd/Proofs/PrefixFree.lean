import EndToEnd.Proofs.EnvelopeText

/-!
# No accepted form begins another

A form of an envelope says itself where it ends. Readers of MessagePack take a value from the front
of bytes without looking further, in whichever of its forms it is written, and they notice where the
value is cut off. The check for trailing bytes after the body does the rest.

Main results:

* `MessagePack.Delimits.bind` — steps that notice where they end make a reader that does.
* `MessagePack.delimits_skip` — values that are passed over end where they say, however nested.
* `Envelope.delimits_readBody` — so does a body, as an array or as a map.
* `Envelope.forms_are_prefix_free` — what is cut off or goes on is refused, and why.
-/

namespace EndToEnd

namespace MessagePack

variable {α β : Type}

/-- The fault says that bytes are missing. -/
def Fault.EndsEarly (fault : Fault) : Prop :=
  fault = .noMarker ∨ fault = .shortNumber ∨ fault = .shortContent

/-- The reader takes `a` from exactly these bytes, whatever follows them, and misses the others
where only some of them are there. -/
structure Spells (read : Reader α) (bytes : Bytes) (a : α) : Prop where
  gives : Gives read bytes a
  cut : ∀ front, front <+: bytes → front ≠ bytes →
    ∃ fault, read front = .error fault ∧ fault.EndsEarly

/-- What the reader takes from the front of bytes tells by itself where it ends. -/
def Delimits (read : Reader α) : Prop :=
  ∀ bytes a rest, read bytes = .ok (a, rest) → ∃ front, bytes = front ++ rest ∧ Spells read front a

-- ---------------------------------------------------------------------------
-- Steps
-- ---------------------------------------------------------------------------

/-- Nothing is read from nothing. -/
theorem Spells.pure (a : α) : Spells (Pure.pure a) [] a where
  gives := .pure a
  cut _ hPrefix hNe := absurd (List.prefix_nil.1 hPrefix) hNe

/-- Two values one after the other: what cuts the whole cuts the first, or the second behind the
whole first. -/
theorem Spells.bind {read : Reader α} {next : α → Reader β} {first second : Bytes} {a : α} {b : β}
    (h : Spells read first a) (h' : Spells (next a) second b) :
    Spells (read >>= next) (first ++ second) b where
  gives := h.gives.bind h'.gives
  cut front hPrefix hNe := by
    by_cases hFirst : first <+: front
    · obtain ⟨behind, rfl⟩ := hFirst
      obtain ⟨fault, hFault, hEnds⟩ := h'.cut behind ((List.prefix_append_right_inj first).1 hPrefix)
        (fun hBehind => hNe (by rw [hBehind]))
      refine ⟨fault, ?_, hEnds⟩
      show (read (first ++ behind)).bind (fun p => next p.1 p.2) = .error fault
      rw [h.gives behind]
      exact hFault
    · have hShort : front <+: first :=
        (List.prefix_or_prefix_of_prefix hPrefix (List.prefix_append first second)).resolve_right
          hFirst
      obtain ⟨fault, hFault, hEnds⟩ := h.cut front hShort
        (fun hFront => hFirst (hFront ▸ List.prefix_rfl))
      refine ⟨fault, ?_, hEnds⟩
      show (read front).bind (fun p => next p.1 p.2) = .error fault
      rw [hFault]
      rfl

/-- A reader that takes nothing ends where it begins. -/
theorem Delimits.pure (a : α) : Delimits (Pure.pure a) := by
  intro bytes a' rest h
  cases h
  exact ⟨[], rfl, .pure a⟩

theorem Delimits.throw (fault : Fault) : Delimits (throw fault : Reader α) := nofun

/-- **Steps that notice where they end make a reader that does.** -/
theorem Delimits.bind {read : Reader α} {next : α → Reader β} (h : Delimits read)
    (h' : ∀ a, Delimits (next a)) : Delimits (read >>= next) := by
  intro bytes b rest hRead
  change (read bytes).bind (fun p => next p.1 p.2) = .ok (b, rest) at hRead
  cases hFirst : read bytes with
  | error fault =>
    rw [hFirst] at hRead
    cases hRead
  | ok p =>
    obtain ⟨a, behind⟩ := p
    rw [hFirst] at hRead
    obtain ⟨first, rfl, hSpells⟩ := h bytes a behind hFirst
    obtain ⟨second, rfl, hSpells'⟩ := h' a behind b rest hRead
    exact ⟨first ++ second, (List.append_assoc ..).symm, hSpells.bind hSpells'⟩

/-- What is made of a value does not matter to where it ends. -/
theorem Delimits.map {read : Reader α} (f : α → β) (h : Delimits read) : Delimits (f <$> read) :=
  h.bind fun a => .pure (f a)

/-- A result that needs no bytes. -/
theorem Delimits.lift (result : Except Fault α) : Delimits (liftM result : Reader α) := by
  cases result with
  | error fault => exact .throw fault
  | ok a => exact .pure a

-- ---------------------------------------------------------------------------
-- Markers, digits and contents
-- ---------------------------------------------------------------------------

/-- A marker is one byte, or the first byte and what it says of the rest. -/
theorem delimits_marker : Delimits marker := by
  intro bytes m rest h
  cases bytes with
  | nil => cases h
  | cons b behind =>
    cases h
    refine ⟨[b], rfl, gives_marker b, fun front hPrefix hNe => ?_⟩
    rcases front with - | ⟨c, front⟩
    · exact ⟨.noMarker, rfl, .inl rfl⟩
    · obtain ⟨rfl, hNil⟩ := List.cons_prefix_cons.1 hPrefix
      exact absurd (by rw [List.prefix_nil.1 hNil]) hNe

/-- What is taken is as long as it should be, and stands in front. -/
theorem takeExactly_eq_some_iff {n : Nat} {bytes found rest : Bytes} :
    takeExactly n bytes = some (found, rest) ↔ found.length = n ∧ bytes = found ++ rest := by
  constructor
  · intro h
    unfold takeExactly at h
    split at h
    · cases h
    · rename_i hEnough
      cases h
      have hAtMost := List.length_take_le n bytes
      exact ⟨by omega, (List.take_append_drop n bytes).symm⟩
  · rintro ⟨rfl, rfl⟩
    exact takeExactly_append found rest

/-- What is not there cannot be taken. -/
theorem takeExactly_eq_none {n : Nat} {bytes : Bytes} (h : bytes.length < n) :
    takeExactly n bytes = none := by
  unfold takeExactly
  rw [if_pos (by rw [List.length_take]; omega)]

/-- A proper front is shorter. -/
theorem length_lt_of_cut {front bytes : Bytes} (hPrefix : front <+: bytes) (hNe : front ≠ bytes) :
    front.length < bytes.length :=
  Nat.lt_of_le_of_ne hPrefix.length_le fun hLength => hNe (hPrefix.eq_of_length hLength)

/-- A number of fixed width ends after so many bytes. -/
theorem delimits_digits (width : Nat) : Delimits (digits width) := by
  intro bytes n rest h
  unfold digits at h
  split at h
  · rename_i found behind hTake
    cases h
    obtain ⟨rfl, rfl⟩ := takeExactly_eq_some_iff.1 hTake
    refine ⟨found, rfl, fun more => ?_, fun front hPrefix hNe => ⟨.shortNumber, ?_, .inr (.inl rfl)⟩⟩
    · unfold digits
      rw [takeExactly_append]
    · unfold digits
      rw [takeExactly_eq_none (length_lt_of_cut hPrefix hNe)]
  · cases h

/-- Content ends where its length says. -/
theorem delimits_content (length : Nat) : Delimits (content length) := by
  intro bytes found rest h
  unfold content at h
  split at h
  · rename_i hTake
    cases h
    obtain ⟨rfl, rfl⟩ := takeExactly_eq_some_iff.1 hTake
    refine ⟨found, rfl, gives_content found, fun front hPrefix hNe => ⟨.shortContent, ?_, ?_⟩⟩
    · unfold content
      rw [takeExactly_eq_none (length_lt_of_cut hPrefix hNe)]
    · exact .inr (.inr rfl)
  · cases h

-- ---------------------------------------------------------------------------
-- Headers
-- ---------------------------------------------------------------------------

/-- A marker says how many bytes of length follow it. -/
theorem delimits_headerOf (m : Marker) : Delimits (headerOf m) := by
  cases m with
  | nil | false | true | positive | negative | shortStr | shortArray | shortMap | shortExt =>
    exact .pure _
  | unsigned width | signed width | float width | str width | bin width | array width | map width
  | ext width => exact (delimits_digits width).bind fun n => .pure _
  | reserved => exact .throw _

theorem delimits_header : Delimits header := delimits_marker.bind delimits_headerOf

/-- A value that is refused gives nothing, so there is nothing to delimit. -/
theorem delimits_refuse (expected : Expected) (h : Header) :
    Delimits (refuse expected h : Reader α) := by
  cases h with
  | nil | bool | number | array | map | ext => exact .throw _
  | bin length => exact (delimits_content length).bind fun _ => .throw _
  | str length =>
    refine (delimits_content length).bind fun bytes => ?_
    cases Bytes.toText? bytes with
    | none => exact .throw _
    | some text => exact .throw _

-- ---------------------------------------------------------------------------
-- Values
-- ---------------------------------------------------------------------------

/-- A string ends where its length says. -/
theorem delimits_text : Delimits text := by
  refine delimits_header.bind fun h => ?_
  cases h with
  | nil | bool | number | array | map | ext => exact delimits_refuse .text _
  | str length | bin length =>
    refine (delimits_content length).bind fun bytes => ?_
    cases Bytes.toText? bytes with
    | none => exact .throw _
    | some text => exact .pure text

/-- A header that should be that of a number. -/
theorem delimits_naturalOf (width : Nat) (h : Header) : Delimits (match h with
    | .number (.unsigned n) =>
      if n < Bytes.capacity width then return n
      else throw (.wrongValue (.number (.unsigned n)) (.natural width))
    | .number (.signed n) =>
      if 0 ≤ n ∧ n.toNat < Bytes.capacity width then return n.toNat
      else throw (.wrongValue (.number (.signed n)) (.natural width))
    | h => refuse (.natural width) h : Reader Nat) := by
  split
  · split
    · exact .pure _
    · exact .throw _
  · split
    · exact .pure _
    · exact .throw _
  · exact delimits_refuse _ _

/-- A number ends where its marker says, whatever its sign. -/
theorem delimits_natural (width : Nat) : Delimits (natural width) := by
  refine delimits_marker.bind fun m => ?_
  cases m with
  | positive | negative | unsigned | signed | float =>
    exact (delimits_headerOf _).bind (delimits_naturalOf width)
  | nil | false | true | shortStr | shortArray | shortMap | shortExt | str | bin | array | map | ext
  | reserved => exact .throw _

theorem byteItems_succ (done : Bytes) (n : Nat) :
    byteItems done (n + 1) = natural 1 >>= fun b => byteItems (UInt8.ofNat b :: done) n := by
  funext bytes
  show _ = (natural 1 bytes).bind fun p => byteItems (UInt8.ofNat p.1 :: done) n p.2
  rw [byteItems]
  cases natural 1 bytes <;> rfl

/-- Bytes that come as an array end with the last of them. -/
theorem delimits_byteItems (done : Bytes) (n : Nat) : Delimits (byteItems done n) := by
  induction n generalizing done with
  | zero => exact .pure done.reverse
  | succ n ih =>
    rw [byteItems_succ]
    exact (delimits_natural 1).bind fun b => ih (UInt8.ofNat b :: done)

/-- Bytes end where their header says, in whichever of three forms they come. -/
theorem delimits_bytesOf (h : Header) : Delimits (bytesOf h) := by
  unfold bytesOf
  split
  · exact delimits_content _
  · exact delimits_content _
  · exact delimits_byteItems [] _
  · exact delimits_refuse .bytes _

theorem delimits_bytes : Delimits bytes := delimits_header.bind delimits_bytesOf

/-- Bytes that may be missing: nothing is a value of its own. -/
theorem delimits_bytes? : Delimits bytes? := by
  refine delimits_marker.bind fun m => ?_
  split
  · exact .pure none
  · exact (delimits_headerOf m).bind fun h => (delimits_bytesOf h).bind fun found => .pure _

-- ---------------------------------------------------------------------------
-- Values that are passed over
-- ---------------------------------------------------------------------------

theorem times_succ (read : Reader Unit) (n : Nat) :
    times read (n + 1) = read >>= fun _ => times read n := by
  funext bytes
  show _ = (read bytes).bind fun p => times read n p.2
  rw [times]
  cases read bytes <;> rfl

/-- Values that are read one after the other end with the last of them. -/
theorem Delimits.times {read : Reader Unit} (h : Delimits read) (n : Nat) :
    Delimits (MessagePack.times read n) := by
  induction n with
  | zero => exact .pure ()
  | succ n ih =>
    rw [times_succ]
    exact h.bind fun _ => ih

/-- A value that is passed over ends where its header says, its parts included. -/
theorem delimits_skipBehind {inner : Option (Reader Unit)}
    (hInner : ∀ read, inner = some read → Delimits read) (h : Header) :
    Delimits (skipBehind inner h) := by
  cases h with
  | nil | bool | number => exact .pure ()
  | str length | bin length => exact (delimits_content length).bind fun _ => .pure ()
  | array length | map length =>
    cases inner with
    | none => exact .throw _
    | some read => exact (hInner read rfl).times _
  | ext length =>
    cases inner with
    | none => exact .throw _
    | some read =>
      exact (delimits_digits 1).bind fun _ => (delimits_content length).bind fun _ => .pure ()

/-- **A value that is passed over ends where it says,** however deep its containers are nested. -/
theorem delimits_skip (depth : Nat) : Delimits (skip depth) := by
  induction depth with
  | zero => exact delimits_header.bind (delimits_skipBehind nofun)
  | succ depth ih =>
    refine delimits_header.bind (delimits_skipBehind fun read hRead => ?_)
    cases hRead
    exact ih

end MessagePack

namespace Envelope

open MessagePack (Reader Delimits Spells)

-- ---------------------------------------------------------------------------
-- The body
-- ---------------------------------------------------------------------------

/-- The name of a field, in each of its forms, ends by itself. -/
theorem Field.delimits_read : Delimits Field.read := by
  refine MessagePack.delimits_header.bind fun h => ?_
  split
  · exact .pure _
  · exact (MessagePack.delimits_content _).bind fun found => .pure (named? found)
  · exact (MessagePack.delimits_content _).bind fun found => .pure (named? found)
  · exact MessagePack.delimits_refuse .fieldName _

namespace Parts

/-- A field that is given for the first time ends where its value does. -/
theorem delimits_fresh {α : Type} (field : Field) (given : Option α) {read : Reader α}
    (h : Delimits read) : Delimits (fresh field given read) := by
  unfold fresh
  split
  · exact .throw _
  · exact h.map some

/-- Each of the ten fields ends by itself. -/
theorem delimits_read (p : Parts) (field : Field) : Delimits (p.read field) := by
  cases field with
  | sender | recipient => exact (delimits_fresh _ _ MessagePack.delimits_text).bind fun _ => .pure _
  | epoch | sequence =>
    exact (delimits_fresh _ _ (MessagePack.delimits_natural 8)).bind fun _ => .pure _
  | level => exact (delimits_fresh _ _ (MessagePack.delimits_natural 1)).bind fun _ => .pure _
  | ephemeral | nonce | ciphertext | tag =>
    exact (delimits_fresh _ _ MessagePack.delimits_bytes).bind fun _ => .pure _
  | signature => exact (delimits_fresh _ _ MessagePack.delimits_bytes?).bind fun _ => .pure _

/-- Fields in a fixed order end with the last. -/
theorem delimits_foldlM (fields : List Field) (p : Parts) : Delimits (fields.foldlM read p) := by
  induction fields generalizing p with
  | nil => exact .pure p
  | cons field rest ih =>
    rw [List.foldlM_cons]
    exact (delimits_read p field).bind ih

end Parts

/-- An envelope written as an array ends with its last item. -/
theorem delimits_readItems (length : Nat) : Delimits (readItems length) := by
  refine (Parts.delimits_foldlM _ {}).bind fun parts => ?_
  split
  · exact .throw _
  split
  · exact .throw _
  · exact .pure parts

/-- An entry of a map is a name and the value behind it. -/
theorem delimits_readEntry (p : Parts) : Delimits (readEntry p) := by
  refine Field.delimits_read.bind fun found => ?_
  cases found with
  | some field => exact Parts.delimits_read p field
  | none => exact (MessagePack.delimits_skip _).bind fun _ => .pure p

theorem readEntries_succ (p : Parts) (n : Nat) :
    readEntries p (n + 1) = readEntry p >>= fun p => readEntries p n := by
  funext bytes
  show _ = (readEntry p bytes).bind fun q => readEntries q.1 n q.2
  rw [readEntries]
  cases readEntry p bytes <;> rfl

/-- An envelope written as a map ends with its last entry. -/
theorem delimits_readEntries (p : Parts) (n : Nat) : Delimits (readEntries p n) := by
  induction n generalizing p with
  | zero => exact .pure p
  | succ n ih =>
    rw [readEntries_succ]
    exact (delimits_readEntry p).bind ih

/-- **A body tells by itself where it ends,** as an array or as a map, in all the forms that its
values can have, and with unknown fields among them. -/
theorem delimits_readBody : Delimits readBody := by
  refine MessagePack.delimits_header.bind fun h => ?_
  split
  · exact (delimits_readItems _).bind fun parts => .lift parts.complete
  · exact (delimits_readEntries {} _).bind fun parts => .lift parts.complete
  · exact MessagePack.delimits_refuse bodyType _

-- ---------------------------------------------------------------------------
-- The whole
-- ---------------------------------------------------------------------------

/-- The letters and the version, as bytes. -/
def opening : Bytes := magic ++ [version]

/-- The three bytes that every envelope begins with. -/
theorem opening_append (body : Bytes) : opening ++ body = 0x50 :: 0x53 :: version :: body := by
  have hMagic : magic = [0x50, 0x53] := by decide
  rw [opening, hMagic]
  rfl

theorem length_opening : opening.length = 3 := by decide

/-- What is read of bytes that are not too long, behind the letters and the version. -/
theorem read_opening {limits : Limits} {body : Bytes}
    (hSize : (opening ++ body).length ≤ maxSize limits) :
    read limits (opening ++ body) =
      match readBody body with
      | .error fault => .error (.body fault)
      | .ok (draft, rest) => if rest ≠ [] then .error .trailingBytes else ofDraft draft := by
  rw [opening_append] at hSize ⊢
  unfold read
  dsimp only
  rw [if_neg (by decide), if_neg (by simp)]
  exact if_neg (Nat.not_lt.2 hSize)

/-- Bytes that are too large are refused before anything of them is read. -/
theorem read_of_tooLarge {limits : Limits} {body : Bytes}
    (hSize : maxSize limits < (opening ++ body).length) :
    read limits (opening ++ body) = .error .tooLarge := by
  rw [opening_append] at hSize ⊢
  unfold read
  dsimp only
  rw [if_neg (by decide), if_neg (by simp), if_pos hSize]

/-- Fewer bytes than every envelope begins with. -/
theorem read_of_short {limits : Limits} {bytes : Bytes} (h : bytes.length < 3) :
    read limits bytes = .error .magic := by
  unfold read
  split
  · simp only [List.length_cons] at h
    omega
  · rfl

/-- What is read is a body behind the letters and the version. -/
theorem of_read_eq_ok {limits : Limits} {bytes : Bytes} {e : Envelope}
    (h : read limits bytes = .ok e) :
    ∃ body draft, bytes = opening ++ body ∧ readBody body = .ok (draft, []) := by
  unfold read at h
  split at h
  · rename_i a b v body
    split at h
    · cases h
    split at h
    · cases h
    split at h
    · cases h
    rename_i hMagic hVersion hSize
    refine ⟨body, ?_⟩
    -- the three bytes that were looked at are those of the opening
    have hOpening : a :: b :: v :: body = opening ++ body := by
      rw [opening, ← Decidable.not_not.1 hMagic, ← Decidable.not_not.1 hVersion]
      rfl
    cases hBody : readBody body with
    | error fault =>
      rw [hBody] at h
      cases h
    | ok p =>
      obtain ⟨draft, rest⟩ := p
      rw [hBody] at h
      dsimp only at h
      split at h
      · cases h
      · rename_i hRest
        exact ⟨draft, hOpening, by rw [Decidable.not_not.1 hRest]⟩
  · cases h

/-- What cannot be read is refused as malformed, with the reason. -/
theorem decode_of_read_eq_error {limits : Limits} {bytes : Bytes} {reason : Unreadable}
    (h : read limits bytes = .error reason) :
    decode limits bytes = .error (.malformedEnvelope reason.message) := by
  unfold decode
  rw [h]

/-- **No accepted form begins another.** Whatever form an envelope is accepted in, what is left when
bytes are missing at its end is refused: below three bytes for its first letters, and otherwise since
the body ends early. What is longer is refused for the bytes behind it, unless it is too large for
any envelope. -/
theorem forms_are_prefix_free {limits : Limits} {bytes : Bytes} {e : Envelope}
    (hAccepted : decode limits bytes = .ok e) :
    (∀ front, front <+: bytes → front ≠ bytes →
      ∃ reason : Unreadable, decode limits front = .error (.malformedEnvelope reason.message) ∧
        if front.length < 3 then reason = .magic
        else ∃ fault, reason = .body fault ∧ fault.EndsEarly) ∧
      ∀ more, more ≠ [] →
        decode limits (bytes ++ more) = .error (.malformedEnvelope (Unreadable.message
          (if maxSize limits < (bytes ++ more).length then .tooLarge else .trailingBytes))) := by
  have hSize := length_le_of_decode hAccepted
  obtain ⟨body, draft, rfl, hBody⟩ := of_read_eq_ok (read_of_decode_eq_ok hAccepted)
  obtain ⟨spelled, hSpelled, hSpells⟩ := delimits_readBody body draft [] hBody
  obtain rfl : body = spelled := by rw [hSpelled, List.append_nil]
  constructor
  · -- a front holds the opening and a part of the body, or not even the opening
    intro front hPrefix hNe
    by_cases hOpening : opening <+: front
    · obtain ⟨part, rfl⟩ := hOpening
      have hPart := (List.prefix_append_right_inj opening).1 hPrefix
      obtain ⟨fault, hFault, hEnds⟩ := hSpells.cut part hPart fun h => hNe (by rw [h])
      refine ⟨.body fault, decode_of_read_eq_error ?_, ?_⟩
      · rw [read_opening (Nat.le_trans hPrefix.length_le hSize), hFault]
      · rw [if_neg (by rw [List.length_append, length_opening]; omega)]
        exact ⟨fault, rfl, hEnds⟩
    · have hShort : front <+: opening :=
        (List.prefix_or_prefix_of_prefix hPrefix (List.prefix_append opening body)).resolve_right
          hOpening
      have hLength : front.length < 3 := by
        rw [← length_opening]
        exact MessagePack.length_lt_of_cut hShort fun h => hOpening (h ▸ List.prefix_rfl)
      exact ⟨.magic, decode_of_read_eq_error (read_of_short hLength), by rw [if_pos hLength]⟩
  · -- what is longer has its whole body, and bytes behind it
    intro more hMore
    refine decode_of_read_eq_error ?_
    rw [List.append_assoc]
    split
    · exact read_of_tooLarge ‹_›
    · rw [read_opening (Nat.not_lt.1 ‹_›), hSpells.gives more]
      dsimp only
      rw [if_pos hMore]

/-- An envelope without a signature that says nothing. -/
def whisper : Envelope :=
  ⟨"ann", "bob", 7, 300, .basic, .leading 32 [], List.replicate 12 1, [], List.replicate 16 2, none⟩

/-- A key of a map. -/
def fieldKey (name : String) : Bytes := MessagePack.str (Bytes.ofText name)

/-- The envelope as a map: an unknown field whose value is nested, numbers that are wider than they
need be, the epoch under its number and with a sign, bytes as an array, and no signature. -/
def whisperNamed : Bytes :=
  opening ++ [0xde, 0, 10]
    ++ fieldKey "hops" ++ [0x92, 1, 0x81, 0xa0, 0xc0]
    ++ fieldKey "sequence" ++ 0xcf :: Bytes.bigEndian 8 300
    ++ fieldKey "sender" ++ MessagePack.str (Bytes.ofText "ann")
    ++ fieldKey "recipient" ++ MessagePack.bin (Bytes.ofText "bob")
    ++ [2] ++ 0xd2 :: Bytes.bigEndian 4 7
    ++ fieldKey "level" ++ [0xcc, 1]
    ++ fieldKey "ephemeral_public" ++ [0xdc, 0, 32] ++ List.replicate 32 0
    ++ fieldKey "nonce" ++ MessagePack.bin (List.replicate 12 1)
    ++ fieldKey "ciphertext" ++ [0xa0]
    ++ fieldKey "tag" ++ MessagePack.bin (List.replicate 16 2)

/-- The map is accepted, so nothing shorter of it is, and nothing that goes on behind it. -/
theorem forms_are_prefix_free_of_whisperNamed :
    decode ⟨64, 16⟩ whisperNamed = .ok whisper ∧
      (∀ n < whisperNamed.length, (decode ⟨64, 16⟩ (whisperNamed.take n)).toOption = none) ∧
      ∀ more, more ≠ [] → (decode ⟨64, 16⟩ (whisperNamed ++ more)).toOption = none := by
  have hAccepted : decode ⟨64, 16⟩ whisperNamed = .ok whisper :=
    eq_ok_of_toOption (by decide +kernel)
  obtain ⟨hShorter, hLonger⟩ := forms_are_prefix_free hAccepted
  refine ⟨hAccepted, fun n hLess => ?_, fun more hMore => ?_⟩
  · obtain ⟨reason, hRefused, -⟩ := hShorter _ (List.take_prefix n whisperNamed) fun hWhole => by
      have hLength := congrArg List.length hWhole
      rw [List.length_take, Nat.min_eq_left (Nat.le_of_lt hLess)] at hLength
      exact Nat.ne_of_lt hLess hLength
    rw [hRefused]
    rfl
  · rw [hLonger more hMore]
    rfl

end Envelope

end EndToEnd
