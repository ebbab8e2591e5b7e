import EndToEnd.Proofs.BundleText
import EndToEnd.Proofs.Plain
import EndToEnd.Proofs.Records

/-!
# What is imported from a bundle

A bundle stands for one id and two keys, and a text that is accepted stands for no others: base64 is
read strictly, so every byte string has one written form only, and a text that gives a key is the
text that the key is written as. Importing it either puts exactly that id with exactly these keys on
file, as a peer that nobody has vouched for, or finds them there; otherwise nobody on file changes.

Main results:

* `Base64.decode_eq_ok_iff` — which text is read as some bytes.
* `Bundle.publicKeys_eq_ok_iff` — which bundle has some keys.
* `Device.remember_cases` — all that becomes of keys that are presented.
* `Device.bundles_carry_identities` — what is imported, in every state of a device.
-/

namespace EndToEnd

-- ---------------------------------------------------------------------------
-- Base64
-- ---------------------------------------------------------------------------

namespace Base64

/-- A byte that is read as a number is its symbol. -/
theorem symbol_of_value? {b : UInt8} {v : Nat} (h : value? b = some v) : v < 64 ∧ symbol v = b := by
  have hAll : ∀ n < 256, ∀ v ∈ value? (UInt8.ofNat n), v < 64 ∧ symbol v = UInt8.ofNat n := by
    decide +kernel
  have hByte := hAll b.toNat b.toNat_lt v
  rw [UInt8.ofNat_toNat] at hByte
  exact hByte h

/-- Behind the first fill sign there are only fill signs, and no more than the last group lacks. -/
theorem fills_of_scan {offset first : Nat} {values out : List Nat} {input : Bytes}
    (h : scan offset (some first) values input = .ok out) :
    out = values.reverse ∧ ∃ count, input = List.replicate count fill ∧
      (count = 0 ∨ 2 ≤ offset % 4 ∧ offset % 4 + count ≤ 4) := by
  induction input generalizing offset first with
  | nil =>
    cases h
    exact ⟨rfl, 0, rfl, .inl rfl⟩
  | cons b rest ih =>
    rw [scan.eq_def] at h
    dsimp only at h
    split at h
    · rename_i hFill
      subst hFill
      split at h
      · cases h
      · obtain ⟨hOut, count, rfl, hCount⟩ := ih h
        exact ⟨hOut, count + 1, rfl, .inr (by omega)⟩
    · cases h

/-- **What is read has the form of what is written:** symbols of numbers, and then fill signs, no
more than the last group lacks. -/
theorem symbols_of_scan {offset : Nat} {values out : List Nat} {input : Bytes}
    (h : scan offset none values input = .ok out) :
    ∃ new count, out = values.reverse ++ new ∧ (∀ v ∈ new, v < 64) ∧
      input = new.map symbol ++ List.replicate count fill ∧
      (count = 0 ∨ 2 ≤ (offset + new.length) % 4 ∧ (offset + new.length) % 4 + count ≤ 4) := by
  induction input generalizing offset values with
  | nil =>
    cases h
    exact ⟨[], 0, (List.append_nil _).symm, nofun, rfl, .inl rfl⟩
  | cons b rest ih =>
    rw [scan.eq_def] at h
    dsimp only at h
    split at h
    · rename_i hFill
      subst hFill
      split at h
      · -- a fill at a place where none may stand
        cases h
      · -- behind a fill only fills may stand
        obtain ⟨rfl, count, rfl, hCount⟩ := fills_of_scan h
        refine ⟨[], count + 1, (List.append_nil _).symm, nofun, rfl, .inr ?_⟩
        rw [List.length_nil, Nat.add_zero]
        omega
    · split at h
      · cases h
      · cases h
      · rename_i v _ hValue
        obtain ⟨hSmall, rfl⟩ := symbol_of_value? hValue
        obtain ⟨new, count, rfl, hNew, rfl, hCount⟩ := ih h
        refine ⟨v :: new, count, ?_, List.forall_mem_cons.2 ⟨hSmall, hNew⟩, rfl, ?_⟩
        · rw [List.reverse_cons, List.append_assoc, List.singleton_append]
        · rw [List.length_cons]
          omega

/-- The symbols are those of the numbers, and the last group is filled up. -/
theorem symbols_eq (bytes : Bytes) :
    symbols bytes = (sextets bytes).map symbol ++
      List.replicate ((4 - (sextets bytes).length % 4) % 4) fill := by
  match bytes with
  | [] => rfl
  | [a] => rfl
  | [a, b] => rfl
  | a :: b :: c :: rest =>
    rw [symbols, sextets, symbols_eq rest]
    simp only [List.map_cons, List.cons_append, List.length_cons, Nat.add_assoc, Nat.reduceAdd,
      Nat.add_mod_right]

/-- **The bytes are taken apart to the numbers** that they were put together from, if there was
nothing in the spare bits. -/
theorem sextets_group {values : List Nat} (hSmall : ∀ v ∈ values, v < 64)
    (hWhole : values.length % 4 ≠ 1)
    (hSpare : values.getLastD 0 % spareModulus values.length = 0) :
    sextets (group values) = values := by
  match values with
  | [] => rfl
  | [a] => exact absurd rfl hWhole
  | [a, b] =>
    simp only [List.forall_mem_cons] at hSmall
    obtain ⟨ha, hb, -⟩ := hSmall
    have hSpare : b % 16 = 0 := hSpare
    simp only [group, sextets, UInt8.toNat_ofNat', List.cons.injEq, and_true]
    omega
  | [a, b, c] =>
    simp only [List.forall_mem_cons] at hSmall
    obtain ⟨ha, hb, hc, -⟩ := hSmall
    have hSpare : c % 4 = 0 := hSpare
    simp only [group, sextets, UInt8.toNat_ofNat', List.cons.injEq, and_true]
    omega
  -- four values make three bytes, which give the four back
  | a :: b :: c :: d :: rest =>
    simp only [List.forall_mem_cons] at hSmall
    obtain ⟨ha, hb, hc, hd, hRest⟩ := hSmall
    -- what the rest has to spare does not depend on whole groups before it
    have hCount : (rest.length + 4) % 4 = rest.length % 4 := Nat.add_mod_right ..
    have hSpareRest : rest.getLastD 0 % spareModulus rest.length = 0 := by
      cases rest with
      | nil => rfl
      | cons v more =>
        have hSame : spareModulus ((v :: more).length + 4) = spareModulus (v :: more).length := by
          unfold spareModulus
          rw [hCount]
        exact hSame ▸ hSpare
    have hSextets := sextets_group hRest (fun h => hWhole (hCount.trans h)) hSpareRest
    simp only [group, sextets, UInt8.toNat_ofNat', hSextets, List.cons.injEq, and_true]
    omega

/-- **A byte string has one written form,** and nothing else is read as it. -/
theorem decode_eq_ok_iff {text : String} {bytes : Bytes} :
    decode text = .ok bytes ↔ text = encode bytes := by
  refine ⟨fun h => ?_, fun h => h ▸ decode_encode bytes⟩
  unfold decode decodeBytes at h
  split at h
  · dsimp only at h
    split at h <;> cases h
  split at h
  · cases h
  rename_i values hScan
  split at h
  · cases h
  rename_i hLength
  dsimp only at h
  split at h
  · cases h
  rename_i hSpare
  cases h
  obtain ⟨new, count, hValues, hSmall, hInput, hCount⟩ := symbols_of_scan hScan
  obtain rfl : values = new := hValues
  rw [hInput, List.length_append, List.length_map, List.length_replicate] at hLength
  -- the fill signs are as many as the last group lacks
  have hWhole : values.length % 4 ≠ 1 := by omega
  have hFill : count = (4 - values.length % 4) % 4 := by omega
  have hSextets := sextets_group hSmall hWhole (Decidable.not_not.1 hSpare)
  have hText : Bytes.ofText text = Bytes.ofText (encode (group values)) := by
    unfold encode
    rw [Bytes.ofText_ascii (symbols_lt _), symbols_eq, hSextets, hInput, hFill]
  exact Bytes.ofText_inj.1 hText

end Base64

-- ---------------------------------------------------------------------------
-- Bundles
-- ---------------------------------------------------------------------------

namespace Bundle

/-- Which text is read as a key. -/
theorem readKey_eq_ok_iff {text what : String} {key : Key} :
    readKey text what = .ok key ↔ text = Base64.encode key.bytes := by
  refine ⟨fun h => ?_, fun h => h ▸ readKey_encode key what⟩
  unfold readKey readBase64 at h
  split at h
  · cases h
  rename_i bytes hBytes
  split at hBytes
  · cases hBytes
  rename_i hDecoded
  cases hBytes
  split at h
  · rename_i hKey
    cases h
    rw [FixedBytes.ofBytes?_eq_some_iff.1 hKey]
    exact Base64.decode_eq_ok_iff.1 hDecoded
  · cases h

/-- **Which bundle has some keys:** the one that its id makes with them. -/
theorem publicKeys_eq_ok_iff {b : Bundle} {keys : PublicKeys} :
    b.publicKeys = .ok keys ↔ b = ofKeys b.deviceId keys := by
  refine ⟨fun h => ?_, fun h => h ▸ publicKeys_ofKeys b.deviceId keys⟩
  unfold publicKeys at h
  cases hSigning : readKey b.signingKey "signing" with
  | error failure =>
    rw [hSigning] at h
    cases h
  | ok signing =>
    cases hEncryption : readKey b.encryptionKey "encryption" with
    | error failure =>
      rw [hSigning, hEncryption] at h
      cases h
    | ok encryption =>
      rw [hSigning, hEncryption] at h
      cases h
      unfold ofKeys
      rw [← readKey_eq_ok_iff.1 hSigning, ← readKey_eq_ok_iff.1 hEncryption]

end Bundle

-- ---------------------------------------------------------------------------
-- Devices
-- ---------------------------------------------------------------------------

namespace Device

variable {P : Primitives} {start d : Device} {history : History} {id : String} {keys : PublicKeys}

/-- The device with somebody put on file that it meets just now. -/
def meeting (id : String) (keys : PublicKeys) (d : Device) : Device :=
  { d with contacts :=
      { d.contacts with peers := d.contacts.peers.insert id (.met id keys d.now) } }

theorem get?_meeting (id : String) (keys : PublicKeys) (d : Device) (other : String) :
    (d.meeting id keys).contacts.get? other =
      if other = id then some (.met id keys d.now) else d.contacts.get? other :=
  Contacts.get?_insert_met ..

/-- The bound on ids is the one of the configuration. -/
theorem Starts.idLimit (h : Starts P d) : d.contacts.idLimit = d.config.limits.maxDeviceId := by
  have hCreated {config : Config} {sink : Audit.Sink} {identity : Option Identity} {now : UInt64}
      {random : RandomSource} {d : Device} (h : create P config sink identity now random = .ok d) :
      d.contacts.idLimit = d.config.limits.maxDeviceId := by
    obtain ⟨-, rfl⟩ := create_eq_ok h
    exact congrArg Contacts.idLimit (fresh_blank (P := P) config sink identity now random).2
  cases h with
  | created h => exact hCreated h
  | restored h =>
    obtain ⟨identity, d₀, hCreate, ⟨-, -, rfl⟩ | ⟨state, -, -, rfl⟩⟩ := restore_eq_ok h
    · exact hCreated hCreate
    · exact (hCreated hCreate : d₀.contacts.idLimit = d₀.config.limits.maxDeviceId)

theorem Run.idLimit (hStart : Starts P start) (hRun : Run P start history d) :
    d.contacts.idLimit = d.config.limits.maxDeviceId := by
  induction hRun with
  | start => exact hStart.idLimit
  | step op _ _ ih =>
    rw [(changes_step (P := P) _ op).idLimit, ih, (evolves_step (P := P) _ op).config]

/-- **All that becomes of keys that are presented:** they are refused, and nobody on file changes;
or they are those on file; or their device is met. -/
theorem remember_cases (id : String) (keys : PublicKeys) (d : Device) :
    (∃ failure, (d.remember P id keys).1 = .error failure ∧
        (d.remember P id keys).2.contacts = d.contacts) ∨
      (∃ peer, d.contacts.get? id = some peer ∧ peer.keys = keys ∧
        d.remember P id keys = (.ok peer, d)) ∨
      d.contacts.get? id = none ∧
        d.remember P id keys = (.ok (.met id keys d.now), d.meeting id keys) := by
  unfold remember
  split
  · rename_i peer contacts hRemembered
    obtain ⟨-, ⟨hNew, rfl, rfl⟩ | ⟨hKnown, hKeys, rfl⟩⟩ :=
      Contacts.remember_eq_ok_iff.1 hRemembered
    · exact .inr (.inr ⟨hNew, rfl⟩)
    · exact .inr (.inl ⟨peer, hKnown, hKeys, rfl⟩)
  · refine .inl ?_
    split
    · rename_i refused d' hRecorded
      exact ⟨refused, rfl, (congrArg (·.2.contacts) hRecorded).symm⟩
    · rename_i d' hRecorded
      exact ⟨_, rfl, (congrArg (·.2.contacts) hRecorded).symm⟩
  · exact .inl ⟨_, rfl, rfl⟩

/-- Keys are taken under an id that peers can have, if it is new. -/
theorem remember_of_new (hAllowed : d.contacts.refusal? (some d.id) id = none)
    (hNew : d.contacts.get? id = none) :
    d.remember P id keys = (.ok (.met id keys d.now), d.meeting id keys) := by
  unfold remember Contacts.remember
  rw [hAllowed, hNew]
  rfl

/-- The keys on file are found. -/
theorem remember_of_known (hAllowed : d.contacts.refusal? (some d.id) id = none) {record : Peer}
    (hKnown : d.contacts.get? id = some record) :
    d.remember P id record.keys = (.ok record, d) := by
  unfold remember Contacts.remember
  rw [hAllowed, hKnown]
  simp

/-- **What becomes of a text:** it is refused, or it is the bundle of an id and keys, which are then
presented. -/
theorem importBundle_cases (text : Bytes) (d : Device) :
    (∃ failure, d.importBundle P text = (.error failure, d)) ∨
      ∃ id keys, Bundle.parse text = .ok (.ofKeys id keys) ∧
        d.importBundle P text = d.remember P id keys := by
  unfold importBundle
  split
  · exact .inl ⟨_, rfl⟩
  · rename_i bundle hParsed
    split
    · exact .inl ⟨_, rfl⟩
    · rename_i keys hKeys
      exact .inr ⟨bundle.deviceId, keys, hParsed.trans
        (congrArg Except.ok (Bundle.publicKeys_eq_ok_iff.1 hKeys)), rfl⟩

/-- **A bundle carries exactly an identity.** What a device hands out is the bundle of its id and
keys. A device that imports the bundle of an id and keys, under an id that its configuration allows
and that is not its own, puts exactly these on file, unverified, if it does not know the id; the
rest of it stays as it is, and to import the bundle again gives the same record and changes nothing,
whatever the clock then shows. Any text at all is refused, and nobody on file changes, or it stands
for exactly the id and the keys of the record that is given; this record is on file then, and either
it was before or the device has met its peer just now.

In the run no counter passes `2 ^ 64 - 1`. -/
theorem bundles_carry_identities (hStart : Starts P start) (hRun : Run P start history d) :
    (∀ other : Device, other.exportBundle P =
      (Bundle.ofKeys other.id (other.identity.publicKeys P)).print) ∧
    (∀ (id : String) (keys : PublicKeys),
      Envelope.idFault? d.config.limits.maxDeviceId id = none → id ≠ d.id →
      let text := (Bundle.ofKeys id keys).print
      (d.contacts.get? id = none →
        d.importBundle P text = (.ok (.met id keys d.now), d.meeting id keys) ∧
        (∀ other, (d.meeting id keys).contacts.get? other =
          if other = id then some (.met id keys d.now) else d.contacts.get? other) ∧
        ∀ clock, importBundle P text { d.meeting id keys with now := clock } =
          (.ok (.met id keys d.now), { d.meeting id keys with now := clock })) ∧
      ∀ record, d.contacts.get? id = some record → record.keys = keys →
        d.importBundle P text = (.ok record, d)) ∧
    ∀ text,
      (∃ failure, (d.importBundle P text).1 = .error failure ∧
        (d.importBundle P text).2.contacts = d.contacts) ∨
      ∃ peer d', d.importBundle P text = (.ok peer, d') ∧
        Bundle.parse text = .ok (.ofKeys peer.deviceId peer.keys) ∧
        d'.contacts.get? peer.deviceId = some peer ∧
        (d.contacts.get? peer.deviceId = some peer ∧ d' = d ∨
          d.contacts.get? peer.deviceId = none ∧
            peer = .met peer.deviceId peer.keys d.now ∧
            d' = d.meeting peer.deviceId peer.keys) := by
  refine ⟨fun _ => rfl, fun id keys hFine hOther => ?_, fun text => ?_⟩
  · -- the text of an identity is read back, and remembered as the keys themselves are
    rw [← hRun.idLimit hStart] at hFine
    have hAllowed : d.contacts.refusal? (some d.id) id = none :=
      Contacts.refusal?_eq_none_iff.2 ⟨Envelope.idFault?_eq_none_iff.1 hFine, hOther.symm⟩
    refine ⟨fun hNew => ⟨?_, get?_meeting id keys d, fun clock => ?_⟩, ?_⟩
    · rw [importBundle_ofKeys P]
      exact remember_of_new hAllowed hNew
    · have hFiled : (d.meeting id keys).contacts.get? id = some (.met id keys d.now) :=
        (get?_meeting id keys d id).trans (if_pos rfl)
      rw [importBundle_ofKeys P]
      exact remember_of_known (d := { d.meeting id keys with now := clock }) hAllowed hFiled
    · rintro record hKnown rfl
      rw [importBundle_ofKeys P]
      exact remember_of_known hAllowed hKnown
  · -- any text: either it is refused, or it is the text of the identity that is on file afterwards
    rcases importBundle_cases (P := P) text d with ⟨failure, hRefused⟩ | ⟨id, keys, hParsed, hSame⟩
    · rw [hRefused]
      exact .inl ⟨failure, rfl, rfl⟩
    rw [hSame]
    rcases remember_cases (P := P) id keys d with
      hRefused | ⟨peer, hKnown, rfl, hFound⟩ | ⟨hNew, hMet⟩
    · exact .inl hRefused
    · obtain rfl := hRun.filed hStart _ _ hKnown
      exact .inr ⟨peer, d, hFound, hParsed, hKnown, .inl ⟨hKnown, rfl⟩⟩
    · exact .inr ⟨.met id keys d.now, d.meeting id keys, hMet, hParsed,
        (get?_meeting id keys d id).trans (if_pos rfl), .inr ⟨hNew, rfl, rfl⟩⟩

/-- The bundle of the device with an identity like that. -/
def plainBundle (id : String) (first : UInt8) : Bytes :=
  (Bundle.ofKeys id ((plainIdentity id first).publicKeys .plain)).print

/-- Bob has Ann on file, and does not know Eve. -/
theorem bundles_carry_identities_of_plain :
    let bob := after .plain (plain .standard "bob" 3) [meetPlain "ann" 1, .setClock 5]
    let ann : Peer := .met "ann" ((plainIdentity "ann" 1).publicKeys .plain) 0
    let eve : Peer := .met "eve" ((plainIdentity "eve" 5).publicKeys .plain) 5
    bob.importBundle .plain (plainBundle "ann" 1) = (.ok ann, bob) ∧
      bob.importBundle .plain (plainBundle "eve" 5) = (.ok eve, bob.meeting eve.deviceId eve.keys) ∧
      (bob.meeting eve.deviceId eve.keys).importBundle .plain (plainBundle "eve" 5) =
        (.ok eve, bob.meeting eve.deviceId eve.keys) := by
  intro bob ann eve
  have hRun : Run .plain (plain .standard "bob" 3) (during .plain (plain .standard "bob" 3)
      [meetPlain "ann" 1, .setClock 5]) bob := run_after rfl
  obtain ⟨-, hBundles, -⟩ := bundles_carry_identities (plain_starts "bob" 3 rfl) hRun
  obtain ⟨-, hKnown⟩ := hBundles "ann" ann.keys (by decide +kernel) (by decide +kernel)
  obtain ⟨hNew, -⟩ := hBundles "eve" eve.keys (by decide +kernel) (by decide +kernel)
  obtain ⟨hMet, -, hAgain⟩ := hNew (by decide +kernel)
  exact ⟨hKnown ann (by decide +kernel) rfl, hMet, hAgain 5⟩

end Device

end EndToEnd
