import EndToEnd.Proofs.Conversation
import EndToEnd.Proofs.Records

/-!
# Who writes

A message is written by a device that may write (`Device.MayWrite`): the other is on file with its
true keys, neither revoked nor unverified where that matters, and the sending side is in order
(`Outbound.Stocked`): its numbers are not used up. This says that an envelope is made. Between
devices that correspond it is one that can be read back, and so it is given.

Main results:

* `Outbound.Stocked.exists_encrypt`, `Outbound.Stocked.makes` — one envelope more.
* `Device.MayWrite.makes` — a device that may write makes an envelope.
* `Device.MayWrite.send`, `Device.MayWrite.receive` — it may write on.
* `Device.MayWrite.writes` — to a device with which it corresponds it gives the envelope.
-/

namespace EndToEnd

-- ---------------------------------------------------------------------------
-- What a message needs
-- ---------------------------------------------------------------------------

/-- A key finds a secret with the public half of every key: no public half is degenerate. -/
def Primitives.Contributory (P : Primitives) : Prop :=
  ∀ a b, (P.agree? a (P.agreementPublic b)).isSome = true

namespace Outbound

variable {P : Primitives} {s : Setting} {peer : Peer} {level : Level} {plaintext : Bytes}

/-- A session begins with every peer whose key is a public half. -/
theorem exists_beginSession (hP : P.Contributory) {key : Key}
    (hKey : peer.keys.encryption = P.agreementPublic key) (epoch : UInt64) (ephemeral : Key) :
    ∃ session, beginSession P s peer level epoch ephemeral = .ok session := by
  have hAgree (own : Key) : ∃ shared,
      Suite.agree P own.bytes peer.keys.encryption.bytes = .ok shared := by
    obtain ⟨shared, hShared⟩ := Option.isSome_iff_exists.1 (hP own key)
    refine ⟨shared, ?_⟩
    unfold Suite.agree
    rw [FixedBytes.ofBytes?_bytes, FixedBytes.ofBytes?_bytes, hKey]
    dsimp only
    rw [hShared]
  obtain ⟨first, hFirst⟩ := hAgree ephemeral
  obtain ⟨second, hSecond⟩ := hAgree s.own.keys.encryption
  unfold beginSession EpochKeys.initiateWith
  rw [hFirst, hSecond]
  exact ⟨_, rfl⟩

/-- A session stands ready for a message, if the one that is there has numbers left. -/
theorem exists_ready (hP : P.Contributory) {key : Key}
    (hKey : peer.keys.encryption = P.agreementPublic key) {w : Work Outbound}
    (hNext : ∀ session, w.part.current = some session →
      session.ratchet.next ≠ Device.lastNumber) :
    ∃ session w', ready P s peer level w = (.ok session, w') ∧
      session.ratchet.next ≠ Device.lastNumber := by
  unfold ready
  cases hCurrent : w.part.current with
  | some session => exact ⟨session, w, rfl, hNext session hCurrent⟩
  | none =>
    obtain ⟨session, hBegun⟩ : ∃ session,
        beginSession P s peer level w.part.nextEpoch w.random.drawKey.1 = .ok session :=
      exists_beginSession hP hKey ..
    unfold establish
    dsimp only
    rw [hBegun]
    refine ⟨session, _, rfl, ?_⟩
    obtain ⟨keys, -, hStart⟩ := beginSession_eq_ok hBegun
    rw [hStart]
    show (1 : UInt64) ≠ Device.lastNumber
    decide

/-- A sending side that a message finds in order, and that has made few envelopes. -/
structure Stocked (o : Outbound) (made : Nat) : Prop where
  opened : o.isRevoked = false
  unasked : o.requestedAt = none
  epochs : o.nextEpoch.toNat ≤ made
  chain : ∀ session, o.current = some session → session.ratchet.next.toNat ≤ made + 1

variable {o o' : Outbound} {made : Nat} {e : Envelope}

/-- **A side in order makes an envelope.** -/
theorem Stocked.exists_encrypt {w : Work Outbound} (h : w.part.Stocked made) (hP : P.Contributory)
    {key : Key} (hKey : peer.keys.encryption = P.agreementPublic key)
    (hMade : made + 1 < Device.lastNumber.toNat) :
    ∃ e w', encrypt P s peer level plaintext w = (.ok e, w') := by
  have hTime : w.part.hasTimedOut s = false := by
    unfold hasTimedOut
    rw [h.unasked, Option.any_none, Bool.and_false]
  -- the session that is at hand has a number left
  have hNext : ∀ session, (rotateIfDue s peer.deviceId level w).part.current = some session →
      session.ratchet.next ≠ Device.lastNumber := by
    intro session hSession hLast
    have hChain : session.ratchet.next.toNat ≤ made + 1 := by
      rcases rotateIfDue_cases s peer.deviceId level w with ⟨-, -, -, hSame⟩ | ⟨hNone, -⟩
      · rw [hSame] at hSession
        exact h.chain session hSession
      · rw [hNone] at hSession
        cases hSession
    rw [hLast] at hChain
    omega
  obtain ⟨session, w', hReady, hSession⟩ : ∃ session w',
      ready P s peer level (rotateIfDue s peer.deviceId level w) = (.ok session, w') ∧
        session.ratchet.next ≠ Device.lastNumber := exists_ready hP hKey hNext
  obtain ⟨e, session', random', hMade⟩ :=
    Session.exists_encrypt_eq_ok P s.own plaintext w'.random hSession
  unfold encrypt
  rw [h.opened, hTime, hReady]
  dsimp only
  rw [hMade]
  exact ⟨e, _, rfl⟩

/-- Behind an envelope, a side is in order for the next. -/
theorem Stocked.makes (h : o.Stocked made) (hMakes : Makes P s peer level plaintext o e o') :
    o'.Stocked (made + 1) := by
  cases hMakes with
  | continues current fits made =>
    refine ⟨h.opened, h.unasked, Nat.le_succ_of_le h.epochs, fun session hSession => ?_⟩
    cases hSession
    rw [(Session.session_of_encrypt made).2.2.2]
    exact Nat.succ_le_succ (h.chain _ current)
  | begins begun made =>
    obtain ⟨keys, -, rfl⟩ := beginSession_eq_ok begun
    refine ⟨h.opened, rfl, ?_, fun session hSession => ?_⟩
    · have hEpochs := h.epochs
      show (o.nextEpoch + 1).toNat ≤ _
      rw [UInt64.toNat_add]
      exact Nat.le_trans (Nat.mod_le ..) (Nat.succ_le_succ hEpochs)
    · cases hSession
      rw [(Session.session_of_encrypt made).2.2.2]
      exact Nat.le_add_left 2 _

end Outbound

namespace Device

variable {P : Primitives} {a b d other : Device} {made : Nat}

/-- A device that may write to another whose true keys it has on file, and has written few
messages to it. -/
structure MayWrite (P : Primitives) (d other : Device) (made : Nat) : Prop where
  record : ∃ record, d.contacts.get? other.id = some record ∧
    record.keys = other.identity.publicKeys P ∧ record.isRevoked = false ∧
    ¬(record.trust = .unverified ∧ d.config.requireVerification = true)
  stocked : (d.pairs.sending other.id).Stocked made

/-- **A device that may write makes an envelope,** and sends it if it can be written. -/
theorem MayWrite.makes (h : d.MayWrite P other made) (hP : P.Contributory)
    (hFiled : d.contacts.Filed) (hMade : made + 1 < lastNumber.toNat) (level : Level)
    (plaintext : Bytes) :
    ∃ record e, d.contacts.get? other.id = some record ∧
      (d.send P other.id level plaintext).1 = e.encode d.config.limits ∧
      Outbound.Makes P (d.setting d.now) record level plaintext (d.pairs.sending other.id) e
        ((d.send P other.id level plaintext).2.pairs.sending other.id) := by
  obtain ⟨record, hRecord, hKeys, hTrusted, hVerified⟩ := h.record
  have hId : record.deviceId = other.id := hFiled _ _ hRecord
  have hKey : record.keys.encryption = P.agreementPublic other.identity.keys.encryption := by
    rw [hKeys]
    rfl
  let v := d.work.withPart (d.pairs.sending record.deviceId)
  have hSide : v.part.Stocked made := by
    show (d.pairs.sending record.deviceId).Stocked made
    rw [hId]
    exact h.stocked
  -- there is a number for the envelope, and a key to agree on where a session has to begin
  obtain ⟨e, w', hEncrypt⟩ : ∃ e w',
      Outbound.encrypt P (d.setting d.now) record level plaintext v = (.ok e, w') :=
    hSide.exists_encrypt hP hKey hMade
  have hWork : (d.onPairs P fun s => Pairs.encrypt P s record level plaintext).1 = .ok e := by
    show (Outbound.encrypt P (d.setting d.now) record level plaintext v).1 = .ok e
    rw [hEncrypt]
  have hSend : d.send P other.id level plaintext = (e.encode d.config.limits,
      (d.onPairs P fun s => Pairs.encrypt P s record level plaintext).2) := by
    unfold send
    rw [hRecord]
    dsimp only
    rw [hTrusted, if_neg Bool.false_ne_true, if_neg hVerified]
    unfold sendTo
    rw [show d.onPairs P _ = (.ok e, _) from Prod.ext hWork rfl]
    rfl
  refine ⟨record, e, hRecord, by rw [hSend], ?_⟩
  rw [hSend]
  -- an envelope that is made is made in one of the two ways
  obtain ⟨w, hw, -, ⟨hPairs, -⟩, -⟩ := onPairsAt_eq (P := P) (Prod.ext hWork rfl)
  obtain ⟨-, ⟨failure, hFailed, -⟩ | ⟨e', hOk, hMakes⟩⟩ := Pairs.encrypt_cases hw
  · cases hFailed
  · cases hOk
    rw [hId, ← hPairs] at hMakes
    exact hMakes

/-- It does not matter what the clock reads. -/
theorem MayWrite.ticked (h : d.MayWrite P other made) (now : UInt64) :
    MayWrite P { d with now := now } other made := ⟨h.record, h.stocked⟩

/-- What matters of the other device is its identity. -/
theorem MayWrite.congr {other' : Device} (h : d.MayWrite P other made)
    (hIdentity : other'.identity = other.identity) : d.MayWrite P other' made := by
  have hId : other'.id = other.id := congrArg Identity.deviceId hIdentity
  obtain ⟨hRecord, hStocked⟩ := h
  rw [← hId] at hRecord hStocked
  rw [← hIdentity] at hRecord
  exact ⟨hRecord, hStocked⟩

/-- Few messages are at most one more. -/
theorem MayWrite.more (h : d.MayWrite P other made) : d.MayWrite P other (made + 1) where
  record := h.record
  stocked := ⟨h.stocked.opened, h.stocked.unasked, Nat.le_succ_of_le h.stocked.epochs,
    fun session hSession => Nat.le_succ_of_le (h.stocked.chain session hSession)⟩

theorem Knows.congr {other' : Device} (h : d.Knows P other)
    (hIdentity : other'.identity = other.identity) : d.Knows P other' := by
  unfold Knows id
  rw [hIdentity]
  exact h

theorem MayWrite.not_revoked (h : d.MayWrite P other made) : d.isRevoked other.id = false := by
  obtain ⟨record, hRecord, -, hTrusted, -⟩ := h.record
  unfold isRevoked
  rw [hRecord]
  exact hTrusted

/-- Behind an envelope, a device may write the next. -/
theorem MayWrite.send {record : Peer} {level : Level} {plaintext : Bytes} {e : Envelope}
    (h : d.MayWrite P other made)
    (hMakes : Outbound.Makes P (d.setting d.now) record level plaintext (d.pairs.sending other.id) e
      ((d.send P other.id level plaintext).2.pairs.sending other.id)) :
    (d.send P other.id level plaintext).2.MayWrite P other (made + 1) := by
  have hConfig : (d.send P other.id level plaintext).2.config = d.config :=
    (evolves_step (P := P) d (.send other.id level plaintext)).config
  refine ⟨?_, h.stocked.makes hMakes⟩
  rw [contacts_send, hConfig]
  exact h.record

/-- A device that has written few messages has a number for the next. -/
theorem MayWrite.returns (h : d.MayWrite P other made) (hMade : made < lastNumber.toNat)
    (level : Level) (plaintext : Bytes) :
    overruns P d (.send other.id level plaintext) = false := by
  have hFew : (d.pairs.sending other.id).nextEpoch ≠ lastNumber := by
    intro hLast
    have hEpochs := h.stocked.epochs
    rw [hLast] at hEpochs
    omega
  show (decide _ && _) = false
  rw [decide_eq_false hFew, Bool.false_and]

/-- A device that is given an envelope may write on. -/
theorem MayWrite.receive (h : d.MayWrite P other made) (bytes : Bytes) :
    (d.receive P bytes).2.MayWrite P other made := by
  have hPairs : (d.receive P bytes).2.pairs.sending other.id = d.pairs.sending other.id := by
    rcases receive_cases (d.receive P bytes).eta.symm with
      ⟨-, -, log, hLog⟩ | ⟨e, sender, opened, w, -, -, hw, -, ⟨hPairs, -⟩, -⟩
    · rw [hLog]
    · obtain rfl : _ = w := congrArg Prod.snd hw
      rw [hPairs, Pairs.sending_decrypt]
      rfl
  refine ⟨?_, ?_⟩
  · rw [contacts_receive, (evolves_receive bytes d).config]
    exact h.record
  · rw [hPairs]
    exact h.stocked

/-- **A device that may write to one with which it corresponds does so.** -/
theorem MayWrite.writes {letters : List Letter} {places : List (UInt64 × UInt64)}
    (h : a.MayWrite P b made) (hP : P.Lawful) (hAgree : P.Contributory)
    (hCorresponds : Corresponds P a b letters places)
    (hOwn : Envelope.idFault? a.config.limits.maxDeviceId a.id = none)
    (hPeer : Envelope.idFault? a.config.limits.maxDeviceId b.id = none)
    (hMade : made + 1 < lastNumber.toNat) (level : Level) {plaintext : Bytes}
    (hText : plaintext.length ≤ a.config.limits.maxCiphertext) :
    ∃ record e, (a.send P b.id level plaintext).1 = .ok e.write ∧
      Outbound.Makes P (a.setting a.now) record level plaintext (a.pairs.sending b.id) e
        ((a.send P b.id level plaintext).2.pairs.sending b.id) := by
  obtain ⟨record, e, hRecord, hSend, hMakes⟩ :=
    h.makes hAgree hCorresponds.filedA hMade level plaintext
  obtain ⟨-, hGenuine, -⟩ := hCorresponds.posts.speaks.makes hP rfl
    (hCorresponds.filedA _ _ hRecord) (hCorresponds.keys_of record hRecord) hMakes
  refine ⟨record, e, ?_, hMakes⟩
  rw [hSend]
  exact Envelope.encode_eq_ok_iff.2 ⟨hGenuine.check hP hOwn hPeer hText, rfl⟩

end Device

end EndToEnd
