import EndToEnd.Proofs.Opening

/-!
# What is received again behind a restart

A device that is saved keeps the numbers of the epochs that it sends in, but nothing about those that
it receives in. Behind a restart its peers' epochs begin anew, and since the keys of an epoch come
from its own lasting key, it finds them again. So the window starts over: whatever the device had
received before, it receives once more.

Main results:

* `Device.received_again` — when this happens, and that the message is the same.
* `Device.restart_admits_replay` — that it happens.
-/

namespace EndToEnd

namespace Device

variable {P : Primitives} {start d back d' : Device} {history later : History} {bytes : Bytes}
  {m : ReceivedMessage}

/-- **A restart starts the window over.** A device received some bytes, was saved, and was brought
back with the same passphrase and configuration; then anything was asked of it. It would receive
these bytes again exactly if their sender is not revoked, their place is awaited by what was received
since the restart alone, and no session of their epoch was begun with another fresh key or at another
level. The message is then what it was, but for the trust in its sender, and was not received before
since the restart.

In the runs no counter passes `2 ^ 64 - 1`. -/
theorem received_again (hP : P.Lawful) (hStart : Starts P start) (hRun : Run P start history d)
    (hReceived : (Operation.receive bytes, Reply.received (.ok m)) ∈ history)
    {store store' : Store} {passphrase : String} {sink : Audit.Sink} {now : UInt64}
    {random : RandomSource} (hSaved : (d.save P store passphrase).1 = .ok store')
    (hRestored : restore P d.config sink store' passphrase now random = .ok back)
    (hLater : Run P back later d') :
    ∃ e, Envelope.decode d'.config.limits bytes = .ok e ∧
      ((∃ m', (d'.receive P bytes).1 = .ok m') ↔
        d'.isRevoked m.sender = false ∧
          d'.Awaits m.sender (later.places m.sender) m.epoch m.sequence ∧
          ∀ session, (d'.pairs.receiving m.sender).epochs.get? m.epoch = some session →
            m.level = session.level ∧ e.ephemeral = session.ephemeral) ∧
      ∀ m', (d'.receive P bytes).1 = .ok m' →
        m' = { m with trust := m'.trust } ∧ (m.epoch, m.sequence) ∉ later.places m.sender := by
  obtain ⟨e, record, hDecoded, hRecord, hCarries⟩ := hRun.carries hStart hReceived
  -- the device is who it was, with the same peers on file
  have hSavedIn : d.SavedIn P store' passphrase := save_eq_ok (Prod.ext hSaved rfl)
  obtain ⟨hConfig, hIdentity, hContacts⟩ :=
    restore_of_savedIn hP (hRun.filed hStart) hSavedIn hRestored
  have hBack : Starts P back := .restored hRestored
  have hEvolves := hLater.evolves
  rw [← hContacts] at hRecord
  obtain ⟨record', hRecord', hId, hKeys, -⟩ := hEvolves.contacts _ _ hRecord
  have hFiled := hLater.filed hBack _ _ hRecord'
  rw [← hIdentity, ← hEvolves.identity, ← hKeys] at hCarries
  rw [← hConfig, ← hEvolves.config] at hDecoded
  have hListens := hLater.listens hBack (forall_keys_of hRecord')
  have hAccepted := hListens.receive_iff_of_carries hRecord' hFiled hCarries hDecoded
  refine ⟨e, hDecoded, hAccepted, fun m' hAgain => ⟨?_, (hAccepted.1 ⟨m', hAgain⟩).2.1.not_mem⟩⟩
  obtain ⟨e', record'', hDecoded', hRecord'', hCarries'⟩ := hLater.carries_of_receive hBack hAgain
  rw [hDecoded] at hDecoded'
  cases hDecoded'
  rw [hCarries'.sender, ← hCarries.sender, hRecord'] at hRecord''
  cases hRecord''
  exact hCarries.unique hCarries'

/-- What is received behind some operations is in their history. -/
theorem mem_during_receive (ops rest : List Operation)
    (h : ((after P d ops).receive P bytes).1 = .ok m) :
    (Operation.receive bytes, Reply.received (.ok m)) ∈
      during P d (ops ++ .receive bytes :: rest) := by
  rw [during_append, ← h]
  exact List.mem_append_right _ (.head _)

/-- Ann writes two letters to Bob; with the level, the epoch changes. -/
def annsLetters : List Bytes :=
  plainLetters .standard [.send "bob" .basic [1], .send "bob" .military [2]]

def firstLetter : Bytes := annsLetters.headD []

def secondLetter : Bytes := annsLetters.getLastD []

/-- Bob has Ann on file and receives both letters. -/
def readingOps : List Operation :=
  [meetPlain "ann" 1, .receive firstLetter, .receive secondLetter]

/-- Bob, when he has received both letters. -/
def reader : Device := after .plain (plain .standard "bob" 3) readingOps

theorem run_reader : Run .plain (plain .standard "bob" 3)
    (during .plain (plain .standard "bob" 3) readingOps) reader :=
  run_after (by decide +kernel)

/-- Bob can then be saved and brought back, and receives the first letter again, and the second. -/
theorem exists_readerBack : ∃ store back,
    (reader.save .plain (.memory none) "secret").1 = .ok store ∧
      restore .plain reader.config .memory store "secret" 7 ⟨fun _ => 9, 0⟩ = .ok back ∧
      allReturn .plain back [.receive firstLetter] = true ∧
      (back.receive .plain firstLetter).1.toOption.map (·.place) = some (0, 1) ∧
      ((after .plain back [.receive firstLetter]).receive .plain secondLetter).1.toOption.map
        (·.place) = some (1, 1) := by
  have hBack : (reader.save .plain (.memory none) "secret").1.toOption.map (fun store =>
      (restore .plain .standard .memory store "secret" 7 ⟨fun _ => 9, 0⟩).toOption.map fun back =>
        (allReturn .plain back [.receive firstLetter],
          (back.receive .plain firstLetter).1.toOption.map (·.place),
          ((after .plain back [.receive firstLetter]).receive .plain secondLetter).1.toOption.map
            (·.place))) = some (some (true, some (0, 1), some (1, 1))) := by
    decide +kernel
  obtain ⟨store, hStored, hBack⟩ := exists_ok_of_map hBack
  obtain ⟨back, hBack, hFacts⟩ := exists_ok_of_map hBack
  obtain ⟨hReturn, hFacts⟩ := Prod.mk.inj hFacts
  obtain ⟨hFirst, hSecond⟩ := Prod.mk.inj hFacts
  have hConfig : reader.config = .standard := run_reader.evolves.config
  rw [hConfig]
  exact ⟨store, back, hStored, hBack, hReturn, hFirst, hSecond⟩

theorem received_again_of_annsLetters :
    ∃ m store back e, (reader.save .plain (.memory none) "secret").1 = .ok store ∧
      restore .plain reader.config .memory store "secret" 7 ⟨fun _ => 9, 0⟩ = .ok back ∧
      let d := after .plain back [.receive firstLetter]
      let later := during .plain back [.receive firstLetter]
      (Operation.receive secondLetter, Reply.received (.ok m)) ∈
          during .plain (plain .standard "bob" 3) readingOps ∧
        (∃ m', (d.receive .plain secondLetter).1 = .ok m') ∧
        Envelope.decode d.config.limits secondLetter = .ok e ∧
        ((∃ m', (d.receive .plain secondLetter).1 = .ok m') ↔
          d.isRevoked m.sender = false ∧
            d.Awaits m.sender (later.places m.sender) m.epoch m.sequence ∧
            ∀ session, (d.pairs.receiving m.sender).epochs.get? m.epoch = some session →
              m.level = session.level ∧ e.ephemeral = session.ephemeral) ∧
        ∀ m', (d.receive .plain secondLetter).1 = .ok m' →
          m' = { m with trust := m'.trust } ∧ (m.epoch, m.sequence) ∉ later.places m.sender := by
  obtain ⟨store, back, hStored, hBack, hReturn, -, hAgain⟩ := exists_readerBack
  obtain ⟨m', hAgain, -⟩ := exists_ok_of_map hAgain
  have hSecond : ((after .plain (plain .standard "bob" 3)
      [meetPlain "ann" 1, .receive firstLetter]).receive .plain secondLetter).1.toOption.map
        (·.place) = some (1, 1) := by
    decide +kernel
  obtain ⟨m, hSecond, -⟩ := exists_ok_of_map hSecond
  have hReceived := mem_during_receive [meetPlain "ann" 1, .receive firstLetter] [] hSecond
  obtain ⟨e, hDecoded, hAgainIff, hSame⟩ := received_again Primitives.plain_lawful
    (plain_starts "bob" 3 rfl) run_reader hReceived hStored hBack (run_after hReturn)
  exact ⟨m, store, back, e, hStored, hBack, hReceived, ⟨m', hAgain⟩, hDecoded, hAgainIff, hSame⟩

/-- **A restart admits a replay.** Bob receives a letter, is saved, is brought back with the same
passphrase and configuration, and receives the same bytes again. -/
theorem restart_admits_replay :
    create .plain .standard .memory (some (plainIdentity "bob" 3)) 0 ⟨fun _ => 3, 0⟩ =
        .ok (plain .standard "bob" 3) ∧
      ∃ m history d store back m', Run .plain (plain .standard "bob" 3) history d ∧
        (Operation.receive firstLetter, Reply.received (.ok m)) ∈ history ∧
        (d.save .plain (.memory none) "secret").1 = .ok store ∧
        restore .plain d.config .memory store "secret" 7 ⟨fun _ => 9, 0⟩ = .ok back ∧
        (back.receive .plain firstLetter).1 = .ok m' := by
  obtain ⟨store, back, hStored, hBack, -, hAgain, -⟩ := exists_readerBack
  obtain ⟨m', hAgain, -⟩ := exists_ok_of_map hAgain
  have hFirst : ((after .plain (plain .standard "bob" 3) [meetPlain "ann" 1]).receive .plain
      firstLetter).1.toOption.map (·.place) = some (0, 1) := by
    decide +kernel
  obtain ⟨m, hFirst, -⟩ := exists_ok_of_map hFirst
  have hReceived := mem_during_receive [meetPlain "ann" 1] [.receive secondLetter] hFirst
  exact ⟨create_plain "bob" 3 rfl, m, _, reader, store, back, m', run_reader, hReceived, hStored,
    hBack, hAgain⟩

end Device

end EndToEnd
