import EndToEnd.Proofs.Bookkeeping
import EndToEnd.Proofs.Plain
import EndToEnd.Proofs.Restarts

/-!
# What a device gets back

A device can be saved at any time, under any passphrase but the empty one and wherever something can
be written, and whoever knows the passphrase can bring it back. It is then who it was and knows whom
it knew. What it does not get back are its sessions, and the word of a root that was entered under
its own id: there it trusts itself again.

Main results:

* `Device.exists_save_eq_ok`, `Device.exists_restore_eq_ok` — neither saving nor restoring fails.
* `Device.roots_restored` — which roots are trusted behind a restart.
* `Device.comes_back` — everything that a restart gives back.
-/

namespace EndToEnd

-- ---------------------------------------------------------------------------
-- Saving
-- ---------------------------------------------------------------------------

/-- A passphrase that is not empty stands for a key, if the configuration can be used. -/
theorem SealedIdentity.exists_lock_eq_ok (P : Primitives) (identity : Identity) {passphrase : String}
    (hPassphrase : passphrase ≠ "") {config : Config} (hValid : config.validate = .ok ())
    (random : RandomSource) :
    ∃ stored rest, lock P identity passphrase config.iterations config.saltLength random =
      (.ok stored, rest) := by
  obtain ⟨-, -, -, -, -, hIterations, hSalt⟩ := Config.validate_eq_ok_iff.1 hValid
  have hText : passphrase.isEmpty = false := by
    rw [Bool.eq_false_iff]
    exact fun hEmpty => hPassphrase (String.isEmpty_iff.1 hEmpty)
  have hStrong : ¬((random.draw config.saltLength).1.length < 16 ∨ config.iterations = 0) := by
    rw [RandomSource.length_draw]
    exact not_or.2 ⟨Nat.not_lt.2 hSalt, hIterations⟩
  unfold lock masterKey
  simp only [hText, hStrong, if_false, Bool.false_eq_true]
  exact ⟨_, _, rfl⟩

/-- A state can be saved anywhere but in a directory. -/
theorem Store.exists_save_eq_ok (state : SavedState) {store : Store}
    (h : store ≠ .file .directory) : ∃ store', store.save state = .ok store' := by
  cases store with
  | memory => exact ⟨_, rfl⟩
  | file content =>
    cases content with
    | directory => exact absurd rfl h
    | nothing => exact ⟨_, rfl⟩
    | text => exact ⟨_, rfl⟩

namespace Pairs

/-- Where nothing was begun, there is no session. -/
theorem Blank.live_eq_nil {p : Pairs} (h : p.Blank) : p.live = [] := by
  refine List.eq_nil_iff_forall_not_mem.2 fun session hLive => ?_
  obtain ⟨peer, hSide⟩ := mem_live_iff.1 hLive
  rw [h.live, h.receiving] at hSide
  rcases hSide with hSending | hReceiving
  · cases hSending
  · cases hReceiving

end Pairs

namespace Device

variable {P : Primitives} {d d' start : Device} {history : History} {store : Store}
  {passphrase : String}

/-- **A device can be saved.** -/
theorem exists_save_eq_ok (hValid : d.config.validate = .ok ()) (hPassphrase : passphrase ≠ "")
    (hStore : store ≠ .file .directory) : ∃ store', (d.save P store passphrase).1 = .ok store' := by
  obtain ⟨stored, rest, hLocked⟩ :=
    SealedIdentity.exists_lock_eq_ok P d.identity hPassphrase hValid d.random
  unfold save
  rw [hLocked]
  exact Store.exists_save_eq_ok _ hStore

-- ---------------------------------------------------------------------------
-- Restoring
-- ---------------------------------------------------------------------------

/-- **A saved device can be restored** with its passphrase. -/
theorem exists_restore_eq_ok (hP : P.Lawful) {config : Config} (hValid : config.validate = .ok ())
    (hSaved : d.SavedIn P store passphrase) (sink : Audit.Sink) (now : UInt64)
    (random : RandomSource) :
    ∃ back, restore P config sink store passphrase now random = .ok back := by
  obtain ⟨stored, rest, hLocked, hLoad⟩ := hSaved
  unfold restore create
  simp only [hLoad, identityOf_savedState hP hLocked, hValid]
  exact ⟨_, rfl⟩

/-- The roots that are saved are those under other ids. -/
theorem savedRoots_eq (stored : SealedIdentity) :
    (d.savedState stored).roots.map (fun root => (root.deviceId, root.keys)) =
      d.roots.toList.filter (·.1 ≠ d.id) := by
  unfold savedState
  rw [List.map_map]
  exact List.map_id' _

/-- **Behind a restart, the same roots are trusted,** but under its own id a device trusts itself. -/
theorem roots_restored (hP : P.Lawful) (hSaved : d.SavedIn P store passphrase) {config : Config}
    {sink : Audit.Sink} {now : UInt64} {random : RandomSource}
    (hRestored : restore P config sink store passphrase now random = .ok d') :
    d'.roots = d.roots.insert d.id (d.identity.publicKeys P) := by
  obtain ⟨stored, rfl⟩ := restore_savedIn hP hSaved hRestored
  let saved := (d.savedState stored).roots.map fun root => (root.deviceId, root.keys)
  -- what is read back is stored behind the keys of the device itself
  have hRoots : ((fresh P config sink (some d.identity) now random).resume
      (d.savedState stored)).roots = saved.foldl (fun roots e => roots.insert e.1 e.2)
        (.ofList [(d.id, d.identity.publicKeys P)]) := by
    rw [List.foldl_map]
    rfl
  have hOwn (id : String) : (Table.ofList [(d.id, d.identity.publicKeys P)]).get? id =
      if id = d.id then some (d.identity.publicKeys P) else none := Table.get?_insert ..
  have hSavedRoots : saved = d.roots.toList.filter (·.1 ≠ d.id) := savedRoots_eq stored
  have hKeys : saved.Pairwise fun a b => a.1 ≠ b.1 := by
    rw [hSavedRoots]
    exact d.roots.pairwise_ne.filter _
  have hMem (id : String) (keys : PublicKeys) :
      (id, keys) ∈ saved ↔ d.roots.get? id = some keys ∧ id ≠ d.id := by
    rw [hSavedRoots, List.mem_filter, Table.mem_toList_iff, decide_eq_true_eq]
  rw [hRoots]
  refine Table.ext_get? fun id => Option.ext fun keys => ?_
  rw [Table.get?_insert]
  constructor
  · intro hFound
    rcases Table.get?_foldl_insert hFound with hSavedRoot | hBefore
    · obtain ⟨hRoot, hOther⟩ := (hMem id keys).1 hSavedRoot
      rw [if_neg hOther, hRoot]
    · rw [hOwn] at hBefore
      split at hBefore
      · rwa [if_pos ‹_›]
      · cases hBefore
  · intro hFound
    refine Table.get?_foldl_insert_of_mem hKeys ?_
    split at hFound
    · rename_i hSelf
      refine .inr ⟨fun e hSavedRoot hSame => ?_, by rw [hOwn, if_pos hSelf, hFound]⟩
      exact ((hMem e.1 e.2).1 hSavedRoot).2 (hSame.trans hSelf)
    · exact .inl ((hMem id keys).2 ⟨hFound, ‹_›⟩)

-- ---------------------------------------------------------------------------
-- Both
-- ---------------------------------------------------------------------------

/-- What of a device, `d`, there is in the one that a restart makes of it, `back`. -/
structure Regains (P : Primitives) (d back : Device) : Prop where
  config : back.config = d.config
  /-- Its id, the time it was created, and its keys, of which the public ones are halves. -/
  identity : back.identity = d.identity
  /-- Everything that is on file about everyone. -/
  peers : back.contacts.peers = d.contacts.peers
  roots : ∀ id, id ≠ d.id → back.roots.get? id = d.roots.get? id
  /-- Under its own id, it trusts itself. -/
  ownRoot : back.roots.get? d.id = some (d.identity.publicKeys P)
  nextEpoch : ∀ peer, (back.pairs.sending peer).nextEpoch = (d.pairs.sending peer).nextEpoch
  /-- There are no sessions. -/
  live : back.pairs.live = []
  deadlines : back.deadlines = .empty

/-- What a device regains behind a restart under its own configuration. -/
theorem regains_restored (hP : P.Lawful) (hFiled : d.contacts.Filed)
    (hSaved : d.SavedIn P store passphrase) {sink : Audit.Sink} {now : UInt64}
    {random : RandomSource}
    (hRestored : restore P d.config sink store passphrase now random = .ok d') :
    d.Regains P d' := by
  obtain ⟨hConfig, hIdentity, hContacts⟩ := restore_of_savedIn hP hFiled hSaved hRestored
  have hRoots := roots_restored hP hSaved hRestored
  have hStarts : Starts P d' := .restored hRestored
  exact {
    config := hConfig
    identity := hIdentity
    peers := Table.ext_get? hContacts
    roots := fun id hOther => by rw [hRoots, Table.get?_insert, if_neg hOther]
    ownRoot := by rw [hRoots, Table.get?_insert_self]
    nextEpoch := fun peer => (nextEpoch_restore (hSaved.keeps peer) hRestored).1
    live := hStarts.blank.1.live_eq_nil
    deadlines := hStarts.blank.2.1 }

/-- **A device that is saved comes back.** However a device was used before, it can be saved under
any passphrase but the empty one, in memory or in a file, whatever was there before. From there it
can be restored with this passphrase, under the same configuration, at any time, with its identity
and its keys, everyone it had on file, the roots it trusted under other ids than its own, and the
number of its next epoch with every peer; and then it has no sessions.

In the run no counter passes `2 ^ 64 - 1`. -/
theorem comes_back (hP : P.Lawful) (hStart : Starts P start) (hRun : Run P start history d)
    (hPassphrase : passphrase ≠ "") (hStore : store ≠ .file .directory) :
    ∃ written, (d.save P store passphrase).1 = .ok written ∧
      ∀ (sink : Audit.Sink) (now : UInt64) (random : RandomSource),
        ∃ back, restore P d.config sink written passphrase now random = .ok back ∧
          d.Regains P back := by
  have hValid : d.config.validate = .ok () := by
    rw [hRun.evolves.config]
    exact hStart.validate
  obtain ⟨written, hWritten⟩ := exists_save_eq_ok (P := P) hValid hPassphrase hStore
  have hSaved : d.SavedIn P written passphrase := save_eq_ok (Prod.ext hWritten rfl)
  refine ⟨written, hWritten, fun sink now random => ?_⟩
  obtain ⟨back, hBack⟩ := exists_restore_eq_ok hP hValid hSaved sink now random
  exact ⟨back, hBack, regains_restored hP (hRun.filed hStart) hSaved hBack⟩

/-- Bob has heard from Ann and written to her twice, in two epochs. He trusts the word of a root, has
entered other keys for a root under his own id, and has revoked a peer. -/
def trustingOps : List Operation :=
  let letters := plainLetters .standard [.send "bob" .basic [1]]
  meetPlain "ann" 1 :: letters.map .receive ++
    [.verify "ann" .firstContact, .send "ann" .basic [2], .rotate "ann", .send "ann" .enhanced [3],
      .addRoot "root" ((plainIdentity "root" 7).publicKeys .plain),
      .addRoot "bob" ((plainIdentity "bob" 9).publicKeys .plain),
      meetPlain "eve" 5, .revoke "eve" "lost"]

theorem comes_back_of_trustingOps :
    let bob := after .plain (plain .standard "bob" 3) trustingOps
    bob.contacts.peers.keys = ["ann", "eve"] ∧ bob.roots.keys = ["bob", "root"] ∧
      (bob.pairs.sending "ann").nextEpoch = 2 ∧ bob.pairs.live.length = 2 ∧
      ∃ written, (bob.save .plain (.file (.text [0])) "secret").1 = .ok written ∧
        ∀ (sink : Audit.Sink) (now : UInt64) (random : RandomSource),
          ∃ back, restore .plain bob.config sink written "secret" now random = .ok back ∧
            bob.Regains .plain back := by
  intro bob
  have hRun := run_after
    (show allReturn .plain (plain .standard "bob" 3) trustingOps = true by decide +kernel)
  exact ⟨by decide +kernel, by decide +kernel, by decide +kernel, by decide +kernel,
    comes_back Primitives.plain_lawful (plain_starts "bob" 3 rfl) hRun (by decide) (by decide)⟩

end Device

end EndToEnd
