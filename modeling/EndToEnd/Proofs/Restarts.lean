import EndToEnd.Proofs.SavedText
import EndToEnd.Proofs.Starts

/-!
# Restarts

A device can be saved at any time and brought back later from what a store holds. It then has lost
its sessions, but not the numbers of its epochs. A `Device.Life` is a run with restarts, where every
restart is from a store that was written after the last epoch with some peer had begun.

Main results:

* `Device.save_eq_ok` — what is in a store after a device was saved there.
* `Device.Life.keeps` — every store that may be restored holds the present number of epochs.
* `Device.nextEpoch_restore` — behind a restart, that number is what it was.
* `Device.get?_restored`, `Device.restore_of_savedIn` — behind a restart, everyone is on file again,
  and with its passphrase, the device is who it was.
-/

namespace EndToEnd

namespace Pairs

/-- Raising the counters of sides that had no epoch yet sets them. -/
theorem nextEpoch_raiseCounters_empty (counters : Table String UInt64) (peer : String) :
    ((empty.raiseCounters counters).sending peer).nextEpoch = (counters.get? peer).getD 0 := by
  -- no counter is below zero
  have hZero (n : UInt64) : max 0 n = n := by
    have hMax : max 0 n = if 0 ≤ n then n else 0 := rfl
    rw [hMax, if_pos UInt64.zero_le]
  -- along a list of distinct peers, the counter is set at the entry of the peer, if there is one
  have hFold (l : List (String × UInt64)) (hKeys : l.Pairwise fun a b => a.1 ≠ b.1) (p : Pairs) :
      ((l.foldl (fun p e => p.raiseCounter e.1 e.2) p).sending peer).nextEpoch =
        match l.find? (·.1 = peer) with
        | some e => max (p.sending peer).nextEpoch e.2
        | none => (p.sending peer).nextEpoch := by
    induction l generalizing p with
    | nil => rfl
    | cons e rest ih =>
      obtain ⟨hFirst, hRest⟩ := List.pairwise_cons.1 hKeys
      rw [List.foldl_cons, ih hRest, List.find?_cons]
      by_cases hPeer : e.1 = peer
      · have hNone : rest.find? (·.1 = peer) = none := by
          rw [List.find?_eq_none]
          intro f hf hSame
          exact hFirst f hf (hPeer.trans (of_decide_eq_true hSame).symm)
        simp [hNone, hPeer, sending_raiseCounter]
      · have hOther : (p.raiseCounter e.1 e.2).sending peer = p.sending peer := by
          rw [sending_raiseCounter, if_neg (Ne.symm hPeer)]
        simp [hPeer, hOther]
  -- a table lists every peer once, so the peer has at most one counter in the list
  unfold raiseCounters
  rw [hFold _ counters.pairwise_ne]
  cases hFound : counters.toList.find? (·.1 = peer) with
  | none =>
    have hNone : counters.get? peer = none := by
      refine Option.eq_none_iff_forall_ne_some.2 fun n hn => ?_
      have hMem := Table.mem_toList_iff.2 hn
      simpa using List.find?_eq_none.1 hFound _ hMem
    rw [hNone]
    rfl
  | some e =>
    have hPeer : e.1 = peer := by simpa using List.find?_some hFound
    have hSome : counters.get? peer = some e.2 :=
      Table.mem_toList_iff.1 (hPeer ▸ List.mem_of_find?_eq_some hFound)
    rw [hSome]
    exact hZero e.2

/-- The counters that are saved are those of the sending sides. -/
theorem getD_counters (p : Pairs) (peer : String) :
    (p.counters.get? peer).getD 0 = (p.sending peer).nextEpoch := by
  unfold counters sending outbound?
  rw [Table.get?_filter, Table.get?_mapValues]
  cases p.outbound.get? peer with
  | none => rfl
  | some o =>
    by_cases hZero : o.nextEpoch = 0
    · simp [hZero, Option.filter]
    · simp [hZero, Option.filter]

end Pairs

/-- The store that an operation wrote the device to, if it wrote one, and the passphrase for it. -/
def History.stored? : Operation × Reply → Option (Store × String)
  | (.save _ passphrase, .stored (.ok store)) => some (store, passphrase)
  | _ => none

namespace Device

variable {P : Primitives} {d d' start : Device}

/-- A store in which a device was saved under a passphrase. -/
def SavedIn (P : Primitives) (d : Device) (store : Store) (passphrase : String) : Prop :=
  ∃ stored rest, SealedIdentity.lock P d.identity passphrase d.config.iterations
      d.config.saltLength d.random = (.ok stored, rest) ∧
    store.load = .ok (some (d.savedState stored))

/-- What is in a store after a device was saved there. -/
theorem save_eq_ok {store store' : Store} {passphrase : String} {d' : Device}
    (h : d.save P store passphrase = (.ok store', d')) : d.SavedIn P store' passphrase := by
  unfold save at h
  dsimp only at h
  split at h
  · cases h
  · rename_i stored hLocked
    rw [Prod.mk.injEq] at h
    refine ⟨stored, _, Prod.ext hLocked rfl, ?_⟩
    exact Store.load_of_save h.1 (UInt32.le_refl _)

-- ---------------------------------------------------------------------------
-- Lives
-- ---------------------------------------------------------------------------

/-- What was saved since the last epoch with a peer began, latest first: nothing of what was saved
before, if it began just now. -/
def savedSince {α : Type} (peer : String) (d d' : Device) (stored : Option α) (saved : List α) :
    List α :=
  if (d'.pairs.sending peer).nextEpoch ≠ (d.pairs.sending peer).nextEpoch then []
  else stored.toList ++ saved

theorem mem_savedSince {α : Type} {peer : String} {stored : Option α} {saved : List α} {x : α} :
    x ∈ savedSince peer d d' stored saved ↔
      (d'.pairs.sending peer).nextEpoch = (d.pairs.sending peer).nextEpoch ∧
        (stored = some x ∨ x ∈ saved) := by
  unfold savedSince
  split
  · rename_i hBegun
    exact ⟨fun h => (nomatch h), fun h => absurd h.1 hBegun⟩
  · rename_i hSame
    rw [Decidable.not_not] at hSame
    rw [List.mem_append, Option.mem_toList]
    exact ⟨fun h => ⟨hSame, h⟩, fun h => h.2⟩

/-- A run with restarts: its history, the device at its end, and the stores from which it may be
brought back there, those that were written since the last epoch with a peer began. -/
inductive Life (P : Primitives) (peer : String) (start : Device) :
    History → List Store → Device → Prop where
  | start : Life P peer start [] [] start
  | step {history : History} {saved : List Store} {d : Device} (op : Operation)
      (before : Life P peer start history saved d) (returns : overruns P d op = false) :
      Life P peer start (history ++ [(op, (step P d op).1)])
        (savedSince peer d (step P d op).2
          ((History.stored? (op, (step P d op).1)).map (·.1)) saved)
        (step P d op).2
  | restart {history : History} {saved : List Store} {d d' : Device} {config : Config}
      {sink : Audit.Sink} {store : Store} {passphrase : String} {now : UInt64}
      {random : RandomSource} (before : Life P peer start history saved d) (mem : store ∈ saved)
      (restored : restore P config sink store passphrase now random = .ok d') :
      Life P peer start history saved d'

/-- A store that holds the number of the next epoch with a peer. -/
def Keeps (peer : String) (next : UInt64) (store : Store) : Prop :=
  ∃ state, store.load = .ok (some state) ∧ (state.nextEpochs.get? peer).getD 0 = next

theorem SavedIn.keeps {store : Store} {passphrase : String} (h : d.SavedIn P store passphrase)
    (peer : String) : Keeps peer (d.pairs.sending peer).nextEpoch store := by
  obtain ⟨stored, -, -, hLoad⟩ := h
  exact ⟨_, hLoad, d.pairs.getD_counters peer⟩

/-- **Behind a restart, the number of the next epoch is what it was,** and no session is left. -/
theorem nextEpoch_restore {peer : String} {next : UInt64} {config : Config} {sink : Audit.Sink}
    {store : Store} {passphrase : String} {now : UInt64} {random : RandomSource}
    (hKeeps : Keeps peer next store)
    (hRestored : restore P config sink store passphrase now random = .ok d') :
    (d'.pairs.sending peer).nextEpoch = next ∧ (d'.pairs.sending peer).current = none := by
  obtain ⟨state, hLoad, hNext⟩ := hKeeps
  refine ⟨?_, (Starts.restored hRestored).current peer⟩
  obtain ⟨identity, d₀, hCreate, ⟨hNone, -, -⟩ | ⟨found, hFound, -, rfl⟩⟩ := restore_eq_ok hRestored
  · rw [hLoad] at hNone
    cases hNone
  · rw [hLoad] at hFound
    cases hFound
    obtain ⟨-, rfl⟩ := create_eq_ok hCreate
    exact (Pairs.nextEpoch_raiseCounters_empty state.nextEpochs peer).trans hNext

/-- What is said openly about a sealed identity. -/
theorem of_lock {identity : Identity} {passphrase : String} {iterations : UInt32}
    {saltLength : Nat} {random rest : RandomSource} {stored : SealedIdentity}
    (h : SealedIdentity.lock P identity passphrase iterations saltLength random =
      (.ok stored, rest)) :
    stored.deviceId = identity.deviceId ∧ stored.createdAt = identity.createdAt ∧
      stored.publicKeys = identity.keys.publicKeys P := by
  unfold SealedIdentity.lock at h
  dsimp only at h
  split at h
  · cases h
  · cases h
    exact ⟨rfl, rfl, rfl⟩

/-- A sealed identity is opened with the passphrase it was sealed under. -/
theorem openIdentity_lock (hP : P.Lawful) {identity : Identity} {passphrase : String}
    {iterations : UInt32} {saltLength : Nat} {random rest : RandomSource} {stored : SealedIdentity}
    (h : SealedIdentity.lock P identity passphrase iterations saltLength random =
    (.ok stored, rest)) :
    openIdentity P stored passphrase = .ok identity := by
  obtain ⟨hId, hCreated, hPublic⟩ := of_lock h
  unfold openIdentity
  rw [SealedIdentity.unlock_lock hP h]
  dsimp only
  rw [if_pos hPublic.symm, hId, hCreated]

/-- The peers of a saved device are on file again when they are taken back. -/
theorem get?_restore_snapshot {c c' : Contacts} (hFiled : c.Filed) (id : String) :
    (c'.restore c.snapshot).get? id = c.get? id := by
  have hEntries : c.snapshot.map (fun peer => (peer.deviceId, peer)) = c.peers.toList := by
    unfold Contacts.snapshot Table.values
    rw [List.map_map]
    refine (List.map_congr_left fun entry hEntry => ?_).trans (List.map_id _)
    have hId : entry.2.deviceId = entry.1 := hFiled _ _ (Table.mem_toList_iff.1 hEntry)
    exact Prod.ext hId rfl
  show (Table.ofList (c.snapshot.map fun peer => (peer.deviceId, peer))).get? id = _
  rw [hEntries, Table.ofList_toList]
  rfl

/-- What a device is made of that comes back from a store in which one was saved. -/
theorem restore_saved {config : Config} {sink : Audit.Sink} {store : Store}
    {passphrase passphrase' : String} {now : UInt64} {random : RandomSource}
    (hSaved : d.SavedIn P store passphrase)
    (hRestored : restore P config sink store passphrase' now random = .ok d') :
    ∃ stored rest identity, SealedIdentity.lock P d.identity passphrase d.config.iterations
        d.config.saltLength d.random = (.ok stored, rest) ∧
      identityOf P (d.savedState stored) passphrase' = .ok identity ∧
      d' = (fresh P config sink identity now random).resume (d.savedState stored) := by
  obtain ⟨stored, rest, hLocked, hLoad⟩ := hSaved
  obtain ⟨identity, d₀, hCreate, ⟨hNone, -, -⟩ | ⟨state, hFound, hIdentity, rfl⟩⟩ :=
    restore_eq_ok hRestored
  · rw [hLoad] at hNone
    cases hNone
  · rw [hLoad] at hFound
    cases hFound
    obtain ⟨-, rfl⟩ := create_eq_ok hCreate
    exact ⟨stored, rest, identity, hLocked, hIdentity, rfl⟩

/-- **A device has its id again behind a restart,** whatever passphrase opened the store. -/
theorem id_restored {config : Config} {sink : Audit.Sink} {store : Store}
    {passphrase passphrase' : String} {now : UInt64} {random : RandomSource}
    (hSaved : d.SavedIn P store passphrase)
    (hRestored : restore P config sink store passphrase' now random = .ok d') : d'.id = d.id := by
  obtain ⟨stored, rest, identity, hLocked, hIdentity, rfl⟩ := restore_saved hSaved hRestored
  obtain ⟨hId, -⟩ := of_lock hLocked
  have hOpened : (openIdentity P stored passphrase').map some = .ok identity := hIdentity
  unfold openIdentity at hOpened
  split at hOpened
  · cases hOpened
  · split at hOpened
    · cases hOpened
      exact hId
    · cases hOpened

/-- **Everyone on file is on file again behind a restart,** whatever passphrase opened the store. -/
theorem get?_restored (hFiled : d.contacts.Filed) {config : Config} {sink : Audit.Sink}
    {store : Store} {passphrase passphrase' : String} {now : UInt64} {random : RandomSource}
    (hSaved : d.SavedIn P store passphrase)
    (hRestored : restore P config sink store passphrase' now random = .ok d') (id : String) :
    d'.contacts.get? id = d.contacts.get? id := by
  obtain ⟨stored, -, identity, -, -, rfl⟩ := restore_saved hSaved hRestored
  exact get?_restore_snapshot hFiled id

/-- The identity of a saved device is opened with the passphrase it was sealed under. -/
theorem identityOf_savedState (hP : P.Lawful) {passphrase : String} {stored : SealedIdentity}
    {rest : RandomSource} (hLocked : SealedIdentity.lock P d.identity passphrase d.config.iterations
      d.config.saltLength d.random = (.ok stored, rest)) :
    identityOf P (d.savedState stored) passphrase = .ok (some d.identity) := by
  show (openIdentity P stored passphrase).map some = _
  rw [openIdentity_lock hP hLocked]
  rfl

/-- With the passphrase that it was saved under, a device is made of its own identity again. -/
theorem restore_savedIn (hP : P.Lawful) {config : Config} {sink : Audit.Sink} {store : Store}
    {passphrase : String} {now : UInt64} {random : RandomSource}
    (hSaved : d.SavedIn P store passphrase)
    (hRestored : restore P config sink store passphrase now random = .ok d') :
    ∃ stored, d' = (fresh P config sink (some d.identity) now random).resume
      (d.savedState stored) := by
  obtain ⟨stored, rest, identity, hLocked, hIdentity, hBack⟩ := restore_saved hSaved hRestored
  rw [identityOf_savedState hP hLocked] at hIdentity
  cases hIdentity
  exact ⟨stored, hBack⟩

/-- **With the passphrase that it was saved under, a device comes back as it was:** with its
identity and everyone it had on file. -/
theorem restore_of_savedIn (hP : P.Lawful) (hFiled : d.contacts.Filed) {config : Config}
    {sink : Audit.Sink} {store : Store} {passphrase : String} {now : UInt64} {random : RandomSource}
    (hSaved : d.SavedIn P store passphrase)
    (hRestored : restore P config sink store passphrase now random = .ok d') :
    d'.config = config ∧ d'.identity = d.identity ∧
      ∀ id, d'.contacts.get? id = d.contacts.get? id := by
  have hContacts := get?_restored hFiled hSaved hRestored
  obtain ⟨stored, rfl⟩ := restore_savedIn hP hSaved hRestored
  exact ⟨rfl, rfl, hContacts⟩

/-- A store that an operation wrote holds what the device was. -/
theorem stored_step {op : Operation} {x : Store × String}
    (h : History.stored? (op, (d.step P op).1) = some x) : d.SavedIn P x.1 x.2 := by
  cases op with
  | save before passphrase =>
    rcases hSaved : d.save P before passphrase with ⟨result, d'⟩
    have hReply : (d.step P (.save before passphrase)).1 = .stored result := by
      show Reply.stored (d.save P before passphrase).1 = _
      rw [hSaved]
    rw [hReply] at h
    cases result with
    | error failure => cases h
    | ok store =>
      cases h
      exact save_eq_ok hSaved
  | _ => cases h

theorem keeps_step {peer : String} {saved : List Store} (op : Operation)
    (h : ∀ store ∈ saved, Keeps peer (d.pairs.sending peer).nextEpoch store) :
    ∀ store ∈ savedSince peer d (d.step P op).2 ((History.stored? (op, (d.step P op).1)).map
      (·.1)) saved,
      Keeps peer ((d.step P op).2.pairs.sending peer).nextEpoch store := by
  intro store hStore
  obtain ⟨hSame, hStored | hBefore⟩ := mem_savedSince.1 hStore
  · rw [hSame]
    obtain ⟨x, hWritten, rfl⟩ := Option.map_eq_some_iff.1 hStored
    exact (stored_step hWritten).keeps peer
  · rw [hSame]
    exact h store hBefore

variable {peer : String} {history : History} {saved : List Store}

/-- In a life, every peer is on file under its own id. -/
theorem Life.filed (hStart : Starts P start) (hLife : Life P peer start history saved d) :
    d.contacts.Filed := by
  induction hLife with
  | start => exact hStart.filed
  | step op _ _ ih => exact (evolves_step _ op).filed ih
  | restart _ _ restored _ => exact (Starts.restored restored).filed

/-- **Every store that may be restored holds the present number of the next epoch.** -/
theorem Life.keeps (hLife : Life P peer start history saved d) :
    ∀ store ∈ saved, Keeps peer (d.pairs.sending peer).nextEpoch store := by
  induction hLife with
  | start => exact fun _ h => (nomatch h)
  | step op _ _ ih => exact keeps_step op ih
  | restart _ mem restored ih =>
    rw [(nextEpoch_restore (ih _ mem) restored).1]
    exact ih

/-- The stores from which a device may be brought back behind some operations. -/
def savedDuring (P : Primitives) (peer : String) (d : Device) (saved : List Store) :
    List Operation → List Store
  | [] => saved
  | op :: rest =>
    savedDuring P peer (step P d op).2
      (savedSince peer d (step P d op).2 ((History.stored? (op, (step P d op).1)).map (·.1))
        saved) rest

/-- A life goes on with operations that all return. -/
theorem Life.after (hLife : Life P peer start history saved d) {ops : List Operation}
    (h : allReturn P d ops = true) :
    Life P peer start (history ++ during P d ops) (savedDuring P peer d saved ops)
      (Device.after P d ops) := by
  induction ops generalizing history saved d with
  | nil =>
    rw [during, List.append_nil]
    exact hLife
  | cons op rest ih =>
    simp only [allReturn, Bool.and_eq_true, Bool.not_eq_true'] at h
    have hRest := ih (hLife.step op h.1) h.2
    rw [List.append_assoc] at hRest
    exact hRest

end Device

end EndToEnd
