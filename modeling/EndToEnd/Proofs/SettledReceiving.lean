import EndToEnd.Proofs.Entries

/-!
# Receiving sides and the index

A receiving side keeps sessions of epochs that have begun, of which at most the latest is active. The
index has an entry for each of these epochs and for no other (`Inbound.Settled`). Every operation
keeps this. An epoch with its entry is a `Inbound.Cell`, and most operations work cell by cell.

Main results:

* `Inbound.cell_expireAll` — what becomes of every epoch when a later one begins.
* `Inbound.settled_decrypt` — a message, whether it is accepted or not.
* `Inbound.settled_applyInbound` — what is due for a session is done.
-/

namespace EndToEnd

namespace Inbound

/-- What is kept of an epoch, and what the index has on it. -/
abbrev Cell := Option Session × Option Rotation.Deadline

/-- What becomes of an epoch when its session ends. -/
def Cell.expire (s : Setting) : Cell → Cell
  | (none, entry) => (none, entry)
  | (some session, entry) =>
    if session.isActive then
      let deadline := s.config.rotation.retirement s.now entry
      (some (session.expire deadline), some ⟨(entry.map (·.expireAt)).getD s.now, some deadline⟩)
    else (some session, entry)

/-- A session that has ended does not end again. -/
theorem Cell.expire_expire (s : Setting) (c : Cell) : (c.expire s).expire s = c.expire s := by
  obtain ⟨session | session, entry⟩ := c
  · rfl
  · cases hPhase : session.phase with
    | expiring deadline => simp [expire, Session.isActive, hPhase]
    | active => simp [expire, Session.isActive, Session.expire, hPhase]

/-- Behind its end, no session is active. -/
theorem Cell.isActive_of_expire {s : Setting} {c : Cell} {session : Session}
    (h : (c.expire s).1 = some session) : session.isActive = false := by
  obtain ⟨before | before, entry⟩ := c
  · cases h
  · unfold expire at h
    dsimp only at h
    split at h
    · cases h
      rw [Bool.eq_false_iff, ne_eq, Session.isActive_iff, Session.retireAt_expire]
      exact nofun
    · cases h
      rw [Bool.eq_false_iff]
      assumption

/-- An epoch on the side of a pair. -/
def cell (own peer : String) (w : Work Inbound) (epoch : UInt64) : Cell :=
  (w.part.epochs.get? epoch, w.deadlines.entries own peer .inbound epoch)

/-- An epoch is in the index if and only if its session is kept, and is dropped when the session
says. -/
def Cell.Agrees (c : Cell) : Prop := c.2.map (·.retireAt) = c.1.map (·.retireAt)

/-- A session and its entry end together. -/
theorem Cell.Agrees.expire {c : Cell} (h : c.Agrees) (s : Setting) : (c.expire s).Agrees := by
  obtain ⟨session | session, entry⟩ := c
  · exact h
  · unfold Cell.expire
    dsimp only
    split
    · rename_i hActive
      have hNone := Session.isActive_iff.1 hActive
      simp [Agrees, Session.retireAt_expire, hNone]
    · exact h

/-- How a session that is kept stands on a receiving side. It may be there at all only if `may`
holds. -/
structure Holds (own peer : String) (may : Prop) (i : Inbound) (epoch : UInt64) (session : Session) :
    Prop where
  allowed : may
  id : session.id = ⟨own, peer, epoch, .inbound⟩
  past : i.isPast epoch = true
  latest : session.isActive = true → i.latest = some epoch
  unbarred : i.isRevoked = false

/-- A receiving side that agrees with the index, epoch by epoch. -/
structure Settled (own peer : String) (may : Prop) (w : Work Inbound) : Prop where
  holds : ∀ epoch session, w.part.epochs.get? epoch = some session →
    Holds own peer may w.part epoch session
  index : ∀ epoch, (cell own peer w epoch).Agrees

variable {own peer : String} {may : Prop} {w w' : Work Inbound}

theorem Settled.named (h : Settled own peer may w) : w.part.Named own peer :=
  fun epoch session hSession => (h.holds epoch session hSession).id

theorem Settled.congr (h : Settled own peer may w) (hPart : w'.part = w.part)
    (hDeadlines : w'.deadlines.entries own peer .inbound =
      w.deadlines.entries own peer .inbound) : Settled own peer may w' := by
  refine ⟨?_, fun epoch => ?_⟩
  · rw [hPart]
    exact h.holds
  · have hIndex := h.index epoch
    unfold cell at hIndex ⊢
    rw [hPart, hDeadlines]
    exact hIndex

theorem Settled.mono {may' : Prop} (h : Settled own peer may w) (hImp : may → may') :
    Settled own peer may' w := by
  refine ⟨fun epoch session hSession => ?_, h.index⟩
  have hHolds := h.holds epoch session hSession
  exact ⟨hImp hHolds.allowed, hHolds.id, hHolds.past, hHolds.latest, hHolds.unbarred⟩

/-- A live session is the session of some epoch. -/
theorem mem_live_iff {i : Inbound} {session : Session} :
    session ∈ i.live ↔ ∃ epoch, i.epochs.get? epoch = some session := by
  constructor
  · intro hMem
    obtain ⟨⟨epoch, t⟩, hEntry, rfl⟩ := List.mem_map.1 hMem
    exact ⟨epoch, Table.mem_toList_iff.1 hEntry⟩
  · rintro ⟨epoch, hSession⟩
    exact List.mem_map.2 ⟨(epoch, session), Table.mem_toList_iff.2 hSession, rfl⟩

/-- A side that may not keep sessions, or is barred, keeps none. -/
theorem Settled.live_eq_nil (h : Settled own peer may w) (hNot : ¬may ∨ w.part.isRevoked = true) :
    w.part.live = [] := by
  refine List.eq_nil_iff_forall_not_mem.2 fun session hMem => ?_
  obtain ⟨epoch, hSession⟩ := mem_live_iff.1 hMem
  have hHolds := h.holds epoch session hSession
  have hOpen : ¬w.part.isRevoked = true := by simp [hHolds.unbarred]
  exact hNot.elim (· hHolds.allowed) hOpen

/-- The ids of the sessions that are kept are those that the index has for the side. -/
theorem Settled.mem_ids_iff (h : Settled own peer may w) {id : SessionId} :
    id ∈ w.part.live.map (·.id) ↔
      id.Of own peer .inbound ∧ (w.deadlines.get? id).isSome = true := by
  have hSome (epoch : UInt64) : (w.deadlines.get? ⟨own, peer, epoch, .inbound⟩).isSome =
      (w.part.epochs.get? epoch).isSome := by
    have hAgrees := congrArg Option.isSome (h.index epoch)
    rwa [Option.isSome_map, Option.isSome_map] at hAgrees
  constructor
  · intro hMem
    obtain ⟨session, hLive, rfl⟩ := List.mem_map.1 hMem
    obtain ⟨epoch, hSession⟩ := mem_live_iff.1 hLive
    have hId := (h.holds epoch session hSession).id
    refine ⟨⟨epoch, hId⟩, ?_⟩
    rw [hId, hSome, hSession]
    rfl
  · rintro ⟨⟨epoch, rfl⟩, hEntry⟩
    rw [hSome] at hEntry
    obtain ⟨session, hSession⟩ := Option.isSome_iff_exists.1 hEntry
    exact List.mem_map.2 ⟨session, mem_live_iff.2 ⟨epoch, hSession⟩,
      (h.holds epoch session hSession).id⟩

-- ---------------------------------------------------------------------------
-- The end of epochs
-- ---------------------------------------------------------------------------

variable (s : Setting)

/-- Ending an epoch. -/
theorem cell_expire (h : w.part.Named own peer) (epoch other : UInt64) :
    cell own peer (expire s w epoch).2 other =
      if other = epoch then (cell own peer w epoch).expire s else cell own peer w other := by
  unfold expire
  cases hKept : w.part.epochs.get? epoch with
  | none =>
    by_cases hOther : other = epoch
    · simp [cell, hOther, hKept, Cell.expire]
    · simp [hOther]
  | some session =>
    have hId := h epoch session hKept
    by_cases hActive : session.isActive = true
    · by_cases hOther : other = epoch
      · simp [cell, hOther, hKept, hActive, Cell.expire, Work.expire, hId,
          Rotation.Deadlines.entries_markExpiring, Rotation.Deadlines.retirement_eq]
        rfl
      · simp [cell, hOther, hActive, Work.expire, hId, Table.get?_insert,
          Rotation.Deadlines.entries_markExpiring]
    · by_cases hOther : other = epoch
      · simp [cell, hOther, hKept, hActive, Cell.expire]
      · simp [hActive, hOther]

/-- **Ending every epoch.** -/
theorem cell_expireAll (h : w.part.Named own peer) (epoch : UInt64) :
    cell own peer (expireAll s w) epoch = (cell own peer w epoch).expire s := by
  -- along any list of epochs, those of the list end
  have hFold (l : List UInt64) (v : Work Inbound) (hNamed : v.part.Named own peer) :
      cell own peer (l.foldl (fun v epoch => (expire s v epoch).2) v) epoch =
        if epoch ∈ l then (cell own peer v epoch).expire s else cell own peer v epoch := by
    induction l generalizing v with
    | nil => simp
    | cons first rest ih =>
      have hFirst := cell_expire s hNamed first epoch
      rw [List.foldl_cons, ih _ (keeps_expire s hNamed first).named, hFirst]
      by_cases hSame : epoch = first
      · subst hSame
        by_cases hMem : epoch ∈ rest <;> simp [hMem, Cell.expire_expire]
      · simp [hSame]
  unfold expireAll
  rw [hFold _ w h]
  split
  · rfl
  · -- an epoch that is not in the list has no session
    rename_i hAbsent
    have hNone : w.part.epochs.get? epoch = none := by
      refine Option.eq_none_iff_forall_ne_some.2 fun session hSession => hAbsent ?_
      exact List.mem_map.2 ⟨(epoch, session), Table.mem_toList_iff.2 hSession, rfl⟩
    simp [cell, hNone, Cell.expire]

/-- A side that has only lost something still agrees with the index, if its epochs do. -/
theorem Settled.wane (h : Settled own peer may w) (hWanes : Wanes False w.part w'.part)
    (hIndex : ∀ epoch, (cell own peer w' epoch).Agrees) : Settled own peer may w' := by
  refine ⟨fun epoch session' hSession => ?_, hIndex⟩
  obtain ⟨session, hBefore, hAged⟩ := hWanes.kept epoch session' hSession
  have hHolds := h.holds epoch session hBefore
  refine ⟨hHolds.allowed, ?_, ?_, fun hActive => ?_, ?_⟩
  · rw [hAged.eq]
    exact hHolds.id
  · have hPast := hHolds.past
    unfold isPast at hPast ⊢
    rw [hWanes.latest]
    exact hPast
  · -- it was active before, so it is of the latest epoch
    rcases hAged with rfl | ⟨deadline, -, rfl⟩
    · rw [hWanes.latest]
      exact hHolds.latest hActive
    · cases hActive
  · cases hBarred : w'.part.isRevoked with
    | false => rfl
    | true =>
      have hUnbarred := hHolds.unbarred
      rw [(hWanes.barred hBarred).resolve_right id] at hUnbarred
      cases hUnbarred

/-- Ending the session of an epoch keeps the side in agreement with the index. -/
theorem settled_expire (h : Settled own peer may w) (epoch : UInt64) :
    Settled own peer may (expire s w epoch).2 := by
  refine h.wane (wanes_expire s w epoch) fun other => ?_
  rw [cell_expire s h.named]
  split
  · exact (h.index epoch).expire s
  · exact h.index other

/-- Ending all active sessions keeps the side in agreement with the index. -/
theorem settled_expireAll (h : Settled own peer may w) : Settled own peer may (expireAll s w) := by
  refine h.wane (wanes_expireAll s w) fun epoch => ?_
  rw [cell_expireAll s h.named]
  exact (h.index epoch).expire s

/-- An epoch that is dropped leaves the index too. -/
theorem cell_drop {epoch : UInt64} (hPart : w'.part = { w.part with
      epochs := w.part.epochs.erase epoch })
    (hDeadlines : w'.deadlines = w.deadlines.remove ⟨own, peer, epoch, .inbound⟩) (other : UInt64) :
    cell own peer w' other = if other = epoch then (none, none) else cell own peer w other := by
  unfold cell
  rw [hPart, hDeadlines, Rotation.Deadlines.entries_remove, Table.get?_erase]
  split <;> rfl

/-- A session goes together with its entry. -/
theorem Settled.drop (h : Settled own peer may w) {epoch : UInt64}
    (hPart : w'.part = { w.part with epochs := w.part.epochs.erase epoch })
    (hDeadlines : w'.deadlines = w.deadlines.remove ⟨own, peer, epoch, .inbound⟩) :
    Settled own peer may w' := by
  have hWanes : Wanes False w.part w'.part := by
    rw [hPart]
    exact .erase w.part epoch
  refine h.wane hWanes fun other => ?_
  rw [cell_drop hPart hDeadlines]
  split
  · rfl
  · exact h.index other

/-- The session of an epoch, with its chain moved. -/
theorem Settled.move (h : Settled own peer may w) {epoch : UInt64} {session session' : Session}
    (hKnown : w.part.epochs.get? epoch = some session) (hId : session'.id = session.id)
    (hPhase : session'.phase = session.phase) :
    Settled own peer may
      { w with part := { w.part with epochs := w.part.epochs.insert epoch session' } } := by
  -- the session keeps its place, its phase and so its entry in the index
  have hRetire : session'.retireAt = session.retireAt := by
    unfold Session.retireAt
    rw [hPhase]
  refine ⟨fun other t ht => ?_, fun other => ?_⟩
  · have ht : (w.part.epochs.insert epoch session').get? other = some t := ht
    rw [Table.get?_insert] at ht
    split at ht
    · rename_i hOther
      cases ht
      subst hOther
      have hHolds := h.holds other session hKnown
      refine ⟨hHolds.allowed, hId.trans hHolds.id, hHolds.past, fun hActive => ?_, hHolds.unbarred⟩
      rw [Session.isActive_iff, hRetire, ← Session.isActive_iff] at hActive
      exact hHolds.latest hActive
    · have hHolds := h.holds other t ht
      exact ⟨hHolds.allowed, hHolds.id, hHolds.past, hHolds.latest, hHolds.unbarred⟩
  · have hIndex := h.index other
    unfold cell Cell.Agrees at hIndex ⊢
    dsimp only
    rw [Table.get?_insert]
    split
    · rename_i hOther
      subst hOther
      rw [hKnown] at hIndex
      rw [hIndex, Option.map_some, Option.map_some, hRetire]
    · exact hIndex

-- ---------------------------------------------------------------------------
-- Receiving
-- ---------------------------------------------------------------------------

variable {s} {P : Primitives} {sender : Peer} {e : Envelope}

/-- **An epoch that begins** lies above all others, which have ended. -/
theorem Settled.begin (h : Settled own peer may w) (hMay : may)
    (hOpen : w.part.isRevoked = false) {epoch : UInt64} (hAbove : w.part.isPast epoch = false)
    {session : Session} (hId : session.id = ⟨own, peer, epoch, .inbound⟩)
    (hActive : session.phase = .active)
    (hPart : w'.part = { (expireAll s w).part with
      epochs := (expireAll s w).part.epochs.insert epoch session, latest := some epoch })
    (hDeadlines : w'.deadlines =
      (expireAll s w).deadlines.schedule s.config.rotation session.id s.now) :
    Settled own peer may w' := by
  have hAged := settled_expireAll s h
  have hWanes := wanes_expireAll s w
  -- the epoch is the latest from now on, and the side is still open
  have hLatest : w'.part.latest = some epoch := by rw [hPart]
  have hBarred : w'.part.isRevoked = false := by
    rw [hPart]
    cases hBarred : (expireAll s w).part.isRevoked with
    | false => rfl
    | true =>
      rw [(hWanes.barred hBarred).resolve_right id] at hOpen
      cases hOpen
  refine ⟨fun other t ht => ?_, fun other => ?_⟩
  · -- the new session is active in the latest epoch, as an active session has to be
    rw [hPart] at ht
    have ht : ((expireAll s w).part.epochs.insert epoch session).get? other = some t := ht
    rw [Table.get?_insert] at ht
    split at ht
    · rename_i hOther
      cases ht
      subst hOther
      refine ⟨hMay, hId, ?_, fun _ => hLatest, hBarred⟩
      simp [isPast, hLatest]
    · -- every other session is of an older epoch and has ended by now
      have hHolds := hAged.holds other t ht
      refine ⟨hHolds.allowed, hHolds.id, ?_, fun hStillActive => ?_, hBarred⟩
      · have hPast := hHolds.past
        unfold isPast at hPast hAbove ⊢
        rw [hWanes.latest] at hPast
        cases hBefore : w.part.latest with
        | none => simp [hBefore] at hPast
        | some latest =>
          simp only [hBefore, hLatest, Option.any_some, decide_eq_true_eq,
            decide_eq_false_iff_not] at hPast hAbove ⊢
          rw [UInt64.le_iff_toNat_le] at hPast hAbove ⊢
          omega
      · have hCell := cell_expireAll s h.named other
        have hEnded : t.isActive = false := by
          refine Cell.isActive_of_expire (s := s) (c := cell own peer w other) ?_
          rw [← hCell]
          exact ht
        rw [hEnded] at hStillActive
        cases hStillActive
  · -- the index has a deadline for the new session, and ages with the others
    unfold cell Cell.Agrees
    rw [hPart, hDeadlines, hId, Rotation.Deadlines.entries_schedule]
    dsimp only
    rw [Table.get?_insert]
    split
    · rw [Option.map_some, Option.map_some, Session.retireAt_of_active hActive]
    · exact hAged.index other

/-- **A message of a peer,** whether it is accepted or not. -/
theorem settled_decrypt (h : Settled s.own.deviceId sender.deviceId may w) (hMay : may) :
    Settled s.own.deviceId sender.deviceId may (decrypt P s sender e w).2 := by
  -- reading an envelope moves the chain alone
  have hSame {session session' : Session} {plaintext : Bytes}
      (hOpened : session.decrypt P s.config.maxSkip e = .ok (plaintext, session')) :
      session'.id = session.id ∧ session'.phase = session.phase := by
    obtain ⟨-, -, -, -, -, -, rfl⟩ := Session.decrypt_eq_ok_iff.1 hOpened
    exact ⟨rfl, rfl⟩
  unfold decrypt
  split
  · exact h
  rename_i hOpen
  rw [Bool.not_eq_true] at hOpen
  split
  · -- the epoch is known
    rename_i session hKnown
    unfold continueEpoch
    split
    · split
      · exact h
      · rename_i hOpened
        obtain ⟨hId, hPhase⟩ := hSame hOpened
        exact h.move hKnown hId hPhase
    · refine h.drop rfl ?_
      rw [← (h.holds _ _ hKnown).id]
  · -- the epoch is not known
    split
    · exact h
    · rename_i hAbove
      rw [Bool.not_eq_true] at hAbove
      unfold beginEpoch
      split
      · exact h
      · rename_i session hBegun
        split
        · exact h
        · rename_i hOpened
          obtain ⟨hId, hPhase⟩ := hSame hOpened
          obtain ⟨hIdBegun, hActive, -⟩ := beginSession_eq_ok hBegun
          exact h.begin hMay hOpen hAbove (hId.trans hIdBegun) (hPhase.trans hActive) rfl rfl

/-- **What is due for a session that receives is done.** -/
theorem settled_applyInbound (h : Settled own peer may w) {id : SessionId}
    (hId : id = ⟨own, peer, id.epoch, .inbound⟩) {entry : Rotation.Deadline}
    (hEntry : w.deadlines.get? id = some entry) {action : Rotation.DueAction}
    (hDue : entry.due? s.now = some action) :
    (Pairs.applyInbound s id action w).1 = true ∧
      Settled own peer may (Pairs.applyInbound s id action w).2 := by
  have hIndex : w.deadlines.entries own peer .inbound id.epoch = some entry := by
    rw [← hEntry, hId]
    rfl
  -- the session of the entry is there, and has ended if and only if it is to be dropped
  obtain ⟨session, hSession, hRetire⟩ :
      ∃ session, w.part.epochs.get? id.epoch = some session ∧ session.retireAt = entry.retireAt := by
    have hAgrees := h.index id.epoch
    unfold cell Cell.Agrees at hAgrees
    rw [hIndex] at hAgrees
    exact Option.map_eq_some_iff.1 hAgrees.symm
  rcases Rotation.Deadline.retireAt_of_due hDue with ⟨rfl, hActive⟩ | ⟨rfl, retireAt, hEnded, -⟩
  · have hActive : session.isActive = true := Session.isActive_iff.2 (hRetire.trans hActive)
    refine ⟨?_, settled_expire s h id.epoch⟩
    simp [Pairs.applyInbound, expire, hSession, hActive]
  · unfold Pairs.applyInbound
    dsimp only
    rw [hSession]
    have hRemoved : (Work.retire s "grace window elapsed" { w with
          part := { w.part with epochs := w.part.epochs.erase id.epoch } } session).deadlines =
        w.deadlines.remove ⟨own, peer, id.epoch, .inbound⟩ := by
      rw [← (h.holds _ _ hSession).id]
      rfl
    exact ⟨rfl, h.drop rfl hRemoved⟩

end Inbound

end EndToEnd
