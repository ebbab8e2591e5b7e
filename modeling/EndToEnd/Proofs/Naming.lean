import EndToEnd.Proofs.Sides

/-!
# Sessions and deadlines by their ids

Every session goes by the id of its place: its device, its peer, its epoch and its direction. The
index of deadlines knows sessions by these ids only, so an operation that works on some sessions
changes the deadlines of these and of no others.

`Pairs.Named` is the invariant, and `Pairs.Reaches` says which receiving sessions an operation may
touch at all.

Main results:

* `Pairs.reaches_encrypt` — a message that is sent touches no receiving session.
* `Pairs.reaches_decrypt` — a message that is received touches those of its sender.
* `Pairs.Calm.reaches` — what other operations touch: sweeps, what is due.
-/

namespace EndToEnd

-- ---------------------------------------------------------------------------
-- Deadlines
-- ---------------------------------------------------------------------------

namespace Rotation.Deadlines

/-- Deadlines that differ at some ids only. -/
def Differs (ids : SessionId → Prop) (t t' : Deadlines) : Prop :=
  ∀ id, ¬ids id → t'.get? id = t.get? id

namespace Differs

variable {ids ids' : SessionId → Prop} {t t' t'' : Deadlines}

theorem refl (t : Deadlines) : Differs ids t t := fun _ _ => rfl

/-- What differs at some ids only, step by step, does so from end to end. -/
theorem trans (h : Differs ids t t') (h' : Differs ids t' t'') : Differs ids t t'' :=
  fun id hId => (h' id hId).trans (h id hId)

theorem mono (h : Differs ids t t') (hImp : ∀ id, ids id → ids' id) : Differs ids' t t' :=
  fun id hId => h id fun hId' => hId (hImp id hId')

variable {id : SessionId}

/-- Scheduling touches the deadline of its own session only. -/
theorem schedule (hId : ids id) (p : Policy) (t : Deadlines) (createdAt : UInt64) :
    Differs ids t (t.schedule p id createdAt) := by
  intro other hOther
  rw [get?_schedule, if_neg]
  rintro rfl
  exact hOther hId

/-- Marking a session as ended touches its own deadline only. -/
theorem markExpiring (hId : ids id) (p : Policy) (t : Deadlines) (now : UInt64) :
    Differs ids t (t.markExpiring p id now) := by
  intro other hOther
  rw [get?_markExpiring, if_neg]
  rintro rfl
  exact hOther hId

/-- Removing a deadline touches no other. -/
theorem remove (hId : ids id) (t : Deadlines) : Differs ids t (t.remove id) := by
  intro other hOther
  rw [get?_remove, if_neg]
  rintro rfl
  exact hOther hId

end Differs

/-- What is due is the deadline of its id, and due by itself. -/
theorem due_of_mem {t : Deadlines} {now : UInt64} {id : SessionId} {action : DueAction}
    (h : (id, action) ∈ t.due now) : ∃ d, t.get? id = some d ∧ d.due? now = some action := by
  obtain ⟨⟨id', d⟩, hMem, hDue⟩ := List.mem_filterMap.1 h
  obtain ⟨action', hAction, hSame⟩ := Option.map_eq_some_iff.1 hDue
  cases hSame
  exact ⟨d, Table.mem_toList_iff.1 hMem, hAction⟩

end Rotation.Deadlines

/-- Dropping sessions forgets the deadlines of these. -/
theorem Work.differs_retireAll {σ : Type} {ids : SessionId → Prop} {sessions : List Session}
    (h : ∀ session ∈ sessions, ids session.id) (s : Setting) (reason : String) (w : Work σ) :
    w.deadlines.Differs ids (w.retireAll s reason sessions).deadlines := by
  induction sessions generalizing w with
  | nil => exact .refl _
  | cons session rest ih =>
    have hRest := ih (fun t ht => h t (.tail _ ht)) (w.retire s reason session)
    exact .trans (.remove (h session (.head _)) w.deadlines) hRest

/-- A session that ends keeps its id. -/
theorem Session.id_expire (s : Session) (deadline : UInt64) : (s.expire deadline).id = s.id := by
  unfold Session.expire
  split <;> rfl

/-- An id of a session that a device sends with. -/
def SessionId.Sends (own : String) (id : SessionId) : Prop :=
  id.device = own ∧ id.direction = .outbound

-- ---------------------------------------------------------------------------
-- Sending sides
-- ---------------------------------------------------------------------------

namespace Outbound

/-- A sending side whose sessions go by ids of this direction. -/
def Named (own : String) (o : Outbound) : Prop := ∀ session ∈ o.live, session.id.Sends own

/-- Work on a sending side that touches no other deadlines than those for sending. -/
structure Keeps (own : String) (w w' : Work Outbound) : Prop where
  named : w'.part.Named own
  deadlines : w.deadlines.Differs (·.Sends own) w'.deadlines

/-- Where no session is left, every session is named. -/
theorem named_cleared (own : String) (o : Outbound) : o.cleared.Named own := fun _ h => (nomatch h)

variable {own : String} {w w' w'' : Work Outbound}

theorem Keeps.refl (h : w.part.Named own) : Keeps own w w := ⟨h, .refl _⟩

/-- Two pieces of work on a sending side, one behind the other. -/
theorem Keeps.trans (h : Keeps own w w') (h' : w'.part.Named own → Keeps own w' w'') :
    Keeps own w w'' :=
  ⟨(h' h.named).named, h.deadlines.trans (h' h.named).deadlines⟩

variable (s : Setting)

/-- Asking for an establishment touches no session and no deadline. -/
theorem keeps_request (h : w.part.Named own) :
    Keeps own w { w with part := (w.part.request s.now).2 } := by
  refine ⟨?_, .refl _⟩
  unfold request
  split
  · exact h
  · exact h

/-- Giving up an establishment touches no session and no deadline. -/
theorem keeps_timeOut (h : w.part.Named own) (peer : String) : Keeps own w (timeOut s peer w) :=
  ⟨h, .refl _⟩

/-- Ending the session in use touches the deadline of this session. -/
theorem keeps_expireCurrent (h : w.part.Named own) : Keeps own w (expireCurrent s w).2 := by
  unfold expireCurrent
  cases hCurrent : w.part.current with
  | none => exact .refl h
  | some session =>
    have hSends : session.id.Sends own := h session (by simp [live, hCurrent])
    refine ⟨fun t ht => ?_, .markExpiring hSends s.config.rotation w.deadlines s.now⟩
    have hPart : (w.expire s session).2.part = w.part := rfl
    have ht : t ∈ w.part.expiring ∨ t = (w.expire s session).1 := by simpa [live, hPart] using ht
    rcases ht with hOld | rfl
    · exact h t (by simp [live, hOld])
    · rw [show (w.expire s session).1.id = session.id from Session.id_expire ..]
      exact hSends

/-- A rotation is the end of the session in use and an entry. -/
theorem keeps_rotate (h : w.part.Named own) (peer : String) (reason : Rotation.Reason) :
    Keeps own w (rotate s peer reason w).2 := by
  have hExpired := keeps_expireCurrent s h
  unfold rotate
  split
  · simp_all only
  · simp_all only
    exact ⟨hExpired.named, hExpired.deadlines⟩

/-- A rotation that may not be due touches no more than one that is. -/
theorem keeps_rotateIfDue (h : w.part.Named own) (peer : String) (level : Level) :
    Keeps own w (rotateIfDue s peer level w) := by
  unfold rotateIfDue
  split
  · exact keeps_rotate s h peer _
  · exact .refl h

variable (P : Primitives)

/-- The session that begins goes by an id of the device for sending, and so do those that it
replaces. -/
theorem keeps_establish (h : w.part.Named s.own.deviceId) (peer : Peer) (level : Level) :
    Keeps s.own.deviceId w (establish P s peer level w).2 ∧
      ∀ session, (establish P s peer level w).1 = .ok session →
        session.id.Sends s.own.deviceId := by
  unfold establish
  dsimp only
  split
  · exact ⟨⟨h, .refl _⟩, fun _ h => (nomatch h)⟩
  · rename_i session hBegun
    obtain ⟨keys, -, hSession⟩ := beginSession_eq_ok hBegun
    have hSends : session.id.Sends s.own.deviceId := by
      rw [hSession]
      exact ⟨rfl, rfl⟩
    refine ⟨⟨fun t ht => ?_, ?_⟩, ?_⟩
    · rw [Work.part_retireAll] at ht
      have ht : t = session := by simpa [live] using ht
      rw [ht]
      exact hSends
    · refine .trans (.schedule hSends s.config.rotation w.deadlines s.now) ?_
      exact Work.differs_retireAll (fun t ht => h t (by simp [live, ht])) s _ _
    · rintro session' hSame
      cases hSame
      exact hSends

/-- Writing an envelope touches sessions for sending and their deadlines only. -/
theorem keeps_encrypt (h : w.part.Named s.own.deviceId) (peer : Peer) (level : Level)
    (plaintext : Bytes) : Keeps s.own.deviceId w (encrypt P s peer level plaintext w).2 := by
  unfold encrypt
  split
  · exact .refl h
  split
  · exact keeps_timeOut s h peer.deviceId
  refine (keeps_rotateIfDue s h peer.deviceId level).trans fun hDue => ?_
  generalize rotateIfDue s peer.deviceId level w = w₁ at hDue ⊢
  -- the session for the message goes by an id for sending, whether it was there or begins
  have hReady : Keeps s.own.deviceId w₁ (ready P s peer level w₁).2 ∧
      ∀ session, (ready P s peer level w₁).1 = .ok session → session.id.Sends s.own.deviceId := by
    unfold ready
    cases hCurrent : w₁.part.current with
    | none => exact keeps_establish s P hDue peer level
    | some session =>
      refine ⟨.refl hDue, ?_⟩
      rintro session' hSame
      cases hSame
      exact hDue session (by simp [live, hCurrent])
  generalize ready P s peer level w₁ = made at hReady ⊢
  obtain ⟨result, w₂⟩ := made
  obtain ⟨hKeeps, hSends⟩ := hReady
  cases result with
  | error failure => exact hKeeps
  | ok session =>
    dsimp only
    split
    · exact hKeeps
    · rename_i e session' random hMade
      have hId : session'.id = session.id := by
        obtain ⟨-, rfl, -⟩ := Session.encrypt_cases hMade
        rfl
      refine ⟨fun t ht => ?_, hKeeps.deadlines⟩
      have ht : t = session' ∨ t ∈ w₂.part.expiring := by simpa [live] using ht
      rcases ht with rfl | hOld
      · rw [hId]
        exact hSends session rfl
      · exact hKeeps.named t (by simp [live, hOld])

/-- What is due for a session that sends touches the deadlines for sending only. -/
theorem keeps_applyOutbound (h : w.part.Named own) (id : SessionId) (action : Rotation.DueAction) :
    Keeps own w (Pairs.applyOutbound s id action w).2 := by
  unfold Pairs.applyOutbound
  split
  · split
    · exact keeps_rotate s h id.peer _
    · exact .refl h
  · split
    · rename_i session hFound
      have hMem := List.mem_of_find?_eq_some hFound
      refine ⟨fun t ht => ?_, .remove (h session (by simp [live, hMem])) _⟩
      have ht : t ∈ w.part.current.toList ∨ t ∈ w.part.expiring.eraseP (·.epoch = id.epoch) := by
        simpa [live, Work.retire] using ht
      rcases ht with hCurrent | hKept
      · exact h t (List.mem_append_left _ hCurrent)
      · exact h t (List.mem_append_right _ (List.mem_of_mem_eraseP hKept))
    · exact .refl h

end Outbound

-- ---------------------------------------------------------------------------
-- Receiving sides
-- ---------------------------------------------------------------------------

namespace Inbound

/-- A receiving side whose sessions go by the ids of their places. -/
def Named (own peer : String) (i : Inbound) : Prop :=
  ∀ epoch session, i.epochs.get? epoch = some session → session.id = ⟨own, peer, epoch, .inbound⟩

/-- Work on a receiving side that touches some epochs and their deadlines only. -/
structure Keeps (own peer : String) (epochs : UInt64 → Prop) (w w' : Work Inbound) : Prop where
  named : w'.part.Named own peer
  spared : ∀ epoch, ¬epochs epoch → w'.part.epochs.get? epoch = w.part.epochs.get? epoch
  deadlines : w.deadlines.Differs (fun id => ∃ epoch, epochs epoch ∧
    id = ⟨own, peer, epoch, .inbound⟩)
    w'.deadlines

variable {own peer : String} {epochs : UInt64 → Prop} {w w' w'' : Work Inbound}

/-- A session that goes by the id of its place may be put there. -/
theorem Named.insert {i : Inbound} (h : i.Named own peer) {epoch : UInt64} {session : Session}
    (hId : session.id = ⟨own, peer, epoch, .inbound⟩) :
    ({ i with epochs := i.epochs.insert epoch session } : Inbound).Named own peer := by
  intro other t ht
  have ht : (i.epochs.insert epoch session).get? other = some t := ht
  rw [Table.get?_insert] at ht
  split at ht
  · rename_i hSame
    cases ht
    rw [hSame]
    exact hId
  · exact h other t ht

/-- What is left behind a session that goes is named as before. -/
theorem Named.erase {i : Inbound} (h : i.Named own peer) (epoch : UInt64) :
    ({ i with epochs := i.epochs.erase epoch } : Inbound).Named own peer := by
  intro other t ht
  have ht : (i.epochs.erase epoch).get? other = some t := ht
  rw [Table.get?_erase] at ht
  split at ht
  · cases ht
  · exact h other t ht

/-- A live session for receiving goes by the id of some epoch of the peer. -/
theorem Named.of_mem_live {i : Inbound} (h : i.Named own peer) {session : Session}
    (hMem : session ∈ i.live) : ∃ epoch, session.id = ⟨own, peer, epoch, .inbound⟩ := by
  obtain ⟨⟨epoch, t⟩, hEntry, rfl⟩ := List.mem_map.1 hMem
  exact ⟨epoch, h epoch t (Table.mem_toList_iff.1 hEntry)⟩

theorem Keeps.refl (h : w.part.Named own peer) : Keeps own peer epochs w w :=
  ⟨h, fun _ _ => rfl, .refl _⟩

/-- Two pieces of work on a receiving side that touch the same epochs. -/
theorem Keeps.trans (h : Keeps own peer epochs w w')
    (h' : w'.part.Named own peer → Keeps own peer epochs w' w'') : Keeps own peer epochs w w'' where
  named := (h' h.named).named
  spared epoch hEpoch := ((h' h.named).spared epoch hEpoch).trans (h.spared epoch hEpoch)
  deadlines := h.deadlines.trans (h' h.named).deadlines

theorem Keeps.mono {epochs' : UInt64 → Prop} (h : Keeps own peer epochs w w')
    (hImp : ∀ epoch, epochs epoch → epochs' epoch) : Keeps own peer epochs' w w' where
  named := h.named
  spared epoch hEpoch := h.spared epoch fun hEpoch' => hEpoch (hImp epoch hEpoch')
  deadlines := h.deadlines.mono fun _ ⟨epoch, hEpoch, hId⟩ => ⟨epoch, hImp epoch hEpoch, hId⟩

variable (s : Setting)

/-- Ending the session of an epoch touches this epoch only. -/
theorem keeps_expire (h : w.part.Named own peer) (epoch : UInt64) :
    Keeps own peer (· = epoch) w (expire s w epoch).2 := by
  unfold expire
  split
  · rename_i session hSession
    have hId := h epoch session hSession
    split
    · refine ⟨h.insert ((Session.id_expire ..).trans hId), fun other hOther => ?_, ?_⟩
      · exact (Table.get?_insert ..).trans (if_neg hOther)
      · exact .markExpiring ⟨epoch, rfl, hId⟩ s.config.rotation w.deadlines s.now
    · exact .refl h
  · exact .refl h

/-- Ending all that is active may touch any epoch. -/
theorem keeps_expireAll (h : w.part.Named own peer) :
    Keeps own peer (fun _ => True) w (expireAll s w) := by
  unfold expireAll
  generalize w.part.epochs.keys = keys
  induction keys generalizing w with
  | nil => exact .refl h
  | cons epoch rest ih =>
    rw [List.foldl_cons]
    exact ((keeps_expire s h epoch).mono fun _ _ => trivial).trans fun hNamed => ih hNamed

/-- What is due for a session that receives touches its epoch only. -/
theorem keeps_applyInbound (h : w.part.Named own peer) (id : SessionId)
    (action : Rotation.DueAction) :
    Keeps own peer (· = id.epoch) w (Pairs.applyInbound s id action w).2 := by
  unfold Pairs.applyInbound
  split
  · exact keeps_expire s h id.epoch
  · split
    · rename_i session hSession
      refine ⟨h.erase id.epoch, fun other hOther => ?_, ?_⟩
      · exact (Table.get?_erase ..).trans (if_neg hOther)
      · exact .remove ⟨id.epoch, rfl, h _ session hSession⟩ w.deadlines
    · exact .refl h

variable (P : Primitives)

/-- Reading an envelope may touch any epoch of the sender: those that a new one supersedes are
ended. -/
theorem keeps_decrypt (sender : Peer) (h : w.part.Named s.own.deviceId sender.deviceId)
    (e : Envelope) :
    Keeps s.own.deviceId sender.deviceId (fun _ => True) w (decrypt P s sender e w).2 := by
  -- reading an envelope does not change the id of the session
  have hSame {session session' : Session} {plaintext : Bytes}
      (hOpened : session.decrypt P s.config.maxSkip e = .ok (plaintext, session')) :
      session'.id = session.id := by
    obtain ⟨-, -, -, -, -, -, rfl⟩ := Session.decrypt_eq_ok_iff.1 hOpened
    rfl
  have hAny {w' : Work Inbound} (hNamed : w'.part.Named s.own.deviceId sender.deviceId)
      (hDeadlines : w.deadlines.Differs (fun id => ∃ epoch, True ∧
        id = ⟨s.own.deviceId, sender.deviceId, epoch, .inbound⟩) w'.deadlines) :
      Keeps s.own.deviceId sender.deviceId (fun _ => True) w w' :=
    ⟨hNamed, fun _ hEpoch => absurd trivial hEpoch, hDeadlines⟩
  unfold decrypt
  split
  · exact .refl h
  split
  · rename_i session hKnown
    have hId := h _ session hKnown
    unfold continueEpoch
    split
    · split
      · exact .refl h
      · rename_i hOpened
        exact hAny (h.insert ((hSame hOpened).trans hId)) (.refl _)
    · exact hAny (h.erase e.epoch) (.remove ⟨e.epoch, trivial, hId⟩ _)
  · split
    · exact .refl h
    · unfold beginEpoch
      split
      · exact .refl h
      · rename_i session hBegun
        split
        · exact .refl h
        · rename_i session' hOpened
          have hId : session'.id = ⟨s.own.deviceId, sender.deviceId, e.epoch, .inbound⟩ :=
            (hSame hOpened).trans (beginSession_eq_ok hBegun).1
          have hAged := keeps_expireAll s h
          -- the new session has its own entry, beside those that age has changed
          have hNamed := hAged.named.insert hId
          exact hAny hNamed (.trans hAged.deadlines
            (.schedule ⟨e.epoch, trivial, hId⟩ s.config.rotation _ s.now))

end Inbound

-- ---------------------------------------------------------------------------
-- All pairs
-- ---------------------------------------------------------------------------

namespace Pairs

/-- Every session goes by the id of its place, and no deadline belongs to another device. -/
structure Named (own : String) (w : Work Pairs) : Prop where
  sending : ∀ peer, (w.part.sending peer).Named own
  receiving : ∀ peer, (w.part.receiving peer).Named own peer
  deadlines : ∀ id d, w.deadlines.get? id = some d → id.device = own

/-- Work that touches receiving sessions and their deadlines at some ids only. -/
structure Reaches (own : String) (ids : SessionId → Prop) (w w' : Work Pairs) : Prop where
  named : Named own w'
  spared : ∀ peer epoch, ¬ids ⟨own, peer, epoch, .inbound⟩ →
    (w'.part.receiving peer).epochs.get? epoch = (w.part.receiving peer).epochs.get? epoch ∧
      w'.deadlines.get? ⟨own, peer, epoch, .inbound⟩ = w.deadlines.get? ⟨own, peer, epoch, .inbound⟩

variable {own : String} {ids ids' : SessionId → Prop} {w w' w'' : Work Pairs}

/-- The deadlines of a device stay its own if only its own are touched. -/
theorem device_of_differs {t t' : Rotation.Deadlines} (h : t.Differs ids t')
    (hIds : ∀ id, ids id → id.device = own) (hOwn : ∀ id d, t.get? id = some d → id.device = own) :
    ∀ id d, t'.get? id = some d → id.device = own := by
  intro id d hd
  by_cases hId : ids id
  · exact hIds id hId
  · rw [h id hId] at hd
    exact hOwn id d hd

namespace Reaches

theorem refl (h : Named own w) : Reaches own ids w w := ⟨h, fun _ _ _ => ⟨rfl, rfl⟩⟩

theorem trans (h : Reaches own ids w w') (h' : Named own w' → Reaches own ids w' w'') :
    Reaches own ids w w'' where
  named := (h' h.named).named
  spared peer epoch hId := by
    obtain ⟨hSession, hDeadline⟩ := h.spared peer epoch hId
    obtain ⟨hSession', hDeadline'⟩ := (h' h.named).spared peer epoch hId
    exact ⟨hSession'.trans hSession, hDeadline'.trans hDeadline⟩

theorem mono (h : Reaches own ids w w') (hImp : ∀ id, ids id → ids' id) : Reaches own ids' w w' :=
  ⟨h.named, fun peer epoch hId => h.spared peer epoch fun hId' => hId (hImp _ hId')⟩

variable {α : Type}

/-- Work on the sending side of one pair touches nothing that receives. -/
theorem onOutbound {peer : String} {op : Work Outbound → α × Work Outbound} (h : Named own w)
    (hOp : ∀ v : Work Outbound, v.part.Named own → Outbound.Keeps own v (op v).2) :
    Reaches own ids w (Pairs.onOutbound peer op w).2 := by
  have hKeeps := hOp (w.withPart (w.part.sending peer)) (h.sending peer)
  refine ⟨⟨fun other => ?_, fun other => ?_, ?_⟩, fun other epoch _ => ⟨?_, ?_⟩⟩
  · rw [sending_onOutbound]
    split
    · exact hKeeps.named
    · exact h.sending other
  · rw [receiving_onOutbound]
    exact h.receiving other
  · exact device_of_differs hKeeps.deadlines (fun id hId => hId.1) h.deadlines
  · rw [receiving_onOutbound]
  · exact hKeeps.deadlines _ fun hSends => nomatch hSends.2

/-- Work on the receiving side of one pair touches what it touches there, and nothing of other
peers. -/
theorem onInbound {peer : String} {epochs : UInt64 → Prop} {op : Work Inbound → α × Work Inbound}
    (h : Named own w)
    (hOp : ∀ v : Work Inbound, v.part.Named own peer → Inbound.Keeps own peer epochs v (op v).2)
    (hIds : ∀ epoch, epochs epoch → ids ⟨own, peer, epoch, .inbound⟩) :
    Reaches own ids w (Pairs.onInbound peer op w).2 := by
  have hKeeps := hOp (w.withPart (w.part.receiving peer)) (h.receiving peer)
  -- what holds of the side of the peer, and what is spared elsewhere
  refine ⟨⟨fun other => ?_, fun other => ?_, ?_⟩, fun other epoch hId => ⟨?_, ?_⟩⟩
  · rw [sending_onInbound]
    exact h.sending other
  · rw [receiving_onInbound]
    split
    · rename_i hOther
      subst hOther
      exact hKeeps.named
    · exact h.receiving other
  · refine device_of_differs hKeeps.deadlines ?_ h.deadlines
    rintro id ⟨epoch, -, rfl⟩
    rfl
  · rw [receiving_onInbound]
    split
    · rename_i hOther
      subst hOther
      exact hKeeps.spared epoch fun hEpoch => hId (hIds epoch hEpoch)
    · rfl
  · refine hKeeps.deadlines _ ?_
    rintro ⟨epoch', hEpoch, hSame⟩
    cases hSame
    exact hId (hIds _ hEpoch)

/-- Likewise where work needs the sending side to be there. -/
theorem onExistingOutbound {peer : String} {otherwise : α} {op : Work Outbound → α × Work Outbound}
    (h : Named own w) (hOp : ∀ v : Work Outbound, v.part.Named own →
    Outbound.Keeps own v (op v).2) :
    Reaches own ids w (Pairs.onExistingOutbound peer otherwise op w).2 := by
  unfold Pairs.onExistingOutbound
  split
  · exact .onOutbound h hOp
  · exact .refl h

/-- Likewise where work needs the receiving side to be there. -/
theorem onExistingInbound {peer : String} {otherwise : α} {epochs : UInt64 → Prop}
    {op : Work Inbound → α × Work Inbound} (h : Named own w)
    (hOp : ∀ v : Work Inbound, v.part.Named own peer → Inbound.Keeps own peer epochs v (op v).2)
    (hIds : ∀ epoch, epochs epoch → ids ⟨own, peer, epoch, .inbound⟩) :
    Reaches own ids w (Pairs.onExistingInbound peer otherwise op w).2 := by
  unfold Pairs.onExistingInbound
  split
  · exact .onInbound h hOp hIds
  · exact .refl h

/-- Work that only forgets deadlines of the device. -/
theorem forget {w' : Work Pairs} (h : Named own w) (hPart : w'.part = w.part)
    {forgotten : SessionId → Prop} (hDeadlines : w.deadlines.Differs forgotten w'.deadlines)
    (hOwn : ∀ id, forgotten id → id.device = own)
    (hIds : ∀ peer epoch, forgotten ⟨own, peer, epoch, .inbound⟩ →
    ids ⟨own, peer, epoch, .inbound⟩) :
    Reaches own ids w w' := by
  refine ⟨⟨?_, ?_, device_of_differs hDeadlines hOwn h.deadlines⟩, fun peer epoch hId => ⟨?_, ?_⟩⟩
  · rw [hPart]
    exact h.sending
  · rw [hPart]
    exact h.receiving
  · rw [hPart]
  · exact hDeadlines _ fun hForgotten => hId (hIds peer epoch hForgotten)

/-- Work that is done for each thing of a list. -/
theorem foldl {β σ : Type} (part : σ → Work Pairs) {op : σ → β → σ} {l : List β}
    (hOp : ∀ x, ∀ b ∈ l, Named own (part x) → Reaches own ids (part x) (part (op x b))) {x : σ}
    (h : Named own (part x)) : Reaches own ids (part x) (part (l.foldl op x)) := by
  induction l generalizing x with
  | nil => exact .refl h
  | cons b rest ih =>
    rw [List.foldl_cons]
    exact (hOp x b (.head _) h).trans fun hNamed =>
      ih (fun y c hc => hOp y c (.tail _ hc)) hNamed

end Reaches

variable (s : Setting)

-- ---------------------------------------------------------------------------
-- Messages
-- ---------------------------------------------------------------------------

variable (P : Primitives)

/-- **A message that is sent touches no receiving session.** -/
theorem reaches_encrypt (h : Named s.own.deviceId w) (peer : Peer) (level : Level)
    (plaintext : Bytes) :
    Reaches s.own.deviceId (fun _ => False) w (encrypt P s peer level plaintext w).2 :=
  .onOutbound h fun _ hNamed => Outbound.keeps_encrypt s P hNamed peer level plaintext

/-- **A message that is received touches the sessions of its sender.** -/
theorem reaches_decrypt (h : Named s.own.deviceId w) (sender : Peer) (e : Envelope) :
    Reaches s.own.deviceId (·.peer = sender.deviceId) w (decrypt P s sender e w).2 :=
  .onInbound h (fun _ hNamed => Inbound.keeps_decrypt s P sender hNamed e) fun _ _ => rfl

-- ---------------------------------------------------------------------------
-- Everything else
-- ---------------------------------------------------------------------------

/-- An establishment that is asked for touches nothing that receives. -/
theorem reaches_request (h : Named own w) (peer : String) :
    Reaches own ids w (request s peer w).2 :=
  .onOutbound h fun _ hNamed => Outbound.keeps_request s hNamed

/-- Looking for an overdue establishment touches nothing that receives. -/
theorem reaches_checkEstablishment (h : Named own w) (peer : String) :
    Reaches own ids w (checkEstablishment s peer w).2 := by
  refine .onExistingOutbound h fun v hNamed => ?_
  split
  · exact Outbound.keeps_timeOut s hNamed peer
  · exact .refl hNamed

/-- A rotation touches nothing that receives. -/
theorem reaches_rotate (h : Named own w) (peer : String) : Reaches own ids w (rotate s peer w).2 :=
  .onExistingOutbound h fun _ hNamed => Outbound.keeps_expireCurrent s hNamed

/-- Dropping sessions of one peer, once they are taken out of their places. -/
theorem reaches_retireAll {peer reason : String} {sessions : List Session}
    (h : Reaches own (·.peer = peer) w w')
    (hSessions : ∀ session ∈ sessions,
      session.id.Sends own ∨ ∃ epoch, session.id = ⟨own, peer, epoch, .inbound⟩) :
    Reaches own (·.peer = peer) w (w'.retireAll s reason sessions) := by
  let dropped (id : SessionId) : Prop := id.Sends own ∨ ∃ epoch, id = ⟨own, peer, epoch, .inbound⟩
  have hDropped : ∀ session ∈ sessions, dropped session.id := hSessions
  have hForgotten : w'.deadlines.Differs dropped (w'.retireAll s reason sessions).deadlines :=
    Work.differs_retireAll hDropped s reason w'
  refine h.trans fun hNamed => .forget hNamed (Work.part_retireAll ..) hForgotten ?_ ?_
  · rintro id (hSends | ⟨epoch, rfl⟩)
    · exact hSends.1
    · rfl
  · rintro other epoch (hSends | ⟨epoch', hSame⟩)
    · cases hSends.2
    · cases hSame
      rfl

/-- What is left of a receiving side without sessions goes by its ids. -/
theorem keeps_of_cleared {peer : String} {v v' : Work Inbound} (hPart : v'.part.epochs = .empty)
    (hDeadlines : v'.deadlines = v.deadlines) : Inbound.Keeps own peer (fun _ => True) v v' := by
  refine ⟨fun epoch session hSession => ?_, fun _ hNot => absurd trivial hNot, ?_⟩
  · rw [hPart] at hSession
    cases hSession
  · rw [hDeadlines]
    exact .refl _

/-- A revocation touches the sessions with the peer only. -/
theorem reaches_revoke (h : Named own w) (peer : String) :
    Reaches own (·.peer = peer) w (revoke s peer w).2 := by
  let barOutbound (v : Work Outbound) : List Session × Work Outbound :=
    (v.part.live, { v with part := { v.part.cleared with isRevoked := true } })
  let barInbound (v : Work Inbound) : List Session × Work Inbound :=
    (v.part.live, { v with part := { v.part.cleared with isRevoked := true } })
  let w₁ := (onOutbound peer barOutbound w).2
  have hSent : ∀ v : Work Outbound, v.part.Named own → Outbound.Keeps own v (barOutbound v).2 :=
    fun v _ => ⟨Outbound.named_cleared own v.part, .refl v.deadlines⟩
  have hReceived : ∀ v : Work Inbound, v.part.Named own peer →
      Inbound.Keeps own peer (fun _ => True) v (barInbound v).2 :=
        fun v _ => keeps_of_cleared rfl rfl
  have hBarred : Reaches own (·.peer = peer) w (onInbound peer barInbound w₁).2 :=
    .trans (.onOutbound h hSent) fun hNamed => .onInbound hNamed hReceived fun _ _ => rfl
  have hLive : ∀ session ∈ (onOutbound peer barOutbound w).1 ++ (onInbound peer barInbound w₁).1,
      session.id.Sends own ∨ ∃ epoch, session.id = ⟨own, peer, epoch, .inbound⟩ := by
    intro session hMem
    rcases List.mem_append.1 hMem with hMem | hMem
    · exact .inl (h.sending peer session hMem)
    · exact .inr ((h.receiving peer).of_mem_live hMem)
  exact reaches_retireAll s hBarred hLive

/-- Dropping all sessions with a peer touches no other peer's. -/
theorem reaches_retire (h : Named own w) (reason peer : String) :
    Reaches own (·.peer = peer) w (retire s reason peer w).2 := by
  -- the two sides are emptied one after the other, and then the sessions of both are retired
  let clearOutbound (v : Work Outbound) : List Session × Work Outbound :=
    (v.part.live, { v with part := v.part.cleared })
  let clearInbound (v : Work Inbound) : List Session × Work Inbound :=
    (v.part.live, { v with part := v.part.cleared })
  let w₁ := (onExistingOutbound peer [] clearOutbound w).2
  have hSent : ∀ v : Work Outbound, v.part.Named own → Outbound.Keeps own v (clearOutbound v).2 :=
    fun v _ => ⟨Outbound.named_cleared own v.part, .refl v.deadlines⟩
  have hReceived : ∀ v : Work Inbound, v.part.Named own peer →
      Inbound.Keeps own peer (fun _ => True) v (clearInbound v).2 :=
        fun v _ => keeps_of_cleared rfl rfl
  have hCleared : Reaches own (·.peer = peer) w (onExistingInbound peer [] clearInbound w₁).2 :=
    .trans (.onExistingOutbound h hSent) fun hNamed =>
      .onExistingInbound hNamed hReceived fun _ _ => rfl
  -- emptying the sending side has left the receiving side as it was
  have hSame : w₁.part.receiving peer = w.part.receiving peer := by
    show (onExistingOutbound peer [] clearOutbound w).2.part.receiving peer = _
    unfold Pairs.onExistingOutbound
    split <;> rfl
  have hLive : ∀ session ∈ (onExistingOutbound peer [] clearOutbound w).1 ++
      (onExistingInbound peer [] clearInbound w₁).1,
      session.id.Sends own ∨ ∃ epoch, session.id = ⟨own, peer, epoch, .inbound⟩ := by
    intro session hMem
    rcases List.mem_append.1 hMem with hMem | hMem
    · unfold Pairs.onExistingOutbound at hMem
      split at hMem
      · exact .inl (h.sending peer session hMem)
      · cases hMem
    · unfold Pairs.onExistingInbound at hMem
      split at hMem
      · have hMem : session ∈ (w₁.part.receiving peer).live := hMem
        rw [hSame] at hMem
        exact .inr ((h.receiving peer).of_mem_live hMem)
      · cases hMem
  exact reaches_retireAll s hCleared hLive

/-- Closing may touch everything. -/
theorem reaches_shutdown (h : Named own w) : Reaches own (fun _ => True) w (shutdown s w).2 :=
  .foldl (fun x : Nat × Work Pairs => x.2)
    (fun x peer _ hNamed => by
      exact (reaches_retire s hNamed "shutdown" peer).mono fun _ _ => trivial)
    (x := (0, w)) h

/-- Doing what is due for a session touches that session. -/
theorem reaches_applyDue (h : Named own w) (r : SweepReport) {id : SessionId}
    (hOwn : id.device = own)
    (action : Rotation.DueAction) : Reaches own (· = id) w (applyDue s r w id action).2 := by
  obtain ⟨w', hDone, hResult⟩ := applyDue_cases s r w id action
  have hReaches : Reaches own (· = id) w w' := by
    rcases hDone with ⟨-, rfl⟩ | ⟨hDirection, rfl⟩
    · exact .onExistingOutbound h fun v hNamed => Outbound.keeps_applyOutbound s hNamed id action
    · refine .onExistingInbound h (fun v hNamed => Inbound.keeps_applyInbound s hNamed id action) ?_
      rintro epoch rfl
      cases id
      cases hDirection
      cases hOwn
      rfl
  rcases hResult with hSame | hForgotten
  · rw [hSame]
    exact hReaches
  · rw [hForgotten]
    refine hReaches.trans fun hNamed => .forget hNamed rfl (.remove rfl w'.deadlines) ?_ ?_
    · rintro _ rfl
      exact hOwn
    · exact fun _ _ hSame => hSame.symm

/-- Giving up an overdue establishment touches nothing that receives. -/
theorem reaches_sweepEstablishment (h : Named own w) (r : SweepReport) (peer : String) :
    Reaches own ids w (sweepEstablishment s r w peer).2 := by
  have hCheck : Reaches own ids w (checkEstablishment s peer w).2 :=
    reaches_checkEstablishment s h peer
  unfold sweepEstablishment
  split <;> simpa only [‹checkEstablishment s peer w = _›] using hCheck

/-- A sweep touches the sessions for which something is due. -/
theorem reaches_sweep (h : Named own w) :
    Reaches own (fun id => ∃ d, w.deadlines.get? id = some d ∧ d.due? s.now ≠ none) w
      (sweep s w).2 := by
  unfold sweep
  refine .trans (.foldl (fun x : SweepReport × Work Pairs => x.2) (fun x d hMem hNamed => ?_)
    (x := (⟨0, 0, 0⟩, w)) h) fun hNamed => .foldl (fun x : SweepReport × Work Pairs => x.2)
      (fun x peer _ hNamed => reaches_sweepEstablishment s hNamed x.1 peer) hNamed
  obtain ⟨deadline, hDeadline, hDue⟩ := Rotation.Deadlines.due_of_mem hMem
  refine (reaches_applyDue s hNamed x.1 (h.deadlines _ _ hDeadline) d.2).mono ?_
  rintro _ rfl
  exact ⟨deadline, hDeadline, by rw [hDue]; exact nofun⟩

/-- **What other operations touch:** the sessions of peers that are revoked, and those for which
something is due; all of them when the device closes. -/
theorem Calm.reaches {s : Setting} {barring : String → Prop} {closing : Prop}
    (h : Calm s barring closing w w') (hNamed : Named own w) :
    Reaches own (fun id => closing ∨ barring id.peer ∨
      ∃ d, w.deadlines.get? id = some d ∧ d.due? s.now ≠ none) w w' := by
  cases h with
  | nothing => exact .refl hNamed
  | request peer => exact reaches_request s hNamed peer
  | checkEstablishment peer => exact reaches_checkEstablishment s hNamed peer
  | rotate peer => exact reaches_rotate s hNamed peer
  | shutdown hClosing => exact (reaches_shutdown s hNamed).mono fun _ _ => .inl hClosing
  | sweep => exact (reaches_sweep s hNamed).mono fun _ hDue => .inr (.inr hDue)
  | revoke peer hBarring =>
    refine (reaches_revoke s hNamed peer).mono fun id hPeer => .inr (.inl ?_)
    rw [hPeer]
    exact hBarring

end Pairs

end EndToEnd
