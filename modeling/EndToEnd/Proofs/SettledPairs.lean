import EndToEnd.Proofs.SettledReceiving
import EndToEnd.Proofs.SettledSending
import EndToEnd.Proofs.Tables

/-!
# All sides and the index

When every side of every pair agrees with the index, and the index has no entry of another device
(`Pairs.Settled`), then it has exactly the sessions that are kept. The operations on the sessions
keep it so. A sweep does what was due when it began: every session that something is due for is
still there when its turn comes.

Main results:

* `Pairs.drops_revoke`, `Pairs.drops_retire` — what dropping the sessions with a peer leaves.
* `Pairs.settled_sweep` — a sweep.
* `Pairs.settled_encrypt`, `Pairs.settled_decrypt`, `Pairs.Calm.settled` — every operation.
-/

namespace EndToEnd.Pairs

/-- Every side of every pair agrees with the index. There are sessions only with peers for which
`may` holds. -/
structure Settled (own : String) (may : String → Prop) (w : Work Pairs) : Prop where
  sending : ∀ peer, Outbound.Settled own peer (may peer) (w.withPart (w.part.sending peer))
  receiving : ∀ peer, Inbound.Settled own peer (may peer) (w.withPart (w.part.receiving peer))
  device : ∀ id entry, w.deadlines.get? id = some entry → id.device = own

variable {own : String} {may may' : String → Prop} {w w' : Work Pairs} {α : Type}

/-- An id in the index is that of a place on this device. -/
theorem Settled.id_eq (h : Settled own may w) {id : SessionId} {entry : Rotation.Deadline}
    (hEntry : w.deadlines.get? id = some entry) {direction : Direction}
    (hDirection : id.direction = direction) : id = ⟨own, id.peer, id.epoch, direction⟩ := by
  rw [← h.device id entry hEntry, ← hDirection]

/-- An epoch of a peer that is in the index is kept. -/
theorem Settled.isSome_epoch (h : Settled own may w) {id : SessionId} {entry : Rotation.Deadline}
    (hEntry : w.deadlines.get? id = some entry) (hDirection : id.direction = .inbound) :
    ((w.part.receiving id.peer).epochs.get? id.epoch).isSome = true := by
  have hAgrees : (w.deadlines.get? ⟨own, id.peer, id.epoch, .inbound⟩).map (·.retireAt) =
      ((w.part.receiving id.peer).epochs.get? id.epoch).map (·.retireAt) :=
    (h.receiving id.peer).index id.epoch
  rw [← h.id_eq hEntry hDirection, hEntry] at hAgrees
  have hSome := congrArg Option.isSome hAgrees
  rw [Option.isSome_map, Option.isSome_map] at hSome
  exact hSome.symm

/-- Only the sides and the index matter. -/
theorem Settled.congr (h : Settled own may w)
    (hSending : ∀ peer, w'.part.sending peer = w.part.sending peer)
    (hReceiving : ∀ peer, w'.part.receiving peer = w.part.receiving peer)
    (hDeadlines : w'.deadlines = w.deadlines) : Settled own may w' := by
  refine ⟨fun peer => ?_, fun peer => ?_, ?_⟩
  · exact (h.sending peer).congr (hSending peer) (by simp only [Work.withPart, hDeadlines])
  · exact (h.receiving peer).congr (hReceiving peer) (by simp only [Work.withPart, hDeadlines])
  · rw [hDeadlines]
    exact h.device

-- ---------------------------------------------------------------------------
-- One side at a time
-- ---------------------------------------------------------------------------

/-- Work on one sending side, which touches the entries of that side only. -/
theorem Settled.onOutbound (h : Settled own may w) {peer : String}
    {op : Work Outbound → α × Work Outbound}
    (hOp : Outbound.Settles own peer (may peer) (w.withPart (w.part.sending peer))
      (op (w.withPart (w.part.sending peer))).2) : Settled own may (onOutbound peer op w).2 := by
  have hDiffers : w.deadlines.Differs (SessionId.Of own peer .outbound)
      (Pairs.onOutbound peer op w).2.deadlines := hOp.deadlines
  refine ⟨fun other => ?_, fun other => ?_, ?_⟩
  · have hSide := sending_onOutbound peer other op w
    by_cases hOther : other = peer
    · subst hOther
      rw [if_pos rfl] at hSide
      exact hOp.settled.congr hSide rfl
    · rw [if_neg hOther] at hSide
      refine (h.sending other).congr hSide (Rotation.Deadlines.entries_of_differs hDiffers ?_)
      rintro epoch ⟨epoch', hSame⟩
      cases hSame
      exact hOther rfl
  · refine (h.receiving other).congr rfl (Rotation.Deadlines.entries_of_differs hDiffers ?_)
    rintro epoch ⟨epoch', hSame⟩
    cases hSame
  · refine device_of_differs hDiffers ?_ h.device
    rintro id ⟨epoch, rfl⟩
    rfl

/-- Work on one receiving side, which touches the entries of that side only. -/
theorem Settled.onInbound (h : Settled own may w) {peer : String}
    {op : Work Inbound → α × Work Inbound}
    (hOp : Inbound.Settled own peer (may peer) (op (w.withPart (w.part.receiving peer))).2)
    (hDiffers : w.deadlines.Differs (SessionId.Of own peer .inbound)
      (op (w.withPart (w.part.receiving peer))).2.deadlines) :
    Settled own may (onInbound peer op w).2 := by
  have hDiffers : w.deadlines.Differs (SessionId.Of own peer .inbound)
      (Pairs.onInbound peer op w).2.deadlines := hDiffers
  refine ⟨fun other => ?_, fun other => ?_, ?_⟩
  · refine (h.sending other).congr rfl (Rotation.Deadlines.entries_of_differs hDiffers ?_)
    rintro epoch ⟨epoch', hSame⟩
    cases hSame
  · have hSide := receiving_onInbound peer other op w
    by_cases hOther : other = peer
    · subst hOther
      rw [if_pos rfl] at hSide
      exact hOp.congr hSide rfl
    · rw [if_neg hOther] at hSide
      refine (h.receiving other).congr hSide (Rotation.Deadlines.entries_of_differs hDiffers ?_)
      rintro epoch ⟨epoch', hSame⟩
      cases hSame
      exact hOther rfl
  · refine device_of_differs hDiffers ?_ h.device
    rintro id ⟨epoch, rfl⟩
    rfl

/-- Work on one sending side that settles it settles all. -/
theorem Settled.onExistingOutbound (h : Settled own may w) {peer : String} {otherwise : α}
    {op : Work Outbound → α × Work Outbound}
    (hOp : Outbound.Settles own peer (may peer) (w.withPart (w.part.sending peer))
      (op (w.withPart (w.part.sending peer))).2) :
    Settled own may (onExistingOutbound peer otherwise op w).2 := by
  unfold Pairs.onExistingOutbound
  split
  · exact h.onOutbound hOp
  · exact h

-- ---------------------------------------------------------------------------
-- Messages and requests
-- ---------------------------------------------------------------------------

variable {s : Setting} {P : Primitives}

/-- A message keeps sides and index in agreement, if the counter of epochs did not pass its end. -/
theorem settled_encrypt (h : Settled s.own.deviceId may w) {record : Peer}
    (hMay : may record.deviceId)
    {level : Level} {plaintext : Bytes}
    (hReturns : (w.part.sending record.deviceId).nextEpoch ≤
      ((encrypt P s record level plaintext w).2.part.sending record.deviceId).nextEpoch) :
    Settled s.own.deviceId may (encrypt P s record level plaintext w).2 := by
  rw [sending_encrypt, if_pos rfl] at hReturns
  exact h.onOutbound (Outbound.settles_encrypt (h.sending record.deviceId) hMay hReturns)

/-- An envelope keeps sides and index in agreement. -/
theorem settled_decrypt (h : Settled s.own.deviceId may w) {sender : Peer}
    (hMay : may sender.deviceId) (e : Envelope) :
    Settled s.own.deviceId may (decrypt P s sender e w).2 := by
  have hSide := h.receiving sender.deviceId
  refine h.onInbound (Inbound.settled_decrypt hSide hMay) ?_
  refine (Inbound.keeps_decrypt s P sender hSide.named e).deadlines.mono ?_
  rintro id ⟨epoch, -, rfl⟩
  exact ⟨epoch, rfl⟩

variable (s)

theorem settled_request (h : Settled own may w) (peer : String) :
    Settled own may (request s peer w).2 :=
  h.onOutbound (Outbound.settles_request s (h.sending peer))

/-- Giving up an establishment keeps sides and index in agreement. -/
theorem settled_checkEstablishment (h : Settled own may w) (peer : String) :
    Settled own may (checkEstablishment s peer w).2 := by
  refine h.onExistingOutbound ?_
  split
  · rename_i hTimedOut
    exact Outbound.settles_timeOut s (h.sending peer) hTimedOut peer
  · exact .refl (h.sending peer)

theorem settled_rotate (h : Settled own may w) (peer : String) :
    Settled own may (rotate s peer w).2 :=
  h.onExistingOutbound (Outbound.settles_expireCurrent s (h.sending peer))

-- ---------------------------------------------------------------------------
-- Dropping the sessions with a peer
-- ---------------------------------------------------------------------------

/-- The sessions with a peer are those of its two sides. -/
theorem liveWith_eq (p : Pairs) (peer : String) :
    p.liveWith peer = (p.sending peer).live ++ (p.receiving peer).live := by
  unfold liveWith sending receiving
  cases p.outbound? peer <;> cases p.inbound? peer <;> rfl

/-- What dropping the sessions with a peer leaves behind; the peer may be barred with it. -/
structure Drops (peer : String) (barred : Bool) (w w' : Work Pairs) : Prop where
  sending : ∀ other, w'.part.sending other =
    if other = peer then
      { (w.part.sending peer).cleared with isRevoked := barred || (w.part.sending peer).isRevoked }
    else w.part.sending other
  receiving : ∀ other, w'.part.receiving other =
    if other = peer then
      { (w.part.receiving peer).cleared with
        isRevoked := barred || (w.part.receiving peer).isRevoked }
    else w.part.receiving other
  deadlines : ∀ id, w'.deadlines.get? id =
    if id ∈ (w.part.liveWith peer).map (·.id) then none else w.deadlines.get? id
  random : w'.random = w.random

/-- **Revoking a peer** bars it, drops its sessions, and counts them. -/
theorem drops_revoke (peer : String) (w : Work Pairs) :
    (revoke s peer w).1 = (w.part.liveWith peer).length ∧ Drops peer true w (revoke s peer w).2 := by
  have hLive := liveWith_eq w.part peer
  let bar (v : Work Outbound) : List Session × Work Outbound :=
    (v.part.live, { v with part := { v.part.cleared with isRevoked := true } })
  refine ⟨by rw [hLive]; rfl, fun other => ?_, fun other => ?_, fun id => ?_, ?_⟩
  · unfold revoke
    rw [Work.part_retireAll]
    exact sending_onOutbound peer other bar w
  · unfold revoke
    rw [Work.part_retireAll]
    exact receiving_onInbound peer other _ _
  · rw [hLive]
    exact Work.get?_retireAll ..
  · exact Work.random_retireAll ..

/-- Clearing a sending side that was never formed changes nothing. -/
theorem onExistingOutbound_clear (peer : String) (w : Work Pairs) :
    let clear (v : Work Outbound) : List Session × Work Outbound :=
      (v.part.live, { v with part := v.part.cleared })
    (onExistingOutbound peer [] clear w).1 = (w.part.sending peer).live ∧
      (∀ other, (onExistingOutbound peer [] clear w).2.part.sending other =
        if other = peer then (w.part.sending peer).cleared else w.part.sending other) ∧
      (∀ other, (onExistingOutbound peer [] clear w).2.part.receiving other =
        w.part.receiving other) ∧
      (onExistingOutbound peer [] clear w).2.deadlines = w.deadlines ∧
      (onExistingOutbound peer [] clear w).2.random = w.random := by
  intro clear
  unfold Pairs.onExistingOutbound
  split
  · exact ⟨rfl, fun other => sending_onOutbound peer other clear w, fun _ => rfl, rfl, rfl⟩
  · rename_i hNone
    have hInitial : w.part.sending peer = .initial := by
      unfold sending
      rw [Option.not_isSome_iff_eq_none.1 hNone]
      rfl
    refine ⟨by rw [hInitial]; rfl, fun other => ?_, fun _ => rfl, rfl, rfl⟩
    split
    · rename_i hOther
      rw [hOther, hInitial]
      rfl
    · rfl

/-- Clearing a receiving side that was never formed changes nothing. -/
theorem onExistingInbound_clear (peer : String) (w : Work Pairs) :
    let clear (v : Work Inbound) : List Session × Work Inbound :=
      (v.part.live, { v with part := v.part.cleared })
    (onExistingInbound peer [] clear w).1 = (w.part.receiving peer).live ∧
      (∀ other, (onExistingInbound peer [] clear w).2.part.sending other =
        w.part.sending other) ∧
      (∀ other, (onExistingInbound peer [] clear w).2.part.receiving other =
        if other = peer then (w.part.receiving peer).cleared else w.part.receiving other) ∧
      (onExistingInbound peer [] clear w).2.deadlines = w.deadlines ∧
      (onExistingInbound peer [] clear w).2.random = w.random := by
  intro clear
  unfold Pairs.onExistingInbound
  split
  · exact ⟨rfl, fun _ => rfl, fun other => receiving_onInbound peer other clear w, rfl, rfl⟩
  · rename_i hNone
    have hInitial : w.part.receiving peer = .initial := by
      unfold receiving
      rw [Option.not_isSome_iff_eq_none.1 hNone]
      rfl
    refine ⟨by rw [hInitial]; rfl, fun _ => rfl, fun other => ?_, rfl, rfl⟩
    split
    · rename_i hOther
      rw [hOther, hInitial]
      rfl
    · rfl

/-- **Retiring a peer** drops its sessions and counts them. -/
theorem drops_retire (reason peer : String) (w : Work Pairs) :
    (retire s reason peer w).1 = (w.part.liveWith peer).length ∧
      Drops peer false w (retire s reason peer w).2 := by
  unfold retire
  obtain ⟨hSent, hSending, hReceiving, hDeadlines, hRandom⟩ := onExistingOutbound_clear peer w
  generalize onExistingOutbound peer [] _ w = cleared at hSent hSending hReceiving hDeadlines hRandom
  obtain ⟨sent, w₁⟩ := cleared
  obtain ⟨hReceived, hSending', hReceiving', hDeadlines', hRandom'⟩ :=
    onExistingInbound_clear peer w₁
  dsimp only at *
  generalize onExistingInbound peer [] _ w₁ = cleared at *
  obtain ⟨received, w₂⟩ := cleared
  dsimp only at *
  have hDropped : sent ++ received = w.part.liveWith peer := by
    rw [liveWith_eq, hSent, hReceived, hReceiving]
  refine ⟨by rw [hDropped], fun other => ?_, fun other => ?_, fun id => ?_, ?_⟩
  · rw [Work.part_retireAll, hSending', hSending]
    rfl
  · rw [Work.part_retireAll, hReceiving', hReceiving, hReceiving]
    rfl
  · rw [Work.get?_retireAll, hDropped, hDeadlines', hDeadlines]
  · rw [Work.random_retireAll, hRandom', hRandom]

/-- The sessions with a peer go by the ids that the index has for it. -/
theorem Settled.mem_liveWith_ids (h : Settled own may w) {peer : String} {id : SessionId} :
    id ∈ (w.part.liveWith peer).map (·.id) ↔
      id.peer = peer ∧ (w.deadlines.get? id).isSome = true := by
  have hSending : id ∈ (w.part.sending peer).live.map (·.id) ↔ _ := (h.sending peer).mem_ids_iff
  have hReceiving : id ∈ (w.part.receiving peer).live.map (·.id) ↔ _ :=
    (h.receiving peer).mem_ids_iff
  rw [liveWith_eq, List.map_append, List.mem_append]
  refine (or_congr hSending hReceiving).trans ?_
  constructor
  · rintro (⟨⟨epoch, rfl⟩, hSome⟩ | ⟨⟨epoch, rfl⟩, hSome⟩)
    · exact ⟨rfl, hSome⟩
    · exact ⟨rfl, hSome⟩
  · rintro ⟨rfl, hSome⟩
    obtain ⟨entry, hEntry⟩ := Option.isSome_iff_exists.1 hSome
    cases hDirection : id.direction with
    | outbound => exact .inl ⟨⟨id.epoch, h.id_eq hEntry hDirection⟩, hSome⟩
    | inbound => exact .inr ⟨⟨id.epoch, h.id_eq hEntry hDirection⟩, hSome⟩

/-- **Dropping the sessions with a peer** keeps all sides in agreement with the index, and no
session with the peer is left. -/
theorem Drops.settled {peer : String} {barred : Bool} (h : Drops peer barred w w')
    (hSettled : Settled own may w) : Settled own (fun other => may other ∧ other ≠ peer) w' := by
  -- the entries of the peer are gone, all others are left
  have hEntries (other : String) (direction : Direction) (epoch : UInt64) :
      w'.deadlines.entries own other direction epoch =
        if other = peer then none else w.deadlines.entries own other direction epoch := by
    refine (h.deadlines _).trans ?_
    simp only [hSettled.mem_liveWith_ids]
    by_cases hOther : other = peer
    · cases hEntry : w.deadlines.get? ⟨own, other, epoch, direction⟩ with
      | none => simp [hOther]
      | some entry => simp [hOther]
    · simp [hOther, Rotation.Deadlines.entries]
  refine ⟨fun other => ?_, fun other => ?_, fun id entry hEntry => ?_⟩
  · -- the sending side of the peer starts anew, and every other is as it was
    by_cases hOther : other = peer
    · subst hOther
      have hSide := h.sending other
      rw [if_pos rfl] at hSide
      refine .idle ?_ ?_ fun epoch => (hEntries other .outbound epoch).trans (if_pos rfl)
      · show (w'.part.sending other).current = none
        rw [hSide]
        rfl
      · show (w'.part.sending other).expiring = []
        rw [hSide]
        rfl
    · refine ((hSettled.sending other).mono fun hMay => ⟨hMay, hOther⟩).congr ?_ ?_
      · exact (h.sending other).trans (if_neg hOther)
      · exact funext fun epoch => (hEntries other .outbound epoch).trans (if_neg hOther)
  · -- so does the receiving side
    by_cases hOther : other = peer
    · subst hOther
      have hNone (epoch : UInt64) : (w'.part.receiving other).epochs.get? epoch = none := by
        rw [h.receiving, if_pos rfl]
        rfl
      refine ⟨fun epoch session hSession => ?_, fun epoch => ?_⟩
      · have hSession : (w'.part.receiving other).epochs.get? epoch = some session := hSession
        rw [hNone] at hSession
        cases hSession
      · have hCell : Inbound.cell own other (w'.withPart (w'.part.receiving other)) epoch =
            (none, none) :=
          Prod.ext (hNone epoch) ((hEntries other .inbound epoch).trans (if_pos rfl))
        rw [hCell]
        rfl
    · refine ((hSettled.receiving other).mono fun hMay => ⟨hMay, hOther⟩).congr ?_ ?_
      · exact (h.receiving other).trans (if_neg hOther)
      · exact funext fun epoch => (hEntries other .inbound epoch).trans (if_neg hOther)
  · -- what is left in the index was there before
    rw [h.deadlines] at hEntry
    split at hEntry
    · cases hEntry
    · exact hSettled.device id entry hEntry

/-- Sessions may be allowed with more peers. -/
theorem Settled.mono (h : Settled own may w) (hImp : ∀ peer, may peer → may' peer) :
    Settled own may' w :=
  ⟨fun peer => (h.sending peer).mono (hImp peer), fun peer => (h.receiving peer).mono (hImp peer),
    h.device⟩

/-- A revocation takes sessions and their entries together. -/
theorem settled_revoke (h : Settled own may w) (peer : String) :
    Settled own may (revoke s peer w).2 :=
  ((drops_revoke s peer w).2.settled h).mono fun _ hMay => hMay.1

/-- Dropping the sessions with a peer takes their entries as well. -/
theorem settled_retire (h : Settled own may w) (reason peer : String) :
    Settled own may (retire s reason peer w).2 :=
  ((drops_retire s reason peer w).2.settled h).mono fun _ hMay => hMay.1

/-- Closing leaves neither sessions nor entries. -/
theorem settled_shutdown (h : Settled own may w) : Settled own may (shutdown s w).2 := by
  unfold shutdown
  exact List.foldlRecOn (motive := fun x : Nat × Work Pairs => Settled own may x.2) _ _ h
    fun x hx peer _ => settled_retire s hx "shutdown" peer

-- ---------------------------------------------------------------------------
-- Sweeps
-- ---------------------------------------------------------------------------

/-- Does what is due at the side of a session; says whether the session was there. -/
def turn (s : Setting) (id : SessionId) (action : Rotation.DueAction) (w : Work Pairs) :
    Bool × Work Pairs :=
  match id.direction with
  | .outbound => onExistingOutbound id.peer false (applyOutbound s id action) w
  | .inbound => onExistingInbound id.peer false (applyInbound s id action) w

/-- What was done for a session that was there is what is left. -/
theorem applyDue_of_turn (r : SweepReport) {id : SessionId} {action : Rotation.DueAction}
    (h : turn s id action w = (true, w')) : (applyDue s r w id action).2 = w' := by
  unfold turn at h
  unfold applyDue
  cases hDirection : id.direction with
  | outbound =>
    simp only [hDirection] at h ⊢
    rw [h]
    cases action <;> rfl
  | inbound =>
    simp only [hDirection] at h ⊢
    rw [h]
    cases action <;> rfl

/-- Where the index says that something is due, the session is there, and it is done. -/
theorem Settled.turn_eq (h : Settled own may w) {id : SessionId} {entry : Rotation.Deadline}
    (hEntry : w.deadlines.get? id = some entry) {action : Rotation.DueAction}
    (hDue : entry.due? s.now = some action) :
    turn s id action w = (true, match id.direction with
      | .outbound => (Pairs.onOutbound id.peer (applyOutbound s id action) w).2
      | .inbound => (Pairs.onInbound id.peer (applyInbound s id action) w).2) := by
  have hIndexed : (w.deadlines.get? id).isSome = true := by
    rw [hEntry]
    rfl
  unfold turn
  cases hDirection : id.direction with
  | outbound =>
    have hId := h.id_eq hEntry hDirection
    have hSide := h.sending id.peer
    have hDone := (Outbound.settles_applyOutbound hSide hId hEntry hDue).1
    -- an entry of the index is that of a session, so the side was formed
    have hFormed : (w.part.outbound? id.peer).isSome = true := by
      have hMem : id ∈ _ := hSide.mem_ids_iff.2 ⟨⟨id.epoch, hId⟩, hIndexed⟩
      cases hNone : w.part.outbound? id.peer with
      | some o => rfl
      | none => simp [Pairs.sending, hNone, Outbound.initial, Outbound.live, Work.withPart] at hMem
    dsimp only
    unfold Pairs.onExistingOutbound
    rw [if_pos hFormed]
    exact Prod.ext hDone rfl
  | inbound =>
    have hId := h.id_eq hEntry hDirection
    have hSide := h.receiving id.peer
    have hDone := (Inbound.settled_applyInbound hSide hId hEntry hDue).1
    -- and so was the receiving side
    have hFormed : (w.part.inbound? id.peer).isSome = true := by
      have hMem : id ∈ _ := hSide.mem_ids_iff.2 ⟨⟨id.epoch, hId⟩, hIndexed⟩
      cases hNone : w.part.inbound? id.peer with
      | some i => rfl
      | none =>
        simp [Pairs.receiving, hNone, Inbound.initial, Inbound.live, Work.withPart, Table.values,
          Table.empty] at hMem
    dsimp only
    unfold Pairs.onExistingInbound
    rw [if_pos hFormed]
    exact Prod.ext hDone rfl

/-- **What is due for a session is done,** and touches its own entry only. -/
theorem settled_applyDue (h : Settled own may w) (r : SweepReport) {id : SessionId}
    {entry : Rotation.Deadline} (hEntry : w.deadlines.get? id = some entry)
    {action : Rotation.DueAction} (hDue : entry.due? s.now = some action) :
    Settled own may (applyDue s r w id action).2 ∧
      w.deadlines.Differs (· = id) (applyDue s r w id action).2.deadlines := by
  rw [applyDue_of_turn s r (h.turn_eq s hEntry hDue)]
  cases hDirection : id.direction with
  | outbound =>
    have hId := h.id_eq hEntry hDirection
    obtain ⟨-, hSettled, hDiffers⟩ :=
      Outbound.settles_applyOutbound (h.sending id.peer) hId hEntry hDue
    refine ⟨h.onOutbound ⟨hSettled, hDiffers.mono ?_⟩, hDiffers⟩
    rintro _ rfl
    exact ⟨_, hId⟩
  | inbound =>
    have hId := h.id_eq hEntry hDirection
    have hSide := h.receiving id.peer
    have hDiffers : w.deadlines.Differs (· = id)
        (applyInbound s id action (w.withPart (w.part.receiving id.peer))).2.deadlines := by
      refine (Inbound.keeps_applyInbound s hSide.named id action).deadlines.mono ?_
      rintro _ ⟨epoch, rfl, rfl⟩
      exact hId.symm
    have hSettled := (Inbound.settled_applyInbound hSide hId hEntry hDue).2
    refine ⟨h.onInbound hSettled (hDiffers.mono ?_), hDiffers⟩
    rintro _ rfl
    exact ⟨_, hId⟩

/-- Turns of a sweep that are still to come: each is due, and no session has two. -/
structure Pending (s : Setting) (w : Work Pairs) (turns : List (SessionId × Rotation.DueAction)) :
    Prop where
  distinct : turns.Pairwise fun a b => a.1 ≠ b.1
  due : ∀ d ∈ turns, ∃ entry, w.deadlines.get? d.1 = some entry ∧ entry.due? s.now = some d.2

/-- A sweep begins with all that is due. -/
theorem pending_due (w : Work Pairs) : Pending s w (w.deadlines.due s.now) := by
  refine ⟨List.Pairwise.filterMap _ ?_ w.deadlines.pairwise_ne,
    fun _ hMem => Rotation.Deadlines.due_of_mem hMem⟩
  intro a b hOther x hx y hy
  obtain ⟨-, -, rfl⟩ := Option.map_eq_some_iff.1 hx
  obtain ⟨-, -, rfl⟩ := Option.map_eq_some_iff.1 hy
  exact hOther

/-- A turn touches one entry, so the other turns are still to come. -/
theorem Pending.next {d : SessionId × Rotation.DueAction}
    {rest : List (SessionId × Rotation.DueAction)} (h : Pending s w (d :: rest))
    (hDiffers : w.deadlines.Differs (· = d.1) w'.deadlines) : Pending s w' rest := by
  obtain ⟨hFirst, hRest⟩ := List.pairwise_cons.1 h.distinct
  refine ⟨hRest, fun later hLater => ?_⟩
  obtain ⟨entry, hEntry, hDue⟩ := h.due later (.tail _ hLater)
  exact ⟨entry, (hDiffers later.1 (hFirst later hLater).symm).trans hEntry, hDue⟩

/-- Doing all that is due keeps sides and index in agreement. -/
theorem settled_turns {turns : List (SessionId × Rotation.DueAction)} {x : SweepReport × Work Pairs}
    (hPending : Pending s x.2 turns) (h : Settled own may x.2) :
    Settled own may (turns.foldl (fun (r, w) d => applyDue s r w d.1 d.2) x).2 := by
  induction turns generalizing x with
  | nil => exact h
  | cons d rest ih =>
    obtain ⟨entry, hEntry, hDue⟩ := hPending.due d (.head _)
    obtain ⟨hSettled, hDiffers⟩ := settled_applyDue s h x.1 hEntry hDue
    exact ih (x := applyDue s x.1 x.2 d.1 d.2) (hPending.next s hDiffers) hSettled

/-- **A sweep** takes one turn after the other, and then gives up what was asked for too long ago. -/
theorem settled_sweep (h : Settled own may w) : Settled own may (sweep s w).2 := by
  have hChecked (peers : List String) (x : SweepReport × Work Pairs) (hx : Settled own may x.2) :
      Settled own may (peers.foldl (fun (r, w) peer => sweepEstablishment s r w peer) x).2 := by
    induction peers generalizing x with
    | nil => exact hx
    | cons peer rest ih =>
      refine ih (sweepEstablishment s x.1 x.2 peer) ?_
      have hCheck := settled_checkEstablishment s hx peer
      unfold sweepEstablishment
      split <;> simpa only [‹checkEstablishment s peer x.2 = _›] using hCheck
  unfold sweep
  exact hChecked _ _ (settled_turns s (pending_due s w) h)

/-- **Every operation that handles no message** keeps all sides in agreement with the index. -/
theorem Calm.settled {s : Setting} {barring : String → Prop} {closing : Prop}
    (h : Calm s barring closing w w') (hSettled : Settled own may w) : Settled own may w' := by
  cases h with
  | nothing => exact hSettled
  | request peer => exact settled_request s hSettled peer
  | checkEstablishment peer => exact settled_checkEstablishment s hSettled peer
  | rotate peer => exact settled_rotate s hSettled peer
  | shutdown => exact settled_shutdown s hSettled
  | sweep => exact settled_sweep s hSettled
  | revoke peer => exact settled_revoke s hSettled peer

end EndToEnd.Pairs
