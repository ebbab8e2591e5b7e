import EndToEnd.Proofs.SettledPairs
import EndToEnd.Proofs.ShedSides

/-!
# All sides, with some sessions shed

The sessions of two devices, of which the second lacks some receiving sessions whose grace is over
(`Pairs.Sheds`). Every operation on the sessions keeps them so, and those that handle messages
answer alike. In a sweep, the first device may drop what the second lacks; in everything else that
is due, they go in step.

Main results:

* `Pairs.concur_encrypt`, `Pairs.concur_decrypt` — messages.
* `Pairs.sheds_sweep`, `Pairs.sheds_shutdown`, `Pairs.sheds_revoke` — the sessions that are dropped.
-/

namespace EndToEnd

namespace Rotation.Deadlines

/-- What is due of some deadlines is due of all of them. -/
theorem due_filter (t : Deadlines) (p : SessionId → Bool) (now : UInt64) :
    Deadlines.due (t.filter fun id _ => p id) now = (t.due now).filter fun d => p d.1 := by
  unfold due Table.filter
  rw [List.filterMap_filter, List.filter_filterMap]
  refine congrArg (List.filterMap · t.toList) (funext fun e => ?_)
  cases hDue : e.2.due? now with
  | none => simp
  | some action => by_cases hKept : p e.1 = true <;> simp [Option.filter, hKept]

/-- In an index that has shed some entries, the rest is due as it was. -/
theorem Differs.due {lost : SessionId → Prop} [DecidablePred lost] {t t' : Deadlines}
    (h : Differs lost t t') (hLost : ∀ id, lost id → t'.get? id = none) (now : UInt64) :
    t'.due now = (t.due now).filter fun d => ¬lost d.1 := by
  have hKept : t' = t.filter fun id _ => ¬lost id := by
    refine Table.ext_get? fun id => ?_
    rw [Table.get?_filter]
    by_cases hId : lost id
    · rw [hLost id hId]
      cases t.get? id <;> simp [Option.filter, hId]
    · rw [h id hId]
      cases t.get? id <;> simp [Option.filter, hId]
  rw [hKept]
  exact due_filter t (fun id => ¬lost id) now

end Rotation.Deadlines

namespace Pairs

/-- Work on sessions of which some receiving ones, with their entries, may have been shed: those
that go by the ids in `lost`. -/
structure Sheds (own : String) (lost : SessionId → Prop) (now : UInt64) (w w' : Work Pairs) :
    Prop where
  outbound : w'.part.outbound = w.part.outbound
  receiving : ∀ peer, Inbound.Lighter (fun epoch => lost ⟨own, peer, epoch, .inbound⟩) now
    (w.part.receiving peer) (w'.part.receiving peer)
  deadlines : w.deadlines.Differs lost w'.deadlines
  random : w'.random = w.random
  inbound : ∀ id, lost id → id.direction = .inbound

namespace Sheds

variable {own : String} {may may' : String → Prop} {lost : SessionId → Prop} {now : UInt64}
  {w w' : Work Pairs} {α : Type}

/-- Sides that send are the same. -/
theorem sending (h : Sheds own lost now w w') (peer : String) :
    w'.part.sending peer = w.part.sending peer := by
  unfold Pairs.sending outbound?
  rw [h.outbound]

/-- Work on one sending side is alike. -/
theorem alike (h : Sheds own lost now w w') (peer : String) :
    Work.Alike lost (w.withPart (w.part.sending peer)) (w'.withPart (w'.part.sending peer)) :=
  ⟨h.sending peer, h.deadlines, h.random⟩

/-- Work on one receiving side has shed what the whole has. -/
theorem side (h : Sheds own lost now w w') (peer : String) :
    Inbound.Sheds own peer lost now (w.withPart (w.part.receiving peer))
      (w'.withPart (w'.part.receiving peer)) :=
  ⟨h.receiving peer, h.deadlines, h.random⟩

/-- What was shed has no entry any more. -/
theorem get?_lost (h : Sheds own lost now w w') (hSettled : Settled own may w') {id : SessionId}
    (hLost : lost id) : w'.deadlines.get? id = none := by
  refine Option.eq_none_iff_forall_ne_some.2 fun entry hEntry => ?_
  have hDirection := h.inbound id hLost
  have hId := hSettled.id_eq hEntry hDirection
  have hKept := hSettled.isSome_epoch hEntry hDirection
  rw [(h.receiving id.peer).gone id.epoch (hId ▸ hLost)] at hKept
  cases hKept

-- ---------------------------------------------------------------------------
-- One side at a time
-- ---------------------------------------------------------------------------

/-- Work on a sending side that concurs there concurs as a whole. -/
theorem onOutbound (h : Sheds own lost now w w') {peer : String}
    {op : Work Outbound → α × Work Outbound}
    (hOp : Concur (Work.Alike lost) (op (w.withPart (w.part.sending peer)))
      (op (w'.withPart (w'.part.sending peer)))) :
    Concur (Sheds own lost now) (Pairs.onOutbound peer op w) (Pairs.onOutbound peer op w') := by
  refine ⟨hOp.answer, ?_, h.receiving, hOp.states.deadlines, hOp.states.random, h.inbound⟩
  show w'.part.outbound.insert peer _ = w.part.outbound.insert peer _
  rw [h.outbound]
  exact congrArg _ hOp.states.part

/-- Likewise where the side has to be there. -/
theorem onExistingOutbound (h : Sheds own lost now w w') {peer : String} {otherwise : α}
    {op : Work Outbound → α × Work Outbound}
    (hOp : Concur (Work.Alike lost) (op (w.withPart (w.part.sending peer)))
      (op (w'.withPart (w'.part.sending peer)))) :
    Concur (Sheds own lost now) (Pairs.onExistingOutbound peer otherwise op w)
      (Pairs.onExistingOutbound peer otherwise op w') := by
  unfold Pairs.onExistingOutbound outbound?
  rw [h.outbound]
  split
  · exact h.onOutbound hOp
  · exact ⟨rfl, h⟩

/-- Work on a receiving side that concurs there concurs as a whole. -/
theorem onInbound (h : Sheds own lost now w w') {peer : String}
    {op : Work Inbound → α × Work Inbound}
    (hOp : Concur (Inbound.Sheds own peer lost now) (op (w.withPart (w.part.receiving peer)))
      (op (w'.withPart (w'.part.receiving peer)))) :
    Concur (Sheds own lost now) (Pairs.onInbound peer op w) (Pairs.onInbound peer op w') := by
  obtain ⟨hAnswer, hSide⟩ := hOp
  refine ⟨hAnswer, h.outbound, fun other => ?_, hSide.deadlines, hSide.random, h.inbound⟩
  rw [receiving_onInbound, receiving_onInbound]
  split
  · rename_i hOther
    subst hOther
    exact hSide.part
  · exact h.receiving other

/-- Work that reaches what the other side has shed. -/
theorem onInbound_left (h : Sheds own lost now w w') {peer : String}
    {op : Work Inbound → α × Work Inbound}
    (hOp : Inbound.Sheds own peer lost now (op (w.withPart (w.part.receiving peer))).2
      (w'.withPart (w'.part.receiving peer))) :
    Sheds own lost now (Pairs.onInbound peer op w).2 w' := by
  refine ⟨h.outbound, fun other => ?_, hOp.deadlines, hOp.random, h.inbound⟩
  rw [receiving_onInbound]
  split
  · rename_i hOther
    subst hOther
    exact hOp.part
  · exact h.receiving other

/-- Work that sheds something on one side. -/
theorem of_onInbound {peer : String} {op : Work Inbound → α × Work Inbound}
    (hOf : ∀ id, lost id → id.Of own peer .inbound)
    (hOp : Inbound.Sheds own peer lost now (w.withPart (w.part.receiving peer))
      (op (w.withPart (w.part.receiving peer))).2) :
    Sheds own lost now w (Pairs.onInbound peer op w).2 := by
  refine ⟨rfl, fun other => ?_, hOp.deadlines, hOp.random, fun id hLost => ?_⟩
  · rw [receiving_onInbound]
    split
    · rename_i hOther
      subst hOther
      exact hOp.part
    · rename_i hOther
      refine .refl _ _ fun epoch hLost => hOther ?_
      obtain ⟨epoch', hId⟩ := hOf _ hLost
      exact congrArg SessionId.peer hId
  · obtain ⟨epoch, rfl⟩ := hOf id hLost
    rfl

end Sheds

-- ---------------------------------------------------------------------------
-- Messages and requests
-- ---------------------------------------------------------------------------

variable {own : String} {may may' : String → Prop} {lost : SessionId → Prop} {now : UInt64}
  {w w' v v' : Work Pairs} {s : Setting} {P : Primitives}

/-- **A message is sent alike.** -/
theorem concur_encrypt (h : Sheds own lost now w w') (hSettled : Settled own may w) (record : Peer)
    (level : Level) (plaintext : Bytes) :
    Concur (Sheds own lost now) (encrypt P s record level plaintext w)
      (encrypt P s record level plaintext w') :=
  h.onOutbound (Outbound.concur_encrypt h.inbound s P (h.alike record.deviceId)
    (hSettled.sending record.deviceId).named record level plaintext)

/-- **A message is received alike.** -/
theorem concur_decrypt (h : Sheds s.own.deviceId lost s.now w w')
    (hSettled : Settled s.own.deviceId may w) (hSettled' : Settled s.own.deviceId may' w')
    (sender : Peer) (e : Envelope) :
    Concur (Sheds s.own.deviceId lost s.now) (decrypt P s sender e w) (decrypt P s sender e w') :=
  h.onInbound (Inbound.concur_decrypt (h.side sender.deviceId)
    (hSettled.receiving sender.deviceId).named (hSettled'.receiving sender.deviceId).named e)

/-- **An envelope that is refused** sheds at most the session of its own epoch. -/
theorem sheds_refused (hSettled : Settled s.own.deviceId may w) {sender : Peer} {e : Envelope}
    {failure : Failure} (h : (decrypt P s sender e w).1 = .error failure) :
    ∃ lost, Sheds s.own.deviceId lost s.now w (decrypt P s sender e w).2 := by
  obtain ⟨lost, hOf, hSheds⟩ :=
    Inbound.sheds_refused (hSettled.receiving sender.deviceId) (Prod.ext h rfl)
  exact ⟨lost, .of_onInbound hOf hSheds⟩

variable (s)

/-- Asking for an establishment concurs. -/
theorem sheds_request (h : Sheds own lost now w w') (peer : String) :
    Sheds own lost now (request s peer w).2 (request s peer w').2 := by
  refine (h.onOutbound ?_).states
  have hAlike := h.alike peer
  have hPart : w'.part.sending peer = w.part.sending peer := hAlike.part
  rw [hPart]
  exact ⟨rfl, rfl, h.deadlines, h.random⟩

/-- Giving up an establishment concurs. -/
theorem concur_checkEstablishment (h : Sheds own lost now w w') (peer : String) :
    Concur (Sheds own lost now) (checkEstablishment s peer w) (checkEstablishment s peer w') := by
  refine h.onExistingOutbound ?_
  have hAlike := h.alike peer
  rw [hAlike.part]
  split
  · exact ⟨rfl, Outbound.alike_timeOut s hAlike peer⟩
  · exact ⟨rfl, hAlike⟩

/-- A rotation concurs. -/
theorem concur_rotate (h : Sheds own lost now w w') (hSettled : Settled own may w) (peer : String) :
    Concur (Sheds own lost now) (rotate s peer w) (rotate s peer w') :=
  h.onExistingOutbound (Outbound.concur_expireCurrent h.inbound s (h.alike peer)
    (hSettled.sending peer).named)

-- ---------------------------------------------------------------------------
-- Dropping sessions
-- ---------------------------------------------------------------------------

/-- The sessions with a peer are dropped in both. -/
theorem Drops.sheds {peer : String} {barred : Bool} (h : Sheds own lost now w w')
    (hSettled : Settled own may w) (hSettled' : Settled own may' w')
    (hDrops : Drops peer barred w v) (hDrops' : Drops peer barred w' v') (hOutbound : v'.part.outbound = v.part.outbound) :
    Sheds own lost now v v' := by
  refine ⟨hOutbound, fun other => ?_, fun id hKept => ?_, ?_, h.inbound⟩
  · rw [hDrops.receiving, hDrops'.receiving]
    split
    · rename_i hOther
      subst hOther
      exact (h.receiving other).cleared barred
    · exact h.receiving other
  · rw [hDrops.deadlines, hDrops'.deadlines]
    simp only [hSettled.mem_liveWith_ids, hSettled'.mem_liveWith_ids, h.deadlines id hKept]
  · rw [hDrops.random, hDrops'.random, h.random]

/-- A revocation drops what is left on both; what was shed before is not missed. -/
theorem sheds_revoke (h : Sheds own lost now w w') (hSettled : Settled own may w)
    (hSettled' : Settled own may' w') (peer : String) :
    Sheds own lost now (revoke s peer w).2 (revoke s peer w').2 := by
  refine Drops.sheds h hSettled hSettled' (drops_revoke s peer w).2 (drops_revoke s peer w').2 ?_
  have hInserted (w : Work Pairs) : (revoke s peer w).2.part.outbound =
      w.part.outbound.insert peer { (w.part.sending peer).cleared with isRevoked := true } := by
    unfold revoke
    rw [Work.part_retireAll]
    rfl
  rw [hInserted, hInserted, h.outbound, h.sending peer]

/-- Retiring a peer clears its sending side, if it was formed. -/
theorem outbound_retire (reason peer : String) (w : Work Pairs) (other : String) :
    (retire s reason peer w).2.part.outbound.get? other =
      if other = peer then (w.part.outbound.get? peer).map Outbound.cleared
      else w.part.outbound.get? other := by
  -- emptying the receiving side leaves the sending sides alone
  have hReceiving (clear : Work Inbound → List Session × Work Inbound) (w : Work Pairs) :
      (onExistingInbound peer [] clear w).2.part.outbound = w.part.outbound := by
    unfold onExistingInbound
    split <;> rfl
  unfold retire
  rw [Work.part_retireAll, hReceiving]
  unfold onExistingOutbound outbound?
  cases hFormed : w.part.outbound.get? peer with
  | none =>
    simp only [Option.isSome_none, Bool.false_eq_true, if_false, Option.map_none]
    split
    · rename_i hOther
      rw [hOther, hFormed]
    · rfl
  | some o =>
    simp only [Option.isSome_some, if_true, Option.map_some]
    refine (Table.get?_insert ..).trans ?_
    split
    · show some (Outbound.cleared ((w.part.outbound.get? peer).getD .initial)) = _
      rw [hFormed]
      rfl
    · rfl

/-- A peer with a side is listed. -/
theorem mem_peers_iff {p : Pairs} {peer : String} :
    peer ∈ p.peers ↔ (p.outbound? peer).isSome = true ∨ (p.inbound? peer).isSome = true := by
  have hKeys {α : Type} (t : Table String α) : peer ∈ t.keys ↔ (t.get? peer).isSome = true := by
    rw [Option.isSome_iff_exists]
    constructor
    · intro hMem
      obtain ⟨⟨k, value⟩, hEntry, rfl⟩ := List.mem_map.1 hMem
      exact ⟨value, Table.mem_toList_iff.1 hEntry⟩
    · rintro ⟨value, hValue⟩
      exact List.mem_map.2 ⟨(peer, value), Table.mem_toList_iff.2 hValue, rfl⟩
  unfold peers
  rw [hKeys, Table.isSome_get?_ofList, List.map_map]
  show peer ∈ (p.outbound.keys ++ p.inbound.keys).map id ↔ _
  rw [List.map_id, List.mem_append, hKeys, hKeys]
  rfl

/-- What a shutdown leaves. -/
structure Closed (w w' : Work Pairs) : Prop where
  outbound : ∀ peer, w'.part.outbound.get? peer = (w.part.outbound.get? peer).map Outbound.cleared
  receiving : ∀ peer, w'.part.receiving peer = (w.part.receiving peer).cleared
  random : w'.random = w.random

/-- Retiring some peers clears their sides. -/
theorem retired_foldl (peers : List String) (x : Nat × Work Pairs) :
    let done := peers.foldl (fun (n, w) peer =>
      let (dropped, w) := retire s "shutdown" peer w
      (n + dropped, w)) x
    (∀ peer, done.2.part.outbound.get? peer =
        if peer ∈ peers then (x.2.part.outbound.get? peer).map Outbound.cleared
        else x.2.part.outbound.get? peer) ∧
      (∀ peer, done.2.part.receiving peer =
        if peer ∈ peers then (x.2.part.receiving peer).cleared else x.2.part.receiving peer) ∧
      done.2.random = x.2.random := by
  induction peers generalizing x with
  | nil => exact ⟨fun _ => rfl, fun _ => rfl, rfl⟩
  | cons first rest ih =>
    obtain ⟨hOutbound, hReceiving, hRandom⟩ := ih (x.1 + (retire s "shutdown" first x.2).1,
      (retire s "shutdown" first x.2).2)
    have hDrops := (drops_retire s "shutdown" first x.2).2
    refine ⟨fun peer => (hOutbound peer).trans ?_, fun peer => (hReceiving peer).trans ?_,
      hRandom.trans hDrops.random⟩
    · have hFirst := outbound_retire s "shutdown" first x.2 peer
      by_cases hPeer : peer = first
      · -- a peer may be listed again
        subst hPeer
        rw [if_pos rfl] at hFirst
        rw [hFirst, if_pos (List.mem_cons_self ..)]
        split
        · rw [Option.map_map]
          rfl
        · rfl
      · rw [if_neg hPeer] at hFirst
        rw [hFirst]
        simp [hPeer]
    · have hFirst := hDrops.receiving peer
      by_cases hPeer : peer = first
      · subst hPeer
        rw [if_pos rfl] at hFirst
        rw [hFirst, if_pos (List.mem_cons_self ..)]
        split <;> rfl
      · rw [if_neg hPeer] at hFirst
        rw [hFirst]
        simp [hPeer]

/-- A peer that is not listed has no side to clear. -/
theorem closed_shutdown (w : Work Pairs) : Closed w (shutdown s w).2 := by
  obtain ⟨hOutbound, hReceiving, hRandom⟩ := retired_foldl s w.part.peers (0, w)
  refine ⟨fun peer => (hOutbound peer).trans ?_, fun peer => (hReceiving peer).trans ?_, hRandom⟩
  · split
    · rfl
    · rename_i hAbsent
      have hNone : ¬(w.part.outbound? peer).isSome = true :=
        fun h => hAbsent (mem_peers_iff.2 (.inl h))
      have hNone : w.part.outbound.get? peer = none := Option.not_isSome_iff_eq_none.1 hNone
      rw [hNone]
      rfl
  · split
    · rfl
    · rename_i hAbsent
      have hNone : ¬(w.part.inbound? peer).isSome = true :=
        fun h => hAbsent (mem_peers_iff.2 (.inr h))
      show w.part.receiving peer = (w.part.receiving peer).cleared
      unfold receiving
      rw [Option.not_isSome_iff_eq_none.1 hNone]
      rfl

/-- Behind a shutdown a sending side is cleared. -/
theorem Closed.sending (h : Closed w v) (peer : String) :
    v.part.sending peer = (w.part.sending peer).cleared := by
  unfold Pairs.sending outbound?
  rw [h.outbound]
  cases w.part.outbound.get? peer <;> rfl

/-- Behind a shutdown, the index is empty. -/
theorem Closed.get?_deadlines (h : Closed w v) (hSettled : Settled own may v) (id : SessionId) :
    v.deadlines.get? id = none := by
  have hNone : v.part.liveWith id.peer = [] := by
    rw [liveWith_eq, h.sending, h.receiving]
    rfl
  refine Option.not_isSome_iff_eq_none.1 fun hSome => ?_
  have hMem := hSettled.mem_liveWith_ids.2 ⟨rfl, hSome⟩
  rw [hNone] at hMem
  cases hMem

/-- **All sessions are dropped in both.** -/
theorem sheds_shutdown (h : Sheds own lost now w w') (hSettled : Settled own may w)
    (hSettled' : Settled own may' w') :
    Sheds own lost now (shutdown s w).2 (shutdown s w').2 := by
  have hClosed := closed_shutdown s w
  have hClosed' := closed_shutdown s w'
  refine ⟨Table.ext_get? fun peer => ?_, fun peer => ?_, fun id _ => ?_, ?_, h.inbound⟩
  · rw [hClosed.outbound, hClosed'.outbound, h.outbound]
  · rw [hClosed.receiving, hClosed'.receiving]
    exact (h.receiving peer).cleared false
  · rw [hClosed.get?_deadlines (settled_shutdown s hSettled),
      hClosed'.get?_deadlines (settled_shutdown s hSettled')]
  · rw [hClosed.random, hClosed'.random, h.random]

-- ---------------------------------------------------------------------------
-- Sweeps
-- ---------------------------------------------------------------------------

/-- What is due for a session that both keep is done in both. -/
theorem sheds_applyDue (h : Sheds own lost now w w') (hSettled : Settled own may w)
    (hSettled' : Settled own may' w') (r r' : SweepReport) {id : SessionId} (hKept : ¬lost id)
    {entry : Rotation.Deadline} (hEntry : w.deadlines.get? id = some entry)
    {action : Rotation.DueAction} (hDue : entry.due? s.now = some action) :
    Sheds own lost now (applyDue s r w id action).2 (applyDue s r' w' id action).2 := by
  have hEntry' : w'.deadlines.get? id = some entry := (h.deadlines id hKept).trans hEntry
  rw [applyDue_of_turn s r (hSettled.turn_eq s hEntry hDue),
    applyDue_of_turn s r' (hSettled'.turn_eq s hEntry' hDue)]
  cases hDirection : id.direction with
  | outbound =>
    exact (h.onOutbound (Outbound.concur_applyOutbound h.inbound s (h.alike id.peer)
      (hSettled.sending id.peer).named id action)).states
  | inbound =>
    have hId := hSettled.id_eq hEntry hDirection
    exact (h.onInbound (Inbound.concur_applyInbound s (h.side id.peer)
      (hSettled.receiving id.peer).named (hId ▸ hKept) action)).states

/-- What is due for a session that the other lacks is done. -/
theorem sheds_applyDue_left (h : Sheds own lost now w w') (hSettled : Settled own may w)
    (r : SweepReport) {id : SessionId} (hLost : lost id)
    {entry : Rotation.Deadline} (hEntry : w.deadlines.get? id = some entry)
    {action : Rotation.DueAction} (hDue : entry.due? s.now = some action) :
    Sheds own lost now (applyDue s r w id action).2 w' := by
  have hDirection := h.inbound id hLost
  have hId := hSettled.id_eq hEntry hDirection
  rw [applyDue_of_turn s r (hSettled.turn_eq s hEntry hDue), hDirection]
  exact h.onInbound_left (Inbound.sheds_applyInbound_left s (h.side id.peer)
    (hSettled.receiving id.peer).named (hId ▸ hLost) action)

/-- The turns that both have to take are taken in both, and those of the sessions that only the
first keeps, in the first. -/
theorem sheds_turns [DecidablePred lost] {turns : List (SessionId × Rotation.DueAction)}
    (x x' : SweepReport × Work Pairs) (h : Sheds own lost now x.2 x'.2)
    (hSettled : Settled own may x.2) (hSettled' : Settled own may' x'.2)
    (hPending : Pending s x.2 turns) :
    Sheds own lost now (turns.foldl (fun (r, w) d => applyDue s r w d.1 d.2) x).2
      ((turns.filter fun d => ¬lost d.1).foldl (fun (r, w) d => applyDue s r w d.1 d.2) x').2 := by
  induction turns generalizing x x' with
  | nil => exact h
  | cons d rest ih =>
    obtain ⟨entry, hEntry, hDue⟩ := hPending.due d (.head _)
    obtain ⟨hNext, hDiffers⟩ := settled_applyDue s hSettled x.1 hEntry hDue
    have hLater := hPending.next s hDiffers
    by_cases hLost : lost d.1
    · rw [List.filter_cons_of_neg (by simpa using hLost)]
      exact ih (applyDue s x.1 x.2 d.1 d.2) x'
        (sheds_applyDue_left s h hSettled x.1 hLost hEntry hDue) hNext hSettled' hLater
    · rw [List.filter_cons_of_pos (by simpa using hLost)]
      have hEntry' : x'.2.deadlines.get? d.1 = some entry := (h.deadlines d.1 hLost).trans hEntry
      obtain ⟨hNext', -⟩ := settled_applyDue s hSettled' x'.1 hEntry' hDue
      exact ih (applyDue s x.1 x.2 d.1 d.2) (applyDue s x'.1 x'.2 d.1 d.2)
        (sheds_applyDue s h hSettled hSettled' x.1 x'.1 hLost hEntry hDue) hNext hNext' hLater

/-- **A sweep keeps both in step.** Where a session is due that only the first keeps, the second
waits. -/
theorem sheds_sweep (h : Sheds own lost now w w') (hSettled : Settled own may w)
    (hSettled' : Settled own may' w') : Sheds own lost now (sweep s w).2 (sweep s w').2 := by
  have : DecidablePred lost := fun id => Classical.propDecidable (lost id)
  have hChecked (peers : List String) (x x' : SweepReport × Work Pairs)
      (hSheds : Sheds own lost now x.2 x'.2) :
      Sheds own lost now (peers.foldl (fun (r, w) peer => sweepEstablishment s r w peer) x).2
        (peers.foldl (fun (r, w) peer => sweepEstablishment s r w peer) x').2 := by
    have hStep (r : SweepReport) (w : Work Pairs) (peer : String) :
        (sweepEstablishment s r w peer).2 = (checkEstablishment s peer w).2 := by
      unfold sweepEstablishment
      split <;> simp only [‹checkEstablishment s peer w = _›]
    induction peers generalizing x x' with
    | nil => exact hSheds
    | cons peer rest ih =>
      refine ih (sweepEstablishment s x.1 x.2 peer) (sweepEstablishment s x'.1 x'.2 peer) ?_
      rw [hStep, hStep]
      exact (concur_checkEstablishment s hSheds peer).states
  have hTaken := sheds_turns s (⟨0, 0, 0⟩, w) (⟨0, 0, 0⟩, w') h hSettled hSettled' (pending_due s w)
  unfold sweep
  rw [h.deadlines.due (fun id hLost => h.get?_lost hSettled' hLost)]
  dsimp only
  rw [hTaken.outbound]
  exact hChecked _ _ _ hTaken

end Pairs

end EndToEnd
