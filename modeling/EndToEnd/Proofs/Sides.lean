import EndToEnd.Proofs.Receiving
import EndToEnd.Proofs.Sending
import EndToEnd.Session.Maintenance

/-!
# The sides of all pairs

The sending and the receiving side of one pair among all sessions, and what each operation on the
sessions does to them. Apart from the two that handle messages, every operation (`Pairs.Calm`) is
`Pairs.Quiet`: no side gains a key by it.

Main results:

* `Pairs.encrypt_cases`, `Pairs.decrypt_cases` — a message reaches one side of one pair.
* `Pairs.Calm.quiet` — no side gains a key by an operation that handles no message.
-/

namespace EndToEnd.Pairs

/-- The sending side of a pair; one that was never formed is in its initial state. -/
def sending (p : Pairs) (peer : String) : Outbound := (p.outbound? peer).getD .initial

/-- The receiving side of a pair; one that was never formed is in its initial state. -/
def receiving (p : Pairs) (peer : String) : Inbound := (p.inbound? peer).getD .initial

-- ---------------------------------------------------------------------------
-- Work on one side
-- ---------------------------------------------------------------------------

variable {α : Type}

/-- Work on one sending side is work on that side, and leaves all others. -/
theorem sending_onOutbound (peer other : String) (op : Work Outbound → α × Work Outbound)
    (w : Work Pairs) :
    (onOutbound peer op w).2.part.sending other =
      if other = peer then (op (w.withPart (w.part.sending peer))).2.part
      else w.part.sending other := by
  simp only [onOutbound, sending, outbound?, Work.withPart, Table.get?_insert]
  split <;> rfl

theorem receiving_onOutbound (peer other : String) (op : Work Outbound → α × Work Outbound)
    (w : Work Pairs) :
    (onOutbound peer op w).2.part.receiving other = w.part.receiving other := rfl

theorem sending_onInbound (peer other : String) (op : Work Inbound → α × Work Inbound)
    (w : Work Pairs) :
    (onInbound peer op w).2.part.sending other = w.part.sending other := rfl

/-- Work on one receiving side is work on that side, and leaves all others. -/
theorem receiving_onInbound (peer other : String) (op : Work Inbound → α × Work Inbound)
    (w : Work Pairs) :
    (onInbound peer op w).2.part.receiving other =
      if other = peer then (op (w.withPart (w.part.receiving peer))).2.part
      else w.part.receiving other := by
  simp only [onInbound, receiving, inbound?, Work.withPart, Table.get?_insert]
  split <;> rfl

-- ---------------------------------------------------------------------------
-- Quiet operations
-- ---------------------------------------------------------------------------

/-- No side of any pair has gained a key. The receiving sides of peers for which `barring` holds may
have been barred. -/
structure Quiet (barring : String → Prop) (p p' : Pairs) : Prop where
  rests : ∀ peer, (p.sending peer).Rests (p'.sending peer)
  wanes : ∀ peer, Inbound.Wanes (barring peer) (p.receiving peer) (p'.receiving peer)

namespace Quiet

variable {barring : String → Prop}

theorem refl (p : Pairs) : Quiet barring p p := ⟨fun _ => .refl _, fun _ => .refl _⟩

/-- No key is gained in two stretches in which none is. -/
theorem trans {p p' p'' : Pairs} (h : Quiet barring p p') (h' : Quiet barring p' p'') :
    Quiet barring p p'' :=
  ⟨fun peer => (h.rests peer).trans (h'.rests peer),
    fun peer => (h.wanes peer).trans (h'.wanes peer)⟩

/-- Work under which a sending side rests. -/
theorem onOutbound {peer : String} {op : Work Outbound → α × Work Outbound} {w : Work Pairs}
    (h : ∀ w : Work Outbound, w.part.Rests (op w).2.part) :
    Quiet barring w.part (onOutbound peer op w).2.part where
  rests other := by
    rw [sending_onOutbound]
    split
    · rename_i hOther
      subst hOther
      exact h (w.withPart (w.part.sending other))
    · exact .refl _
  wanes other := by
    rw [receiving_onOutbound]
    exact .refl _

/-- Work under which a receiving side wanes. -/
theorem onInbound {peer : String} {op : Work Inbound → α × Work Inbound} {w : Work Pairs}
    (h : ∀ w : Work Inbound, Inbound.Wanes (barring peer) w.part (op w).2.part) :
    Quiet barring w.part (onInbound peer op w).2.part where
  rests other := by
    rw [sending_onInbound]
    exact .refl _
  wanes other := by
    rw [receiving_onInbound]
    split
    · rename_i hOther
      subst hOther
      exact h (w.withPart (w.part.receiving other))
    · exact .refl _

/-- Work on a sending side that gains no key there gains none anywhere. -/
theorem onExistingOutbound {peer : String} {otherwise : α}
    {op : Work Outbound → α × Work Outbound} {w : Work Pairs}
    (h : ∀ w : Work Outbound, w.part.Rests (op w).2.part) :
    Quiet barring w.part (onExistingOutbound peer otherwise op w).2.part := by
  unfold Pairs.onExistingOutbound
  split
  · exact .onOutbound h
  · exact .refl _

/-- Work on a receiving side that gains no key there gains none anywhere. -/
theorem onExistingInbound {peer : String} {otherwise : α}
    {op : Work Inbound → α × Work Inbound} {w : Work Pairs}
    (h : ∀ w : Work Inbound, Inbound.Wanes (barring peer) w.part (op w).2.part) :
    Quiet barring w.part (onExistingInbound peer otherwise op w).2.part := by
  unfold Pairs.onExistingInbound
  split
  · exact .onInbound h
  · exact .refl _

/-- Work of several steps, each of them quiet. -/
theorem foldl {β σ : Type} (part : σ → Pairs) {op : σ → β → σ}
    (h : ∀ x b, Quiet barring (part x) (part (op x b))) (l : List β) (x : σ) :
    Quiet barring (part x) (part (l.foldl op x)) := by
  induction l generalizing x with
  | nil => exact .refl _
  | cons b rest ih => exact (h x b).trans (ih (op x b))

end Quiet

variable (s : Setting)

theorem quiet_request (peer : String) (w : Work Pairs) :
    Quiet (fun _ => False) w.part (request s peer w).2.part :=
  .onOutbound fun w => Outbound.rests_request s.now w.part

/-- Giving up an establishment gains no key. -/
theorem quiet_checkEstablishment (peer : String) (w : Work Pairs) :
    Quiet (fun _ => False) w.part (checkEstablishment s peer w).2.part := by
  refine .onExistingOutbound fun w => ?_
  split
  · exact Outbound.rests_timeOut s peer w
  · exact .refl _

/-- A rotation ends a session and gains no key. -/
theorem quiet_rotate (peer : String) (w : Work Pairs) :
    Quiet (fun _ => False) w.part (rotate s peer w).2.part :=
  .onExistingOutbound fun w => Outbound.rests_expireCurrent s w

/-- Revoking a peer takes its sessions from both sides and bars them. -/
theorem quiet_revoke (peer : String) (w : Work Pairs) :
    Quiet (· = peer) w.part (revoke s peer w).2.part := by
  unfold revoke
  rw [Work.part_retireAll]
  refine .trans (.onOutbound fun w => .barred w.part) (.onInbound fun w => ?_)
  exact ⟨rfl, fun _ _ h => (nomatch h), fun _ => .inr rfl⟩

/-- Dropping the sessions with a peer gains no key. -/
theorem quiet_retire (reason peer : String) (w : Work Pairs) :
    Quiet (fun _ => False) w.part (retire s reason peer w).2.part := by
  unfold retire
  rw [Work.part_retireAll]
  exact .trans (.onExistingOutbound fun w => .cleared w.part)
    (.onExistingInbound fun w => .cleared w.part)

/-- Closing gains no key. -/
theorem quiet_shutdown (w : Work Pairs) :
    Quiet (fun _ => False) w.part (shutdown s w).2.part :=
  .foldl (fun x : Nat × Work Pairs => x.2.part)
    (fun x peer => by exact quiet_retire s "shutdown" peer x.2) w.part.peers (0, w)

-- ---------------------------------------------------------------------------
-- Sweeps
-- ---------------------------------------------------------------------------

/-- What is due for a session that sends begins none. -/
theorem rests_applyOutbound (id : SessionId) (action : Rotation.DueAction) (w : Work Outbound) :
    w.part.Rests (applyOutbound s id action w).2.part := by
  unfold applyOutbound
  split
  · split
    · exact Outbound.rests_rotate ..
    · exact .refl _
  · split
    · exact ⟨rfl, fun _ h => h⟩
    · exact .refl _

/-- What is due for a session that receives begins none. -/
theorem wanes_applyInbound (id : SessionId) (action : Rotation.DueAction) (w : Work Inbound) :
    Inbound.Wanes False w.part (applyInbound s id action w).2.part := by
  unfold applyInbound
  split
  · exact Inbound.wanes_expire ..
  · split
    · exact .erase w.part id.epoch
    · exact .refl _

/-- What is due is done to the sessions of one direction. The deadline of a session that is gone is
forgotten, and everything else is left as it is. -/
theorem applyDue_cases (r : SweepReport) (w : Work Pairs) (id : SessionId)
    (action : Rotation.DueAction) :
    ∃ w', (id.direction = .outbound ∧
          w' = (onExistingOutbound id.peer false (applyOutbound s id action) w).2 ∨
        id.direction = .inbound ∧
          w' = (onExistingInbound id.peer false (applyInbound s id action) w).2) ∧
      ((applyDue s r w id action).2 = w' ∨
        (applyDue s r w id action).2 = { w' with deadlines := w'.deadlines.remove id }) := by
  unfold applyDue
  cases id.direction with
  | outbound =>
    refine ⟨_, .inl ⟨rfl, rfl⟩, ?_⟩
    dsimp only
    split
    · exact .inl rfl
    · exact .inl rfl
    · exact .inr rfl
  | inbound =>
    refine ⟨_, .inr ⟨rfl, rfl⟩, ?_⟩
    dsimp only
    split
    · exact .inl rfl
    · exact .inl rfl
    · exact .inr rfl

/-- What is due for a session gains no key. -/
theorem quiet_applyDue (r : SweepReport) (w : Work Pairs) (id : SessionId)
    (action : Rotation.DueAction) :
    Quiet (fun _ => False) w.part (applyDue s r w id action).2.part := by
  obtain ⟨w', hDone, hResult⟩ := applyDue_cases s r w id action
  have hQuiet : Quiet (fun _ => False) w.part w'.part := by
    rcases hDone with ⟨-, rfl⟩ | ⟨-, rfl⟩
    · exact .onExistingOutbound fun w => rests_applyOutbound s id action w
    · exact .onExistingInbound fun w => wanes_applyInbound s id action w
  -- a forgotten deadline touches no side
  rcases hResult with hSame | hForgotten
  · rw [hSame]
    exact hQuiet
  · rw [hForgotten]
    exact hQuiet

/-- A sweep of establishments gains no key. -/
theorem quiet_sweepEstablishment (r : SweepReport) (w : Work Pairs) (peer : String) :
    Quiet (fun _ => False) w.part (sweepEstablishment s r w peer).2.part := by
  have hCheck := quiet_checkEstablishment s peer w
  unfold sweepEstablishment
  split <;> simpa only [‹checkEstablishment s peer w = _›] using hCheck

/-- A whole sweep gains no key. -/
theorem quiet_sweep (w : Work Pairs) : Quiet (fun _ => False) w.part (sweep s w).2.part := by
  unfold sweep
  exact .trans
    (.foldl (fun x : SweepReport × Work Pairs => x.2.part)
      (fun x d => quiet_applyDue s x.1 x.2 d.1 d.2) (w.deadlines.due s.now) (⟨0, 0, 0⟩, w))
    (.foldl (fun x : SweepReport × Work Pairs => x.2.part)
      (fun x peer => quiet_sweepEstablishment s x.1 x.2 peer) _ _)

-- ---------------------------------------------------------------------------
-- Messages
-- ---------------------------------------------------------------------------

variable (P : Primitives)

/-- A message works on the sending side of its peer and leaves all others. -/
theorem sending_encrypt (peer : Peer) (level : Level) (plaintext : Bytes) (w : Work Pairs)
    (other : String) :
    (encrypt P s peer level plaintext w).2.part.sending other =
      if other = peer.deviceId then
        (Outbound.encrypt P s peer level plaintext
          (w.withPart (w.part.sending peer.deviceId))).2.part
      else w.part.sending other :=
  sending_onOutbound ..

theorem receiving_encrypt (peer : Peer) (level : Level) (plaintext : Bytes) (w : Work Pairs)
    (other : String) :
    (encrypt P s peer level plaintext w).2.part.receiving other = w.part.receiving other := rfl

theorem sending_decrypt (sender : Peer) (e : Envelope) (w : Work Pairs) (other : String) :
    (decrypt P s sender e w).2.part.sending other = w.part.sending other := rfl

/-- An envelope works on the receiving side of its sender and leaves all others. -/
theorem receiving_decrypt (sender : Peer) (e : Envelope) (w : Work Pairs) (other : String) :
    (decrypt P s sender e w).2.part.receiving other =
      if other = sender.deviceId then
        (Inbound.decrypt P s sender e (w.withPart (w.part.receiving sender.deviceId))).2.part
      else w.part.receiving other :=
  receiving_onInbound ..

variable {P s}

/-- **A message to a peer** takes a key from its side or leaves this resting, and leaves all
others. -/
theorem encrypt_cases {peer : Peer} {level : Level} {plaintext : Bytes} {w w' : Work Pairs}
    {made : Except Failure Envelope} (h : encrypt P s peer level plaintext w = (made, w')) :
    (∀ other, other ≠ peer.deviceId → w'.part.sending other = w.part.sending other) ∧
      ((∃ failure, made = .error failure ∧
          (w.part.sending peer.deviceId).Rests (w'.part.sending peer.deviceId)) ∨
        ∃ e, made = .ok e ∧
          Outbound.Makes P s peer level plaintext (w.part.sending peer.deviceId) e
            (w'.part.sending peer.deviceId)) := by
  have hSide (other : String) := sending_encrypt s P peer level plaintext w other
  rw [h] at hSide
  let v := w.withPart (w.part.sending peer.deviceId)
  have hMade : (Outbound.encrypt P s peer level plaintext v).1 = made := congrArg Prod.fst h
  have hOwn : w'.part.sending peer.deviceId =
      (Outbound.encrypt P s peer level plaintext v).2.part :=
    (hSide _).trans (if_pos rfl)
  refine ⟨fun other hOther => (hSide other).trans (if_neg hOther), ?_⟩
  rw [hOwn, ← hMade]
  rcases Outbound.encrypt_cases (Outbound.encrypt P s peer level plaintext v).eta.symm with
    ⟨failure, hFailed, hRests⟩ | ⟨e, hOk, -, hMakes⟩
  · exact .inl ⟨failure, hFailed, hRests⟩
  · exact .inr ⟨e, hOk, hMakes⟩

/-- **A message of a peer** is accepted by its side or makes this wane, and leaves all others. -/
theorem decrypt_cases {sender : Peer} {e : Envelope} {w w' : Work Pairs}
    {opened : Except Failure Bytes} (h : decrypt P s sender e w = (opened, w')) :
    (∀ other, other ≠ sender.deviceId → w'.part.receiving other = w.part.receiving other) ∧
      ((∃ failure, opened = .error failure ∧
          Inbound.Wanes False (w.part.receiving sender.deviceId)
            (w'.part.receiving sender.deviceId)) ∨
        ∃ plaintext, opened = .ok plaintext ∧
          (w.part.receiving sender.deviceId).isRevoked = false ∧
          Inbound.Accepts P s sender e plaintext (w.part.receiving sender.deviceId)
            (w'.part.receiving sender.deviceId)) := by
  have hSide (other : String) := receiving_decrypt s P sender e w other
  rw [h] at hSide
  let v := w.withPart (w.part.receiving sender.deviceId)
  have hOpened : (Inbound.decrypt P s sender e v).1 = opened := congrArg Prod.fst h
  have hOwn : w'.part.receiving sender.deviceId = (Inbound.decrypt P s sender e v).2.part :=
    (hSide _).trans (if_pos rfl)
  refine ⟨fun other hOther => (hSide other).trans (if_neg hOther), ?_⟩
  rw [hOwn, ← hOpened]
  exact Inbound.decrypt_cases (Inbound.decrypt P s sender e v).eta.symm

-- ---------------------------------------------------------------------------
-- Epoch counters
-- ---------------------------------------------------------------------------

/-- Raising the counter of a peer reaches the counter of its sending side only. -/
theorem sending_raiseCounter (p : Pairs) (peer : String) (next : UInt64) (other : String) :
    (p.raiseCounter peer next).sending other =
      if other = peer then
        { p.sending peer with nextEpoch := max (p.sending peer).nextEpoch next }
      else p.sending other := by
  simp only [raiseCounter, sending, outbound?, Table.get?_insert]
  split <;> rfl

/-- Counters that are restored say nothing of what receives. -/
theorem receiving_raiseCounters (p : Pairs) (counters : Table String UInt64) (other : String) :
    (p.raiseCounters counters).receiving other = p.receiving other := by
  unfold raiseCounters
  induction counters.toList generalizing p with
  | nil => rfl
  | cons e rest ih =>
    rw [List.foldl_cons, ih]
    rfl

-- ---------------------------------------------------------------------------
-- Operations that handle no message
-- ---------------------------------------------------------------------------

/-- The operations on sessions that handle no message. A peer is revoked only if `barring` holds for
it, and all sessions are dropped only if `closing` holds. -/
inductive Calm (s : Setting) (barring : String → Prop) (closing : Prop) (w : Work Pairs) :
    Work Pairs → Prop where
  | nothing : Calm s barring closing w w
  | request (peer : String) : Calm s barring closing w (request s peer w).2
  | checkEstablishment (peer : String) : Calm s barring closing w (checkEstablishment s peer w).2
  | rotate (peer : String) : Calm s barring closing w (rotate s peer w).2
  | shutdown (h : closing) : Calm s barring closing w (shutdown s w).2
  | sweep : Calm s barring closing w (sweep s w).2
  | revoke (peer : String) (h : barring peer) : Calm s barring closing w (revoke s peer w).2

/-- **No side gains a key** by an operation that handles no message. -/
theorem Calm.quiet {s : Setting} {barring : String → Prop} {closing : Prop} {w w' : Work Pairs}
    (h : Calm s barring closing w w') : Quiet barring w.part w'.part := by
  have hMild {p p' : Pairs} (h : Quiet (fun _ => False) p p') : Quiet barring p p' :=
    ⟨h.rests, fun peer => (h.wanes peer).mono False.elim⟩
  cases h with
  | nothing => exact .refl _
  | request peer => exact hMild (quiet_request s peer w)
  | checkEstablishment peer => exact hMild (quiet_checkEstablishment s peer w)
  | rotate peer => exact hMild (quiet_rotate s peer w)
  | shutdown _ => exact hMild (quiet_shutdown s w)
  | sweep => exact hMild (quiet_sweep s w)
  | revoke peer hBarring =>
    have hRevoke := quiet_revoke s peer w
    refine ⟨hRevoke.rests, fun other => (hRevoke.wanes other).mono ?_⟩
    rintro rfl
    exact hBarring

end EndToEnd.Pairs
