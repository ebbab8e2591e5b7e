import EndToEnd.Proofs.SessionAccounts
import EndToEnd.Proofs.Unswept

/-!
# Establishments

An establishment that was asked for is waited for until a session begins or its sessions are dropped.
If it was asked for too long ago, the next sweep gives it up, and so does a message to the peer that
looks for it, and this is put on record. A message looks for it if the peer is unknown, or if nothing
keeps the message from being encrypted (`Device.carries`).

Main results:

* `Pairs.tells_sweep`, `Device.givesUp_step` — the establishments that are given up, as they are put
  on record.
* `Device.timeouts_gained` — the entries that say so: at most one for each peer, and only for those
  whose establishment is overdue.
* `Device.requestedAt_step` — since when an establishment is waited for, behind any operation.
-/

namespace EndToEnd

-- ---------------------------------------------------------------------------
-- Events
-- ---------------------------------------------------------------------------

namespace Audit

/-- Whether an event says that the establishment with a peer was given up. -/
def Event.givesUp (own peer : String) (event : Event) : Bool :=
  event.kind.isTimeout && event.devices = [own, peer]

/-- What some events say of establishments: each that is given up is one of a pair, and there are so
many with each peer. -/
structure GiveUps (own : String) (times : String → Nat) (events : List Event) : Prop where
  named : ∀ event ∈ events, event.kind.isTimeout = true → ∃ peer, event.devices = [own, peer]
  counted : ∀ peer, events.countP (·.givesUp own peer) = times peer

namespace GiveUps

variable {own : String} {times more : String → Nat} {events later : List Event}

/-- Events of two stretches give up what each of them does. -/
theorem append (h : GiveUps own times events) (h' : GiveUps own more later) :
    GiveUps own (fun peer => times peer + more peer) (events ++ later) := by
  refine ⟨fun event hEvent => ?_, fun peer => ?_⟩
  · exact (List.mem_append.1 hEvent).elim (h.named event) (h'.named event)
  · rw [List.countP_append, h.counted, h'.counted]

/-- Events that say nothing of establishments. -/
theorem of_none (h : ∀ event ∈ events, event.kind.isTimeout = false) :
    GiveUps own (fun _ => 0) events := by
  refine ⟨fun event hEvent hTimeout => ?_, fun peer => List.countP_eq_zero.2 fun event hEvent => ?_⟩
  · exact absurd ((h event hEvent).symm.trans hTimeout) Bool.false_ne_true
  · simp [Event.givesUp, h event hEvent]

/-- One that is given up. -/
theorem one {event : Event} {peer : String} (hKind : event.kind.isTimeout = true)
    (hDevices : event.devices = [own, peer]) :
    GiveUps own (fun other => if other = peer then 1 else 0) [event] := by
  refine ⟨fun other hOther _ => ?_, fun other => ?_⟩
  · rw [List.mem_singleton.1 hOther]
    exact ⟨peer, hDevices⟩
  · simp [Event.givesUp, hKind, hDevices, List.countP_cons, eq_comm]

end GiveUps

end Audit

-- ---------------------------------------------------------------------------
-- Work
-- ---------------------------------------------------------------------------

namespace Work

variable {ρ σ τ : Type} {own : String} {times more : String → Nat} {w : Work ρ} {w' : Work σ}
  {w'' : Work τ}

/-- Work that has so many establishments to give up with each peer. -/
def Tells (own : String) (times : String → Nat) (w : Work ρ) (w' : Work σ) : Prop :=
  ∃ told, w'.events = w.events ++ told ∧ Audit.GiveUps own times told

/-- Work that puts no such event on record gives nothing up. -/
theorem Tells.of_logs (h : Logs (fun event => event.kind.isTimeout = false) w w') :
    Tells own (fun _ => 0) w w' := by
  obtain ⟨told, hTold, hNone⟩ := h
  exact ⟨told, hTold, .of_none hNone⟩

theorem Tells.of_eq (h : w'.events = w.events) : Tells own (fun _ => 0) w w' := .of_logs (.of_eq h)

/-- What is given up in two pieces of work is counted together. -/
theorem Tells.trans (h : Tells own times w w') (h' : Tells own more w' w'') :
    Tells own (fun peer => times peer + more peer) w w'' := by
  obtain ⟨told, hTold, hTimes⟩ := h
  obtain ⟨told', hTold', hMore⟩ := h'
  exact ⟨told ++ told', by rw [hTold', hTold, List.append_assoc], hTimes.append hMore⟩

/-- Only the counts matter. -/
theorem Tells.congr (h : Tells own times w w') (hTimes : ∀ peer, more peer = times peer) :
    Tells own more w w' := by
  rwa [funext hTimes]

/-- Dropping sessions gives nothing up. -/
theorem silent_retireAll (s : Setting) (reason : String) (w : Work σ) (sessions : List Session) :
    Logs (fun event => event.kind.isTimeout = false) w (retireAll s reason w sessions) :=
  (logs_retireAll s reason w sessions).mono fun event h => by rw [h]; rfl

end Work

namespace Outbound

variable {P : Primitives} (s : Setting)

/-- Giving up the establishment with a peer says so of this peer, once. -/
theorem tells_timeOut (peer : String) (w : Work Outbound) :
    Work.Tells s.own.deviceId (fun other => if other = peer then 1 else 0) w (timeOut s peer w) :=
  ⟨[_], rfl, .one rfl rfl⟩

/-- The look at an establishment. -/
theorem tells_check (peer : String) (w : Work Outbound) :
    Work.Tells s.own.deviceId
      (fun other => if other = peer ∧ w.part.hasTimedOut s = true then 1 else 0) w
      (if w.part.hasTimedOut s then
        ((.error (.establishmentTimeout peer) : Except Failure Unit), timeOut s peer w)
      else (.ok (), w)).2 := by
  cases hLate : w.part.hasTimedOut s with
  | true => exact (tells_timeOut s peer w).congr fun other => by simp
  | false => exact (Work.Tells.of_eq rfl).congr fun other => by simp

/-- A rotation gives nothing up. -/
theorem silent_rotate (peer : String) (reason : Rotation.Reason) (w : Work Outbound) :
    Work.Logs (fun event => event.kind.isTimeout = false) w (rotate s peer reason w).2 := by
  unfold rotate expireCurrent
  cases w.part.current with
  | none => exact .of_eq rfl
  | some session => exact .one rfl rfl

/-- **A message gives up the establishment** that it finds overdue, unless the side is barred. -/
theorem tells_encrypt (peer : Peer) (level : Level) (plaintext : Bytes) (w : Work Outbound) :
    Work.Tells s.own.deviceId
      (fun other => if other = peer.deviceId ∧ w.part.isRevoked = false ∧ w.part.hasTimedOut s = true
        then 1 else 0) w (encrypt P s peer level plaintext w).2 := by
  unfold encrypt
  cases hBarred : w.part.isRevoked with
  | true => exact (Work.Tells.of_eq rfl).congr fun other => if_neg (by simp)
  | false =>
    rw [if_neg Bool.false_ne_true]
    cases hLate : w.part.hasTimedOut s with
    | true => exact (tells_timeOut s peer.deviceId w).congr fun other => by simp
    | false =>
      rw [if_neg Bool.false_ne_true]
      -- in all other cases the log is told of sessions, and of no timeout
      suffices hNothing : Work.Tells s.own.deviceId (fun _ => 0) w _ from
        hNothing.congr fun other => by simp
      have hTurned : Work.Logs (fun event => event.kind.isTimeout = false) w
          (rotateIfDue s peer.deviceId level w) := by
        unfold rotateIfDue
        split
        · exact silent_rotate ..
        · exact .of_eq rfl
      have hReady : Work.Logs (fun event => event.kind.isTimeout = false) w
          (ready P s peer level (rotateIfDue s peer.deviceId level w)).2 :=
        hTurned.trans ((logs_ready s peer level _).mono fun event hSession =>
          (Audit.Kind.other_of_isSession hSession).2)
      refine .of_logs ?_
      generalize ready P s peer level (rotateIfDue s peer.deviceId level w) = found at hReady ⊢
      obtain ⟨result, w₁⟩ := found
      cases result with
      | error failure => exact hReady
      | ok session =>
        dsimp only
        split
        · exact hReady
        · exact hReady.trans (.of_eq rfl)

/-- Behind a message that reaches encryption nothing is waited for. -/
theorem requestedAt_encrypt {own : String} {id : String} {may : Prop} {w : Work Outbound}
    (h : Settled own id may w) (hOpen : w.part.isRevoked = false) (peer : Peer) (level : Level)
    (plaintext : Bytes) : (encrypt P s peer level plaintext w).2.part.requestedAt = none := by
  unfold encrypt
  rw [hOpen, if_neg Bool.false_ne_true]
  split
  · rfl
  have hAsked := (random_rotateIfDue s peer.deviceId level w).2
  have hReady : (ready P s peer level
      (rotateIfDue s peer.deviceId level w)).2.part.requestedAt = none := by
    unfold ready
    split
    · -- a session that is left was there before
      rename_i session hSession
      rw [current_rotateIfDue] at hSession
      rw [hAsked]
      exact h.requestedAt_eq_none (Option.isSome_of_eq_some (Option.filter_eq_some_iff.1 hSession).1)
    · generalize rotateIfDue s peer.deviceId level w = w₁
      rcases hBegun : establish P s peer level w₁ with ⟨result, w₂⟩
      rcases establish_cases hBegun with ⟨_, -, hPart⟩ | ⟨_, -, -, hPart⟩ <;> rw [hPart]
  generalize ready P s peer level (rotateIfDue s peer.deviceId level w) = found at hReady ⊢
  obtain ⟨result, w₁⟩ := found
  cases result with
  | error failure => exact hReady
  | ok session =>
    dsimp only
    split <;> exact hReady

end Outbound

-- ---------------------------------------------------------------------------
-- Pairs
-- ---------------------------------------------------------------------------

namespace Pairs

variable {α : Type} {own : String} {may : String → Prop} {w : Work Pairs} (s : Setting)

/-- Work on a side that may not be there. -/
theorem silent_onExistingOutbound {peer : String} {otherwise : α}
    {op : Work Outbound → α × Work Outbound}
    (h : ∀ w : Work Outbound, Work.Logs (fun event => event.kind.isTimeout = false) w (op w).2) :
    Work.Logs (fun event => event.kind.isTimeout = false) w
      (onExistingOutbound peer otherwise op w).2 := by
  unfold onExistingOutbound
  split
  · exact h (w.withPart (w.part.sending peer))
  · exact .of_eq rfl

/-- Work on a receiving side gives nothing up if it does not do so there. -/
theorem silent_onExistingInbound {peer : String} {otherwise : α}
    {op : Work Inbound → α × Work Inbound}
    (h : ∀ w : Work Inbound, Work.Logs (fun event => event.kind.isTimeout = false) w (op w).2) :
    Work.Logs (fun event => event.kind.isTimeout = false) w
      (onExistingInbound peer otherwise op w).2 := by
  unfold onExistingInbound
  split
  · exact h (w.withPart (w.part.receiving peer))
  · exact .of_eq rfl

theorem silent_rotate (peer : String) (w : Work Pairs) :
    Work.Logs (fun event => event.kind.isTimeout = false) w (rotate s peer w).2 :=
  silent_onExistingOutbound fun w => .of_eq (Outbound.events_expireCurrent s w)

/-- A revocation drops what is waited for without giving it up. -/
theorem silent_revoke (peer : String) (w : Work Pairs) :
    Work.Logs (fun event => event.kind.isTimeout = false) w (revoke s peer w).2 :=
  Work.Logs.trans (.of_eq rfl) (Work.silent_retireAll s "peer revoked" _ _)

/-- Dropping the sessions with a peer gives nothing up. -/
theorem silent_retire (reason peer : String) (w : Work Pairs) :
    Work.Logs (fun event => event.kind.isTimeout = false) w (retire s reason peer w).2 :=
  Work.Logs.trans
    (.trans (silent_onExistingOutbound fun _ => .of_eq rfl)
      (silent_onExistingInbound fun _ => .of_eq rfl))
    (Work.silent_retireAll s reason _ _)

/-- Closing drops what is waited for without giving it up. -/
theorem silent_shutdown (w : Work Pairs) :
    Work.Logs (fun event => event.kind.isTimeout = false) w (shutdown s w).2 :=
  List.foldlRecOn
    (motive := fun x : Nat × Work Pairs =>
      Work.Logs (fun event => event.kind.isTimeout = false) w x.2)
    w.part.peers _ (.of_eq rfl) fun x hx peer _ => hx.trans (silent_retire s "shutdown" peer x.2)

/-- What is due for a session gives nothing up. -/
theorem silent_applyDue (r : SweepReport) (w : Work Pairs) (id : SessionId)
    (action : Rotation.DueAction) :
    Work.Logs (fun event => event.kind.isTimeout = false) w (applyDue s r w id action).2 := by
  -- a turn ends or drops a session, or forgets an entry that is of no session
  obtain ⟨w', hDone, hResult⟩ := applyDue_cases s r w id action
  have hSilent : Work.Logs (fun event => event.kind.isTimeout = false) w w' := by
    rcases hDone with ⟨-, rfl⟩ | ⟨-, rfl⟩
    · refine silent_onExistingOutbound fun w => ?_
      unfold applyOutbound
      split
      · split
        · exact Outbound.silent_rotate ..
        · exact .of_eq rfl
      · split
        · exact .one rfl rfl
        · exact .of_eq rfl
    · refine silent_onExistingInbound fun w => ?_
      unfold applyInbound
      split
      · exact .of_eq (Inbound.events_expire ..)
      · split
        · exact .one rfl rfl
        · exact .of_eq rfl
  rcases hResult with hSame | hForgotten
  · rwa [hSame]
  · rw [hForgotten]
    exact hSilent.trans (.of_eq rfl)

/-- **The look at one establishment** gives it up if it is overdue. -/
theorem tells_checkEstablishment (peer : String) (w : Work Pairs) :
    Work.Tells s.own.deviceId
      (fun other => if other = peer ∧ (w.part.sending peer).hasTimedOut s = true then 1 else 0) w
      (checkEstablishment s peer w).2 := by
  unfold checkEstablishment onExistingOutbound
  split
  · exact Outbound.tells_check s peer (w.withPart (w.part.sending peer))
  · rename_i hNone
    refine (Work.Tells.of_eq rfl).congr fun other => if_neg ?_
    unfold sending
    rw [Option.not_isSome_iff_eq_none.1 hNone]
    simp [Outbound.hasTimedOut, Outbound.initial]

/-- A sweep gives up the establishment with one peer if it is overdue. -/
theorem tells_sweepEstablishment (r : SweepReport) (w : Work Pairs) (peer : String) :
    Work.Tells s.own.deviceId
      (fun other => if other = peer ∧ (w.part.sending peer).hasTimedOut s = true then 1 else 0) w
      (sweepEstablishment s r w peer).2 := by
  rw [snd_sweepEstablishment]
  exact tells_checkEstablishment s peer w

/-- **The look at all establishments** gives up those that are overdue. -/
theorem tells_checks {peers : List String} (hDistinct : peers.Nodup)
    (x : SweepReport × Work Pairs) :
    Work.Tells s.own.deviceId
      (fun peer => if peer ∈ peers ∧ (x.2.part.sending peer).hasTimedOut s = true then 1 else 0) x.2
      (peers.foldl (fun (r, w) peer => sweepEstablishment s r w peer) x).2 := by
  induction peers generalizing x with
  | nil => exact (Work.Tells.of_eq rfl).congr fun peer => by simp
  | cons first rest ih =>
    obtain ⟨hFirst, hRest⟩ := List.nodup_cons.1 hDistinct
    refine Work.Tells.congr ((tells_sweepEstablishment s x.1 x.2 first).trans (ih hRest _))
      fun peer => ?_
    obtain ⟨-, hSides, -⟩ := sweepEstablishment_eq s x.1 x.2 first
    by_cases hPeer : peer = first
    · subst hPeer
      simp [hFirst]
    · -- the others are found as they were before
      have hSame : (sweepEstablishment s x.1 x.2 first).2.part.sending peer =
          x.2.part.sending peer := by
        unfold sending outbound?
        rw [hSides, if_neg hPeer]
      rw [hSame]
      simp [hPeer]

/-- A change that is made to every sending side, and none to an initial one, is made to that of any
peer. -/
theorem sending_turned {p p' : Pairs} {f : Outbound → Outbound} (hInitial : f .initial = .initial)
    (h : p'.outbound = p.outbound.mapValues f) (peer : String) :
    p'.sending peer = f (p.sending peer) := by
  unfold sending outbound?
  rw [h, Table.get?_mapValues]
  cases p.outbound.get? peer with
  | none => exact hInitial.symm
  | some o => rfl

/-- A sweep of all sending sides sweeps that of each peer. -/
theorem sending_swept (p : Pairs) (c : Config) (now : UInt64) (peer : String) :
    (p.swept c now).sending peer = (p.sending peer).swept c now := by
  refine sending_turned ?_ rfl peer
  unfold Outbound.swept
  rw [Outbound.sweptBy_eq_self fun _ hMem => absurd hMem List.not_mem_nil]
  rfl

/-- **A sweep gives up** the establishments that are overdue, and no others. -/
theorem tells_sweep (hSettled : Settled own may w) (h : Dated s.config.rotation w) :
    Work.Tells s.own.deviceId
      (fun peer =>
        if (w.part.sending peer).isOverdue s.config.establishmentTimeout s.now = true then 1 else 0) w
      (sweep s w).2 := by
  let turned := (w.deadlines.due s.now).foldl (fun (r, w) d => applyDue s r w d.1 d.2)
    ((⟨0, 0, 0⟩ : SweepReport), w)
  -- what is due for sessions gives nothing up; then each side is looked at once
  have hTurns : Work.Logs (fun event => event.kind.isTimeout = false) w turned.2 :=
    List.foldlRecOn
      (motive := fun x : SweepReport × Work Pairs =>
        Work.Logs (fun event => event.kind.isTimeout = false) w x.2)
      (w.deadlines.due s.now) _ (.of_eq rfl)
      fun x hx d _ => hx.trans (silent_applyDue s x.1 x.2 d.1 d.2)
  obtain ⟨-, hPart, -⟩ := turns_due_eq (s := s) hSettled h
  have hPart : turned.2.part.outbound = w.part.outbound.mapValues
      (·.sweptBy s.grace (·.hasAged s.config.rotation s.now) (·.hasLapsed s.now)) :=
    congrArg Pairs.outbound hPart
  have hDistinct : turned.2.part.outbound.keys.Nodup :=
    List.pairwise_map.2 turned.2.part.outbound.pairwise_ne
  refine Work.Tells.congr ((Work.Tells.of_logs hTurns).trans (tells_checks s hDistinct turned))
    fun peer => ?_
  -- nor does it make an establishment late, or keep one from being so
  have hLate : (turned.2.part.sending peer).hasTimedOut s =
      (w.part.sending peer).isOverdue s.config.establishmentTimeout s.now := by
    rw [sending_turned (Outbound.sweptBy_eq_self fun _ hMem => absurd hMem List.not_mem_nil) hPart]
    exact (Outbound.checked_sweptBy (hSettled.sending peer)).2
  -- a side that is not formed waits for nothing
  have hFormed : (w.part.sending peer).isOverdue s.config.establishmentTimeout s.now = true →
      peer ∈ turned.2.part.outbound.keys := by
    intro hOverdue
    rw [hPart]
    unfold sending outbound? at hOverdue
    cases hSide : w.part.outbound.get? peer with
    | none =>
      rw [hSide] at hOverdue
      cases hOverdue
    | some o =>
      obtain ⟨o', ho'⟩ := Option.isSome_iff_exists.1 (by
        rw [Table.get?_mapValues, hSide]
        rfl : ((w.part.outbound.mapValues (·.sweptBy s.grace (·.hasAged s.config.rotation s.now)
          (·.hasLapsed s.now))).get? peer).isSome = true)
      exact List.mem_map.2 ⟨(peer, o'), Table.mem_toList_iff.2 ho', rfl⟩
  rw [hLate, Nat.zero_add]
  by_cases hOverdue :
      (w.part.sending peer).isOverdue s.config.establishmentTimeout s.now = true
  · simp [hOverdue, hFormed hOverdue]
  · simp [hOverdue]

/-- The state of a pair is asked of its sending side. -/
theorem outboundState_eq (p : Pairs) (peer : String) :
    p.outboundState peer = (p.sending peer).state := by
  unfold outboundState sending
  cases p.outbound? peer <;> rfl

/-- Behind the look at one establishment. -/
theorem requestedAt_checkEstablishment (other : String) (w : Work Pairs) (peer : String) :
    ((checkEstablishment s other w).2.part.sending peer).requestedAt =
      if peer = other ∧ (w.part.sending other).hasTimedOut s = true then none
      else (w.part.sending peer).requestedAt := by
  obtain ⟨-, hSides, -⟩ := sweepEstablishment_eq s ⟨0, 0, 0⟩ w other
  rw [snd_sweepEstablishment] at hSides
  unfold sending outbound?
  rw [hSides]
  by_cases hPeer : peer = other
  · subst hPeer
    rw [if_pos rfl]
    cases w.part.outbound.get? peer with
    | none => simp [Outbound.initial]
    | some o =>
      simp only [Option.map_some, Option.getD_some, Outbound.checked, true_and]
      split <;> rfl
  · simp [hPeer]

end Pairs

-- ---------------------------------------------------------------------------
-- Devices
-- ---------------------------------------------------------------------------

namespace Device

variable {P : Primitives} {d d' d'' : Device} {times more : String → Nat} {may : String → Prop}

/-- The log of a device has grown by entries that give up so many establishments with each peer. -/
def GivesUp (times : String → Nat) (d d' : Device) : Prop :=
  ∃ events, d.audit.Adds events d'.audit ∧ Audit.GiveUps d.id times events

namespace GivesUp

/-- Entries of which none gives anything up. -/
theorem of_notes (h : Notes (fun event => event.kind.isTimeout = false) d d') :
    GivesUp (fun _ => 0) d d' := by
  obtain ⟨events, hAdds, hNone⟩ := h
  exact ⟨events, hAdds, .of_none hNone⟩

theorem congr (h : GivesUp times d d') (hTimes : ∀ peer, more peer = times peer) :
    GivesUp more d d' := by
  rwa [funext hTimes]

/-- What follows gives nothing up. -/
theorem and_then (h : GivesUp times d d')
    (h' : Notes (fun event => event.kind.isTimeout = false) d' d'') : GivesUp times d d'' := by
  obtain ⟨events, hAdds, hTimes⟩ := h
  obtain ⟨events', hAdds', hNone⟩ := h'
  exact ⟨events ++ events', hAdds.trans hAdds', hTimes.append (.of_none hNone)⟩

/-- What work has to give up goes on record. -/
theorem onPairsAt {α : Type} {now : UInt64} {op : Setting → Work Pairs → α × Work Pairs}
    (h : Work.Tells d.id times d.work (op (d.setting now) d.work).2) :
    GivesUp times d (d.onPairsAt P now op).2 := by
  obtain ⟨told, hTold, hTimes⟩ := h
  have hEvents : (op (d.setting now) d.work).2.events = told := hTold
  refine ⟨told, ?_, hTimes⟩
  rw [← hEvents]
  exact Audit.Log.adds_appendAll d.audit _ d.now

end GivesUp

/-- Work that gives nothing up puts nothing of the kind on record. -/
theorem silent_onPairsAt {α : Type} {now : UInt64} {op : Setting → Work Pairs → α × Work Pairs}
    (h : Work.Logs (fun event => event.kind.isTimeout = false) d.work (op (d.setting now) d.work).2) :
    Notes (fun event => event.kind.isTimeout = false) d (d.onPairsAt P now op).2 :=
  notes_onPairsAt h

-- ---------------------------------------------------------------------------
-- What is given up
-- ---------------------------------------------------------------------------

/-- Whether nothing keeps a message to a peer from being encrypted. -/
def carries (d : Device) (peer : String) : Bool :=
  (d.contacts.get? peer).any (fun record => !record.isRevoked &&
    !(record.trust = .unverified && d.config.requireVerification)) &&
    !(d.pairs.sending peer).isRevoked

/-- Whether an operation finds the establishment with a peer overdue. -/
def abandons (d : Device) (op : Operation) (peer : String) : Bool :=
  match op with
  | .maintain now => (d.pairs.sending peer).isOverdue d.config.establishmentTimeout now
  | .send other _ _ => other = peer && ((d.contacts.get? peer).isNone || d.carries peer) &&
      (d.pairs.sending peer).isOverdue d.config.establishmentTimeout d.now
  | _ => false

/-- A message finds an establishment overdue if it is for this peer, and comes as far as looking for
it. -/
theorem abandons_send (other : String) (level : Level) (plaintext : Bytes) (peer : String) :
    d.abandons (.send other level plaintext) peer =
      (other = peer && ((d.contacts.get? peer).isNone || d.carries peer) &&
        (d.pairs.sending peer).isOverdue d.config.establishmentTimeout d.now) := rfl

variable (P) in
/-- **The ways of a message to a peer.** -/
inductive Posting (peer : String) (level : Level) (plaintext : Bytes) (d : Device) :
    Except Failure Bytes × Device → Prop where
  /-- The peer is not on file. -/
  | unknown (unfiled : d.contacts.get? peer = none) :
      Posting peer level plaintext d (d.refuseUnknown P peer)
  /-- Nothing may be written to the peer. -/
  | held {reason : String} {failure : Failure} (filed : (d.contacts.get? peer).isNone = false)
      (held : d.carries peer = false)
      (refused : failure = .peerRevoked peer ∨ failure = .untrustedPeer peer) :
      Posting peer level plaintext d (d.refuseSend P peer reason failure)
  /-- It is up to the sending side of the peer. -/
  | carried {record : Peer} (filed : d.contacts.get? peer = some record)
      (carries : d.carries peer = !(d.pairs.sending peer).isRevoked) :
      Posting peer level plaintext d (d.sendTo P record level plaintext)

/-- **Every message goes one of these ways.** -/
theorem posting_send (peer : String) (level : Level) (plaintext : Bytes) (d : Device) :
    Posting P peer level plaintext d (d.send P peer level plaintext) := by
  unfold send
  cases hRecord : d.contacts.get? peer with
  | none => exact .unknown hRecord
  | some record =>
    have hFiled : (d.contacts.get? peer).isNone = false := by rw [hRecord]; rfl
    dsimp only
    split
    · rename_i hRevoked
      exact .held hFiled (by simp [carries, hRecord, hRevoked]) (.inl rfl)
    split
    · rename_i hUnverified
      exact .held hFiled (by simp [carries, hRecord, hUnverified]) (.inr rfl)
    · rename_i hTrusted hAllowed
      refine .carried hRecord ?_
      rw [Bool.not_eq_true] at hTrusted
      rcases Decidable.not_and_iff_or_not.1 hAllowed with hVerified | hOptional
      · simp [carries, hRecord, hTrusted, hVerified]
      · simp [carries, hRecord, hTrusted, hOptional]

/-- A message that is held looks for no establishment. -/
theorem abandons_of_held {peer : String} (hFiled : (d.contacts.get? peer).isNone = false)
    (hHeld : d.carries peer = false) (level : Level) (plaintext : Bytes) (other : String) :
    d.abandons (.send peer level plaintext) other = false := by
  rw [abandons_send]
  by_cases hOther : peer = other
  · rw [← hOther, hFiled, hHeld]
    simp
  · simp [hOther]

/-- Where no session is kept while an establishment is waited for, one is given up as soon as it is
overdue. -/
theorem hasTimedOut_eq (hSettled : d.Settled may) (now : UInt64) (peer : String) :
    (d.pairs.sending peer).hasTimedOut (d.setting now) =
      (d.pairs.sending peer).isOverdue d.config.establishmentTimeout now := by
  unfold Outbound.hasTimedOut Outbound.isOverdue
  cases hCurrent : (d.pairs.sending peer).current with
  | none => rfl
  | some session =>
    have hNone : (d.pairs.sending peer).requestedAt = none :=
      (hSettled.sending peer).requestedAt_eq_none (Option.isSome_of_eq_some hCurrent)
    rw [hNone]
    rfl

/-- **A message** gives up the establishment with its peer if it looks for it and finds it overdue. -/
theorem givesUp_send (hFiled : d.contacts.Filed) (hSettled : d.Settled may) (peer : String)
    (level : Level) (plaintext : Bytes) :
    GivesUp (fun other => if d.abandons (.send peer level plaintext) other then 1 else 0) d
      (d.send P peer level plaintext).2 := by
  have hLate := hasTimedOut_eq hSettled d.now peer
  have hPosting := posting_send (P := P) peer level plaintext d
  generalize d.send P peer level plaintext = sent at hPosting
  cases hPosting with
  | unknown unfiled =>
    -- nobody is on file, but an establishment is looked for all the same
    have hCheck : GivesUp (fun other =>
        if other = peer ∧ (d.pairs.sending peer).hasTimedOut (d.setting d.now) = true then 1 else 0) d
        (d.onPairs P fun s => Pairs.checkEstablishment s peer).2 :=
      .onPairsAt (Pairs.tells_checkEstablishment (d.setting d.now) peer d.work)
    have hSent : GivesUp (fun other =>
        if other = peer ∧ (d.pairs.sending peer).hasTimedOut (d.setting d.now) = true then 1 else 0) d
        (d.refuseUnknown P peer).2 := by
      unfold refuseUnknown
      split
      · rename_i failure d₁ hChecked
        rwa [hChecked] at hCheck
      · rename_i d₁ hChecked
        rw [hChecked] at hCheck
        exact hCheck.and_then (notes_note _ d₁ rfl)
    refine hSent.congr fun other => ?_
    by_cases hOther : other = peer
    · subst hOther
      simp [abandons_send, unfiled, hLate]
    · simp [abandons_send, hOther, Ne.symm hOther]
  | held filed held =>
    refine GivesUp.congr (.of_notes (notes_note _ d rfl)) fun other => ?_
    rw [abandons_of_held filed held, if_neg Bool.false_ne_true]
  | @carried record filed carries =>
    have hId : record.deviceId = peer := hFiled peer record filed
    -- the message comes to the sending side, which looks for the establishment first
    have hWork : GivesUp (fun other => if other = record.deviceId ∧
        (d.pairs.sending record.deviceId).isRevoked = false ∧
        (d.pairs.sending record.deviceId).hasTimedOut (d.setting d.now) = true then 1 else 0) d
        (d.onPairs P fun s => Pairs.encrypt P s record level plaintext).2 :=
      .onPairsAt (Outbound.tells_encrypt (d.setting d.now) record level plaintext
        (d.work.withPart (d.pairs.sending record.deviceId)))
    have hSent : GivesUp (fun other => if other = record.deviceId ∧
        (d.pairs.sending record.deviceId).isRevoked = false ∧
        (d.pairs.sending record.deviceId).hasTimedOut (d.setting d.now) = true then 1 else 0) d
        (d.sendTo P record level plaintext).2 := by
      unfold sendTo
      split <;> rwa [‹onPairs P _ d = _›] at hWork
    refine hSent.congr fun other => ?_
    rw [hId]
    by_cases hOther : other = peer
    · subst hOther
      simp [abandons_send, filed, carries, hLate]
    · simp [abandons_send, hOther, Ne.symm hOther]

/-- Evidence gives nothing up. -/
theorem silent_applyEvidence (id : String) (evidence : Evidence) (d : Device) :
    Notes (fun event => event.kind.isTimeout = false) d (d.applyEvidence P id evidence).2 := by
  have hVerified : Notes (fun event => event.kind.isTimeout = false) d (d.verify P id evidence).2 :=
    (notes_verify id evidence d).mono fun _ hAside => hAside.2.2
  unfold applyEvidence
  generalize d.verify P id evidence = verified at hVerified
  obtain ⟨verified, d₁⟩ := verified
  dsimp only at hVerified ⊢
  split
  · exact hVerified.trans (silent_onPairsAt (Pairs.silent_revoke (d₁.setting d₁.now) id d₁.work))
  · exact hVerified

/-- A rotation gives nothing up. -/
theorem silent_rotate (peer : String) (d : Device) :
    Notes (fun event => event.kind.isTimeout = false) d (d.rotate P peer).2 := by
  have hWork : Notes (fun event => event.kind.isTimeout = false) d
      (d.onPairs P fun s => Pairs.rotate s peer).2 :=
    silent_onPairsAt (Pairs.silent_rotate (d.setting d.now) peer d.work)
  unfold rotate
  split
  · rename_i d₁ hRotated
    rwa [hRotated] at hWork
  · rename_i epoch d₁ hRotated
    rw [hRotated] at hWork
    have hRecord := hWork.trans (notes_record (P := P) ⟨.forcedRotation, [d₁.id, peer], .success,
      s!"epoch {epoch.toNat} ({Rotation.Reason.forced.text})"⟩ d₁ rfl)
    split <;> simpa only [‹record P _ d₁ = _›] using hRecord

/-- **The establishments that an operation gives up** are put on record, one entry for each. -/
theorem givesUp_step (hFiled : d.contacts.Filed) (hSettled : d.Settled may) (hDated : d.Dated)
    {op : Operation} (hKeeps : op ≠ .sweepAudit) :
    GivesUp (fun peer => if d.abandons op peer then 1 else 0) d (d.step P op).2 := by
  -- an operation that gives nothing up
  have hNone (hNever : ∀ peer, d.abandons op peer = false)
      (h : Notes (fun event => event.kind.isTimeout = false) d (d.step P op).2) :
      GivesUp (fun peer => if d.abandons op peer then 1 else 0) d (d.step P op).2 :=
    (GivesUp.of_notes h).congr fun peer => by rw [hNever, if_neg Bool.false_ne_true]
  have hAside (hNever : ∀ peer, d.abandons op peer = false) (h : Notes IsAside d (d.step P op).2) :=
    hNone hNever (h.mono fun _ hAside => hAside.2.2)
  -- only a message and a sweep look for what is overdue
  cases op with
  | send peer level plaintext => exact givesUp_send hFiled hSettled peer level plaintext
  | maintain now =>
    exact GivesUp.onPairsAt (Pairs.tells_sweep (d.setting now) hSettled hDated)
  | receive bytes =>
    refine hNone (fun _ => rfl) ?_
    exact (notes_receive (P := P) bytes d).mono fun _ hBoth => hBoth.2
  | remember id keys => exact hAside (fun _ => rfl) (notes_remember id keys d)
  | importBundle text => exact hAside (fun _ => rfl) (notes_importBundle text d)
  | verify id evidence => exact hNone (fun _ => rfl) (silent_applyEvidence id evidence d)
  | revoke id reason => exact hNone (fun _ => rfl) (silent_applyEvidence id (.revocation reason) d)
  | crossSignPeer id =>
    refine hNone (fun _ => rfl) ?_
    show Notes _ d (d.crossSignPeer P id).2
    unfold crossSignPeer
    split
    · exact .of_eq rfl
    · exact silent_applyEvidence ..
  | rotate peer =>
    exact hNone (fun _ => rfl) (silent_rotate peer d)
  | request peer =>
    refine hNone (fun _ => rfl) ?_
    show Notes _ d (d.onPairs P fun s => Pairs.request s peer).2
    exact silent_onPairsAt (.of_eq rfl)
  | shutdown =>
    refine hNone (fun _ => rfl) ?_
    show Notes _ d (d.shutdown P).2
    rw [shutdown_eq]
    exact (silent_onPairsAt (Pairs.silent_shutdown (d.setting d.now) d.work)).trans
      (notes_flushAudit _)
  | flushAudit => exact hNone (fun _ => rfl) (notes_flushAudit d)
  | sweepAudit => exact absurd rfl hKeeps
  | save store passphrase => exact hAside (fun _ => rfl) (notes_save store passphrase d)
  | addRoot | setClock => exact hNone (fun _ => rfl) (.of_eq rfl)
  | setSink isFull => exact hNone (fun _ => rfl) ⟨[], .of_eq rfl, nofun⟩

/-- **Entries about establishments** that an operation puts on record: one for each pair whose
establishment it gives up. -/
theorem timeouts_gained (hFiled : d.contacts.Filed) (hSettled : d.Settled may) (hDated : d.Dated)
    (op : Operation) :
    (∀ e ∈ gained P d op, e.kind = .establishmentTimeout →
      ∃ peer, e.devices = [d.id, peer] ∧ d.abandons op peer = true) ∧
    ∀ peer, (gained P d op).countP (fun e =>
        e.kind = .establishmentTimeout ∧ e.devices = [d.id, peer]) =
      if d.abandons op peer then 1 else 0 := by
  have hTest (peer : String) (e : Audit.Entry) : e.toEvent.givesUp d.id peer =
      decide (e.kind = .establishmentTimeout ∧ e.devices = [d.id, peer]) := by
    unfold Audit.Event.givesUp Audit.Kind.isTimeout
    cases e.kind <;> simp
  by_cases hSweep : op = .sweepAudit
  · rw [hSweep, gained_sweepAudit]
    exact ⟨nofun, fun _ => rfl⟩
  obtain ⟨events, hAdds, hNamed, hCounted⟩ := givesUp_step (P := P) hFiled hSettled hDated hSweep
  have hEvents : (gained P d op).map (·.toEvent) = events := hAdds.drop
  have hCounted (peer : String) : (gained P d op).countP (fun e =>
        e.kind = .establishmentTimeout ∧ e.devices = [d.id, peer]) =
      if d.abandons op peer then 1 else 0 := by
    rw [← hCounted peer, ← hEvents, List.countP_map]
    exact List.countP_congr fun e _ => by rw [Function.comp_apply, hTest]
  refine ⟨fun e he hKind => ?_, hCounted⟩
  obtain ⟨peer, hDevices⟩ := hNamed e.toEvent (hEvents ▸ List.mem_map_of_mem he)
    (by show e.kind.isTimeout = true; rw [hKind]; rfl)
  refine ⟨peer, hDevices, ?_⟩
  -- an entry that is there was counted
  have hOne : 0 < (gained P d op).countP (fun e =>
      e.kind = .establishmentTimeout ∧ e.devices = [d.id, peer]) :=
    List.countP_pos_iff.2 ⟨e, he, decide_eq_true ⟨hKind, hDevices⟩⟩
  rw [hCounted] at hOne
  refine Decidable.by_contra fun hNot => ?_
  rw [if_neg hNot] at hOne
  exact Nat.lt_irrefl 0 hOne

-- ---------------------------------------------------------------------------
-- What is waited for
-- ---------------------------------------------------------------------------

variable (P) in
/-- Since when the establishment with a peer is waited for, behind an operation. -/
def askedAfter (d : Device) (op : Operation) (peer : String) : Option UInt64 :=
  let since := (d.pairs.sending peer).requestedAt
  match op with
  | .request other =>
    if other = peer ∧ (d.pairs.sending peer).current = none then some (since.getD d.now) else since
  | .send other _ _ => if (other = peer ∧ d.carries peer) ∨ d.abandons op peer then none else since
  | .maintain _ => if d.abandons op peer then none else since
  | .shutdown => none
  | .verify other _ | .revoke other _ | .crossSignPeer other =>
    if other = peer ∧ (d.step P op).2.isRevoked peer then none else since
  | _ => since

/-- A message that is carried, or that finds the establishment overdue, ends the waiting; any other
leaves it. -/
theorem askedAfter_send (other : String) (level : Level) (plaintext : Bytes) (peer : String) :
    askedAfter P d (.send other level plaintext) peer =
      if (other = peer ∧ d.carries peer) ∨ d.abandons (.send other level plaintext) peer then none
      else (d.pairs.sending peer).requestedAt := rfl

/-- A message to a peer on file that is held back leaves every establishment as it is. -/
theorem askedAfter_of_held {peer : String} (hFiled : (d.contacts.get? peer).isNone = false)
    (hHeld : d.carries peer = false) (level : Level) (plaintext : Bytes) (other : String) :
    askedAfter P d (.send peer level plaintext) other = (d.pairs.sending other).requestedAt := by
  rw [askedAfter_send, abandons_of_held hFiled hHeld, if_neg]
  rintro (⟨rfl, hCarries⟩ | hNever)
  · exact Bool.false_ne_true (hHeld.symm.trans hCarries)
  · exact Bool.false_ne_true hNever

/-- Evidence clears the sending side of a peer that is then revoked, and no other. -/
theorem sending_applyEvidence (id : String) (evidence : Evidence) (peer : String) (d : Device) :
    (d.applyEvidence P id evidence).2.pairs.sending peer =
      if id = peer ∧ (d.applyEvidence P id evidence).2.isRevoked peer then
        { (d.pairs.sending peer).cleared with isRevoked := true }
      else d.pairs.sending peer := by
  obtain ⟨-, -, hWork⟩ := verify_same (P := P) id evidence d
  unfold applyEvidence
  generalize d.verify P id evidence = verified at *
  obtain ⟨verified, d₁⟩ := verified
  dsimp only at *
  have hPairs : d₁.pairs = d.pairs := congrArg Work.part hWork
  split
  · -- the verdict is a revocation, and the pairs of the peer are dropped
    rename_i hRevoked
    obtain ⟨-, hDrops⟩ := Pairs.drops_revoke (d₁.setting d₁.now) id d₁.work
    have hSide := hDrops.sending peer
    rw [show d₁.work.part = d.pairs from hPairs] at hSide
    have hSide : (d₁.onPairs P fun s => Pairs.revoke s id).2.pairs.sending peer = _ := hSide
    have hRevoked' : (d₁.onPairs P fun s => Pairs.revoke s id).2.isRevoked id = true := hRevoked
    rw [hSide]
    by_cases hPeer : peer = id
    · subst hPeer
      rw [if_pos rfl, if_pos ⟨rfl, hRevoked'⟩]
      rfl
    · rw [if_neg hPeer, if_neg fun h => hPeer h.1.symm]
  · -- any other verdict leaves the pairs alone
    rename_i hTrusted
    have hSame : d₁.pairs.sending peer = d.pairs.sending peer := by rw [hPairs]
    rw [hSame, if_neg]
    rintro ⟨rfl, hRevoked⟩
    exact hTrusted hRevoked

/-- Vouching for a peer clears the sending side of one that is found revoked, and no other. -/
theorem sending_crossSignPeer (id peer : String) (d : Device) :
    (d.crossSignPeer P id).2.pairs.sending peer =
      if id = peer ∧ (d.crossSignPeer P id).2.isRevoked peer then
        { (d.pairs.sending peer).cleared with isRevoked := true }
      else d.pairs.sending peer := by
  unfold crossSignPeer
  cases hLink : d.crossSign P id with
  | ok link => exact sending_applyEvidence id (.crossSignature [link]) peer d
  | error failure =>
    -- the peer is not on file
    have hUnknown : d.contacts.get? id = none := by
      unfold crossSign Contacts.lookup at hLink
      cases hKnown : d.contacts.get? id with
      | none => rfl
      | some record =>
        rw [hKnown] at hLink
        cases hLink
    dsimp only
    rw [if_neg]
    rintro ⟨rfl, hRevoked⟩
    unfold isRevoked at hRevoked
    rw [hUnknown] at hRevoked
    cases hRevoked

/-- **What a sweep leaves of a sending side:** what is due for its session is done, and an overdue
establishment is given up. -/
theorem sending_maintain (hSettled : d.Settled may) (hDated : d.Dated) (now : UInt64)
    (peer : String) :
    (d.maintain P now).2.pairs.sending peer = (d.pairs.sending peer).swept d.config now := by
  have hSwept : (d.maintain P now).2.pairs = d.pairs.swept d.config now :=
    (Pairs.sweep_eq (s := d.setting now) (w := d.work) hSettled hDated).2.1
  rw [hSwept, Pairs.sending_swept]

/-- Closing clears every sending side. -/
theorem sending_shutdown (peer : String) (d : Device) :
    (d.shutdown P).2.pairs.sending peer = (d.pairs.sending peer).cleared := by
  rw [shutdown_eq]
  exact (Pairs.closed_shutdown (d.setting d.now) d.work).sending peer

/-- A message to a peer, and what is waited for. -/
theorem requestedAt_send (hFiled : d.contacts.Filed) (hSettled : d.Settled may) (other : String)
    (level : Level) (plaintext : Bytes) (peer : String) :
    ((d.send P other level plaintext).2.pairs.sending peer).requestedAt =
      askedAfter P d (.send other level plaintext) peer := by
  have hLate := hasTimedOut_eq hSettled d.now other
  have hPosting := posting_send (P := P) other level plaintext d
  generalize d.send P other level plaintext = sent at hPosting
  cases hPosting with
  | unknown unfiled =>
    have hSide : ((d.onPairs P fun s => Pairs.checkEstablishment s other).2.pairs.sending
        peer).requestedAt = _ :=
      Pairs.requestedAt_checkEstablishment (d.setting d.now) other d.work peer
    have hSent : ((d.refuseUnknown P other).2.pairs.sending peer).requestedAt =
        ((d.onPairs P fun s => Pairs.checkEstablishment s other).2.pairs.sending
          peer).requestedAt := by
      unfold refuseUnknown
      split <;> simp only [‹onPairs P _ d = _›, note]
    rw [hSent, hSide]
    -- only the side that the message is for was looked at
    by_cases hPeer : other = peer
    · subst hPeer
      have hLate : (d.work.part.sending other).hasTimedOut (d.setting d.now) = _ := hLate
      rw [hLate]
      simp [askedAfter_send, abandons_send, carries, unfiled, work]
    · simp [askedAfter_send, abandons_send, hPeer, Ne.symm hPeer, work]
  | held filed held => exact (askedAfter_of_held filed held level plaintext peer).symm
  | @carried record filed carries =>
    have hId : record.deviceId = other := hFiled other record filed
    have hSent : ((d.sendTo P record level plaintext).2.pairs.sending peer) =
        (Pairs.encrypt P (d.setting d.now) record level plaintext d.work).2.part.sending peer := by
      unfold sendTo
      split <;> exact (congrArg (·.2.pairs.sending peer) ‹onPairs P _ d = _›).symm
    rw [hSent, Pairs.sending_encrypt, hId]
    by_cases hPeer : other = peer
    · subst hPeer
      rw [if_pos rfl]
      -- a side that is barred holds the message back before anything else
      cases hBarred : (d.pairs.sending other).isRevoked with
      | true =>
        have hHeld : d.carries other = false := by rw [carries, hBarred]; rfl
        rw [askedAfter_of_held (by rw [filed]; rfl) hHeld]
        unfold Outbound.encrypt
        have hBarred : (d.work.withPart (d.work.part.sending other)).part.isRevoked = true := hBarred
        rw [if_pos hBarred]
        rfl
      | false =>
        rw [Outbound.requestedAt_encrypt (d.setting d.now) (hSettled.sending other) hBarred]
        simp [askedAfter_send, carries, hBarred]
    · rw [if_neg (Ne.symm hPeer)]
      simp [askedAfter_send, abandons_send, hPeer, work]

/-- **Since when an establishment is waited for,** behind any operation. -/
theorem requestedAt_step (hFiled : d.contacts.Filed) (hSettled : d.Settled may) (hDated : d.Dated)
    (op : Operation) (peer : String) :
    ((d.step P op).2.pairs.sending peer).requestedAt = askedAfter P d op peer := by
  -- the sides stay as they are
  have hSame (hAsked : askedAfter P d op peer = (d.pairs.sending peer).requestedAt)
      (h : (d.step P op).2.pairs.sending peer = d.pairs.sending peer) :
      ((d.step P op).2.pairs.sending peer).requestedAt = askedAfter P d op peer := by
    rw [h, hAsked]
  -- evidence clears a side, or leaves it alone
  have hEvidence {id : String} {d' : Device} (hSide : d'.pairs.sending peer =
      if id = peer ∧ d'.isRevoked peer then { (d.pairs.sending peer).cleared with isRevoked := true }
      else d.pairs.sending peer) :
      (d'.pairs.sending peer).requestedAt =
        if id = peer ∧ d'.isRevoked peer then none else (d.pairs.sending peer).requestedAt := by
    rw [hSide]
    split <;> rfl
  cases op with
  | send other level plaintext => exact requestedAt_send hFiled hSettled other level plaintext peer
  | receive bytes =>
    refine hSame rfl ?_
    show (d.receive P bytes).2.pairs.sending peer = _
    rcases receive_cases (d.receive P bytes).eta.symm with
      ⟨-, -, log, hLog⟩ | ⟨e, sender, opened, w, -, -, hw, -, ⟨hPairs, -⟩, -⟩
    · rw [hLog]
    · obtain rfl : _ = w := congrArg Prod.snd hw
      rw [hPairs, Pairs.sending_decrypt]
      rfl
  | remember id keys => exact hSame rfl (congrArg (·.sending peer) (pairs_remember id keys d))
  | importBundle text => exact hSame rfl (congrArg (·.sending peer) (pairs_importBundle text d))
  | verify id evidence => exact hEvidence (sending_applyEvidence id evidence peer d)
  | revoke id reason => exact hEvidence (sending_applyEvidence id (.revocation reason) peer d)
  | crossSignPeer id => exact hEvidence (sending_crossSignPeer id peer d)
  | rotate other =>
    show ((d.rotate P other).2.pairs.sending peer).requestedAt = (d.pairs.sending peer).requestedAt
    obtain ⟨hOthers, -, -, -, hAsked, -⟩ := Pairs.sending_rotate (d.setting d.now) other d.work
    rw [pairs_rotate]
    by_cases hPeer : peer = other
    · subst hPeer
      exact hAsked
    · exact congrArg Outbound.requestedAt (hOthers peer hPeer)
  | request other =>
    show ((Pairs.request (d.setting d.now) other d.work).2.part.sending peer).requestedAt = _
    unfold Pairs.request
    rw [Pairs.sending_onOutbound]
    unfold askedAfter
    by_cases hPeer : peer = other
    · subst hPeer
      rw [if_pos rfl]
      show ((d.pairs.sending peer).request d.now).2.requestedAt = _
      unfold Outbound.request
      cases hCurrent : (d.pairs.sending peer).current <;> simp
    · rw [if_neg hPeer]
      simp [Ne.symm hPeer, work]
  | maintain now =>
    show ((d.maintain P now).2.pairs.sending peer).requestedAt = _
    rw [sending_maintain hSettled hDated]
    rfl
  | shutdown =>
    show ((d.shutdown P).2.pairs.sending peer).requestedAt = none
    rw [sending_shutdown]
    rfl
  | save store passphrase =>
    exact hSame rfl (congrArg (·.sending peer) (pairs_save store passphrase d))
  | addRoot | flushAudit | sweepAudit | setClock | setSink => exact hSame rfl rfl

end Device

end EndToEnd
