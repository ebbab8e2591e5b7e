import EndToEnd.Proofs.Establishments
import EndToEnd.Proofs.Revocation

/-!
# Pairs with a revoked peer

When a peer becomes revoked, its sessions are dropped and nothing is waited for any more. After that
no session with it is ever made (`Device.Severed`), and nothing of the pair is to be seen, except for
one thing: an establishment with a revoked peer can still be asked for, and then it is waited for
until it is given up. The requests, sweeps, shutdowns and evidence of later on say since when
(`Device.awaited`), and this says all else (`Device.Rests`). If nobody asks, the pair is at rest for
ever.

Main results:

* `Device.Severed.requestedAt_step`, `Device.severed_after` — what is waited for, behind one operation
  and behind many.
* `Device.revoked_pairs_rest` — what is seen of a pair with a revoked peer from then on.
* `Device.revoked_peer_is_awaited` — that a request is answered as if the peer were not revoked.
-/

namespace EndToEnd

/-- The peer that an operation brings evidence about. -/
def Operation.judged? : Operation → Option String
  | verify id _ | revoke id _ | crossSignPeer id => some id
  | _ => none

/-- Whether an operation finds that an establishment has been waited for too long. -/
def Operation.findsOverdue (timeout : Duration) (since : Option UInt64) : Operation → Bool
  | maintain now => since.any fun since => timeout.millis ≤ saturatingSub now since
  | _ => false

namespace Device

variable {P : Primitives} {start d : Device} {history : History} {peer : String}
  {since : Option UInt64}

-- ---------------------------------------------------------------------------
-- What is waited for
-- ---------------------------------------------------------------------------

/-- Since when a session with a revoked peer is waited for, behind an operation. What was asked for is
forgotten when it is overdue, when everything is dropped, and with any evidence about the peer. -/
def awaitedAfter (timeout : Duration) (peer : String) (clock : UInt64) (since : Option UInt64)
    (op : Operation) : Option UInt64 :=
  if op = .request peer then some (since.getD clock)
  else if op = .shutdown ∨ op.judged? = some peer ∨ op.findsOverdue timeout since then none
  else since

variable (P) in
/-- Since when a session with a revoked peer is waited for, behind some operations. -/
def awaited (peer : String) (d : Device) (since : Option UInt64) : List Operation → Option UInt64
  | [] => since
  | op :: rest => awaited peer (d.step P op).2
      (awaitedAfter d.config.establishmentTimeout peer d.now since op) rest

/-- **Only a request** makes a device wait. -/
theorem awaited_eq_none {ops : List Operation} (hUnasked : .request peer ∉ ops) :
    awaited P peer d none ops = none := by
  induction ops generalizing d with
  | nil => rfl
  | cons op rest ih =>
    rw [List.mem_cons, not_or] at hUnasked
    have hNone : awaitedAfter d.config.establishmentTimeout peer d.now none op = none := by
      unfold awaitedAfter
      rw [if_neg (Ne.symm hUnasked.1)]
      split <;> rfl
    unfold awaited
    rw [hNone]
    exact ih hUnasked.2

namespace Severed

/-- There is nothing on the sending side of a severed peer, except for what was asked for. -/
theorem sides (h : Severed peer d) : (d.pairs.sending peer).current = none ∧
    (d.pairs.sending peer).live = [] ∧ (d.pairs.receiving peer).live = [] := by
  have hLive := h.liveWith
  rw [Pairs.liveWith_eq, List.append_eq_nil_iff] at hLive
  exact ⟨Option.toList_eq_nil_iff.1 (List.append_eq_nil_iff.1 hLive.1).1, hLive⟩

/-- No message to a severed peer looks for an establishment. -/
theorem holds (h : Severed peer d) :
    (d.contacts.get? peer).isNone = false ∧ d.carries peer = false := by
  obtain ⟨record, hRecord, hRevoked⟩ := (Option.any_eq_true _ _).1 h.revoked
  simp [carries, hRecord, hRevoked]

theorem abandons (h : Severed peer d) (op : Operation) :
    d.abandons op peer =
      op.findsOverdue d.config.establishmentTimeout (d.pairs.sending peer).requestedAt := by
  obtain ⟨hKnown, hHeld⟩ := h.holds
  cases op with
  | send other level plaintext =>
    show (_ && (_ || _) && _) = false
    rw [hKnown, hHeld]
    simp
  | maintain now => rfl
  | _ => rfl

/-- **What is waited for of a severed peer,** behind an operation. -/
theorem requestedAt_step (h : Severed peer d) (hDated : d.Dated) (op : Operation) :
    ((d.step P op).2.pairs.sending peer).requestedAt =
      awaitedAfter d.config.establishmentTimeout peer d.now (d.pairs.sending peer).requestedAt op := by
  rw [Device.requestedAt_step h.filed h.settled hDated]
  have hAbandons := h.abandons op
  have hRevoked : (d.step P op).2.isRevoked peer = true :=
    isRevoked_of_evolves (evolves_step (P := P) d op) h.revoked
  unfold askedAfter awaitedAfter
  cases op with
  | request other => simp [h.sides.1, Operation.judged?, Operation.findsOverdue]
  | send other level plaintext =>
    simp [hAbandons, h.holds.2, Operation.judged?, Operation.findsOverdue]
  | maintain now => simp [hAbandons, Operation.judged?]
  | shutdown => rfl
  | verify id evidence | revoke id reason | crossSignPeer id =>
    simp [hRevoked, Operation.judged?, Operation.findsOverdue]
  | _ => simp [Operation.judged?, Operation.findsOverdue]

end Severed

/-- **What is waited for of a severed peer,** behind some operations. -/
theorem severed_after (h : Severed peer d) (hDated : d.Dated)
    (hSince : (d.pairs.sending peer).requestedAt = since) {ops : List Operation}
    (hReturn : allReturn P d ops = true) :
    Severed peer (after P d ops) ∧ (after P d ops).Dated ∧
      ((after P d ops).pairs.sending peer).requestedAt = awaited P peer d since ops := by
  induction ops generalizing d since with
  | nil => exact ⟨h, hDated, hSince⟩
  | cons op rest ih =>
    simp only [allReturn, Bool.and_eq_true, Bool.not_eq_true'] at hReturn
    refine ih (severed_step h op hReturn.1)
      (dated_step h.filed (h.settled.mono fun _ _ => trivial) hDated op hReturn.1) ?_ hReturn.2
    rw [h.requestedAt_step hDated, hSince]

-- ---------------------------------------------------------------------------
-- The moment of revocation
-- ---------------------------------------------------------------------------

/-- **Evidence that leaves a peer revoked** severs it, and nothing is waited for. -/
theorem severed_of_judged (hFiled : d.contacts.Filed) {may : String → Prop} (hSettled : d.Settled may)
    {op : Operation} (hJudged : op.judged? = some peer)
    (hRevoked : (d.step P op).2.isRevoked peer = true) :
    Severed peer (d.step P op).2 ∧ ((d.step P op).2.pairs.sending peer).requestedAt = none := by
  -- whatever evidence has revoked the peer, the judgement has dropped what the pair had
  have hEvidence (evidence : Evidence) (h : (d.step P op).2 = (d.applyEvidence P peer evidence).2) :
      Severed peer (d.step P op).2 ∧ ((d.step P op).2.pairs.sending peer).requestedAt = none := by
    rw [h] at hRevoked ⊢
    have hVerified : (d.verify P peer evidence).2.isRevoked peer = true := by
      -- the verdict is passed on verification; what follows it leaves the contacts alone
      have hContacts : (d.applyEvidence P peer evidence).2.contacts =
          (d.verify P peer evidence).2.contacts := by
        unfold applyEvidence
        generalize d.verify P peer evidence = verified
        obtain ⟨verified, d₁⟩ := verified
        dsimp only
        split <;> rfl
      unfold isRevoked at hRevoked ⊢
      rwa [hContacts] at hRevoked
    obtain ⟨-, -, w, hDrops, hLeft⟩ := applyEvidence_of_revoked hVerified
    have hEvolves : d.Evolves (d.applyEvidence P peer evidence).2 :=
      evolves_step (P := P) d (.verify peer evidence)
    refine ⟨⟨hRevoked, hEvolves.filed hFiled, settled_of_left hEvolves ?_ hLeft⟩, ?_⟩
    · exact (hDrops.settled hSettled).mono fun _ hMay => hMay.2
    · rw [hLeft.1, hDrops.sending, if_pos rfl]
      rfl
  cases op with
  | verify id evidence =>
    obtain rfl : id = peer := Option.some.inj hJudged
    exact hEvidence evidence rfl
  | revoke id reason =>
    obtain rfl : id = peer := Option.some.inj hJudged
    exact hEvidence (.revocation reason) rfl
  | crossSignPeer id =>
    obtain rfl : id = peer := Option.some.inj hJudged
    cases hLink : d.crossSign P id with
    | ok link =>
      refine hEvidence (.crossSignature [link]) ?_
      show (d.crossSignPeer P id).2 = _
      unfold crossSignPeer
      rw [hLink]
      rfl
    | error failure =>
      -- a peer that is not on file is not revoked
      have hSame : (d.step P (.crossSignPeer id)).2 = d := by
        show (d.crossSignPeer P id).2 = d
        unfold crossSignPeer
        rw [hLink]
      rw [hSame] at hRevoked
      unfold isRevoked at hRevoked
      unfold crossSign Contacts.lookup at hLink
      cases hKnown : d.contacts.get? id with
      | none =>
        rw [hKnown] at hRevoked
        cases hRevoked
      | some record =>
        rw [hKnown] at hLink
        cases hLink
  | _ => cases hJudged

-- ---------------------------------------------------------------------------
-- What is seen of the pair
-- ---------------------------------------------------------------------------

variable (P) in
/-- What is seen of a pair with a revoked peer: it waits for a session, if one was asked for, and
there is none. -/
structure RevokedPair (peer : String) (since : Option UInt64) (d : Device) : Prop where
  state : d.pairs.outboundState peer = if since.isSome then .establishing else .noSession
  /-- No session is kept. -/
  sessions : ∀ id : SessionId, id.peer = peer →
    d.pairs.stateOf id ≠ .active ∧ d.pairs.stateOf id ≠ .expiring
  establishing : ∀ id : SessionId, id.peer = peer →
    (d.pairs.stateOf id = .establishing ↔ since.isSome = true ∧ id.direction = .outbound ∧
      id.epoch = (d.pairs.sending peer).nextEpoch)
  /-- A request is answered as if the peer were not revoked. -/
  request : (d.requestEstablishment P peer).1 = .establishing
  /-- An establishment that is given up is one of a pair. -/
  named : ∀ op, ∀ e ∈ gained P d op, e.kind = .establishmentTimeout →
    ∃ other, e.devices = [d.id, other]
  /-- The pair is named only when what was asked for is overdue. -/
  timeouts : ∀ op, (gained P d op).countP (fun e =>
      e.kind = .establishmentTimeout ∧ e.devices = [d.id, peer]) =
    if op.findsOverdue d.config.establishmentTimeout since then 1 else 0

/-- No epoch of a severed peer is used for sending, and the next one is waited for, if it was asked
for. -/
theorem Severed.stateOf_sending (h : Severed peer d)
    (hSince : (d.pairs.sending peer).requestedAt = since) (epoch : UInt64) :
    (d.pairs.sending peer).stateOf epoch =
      if epoch < (d.pairs.sending peer).nextEpoch then .retired
      else if epoch = (d.pairs.sending peer).nextEpoch ∧ since.isSome then .establishing
      else .noSession := by
  unfold Outbound.stateOf
  rw [h.sides.2.1, hSince]
  rfl

/-- No epoch of a severed peer is used for receiving. -/
theorem Severed.stateOf_receiving (h : Severed peer d) (epoch : UInt64) :
    (d.pairs.receiving peer).stateOf epoch =
      if (d.pairs.receiving peer).isPast epoch then .retired else .noSession := by
  have hNone : (d.pairs.receiving peer).epochs.get? epoch = none := by
    refine Option.eq_none_iff_forall_ne_some.2 fun session hSession => ?_
    have hMem : session ∈ (d.pairs.receiving peer).live := Inbound.mem_live_iff.2 ⟨epoch, hSession⟩
    rw [h.sides.2.2] at hMem
    cases hMem
  unfold Inbound.stateOf
  rw [hNone]

/-- **A severed peer** is that of a pair with a revoked peer. -/
theorem Severed.revokedPair (h : Severed peer d) (hDated : d.Dated)
    (hSince : (d.pairs.sending peer).requestedAt = since) : RevokedPair P peer since d := by
  have hOutbound := h.stateOf_sending hSince
  have hInbound := h.stateOf_receiving
  have hGained (op : Operation) := timeouts_gained (P := P) h.filed h.settled hDated op
  constructor
  case state =>
    rw [Pairs.outboundState_eq]
    unfold Outbound.state
    rw [h.sides.1, hSince]
    cases since <;> rfl
  case sessions =>
    rintro ⟨device, id, epoch, direction⟩ rfl
    rw [Pairs.stateOf_eq]
    cases direction with
    | outbound =>
      show Outbound.stateOf _ _ ≠ _ ∧ Outbound.stateOf _ _ ≠ _
      rw [hOutbound]
      split
      · exact ⟨nofun, nofun⟩
      · split <;> exact ⟨nofun, nofun⟩
    | inbound =>
      show Inbound.stateOf _ _ ≠ _ ∧ Inbound.stateOf _ _ ≠ _
      rw [hInbound]
      split <;> exact ⟨nofun, nofun⟩
  case establishing =>
    rintro ⟨device, id, epoch, direction⟩ rfl
    rw [Pairs.stateOf_eq]
    cases direction with
    | outbound =>
      show Outbound.stateOf _ _ = _ ↔ _
      rw [hOutbound]
      constructor
      · -- the only session that is being established is the one that is still to come
        intro hState
        split at hState
        · cases hState
        · split at hState
          · rename_i hNext
            exact ⟨hNext.2, rfl, hNext.1⟩
          · cases hState
      · rintro ⟨hAsked, -, hNext⟩
        have hNext : epoch = (d.pairs.sending id).nextEpoch := hNext
        rw [if_neg (by rw [hNext]; exact UInt64.lt_irrefl _), if_pos ⟨hNext, hAsked⟩]
    | inbound =>
      show Inbound.stateOf _ _ = _ ↔ _
      rw [hInbound]
      refine ⟨fun hState => ?_, fun hBoth => nomatch hBoth.2.1⟩
      split at hState <;> cases hState
  case request =>
    show ((d.pairs.sending peer).request d.now).1 = _
    unfold Outbound.request
    rw [h.sides.1]
    rfl
  case named =>
    intro op e he hKind
    obtain ⟨other, hDevices, -⟩ := (hGained op).1 e he hKind
    exact ⟨other, hDevices⟩
  case timeouts =>
    intro op
    rw [(hGained op).2 peer, h.abandons, hSince]

/-- **Pairs with a revoked peer rest,** unless somebody asks. Once evidence has left a peer revoked,
in every state that follows there is no session with it, and the pair is waiting for one exactly if
an establishment was asked for since and has not been given up. As long as nobody asks, nothing is
waited for and nothing is given up.

In the run, and in what is asked behind it, no counter passes `2 ^ 64 - 1`. -/
theorem revoked_pairs_rest (hStart : Starts P start) (hRun : Run P start history d) {op : Operation}
    (hJudged : op.judged? = some peer) (hRevoked : (d.step P op).2.isRevoked peer = true)
    {ops : List Operation} (hReturn : allReturn P (d.step P op).2 ops = true) :
    RevokedPair P peer (awaited P peer (d.step P op).2 none ops) (after P (d.step P op).2 ops) ∧
      (.request peer ∉ ops → awaited P peer (d.step P op).2 none ops = none) := by
  have hReturns : overruns P d op = false := by
    cases op with
    | send | receive => cases hJudged
    | _ => rfl
  obtain ⟨hSevered, hNone⟩ :=
    severed_of_judged (hRun.filed hStart) (hRun.settled hStart) hJudged hRevoked
  have hDated := (hRun.step op hReturns).dated hStart
  obtain ⟨hLater, hLaterDated, hSince⟩ := severed_after hSevered hDated hNone hReturn
  exact ⟨hLater.revokedPair hLaterDated hSince, awaited_eq_none⟩

/-- Bob has heard from Ann, has written to her, and asks for a session behind the last one. -/
def askedOps : List Operation :=
  let letters := plainLetters .standard [.send "bob" .basic [1]]
  meetPlain "ann" 1 :: letters.map .receive ++
    [.send "ann" .basic [2], .rotate "ann", .request "ann"]

/-- What Bob does once he has revoked Ann, without asking for her. -/
def quietOps : List Operation :=
  [.send "ann" .basic [3], meetPlain "ann" 1, .setClock 40000, .maintain 40000]

theorem revoked_pairs_rest_of_askedOps :
    let bob := after .plain (plain .standard "bob" 3) askedOps
    let revoked := (bob.step .plain (.revoke "ann" "lost")).2
    bob.pairs.outboundState "ann" = .establishing ∧
      RevokedPair .plain "ann" none (after .plain revoked quietOps) ∧
      RevokedPair .plain "ann" (some 40000) (after .plain revoked (quietOps ++ [.request "ann"])) := by
  intro bob revoked
  have hRun := run_after (show allReturn .plain (plain .standard "bob" 3) askedOps = true by
    decide +kernel)
  have hRevoked : revoked.isRevoked "ann" = true := by decide +kernel
  obtain ⟨hQuiet, hNone⟩ := revoked_pairs_rest (plain_starts "bob" 3 rfl) hRun
    (show (Operation.revoke "ann" "lost").judged? = some "ann" from rfl) hRevoked
    (show allReturn .plain revoked quietOps = true by decide +kernel)
  obtain ⟨hAsked, -⟩ := revoked_pairs_rest (plain_starts "bob" 3 rfl) hRun
    (show (Operation.revoke "ann" "lost").judged? = some "ann" from rfl) hRevoked
    (show allReturn .plain revoked (quietOps ++ [.request "ann"]) = true by decide +kernel)
  have hSince : awaited .plain "ann" revoked none (quietOps ++ [.request "ann"]) = some 40000 := by
    decide +kernel
  have hUnasked : .request "ann" ∉ quietOps := by decide +kernel
  exact ⟨by decide +kernel, hNone hUnasked ▸ hQuiet, hSince ▸ hAsked⟩

/-- **A revoked peer is waited for,** if somebody asks: the pair is establishing, although no session
with the peer can ever be made, and in the end the log says that the establishment has timed out. -/
theorem revoked_peer_is_awaited :
    let bob := after .plain (plain .standard "bob" 3) [meetPlain "ann" 1, .revoke "ann" "lost"]
    let waiting := (bob.step .plain (.request "ann")).2
    bob.isRevoked "ann" = true ∧ bob.pairs.outboundState "ann" = .noSession ∧
      (bob.requestEstablishment .plain "ann").1 = .establishing ∧
      waiting.isRevoked "ann" = true ∧ waiting.pairs.outboundState "ann" = .establishing ∧
      waiting.pairs.stateOf ⟨"bob", "ann", 0, .outbound⟩ = .establishing ∧
      (gained .plain waiting (.maintain 30000)).map (fun e => (e.kind, e.devices)) =
        [(.establishmentTimeout, ["bob", "ann"])] := by
  decide +kernel

end Device

end EndToEnd
