import EndToEnd.Proofs.Bookkeeping
import EndToEnd.Proofs.Plain
import EndToEnd.Proofs.Restarts

/-!
# Revocation

Once a peer on file is revoked, a device has nothing more to do with it: the trust in the peer stays
where it is, nothing is sent to it or received from it, and there are no sessions with it. This
holds even if the audit log could not deliver the entry about the revocation, and it holds in a
device that is brought back from anything that was saved since, although sessions and barred sides
do not survive a restart: the record of the peer does.

The invariant is `Device.Severed`. That no session comes back is the invariant of the books
(`Device.Settled`), for devices that may have sessions with all other peers only.

Main results:

* `Device.applyEvidence_of_revoked` — what evidence does that makes a peer revoked.
* `Device.severed_step`, `Device.Future.severed` — the invariant.
* `Device.revocation_is_final` — what a revocation means for ever after.
-/

namespace EndToEnd.Device

variable {P : Primitives} {start d d' : Device} {peer : String}

-- ---------------------------------------------------------------------------
-- The moment of revocation
-- ---------------------------------------------------------------------------

/-- Evidence of a revocation is always believed about a peer on file, even if the log refuses the
entry about it. -/
theorem isRevoked_verify {known : Peer} (hKnown : d.contacts.get? peer = some known)
    (reason : String) : (d.verify P peer (.revocation reason)).2.isRevoked peer = true := by
  let proved : Device := { d with
    contacts := d.contacts.update peer d.now ((Evidence.revocation reason).apply .revoked) }
  have hSame : proved.SameButLog (d.verify P peer (.revocation reason)).2 := by
    unfold verify
    simp only [Contacts.lookup, hKnown, Evidence.assess]
    split
    · exact ⟨_, rfl⟩
    · split <;> exact (congrArg Prod.snd ‹record P _ _ = _›) ▸ sameButLog_record ..
  obtain ⟨log, hLog⟩ := hSame
  have hUpdated : proved.isRevoked peer = true := by
    obtain ⟨kept, hApply⟩ := Evidence.apply_eq (.revocation reason) .revoked known
    simp [proved, isRevoked, Contacts.get?_update, hKnown, hApply, Peer.isRevoked]
  rw [hLog]
  exact hUpdated

/-- **Evidence that makes a peer revoked** bars both sides of the pair and drops and counts its
sessions, whether or not the log took the entry about it. -/
theorem applyEvidence_of_revoked {evidence : Evidence}
    (hRevoked : (d.verify P peer evidence).2.isRevoked peer = true) :
    (d.applyEvidence P peer evidence).1 =
        (d.verify P peer evidence).1.map (·, (d.pairs.liveWith peer).length) ∧
      (d.applyEvidence P peer evidence).2.isRevoked peer = true ∧
      ∃ w, Pairs.Drops peer true d.work w ∧ (d.applyEvidence P peer evidence).2.Left w := by
  obtain ⟨-, -, hWork⟩ := verify_same (P := P) peer evidence d
  unfold applyEvidence
  generalize d.verify P peer evidence = verified at *
  obtain ⟨verified, d₁⟩ := verified
  dsimp only at *
  rw [if_pos hRevoked]
  obtain ⟨hCount, hDrops⟩ := Pairs.drops_revoke (d₁.setting d₁.now) peer d₁.work
  have hLive : d₁.work.part.liveWith peer = d.pairs.liveWith peer := by
    rw [hWork]
    rfl
  rw [hLive] at hCount
  exact ⟨congrArg (fun n => verified.map (·, n)) hCount, hRevoked, _, hWork ▸ hDrops, rfl, rfl⟩

/-- **A revocation that succeeds counts** the sessions that there were with the peer. -/
theorem revoke_eq_ok {reason : String} {n : Nat}
    (h : (d.revoke P peer reason).1 = .ok n) : n = (d.pairs.liveWith peer).length := by
  have hKnown : ∃ known, d.contacts.get? peer = some known := by
    cases hFile : d.contacts.get? peer with
    | some known => exact ⟨known, rfl⟩
    | none =>
      simp [revoke, applyEvidence, verify, Contacts.lookup, hFile, Except.map] at h
  obtain ⟨known, hKnown⟩ := hKnown
  obtain ⟨hResult, -⟩ := applyEvidence_of_revoked (isRevoked_verify (P := P) hKnown reason)
  have h : ((d.applyEvidence P peer (.revocation reason)).1).map (·.2) = .ok n := h
  rw [hResult] at h
  cases hVerified : (d.verify P peer (.revocation reason)).1 with
  | error failure =>
    rw [hVerified] at h
    cases h
  | ok trust =>
    rw [hVerified] at h
    cases h
    rfl

-- ---------------------------------------------------------------------------
-- The invariant
-- ---------------------------------------------------------------------------

/-- A device that is done with a peer: the peer is on file as revoked, and no session with it is
left. -/
structure Severed (peer : String) (d : Device) : Prop where
  revoked : d.isRevoked peer = true
  filed : d.contacts.Filed
  settled : d.Settled (· ≠ peer)

/-- A revocation severs. -/
theorem severed_of_revocation (hFiled : d.contacts.Filed) {may : String → Prop}
    (hSettled : d.Settled may) {known : Peer} (hKnown : d.contacts.get? peer = some known)
    (reason : String) :
    Severed peer (d.applyEvidence P peer (.revocation reason)).2 := by
  obtain ⟨-, hRevoked, w, hDrops, hLeft⟩ :=
    applyEvidence_of_revoked (isRevoked_verify (P := P) hKnown reason)
  have hEvolves := evolves_step (P := P) d (.revoke peer reason)
  refine ⟨hRevoked, hEvolves.filed hFiled, settled_of_left hEvolves ?_ hLeft⟩
  exact (hDrops.settled hSettled).mono fun _ hMay => hMay.2

/-- **An operation keeps a peer severed.** -/
theorem severed_step (h : Severed peer d) (op : Operation) (hReturns : overruns P d op = false) :
    Severed peer (d.step P op).2 := by
  have hEvolves := evolves_step (P := P) d op
  refine ⟨isRevoked_of_evolves hEvolves h.revoked, hEvolves.filed h.filed, ?_⟩
  refine settled_step h.filed h.settled (fun id record hRecord hTrusted => ?_) op hReturns
  rintro rfl
  have hRevoked := h.revoked
  unfold isRevoked at hRevoked
  rw [hRecord] at hRevoked
  have hRevoked : record.isRevoked = true := hRevoked
  rw [hTrusted] at hRevoked
  cases hRevoked

/-- A store in which a device was saved that was done with a peer. -/
def KeepsSevered (P : Primitives) (peer : String) (store : Store) : Prop :=
  ∃ d passphrase, Severed peer d ∧ d.SavedIn P store passphrase

/-- **A restart keeps a peer severed:** the peer is on file as it was, and no session is back. -/
theorem severed_restore {config : Config} {sink : Audit.Sink} {store : Store} {passphrase : String}
    {now : UInt64} {random : RandomSource} (h : KeepsSevered P peer store)
    (hRestored : restore P config sink store passphrase now random = .ok d') : Severed peer d' := by
  obtain ⟨d, passphrase', hSevered, hSaved⟩ := h
  have hStart : Starts P d' := .restored hRestored
  refine ⟨?_, hStart.filed, hStart.settled⟩
  unfold isRevoked
  rw [get?_restored hSevered.filed hSaved hRestored peer]
  exact hSevered.revoked

-- ---------------------------------------------------------------------------
-- The future
-- ---------------------------------------------------------------------------

/-- What can become of a device: it does what it is asked, and at any time it may be brought back
from a store in which it was saved since the beginning. -/
inductive Future (P : Primitives) (start : Device) : List Store → Device → Prop where
  | start : Future P start [] start
  | step {saved : List Store} {d : Device} (op : Operation) (before : Future P start saved d)
      (returns : overruns P d op = false) :
      Future P start (((History.stored? (op, (step P d op).1)).map (·.1)).toList ++ saved)
        (step P d op).2
  | restart {saved : List Store} {d d' : Device} {config : Config} {sink : Audit.Sink}
      {store : Store} {passphrase : String} {now : UInt64} {random : RandomSource}
      (before : Future P start saved d) (mem : store ∈ saved)
      (restored : restore P config sink store passphrase now random = .ok d') :
      Future P start saved d'

/-- **A severed peer stays severed,** in the device and in everything that is saved of it. -/
theorem Future.severed {saved : List Store} (hStart : Severed peer start)
    (h : Future P start saved d) :
    Severed peer d ∧ ∀ store ∈ saved, KeepsSevered P peer store := by
  induction h with
  | start => exact ⟨hStart, fun _ h => (nomatch h)⟩
  | step op _ returns ih =>
    obtain ⟨hSevered, hSaved⟩ := ih
    refine ⟨severed_step hSevered op returns, fun store hMem => ?_⟩
    rcases List.mem_append.1 hMem with hNew | hBefore
    · obtain ⟨x, hWritten, rfl⟩ := Option.map_eq_some_iff.1 (Option.mem_toList.1 hNew)
      exact ⟨_, x.2, hSevered, stored_step hWritten⟩
    · exact hSaved store hBefore
  | restart _ mem restored ih => exact ⟨severed_restore (ih.2 _ mem) restored, ih.2⟩

/-- The stores in which a device is saved by some operations. -/
def savedBy (P : Primitives) (d : Device) (saved : List Store) : List Operation → List Store
  | [] => saved
  | op :: rest =>
    savedBy P (step P d op).2
      (((History.stored? (op, (step P d op).1)).map (·.1)).toList ++ saved) rest

/-- The future goes on with operations that all return. -/
theorem Future.after {saved : List Store} (h : Future P start saved d) {ops : List Operation}
    (hReturn : allReturn P d ops = true) :
    Future P start (savedBy P d saved ops) (Device.after P d ops) := by
  induction ops generalizing saved d with
  | nil => exact h
  | cons op rest ih =>
    simp only [allReturn, Bool.and_eq_true, Bool.not_eq_true'] at hReturn
    exact ih (h.step op hReturn.1) hReturn.2

-- ---------------------------------------------------------------------------
-- What a severed peer can count on
-- ---------------------------------------------------------------------------

/-- What a device does with a peer that is revoked: nothing. -/
structure Shuns (P : Primitives) (peer : String) (d : Device) : Prop where
  trust : d.trustState peer = .ok .revoked
  /-- Nothing is sent. -/
  send : ∀ level plaintext, (d.send P peer level plaintext).1 = .error (.peerRevoked peer)
  /-- Nothing is received. -/
  receive : ∀ bytes message, (d.receive P bytes).1 = .ok message → message.sender ≠ peer
  live : (d.pairs.liveWith peer).length = 0
  current : d.pairs.currentEpoch peer = none

theorem Severed.liveWith (h : Severed peer d) : d.pairs.liveWith peer = [] := by
  have hSending : (d.pairs.sending peer).live = [] :=
    (h.settled.sending peer).live_eq_nil (.inl fun hMay => hMay rfl)
  have hReceiving : (d.pairs.receiving peer).live = [] :=
    (h.settled.receiving peer).live_eq_nil (.inl fun hMay => hMay rfl)
  rw [Pairs.liveWith_eq, hSending, hReceiving]
  rfl

/-- **A severed peer is shunned.** -/
theorem Severed.shuns (h : Severed peer d) : Shuns P peer d := by
  obtain ⟨known, hKnown, hRevoked⟩ := (Option.any_eq_true _ _).1 h.revoked
  have hTrust : known.trust = .revoked := of_decide_eq_true hRevoked
  constructor
  case trust =>
    show ((d.contacts.lookup peer).map (·.trust)) = _
    unfold Contacts.lookup
    rw [hKnown]
    exact congrArg Except.ok hTrust
  case send =>
    intro level plaintext
    unfold Device.send
    rw [hKnown]
    dsimp only
    rw [if_pos hRevoked]
    rfl
  case receive =>
    rintro bytes message hReceived rfl
    rcases receive_cases (d.receive P bytes).eta.symm with
      ⟨failure, hFailed, -⟩ | ⟨e, sender, opened, w, -, hAuthentic, -, -, -, hResult⟩
    · rw [hReceived] at hFailed
      cases hFailed
    · -- an envelope is authentic only as long as its sender is trusted
      obtain ⟨hSender, hTrusted⟩ := authenticate_eq_ok hAuthentic
      have hId := h.filed _ _ hSender
      rcases hResult with ⟨-, failure, -, hFailed⟩ | ⟨plaintext, -, hMessage⟩
      · rw [hReceived] at hFailed
        cases hFailed
      · rw [hReceived] at hMessage
        cases hMessage
        have hKnown : d.contacts.get? sender.deviceId = some known := hKnown
        rw [hId, hSender] at hKnown
        cases hKnown
        rw [hRevoked] at hTrusted
        cases hTrusted
  case live =>
    rw [h.liveWith]
    rfl
  case current =>
    -- no session of either kind is left, the current one of the sending side included
    have hLive := h.liveWith
    rw [Pairs.liveWith_eq] at hLive
    have hCurrent := (List.append_eq_nil_iff.1 (List.append_eq_nil_iff.1 hLive).1).1
    show ((d.pairs.outbound? peer).bind (·.current)).map (·.epoch) = none
    unfold Pairs.sending at hCurrent
    cases hSide : d.pairs.outbound? peer with
    | none => rfl
    | some o =>
      rw [hSide] at hCurrent
      have hNone : o.current = none := Option.toList_eq_nil_iff.1 hCurrent
      show o.current.map (·.epoch) = none
      rw [hNone]
      rfl

/-- **Revocation is final.** Once a peer on file was revoked, by `revoke` or by evidence, and
whatever that call returned, the device shuns the peer in every state that can follow, restarts from
what was saved since included. A call of `revoke` that succeeds returns the number of sessions that
there were with the peer.

In the run no counter passes `2 ^ 64 - 1`. -/
theorem revocation_is_final {history : History} (hStart : Starts P start)
    (hRun : Run P start history d) (hKnown : (d.contacts.get? peer).isSome = true) {op : Operation}
    {reason : String} (hOp : op = .revoke peer reason ∨ op = .verify peer (.revocation reason)) :
    (∀ saved d', Future P (d.step P op).2 saved d' → Shuns P peer d') ∧
      ∀ n, (d.revoke P peer reason).1 = .ok n → n = (d.pairs.liveWith peer).length := by
  obtain ⟨known, hKnown⟩ := Option.isSome_iff_exists.1 hKnown
  have hSevered : Severed peer (d.applyEvidence P peer (.revocation reason)).2 :=
    severed_of_revocation (hRun.filed hStart) (hRun.settled hStart) hKnown reason
  have hAfter : (d.step P op).2 = (d.applyEvidence P peer (.revocation reason)).2 := by
    obtain rfl | rfl := hOp
    · rfl
    · rfl
  refine ⟨fun saved d' hFuture => ?_, fun n hCount => revoke_eq_ok hCount⟩
  rw [hAfter] at hFuture
  exact (hFuture.severed hSevered).1.shuns

/-- Bob has heard from Ann and written to her when the sink of his log fills up. -/
def cutOffOps : List Operation :=
  let letters := plainLetters .standard [.send "bob" .basic [1]]
  meetPlain "ann" 1 :: letters.map .receive ++ [.send "ann" .basic [2], .setSink true]

/-- What Bob does behind the revocation: he meets Ann again, and is saved. -/
def cutOffLater : List Operation :=
  [.verify "ann" .firstContact, meetPlain "ann" 1, .save (.file .nothing) "secret"]

theorem revocation_is_final_of_cutOff :
    let bob := after .plain (plain .standard "bob" 3) cutOffOps
    let revoked := (bob.step .plain (.revoke "ann" "lost")).2
    (bob.pairs.liveWith "ann").length = 2 ∧
      (bob.revoke .plain "ann" "lost").1.toOption = none ∧
      ∃ store back, store ∈ savedBy .plain revoked [] cutOffLater ∧
        restore .plain .standard .memory store "secret" 0 ⟨fun _ => 9, 0⟩ = .ok back ∧
        Shuns .plain "ann" back := by
  intro bob revoked
  obtain ⟨hFuture, -⟩ := revocation_is_final (plain_starts "bob" 3 rfl)
    (run_after (show allReturn .plain (plain .standard "bob" 3) cutOffOps = true by decide +kernel))
    (show ((after .plain (plain .standard "bob" 3) cutOffOps).contacts.get? "ann").isSome = true by
      decide +kernel) (.inl rfl : Operation.revoke "ann" "lost" = _ ∨ _)
  refine ⟨by decide +kernel, by decide +kernel, ?_⟩
  -- what Bob was saved in
  have hOne : (savedBy .plain revoked [] cutOffLater).map (fun store =>
      (restore .plain .standard .memory store "secret" 0 ⟨fun _ => 9, 0⟩).toOption.isSome) =
        [true] := by
    decide +kernel
  have hStart : Future .plain revoked [] revoked := .start
  have hLater := hStart.after (show allReturn .plain revoked cutOffLater = true by decide +kernel)
  generalize savedBy .plain revoked [] cutOffLater = saved at hOne hLater
  cases saved with
  | nil => cases hOne
  | cons store rest =>
    have hBack : (restore .plain .standard .memory store "secret" 0
        ⟨fun _ => 9, 0⟩).toOption.isSome = true := (List.cons.inj hOne).1
    cases hRestored : restore .plain .standard .memory store "secret" 0 ⟨fun _ => 9, 0⟩ with
    | error failure =>
      rw [hRestored] at hBack
      cases hBack
    | ok back =>
      exact ⟨store, back, .head _, hRestored, hFuture _ _ (hLater.restart (.head _) hRestored)⟩

end EndToEnd.Device
