import EndToEnd.Proofs.Entries

/-!
# Sending sides and the index

A sending side keeps at most one session. It sends, or it has ended and waits to be dropped; it is
the session of the epoch before the next, and the one entry of the side in the index is its own
(`Outbound.Settled`). Every operation keeps this.

Main results:

* `Outbound.settles_establish` — a session that begins takes the place of all others.
* `Outbound.settles_encrypt` — a message, whether it is made or not.
* `Outbound.settles_applyOutbound` — what is due for the session is done.
-/

namespace EndToEnd

namespace Outbound

/-- How the one session of a sending side stands in the index. It may be there at all only if `may`
holds. -/
structure Holds (own peer : String) (may : Prop) (index : UInt64 → Option Rotation.Deadline)
    (next : UInt64) (session : Session) : Prop where
  allowed : may
  id : session.id = ⟨own, peer, session.epoch, .outbound⟩
  last : session.epoch.toNat + 1 = next.toNat
  entry : (index session.epoch).map (·.retireAt) = some session.retireAt
  alone : ∀ epoch, epoch ≠ session.epoch → index epoch = none

/-- A sending side that agrees with the index: it is empty, or its one session sends, or that
session has ended. -/
inductive Settled (own peer : String) (may : Prop) (w : Work Outbound) : Prop where
  | idle (current : w.part.current = none) (expiring : w.part.expiring = [])
      (empty : ∀ epoch, w.deadlines.entries own peer .outbound epoch = none)
  | sends (session : Session) (current : w.part.current = some session)
      (expiring : w.part.expiring = []) (active : session.phase = .active)
      (begun : w.part.requestedAt = none) (unbarred : w.part.isRevoked = false)
      (holds : Holds own peer may (w.deadlines.entries own peer .outbound) w.part.nextEpoch session)
  | ended (session : Session) (deadline : UInt64) (current : w.part.current = none)
      (expiring : w.part.expiring = [session]) (ended : session.phase = .expiring deadline)
      (unbarred : w.part.isRevoked = false)
      (holds : Holds own peer may (w.deadlines.entries own peer .outbound) w.part.nextEpoch session)

/-- At most one session is kept, and the entries of the side are its own. -/
theorem Settled.live_cases {own peer : String} {may : Prop} {w : Work Outbound}
    (h : Settled own peer may w) :
    (w.part.live = [] ∧ ∀ epoch, w.deadlines.entries own peer .outbound epoch = none) ∨
      ∃ session, w.part.live = [session] ∧ w.part.isRevoked = false ∧
        Holds own peer may (w.deadlines.entries own peer .outbound) w.part.nextEpoch session := by
  unfold live
  cases h with
  | idle current expiring empty =>
    rw [current, expiring]
    exact .inl ⟨rfl, empty⟩
  | sends session current expiring active begun unbarred holds =>
    rw [current, expiring]
    exact .inr ⟨session, rfl, unbarred, holds⟩
  | ended session deadline current expiring ended unbarred holds =>
    rw [current, expiring]
    exact .inr ⟨session, rfl, unbarred, holds⟩

/-- The one session that is kept is that of the epoch before the next. -/
theorem Settled.only {own peer : String} {may : Prop} {w : Work Outbound}
    (h : Settled own peer may w) :
    w.part.live = [] ∨
      ∃ session, w.part.live = [session] ∧ session.epoch.toNat + 1 = w.part.nextEpoch.toNat ∧
        (w.part.current = some session ∧ session.phase = .active ∨
          w.part.expiring = [session] ∧ ∃ deadline, session.phase = .expiring deadline) := by
  unfold live
  cases h with
  | idle current expiring empty =>
    rw [current, expiring]
    exact .inl rfl
  | sends session current expiring active begun unbarred holds =>
    rw [current, expiring]
    exact .inr ⟨session, rfl, holds.last, .inl ⟨rfl, active⟩⟩
  | ended session deadline current expiring ended unbarred holds =>
    rw [current, expiring]
    exact .inr ⟨session, rfl, holds.last, .inr ⟨rfl, deadline, ended⟩⟩

/-- A side with a session that sends waits for none. -/
theorem Settled.requestedAt_eq_none {own peer : String} {may : Prop} {w : Work Outbound}
    (h : Settled own peer may w) (hSends : w.part.current.isSome = true) :
    w.part.requestedAt = none := by
  cases h with
  | idle current =>
    rw [current] at hSends
    cases hSends
  | sends session current expiring active begun => exact begun
  | ended session deadline current =>
    rw [current] at hSends
    cases hSends

/-- A side that may not keep sessions, or is barred, keeps none. -/
theorem Settled.live_eq_nil {own peer : String} {may : Prop} {w : Work Outbound}
    (h : Settled own peer may w) (hNot : ¬may ∨ w.part.isRevoked = true) : w.part.live = [] := by
  rcases h.live_cases with ⟨hNone, -⟩ | ⟨session, -, hOpen, hHolds⟩
  · exact hNone
  · have hOpen : ¬w.part.isRevoked = true := by simp [hOpen]
    exact (hNot.elim (· hHolds.allowed) hOpen).elim

/-- The ids of the sessions that are kept are those that the index has for the side. -/
theorem Settled.mem_ids_iff {own peer : String} {may : Prop} {w : Work Outbound}
    (h : Settled own peer may w) {id : SessionId} :
    id ∈ w.part.live.map (·.id) ↔
      id.Of own peer .outbound ∧ (w.deadlines.get? id).isSome = true := by
  -- a side has one session or none, and the index has one entry of it or none
  rcases h.live_cases with ⟨hLive, hEmpty⟩ | ⟨session, hLive, -, holds⟩
  · rw [hLive]
    refine ⟨fun hMem => (nomatch hMem), ?_⟩
    rintro ⟨⟨epoch, rfl⟩, hSome⟩
    have hNone : w.deadlines.get? ⟨own, peer, epoch, .outbound⟩ = none := hEmpty epoch
    rw [hNone] at hSome
    cases hSome
  · have hSome : (w.deadlines.get? session.id).isSome = true := by
      have hEntry := holds.entry
      rw [holds.id]
      exact Option.isSome_map.symm.trans (congrArg Option.isSome hEntry)
    rw [hLive, List.map_singleton, List.mem_singleton]
    constructor
    · rintro rfl
      exact ⟨⟨_, holds.id⟩, hSome⟩
    · rintro ⟨⟨epoch, rfl⟩, hSome⟩
      rw [holds.id]
      refine Decidable.by_contra fun hOther => ?_
      have hNone : w.deadlines.get? ⟨own, peer, epoch, .outbound⟩ = none :=
        holds.alone epoch fun hEpoch => hOther (by rw [hEpoch])
      rw [hNone] at hSome
      cases hSome

theorem Settled.mono {own peer : String} {may may' : Prop} {w : Work Outbound}
    (h : Settled own peer may w) (hImp : may → may') : Settled own peer may' w := by
  have hHolds {index : UInt64 → Option Rotation.Deadline} {next : UInt64} {session : Session}
      (holds : Holds own peer may index next session) : Holds own peer may' index next session :=
    ⟨hImp holds.allowed, holds.id, holds.last, holds.entry, holds.alone⟩
  cases h with
  | idle current expiring empty => exact .idle current expiring empty
  | sends session current expiring active begun unbarred holds =>
    exact .sends session current expiring active begun unbarred (hHolds holds)
  | ended session deadline current expiring ended unbarred holds =>
    exact .ended session deadline current expiring ended unbarred (hHolds holds)

/-- Work after which a sending side agrees with the index, and which touches the deadlines of that
side only. -/
structure Settles (own peer : String) (may : Prop) (w w' : Work Outbound) : Prop where
  settled : Settled own peer may w'
  deadlines : w.deadlines.Differs (SessionId.Of own peer .outbound) w'.deadlines

variable {own peer : String} {may : Prop} {w w' w'' : Work Outbound}

theorem Settles.refl (h : Settled own peer may w) : Settles own peer may w w := ⟨h, .refl _⟩

/-- Two pieces of work that settle a side, one behind the other. -/
theorem Settles.trans (h : Settles own peer may w w')
    (h' : Settled own peer may w' → Settles own peer may w' w'') : Settles own peer may w w'' :=
  ⟨(h' h.settled).settled, h.deadlines.trans (h' h.settled).deadlines⟩

/-- Nothing matters but the side and its entries. -/
theorem Settled.congr (h : Settled own peer may w) (hPart : w'.part = w.part)
    (hIndex : w'.deadlines.entries own peer .outbound = w.deadlines.entries own peer .outbound) :
    Settled own peer may w' := by
  cases h with
  | idle current expiring empty =>
    rw [← hPart] at current expiring
    rw [← hIndex] at empty
    exact .idle current expiring empty
  | sends session current expiring active begun unbarred holds =>
    rw [← hPart] at current expiring begun unbarred holds
    rw [← hIndex] at holds
    exact .sends session current expiring active begun unbarred holds
  | ended session deadline current expiring ended unbarred holds =>
    rw [← hPart] at current expiring unbarred holds
    rw [← hIndex] at holds
    exact .ended session deadline current expiring ended unbarred holds

theorem Settles.congr (h : Settles own peer may w w') (hPart : w''.part = w'.part)
    (hDeadlines : w''.deadlines = w'.deadlines) : Settles own peer may w w'' :=
  ⟨h.settled.congr hPart (by rw [hDeadlines]), hDeadlines ▸ h.deadlines⟩

/-- A request that is made or forgotten while nothing is sent. -/
theorem Settles.requested (h : Settled own peer may w) (hNone : w.part.current = none)
    (requestedAt : Option UInt64) :
    Settles own peer may w { w with part := { w.part with requestedAt := requestedAt } } := by
  refine ⟨?_, .refl _⟩
  cases h with
  | idle current expiring empty => exact .idle current expiring empty
  | sends session current =>
    rw [hNone] at current
    cases current
  | ended session deadline current expiring ended unbarred holds =>
    exact .ended session deadline current expiring ended unbarred holds

variable (s : Setting)

/-- Asking for an establishment keeps the side in agreement with the index. -/
theorem settles_request (h : Settled own peer may w) :
    Settles own peer may w { w with part := (w.part.request s.now).2 } := by
  unfold request
  split
  · exact .refl h
  · exact .requested h (by simpa using ‹¬w.part.current.isSome = true›) _

/-- Giving up an establishment keeps the side in agreement with the index. -/
theorem settles_timeOut (h : Settled own peer may w) (hTimedOut : w.part.hasTimedOut s = true)
    (id : String) : Settles own peer may w (timeOut s id w) := by
  have hNone : w.part.current = none := by
    unfold hasTimedOut at hTimedOut
    simp only [Bool.and_eq_true, Option.isNone_iff_eq_none] at hTimedOut
    exact hTimedOut.1
  exact (Settles.requested h hNone none).congr rfl rfl

/-- **Ending the session that sends:** it is the one that has ended from now on. -/
theorem settles_expireCurrent (h : Settled own peer may w) :
    Settles own peer may w (expireCurrent s w).2 := by
  unfold expireCurrent
  cases h with
  | idle current expiring empty =>
    rw [current]
    exact .refl (.idle current expiring empty)
  | ended session deadline current expiring ended unbarred holds =>
    rw [current]
    exact .refl (.ended session deadline current expiring ended unbarred holds)
  | sends session current expiring active begun unbarred holds =>
    rw [current]
    have hId := holds.id
    let deadline := s.config.rotation.retirement s.now
      (w.deadlines.entries own peer .outbound session.epoch)
    let ended : Session := { session with phase := .expiring deadline }
    have hEnded : (w.expire s session).1 = ended := by
      show session.expire (w.deadlines.retirement s.config.rotation session.id s.now) = ended
      rw [Rotation.Deadlines.retirement_eq, hId]
      unfold Session.expire
      rw [active]
      rfl
    have hDeadlines : (w.expire s session).2.deadlines =
        w.deadlines.markExpiring s.config.rotation ⟨own, peer, session.epoch, .outbound⟩ s.now := by
      rw [← hId]
      rfl
    -- the index has the deadline of the ended session and nothing else of this side
    have hIndex (epoch : UInt64) :
        ((w.expire s session).2.deadlines.entries own peer .outbound epoch).map (·.retireAt) =
          if epoch = session.epoch then some (some deadline)
          else (w.deadlines.entries own peer .outbound epoch).map (·.retireAt) := by
      rw [hDeadlines, Rotation.Deadlines.entries_markExpiring]
      split <;> rfl
    refine ⟨.ended ended deadline rfl ?_ rfl unbarred ?_, ?_⟩
    · -- the session that was current is the only one that winds down
      show w.part.expiring ++ [(w.expire s session).1] = [ended]
      rw [expiring, hEnded]
      rfl
    · refine ⟨holds.allowed, hId, holds.last, (hIndex _).trans (if_pos rfl), fun epoch hEpoch => ?_⟩
      have hSame := (hIndex epoch).trans (if_neg hEpoch)
      rw [holds.alone epoch hEpoch] at hSame
      exact Option.map_eq_none_iff.1 hSame
    · show w.deadlines.Differs _ (w.expire s session).2.deadlines
      have hOf : SessionId.Of own peer .outbound ⟨own, peer, session.epoch, .outbound⟩ := ⟨_, rfl⟩
      rw [hDeadlines]
      exact .markExpiring hOf _ _ _

/-- A rotation ends the session and gives its entry a deadline. -/
theorem settles_rotate (h : Settled own peer may w) (id : String) (reason : Rotation.Reason) :
    Settles own peer may w (rotate s id reason w).2 := by
  have hExpired := settles_expireCurrent s h
  unfold rotate
  split
  · rename_i w₁ hNothing
    rw [hNothing] at hExpired
    exact hExpired
  · rename_i epoch w₁ hEnded
    rw [hEnded] at hExpired
    exact hExpired.congr rfl rfl

/-- A rotation that is due keeps the side in agreement with the index. -/
theorem settles_rotateIfDue (h : Settled own peer may w) (id : String) (level : Level) :
    Settles own peer may w (rotateIfDue s id level w) := by
  unfold rotateIfDue
  split
  · exact settles_rotate s h id _
  · exact .refl h

/-- While nothing is sent, every entry is that of a session which has ended. -/
theorem Settled.of_current_eq_none (h : Settled own peer may w) (hNone : w.part.current = none) :
    (∀ session ∈ w.part.expiring, session.id = ⟨own, peer, session.epoch, .outbound⟩ ∧
        session.epoch.toNat + 1 = w.part.nextEpoch.toNat) ∧
      ∀ epoch, w.deadlines.entries own peer .outbound epoch = none ∨
        ⟨own, peer, epoch, .outbound⟩ ∈ w.part.expiring.map (·.id) := by
  cases h with
  | idle current expiring empty =>
    rw [expiring]
    exact ⟨fun _ h => (nomatch h), fun epoch => .inl (empty epoch)⟩
  | sends session current =>
    rw [hNone] at current
    cases current
  | ended session deadline current expiring ended unbarred holds =>
    rw [expiring]
    refine ⟨fun t ht => ?_, fun epoch => ?_⟩
    · obtain rfl := List.mem_singleton.1 ht
      exact ⟨holds.id, holds.last⟩
    · by_cases hEpoch : epoch = session.epoch
      · refine .inr (List.mem_singleton.2 ?_)
        rw [hEpoch]
        exact holds.id.symm
      · exact .inl (holds.alone epoch hEpoch)

/-- While nothing is sent, no session that has ended is of the next epoch. -/
theorem Settled.next_not_mem_ids (h : Settled own peer may w) (hNone : w.part.current = none) :
    ⟨own, peer, w.part.nextEpoch, .outbound⟩ ∉ w.part.expiring.map (·.id) := by
  intro hMem
  obtain ⟨session, hSession, hSame⟩ := List.mem_map.1 hMem
  have hBefore := ((h.of_current_eq_none hNone).1 session hSession).2
  have hEpoch : session.epoch = w.part.nextEpoch := congrArg SessionId.epoch hSame
  rw [hEpoch] at hBefore
  omega

variable {s} {P : Primitives} {record : Peer} {level : Level}

/-- What a session that begins, or does not, leaves in the index. -/
theorem deadlines_establish {result : Except Failure Session}
    (hMade : establish P s record level w = (result, w')) (id : SessionId) :
    w'.deadlines.get? id =
      match result with
      | .error _ => w.deadlines.get? id
      | .ok session =>
        if id ∈ w.part.expiring.map (·.id) then none
        else if id = session.id then some ⟨s.config.rotation.expiry s.now, none⟩
        else w.deadlines.get? id := by
  unfold establish at hMade
  dsimp only at hMade
  split at hMade
  · cases hMade
    rfl
  · cases hMade
    rw [Work.get?_retireAll]
    congr 1
    exact Rotation.Deadlines.get?_schedule ..

/-- A session that begins, or does not, touches the entries of the side only. -/
theorem differs_establish (h : Settled s.own.deviceId record.deviceId may w)
    (hNone : w.part.current = none) {result : Except Failure Session}
    (hMade : establish P s record level w = (result, w')) :
    w.deadlines.Differs (SessionId.Of s.own.deviceId record.deviceId .outbound) w'.deadlines := by
  have hDeadlines := deadlines_establish hMade
  rcases establish_cases hMade with ⟨failure, rfl, -⟩ | ⟨session, rfl, ⟨ephemeral, hBegun⟩, -⟩
  · exact fun id _ => hDeadlines id
  obtain ⟨keys, -, hSession⟩ := beginSession_eq_ok hBegun
  intro id hOf
  rw [hDeadlines]
  dsimp only
  rw [if_neg, if_neg]
  · rintro rfl
    exact hOf ⟨w.part.nextEpoch, congrArg Session.id hSession⟩
  · intro hMem
    obtain ⟨t, ht, rfl⟩ := List.mem_map.1 hMem
    exact hOf ⟨_, ((h.of_current_eq_none hNone).1 t ht).1⟩

/-- **A session that begins takes the place of all others.** -/
theorem settles_establish (h : Settled s.own.deviceId record.deviceId may w) (hMay : may)
    (hNone : w.part.current = none) (hOpen : w.part.isRevoked = false)
    {result : Except Failure Session} (hMade : establish P s record level w = (result, w'))
    (hReturns : w.part.nextEpoch ≤ w'.part.nextEpoch) :
    Settles s.own.deviceId record.deviceId may w w' ∧
      ∀ session, result = .ok session → w'.part.current = some session := by
  have hDeadlines := deadlines_establish hMade
  rcases establish_cases hMade with ⟨failure, rfl, hPart⟩ |
    ⟨session, rfl, ⟨ephemeral, hBegun⟩, hPart⟩
  · -- nothing begins
    have hSame : w'.deadlines = w.deadlines := Table.ext_get? hDeadlines
    exact ⟨(Settles.requested h hNone none).congr hPart hSame, fun _ hOk => (nomatch hOk)⟩
  obtain ⟨keys, -, hSession⟩ := beginSession_eq_ok hBegun
  have hId : session.id = ⟨s.own.deviceId, record.deviceId, w.part.nextEpoch, .outbound⟩ := by
    rw [hSession]
    rfl
  have hEpoch : session.epoch = w.part.nextEpoch := congrArg SessionId.epoch hId
  have hActive : session.phase = .active := by
    rw [hSession]
    rfl
  obtain ⟨-, hIndex⟩ := h.of_current_eq_none hNone
  have hNew : session.id ∉ w.part.expiring.map (·.id) := by
    rw [hId]
    exact h.next_not_mem_ids hNone
  -- the number of the epoch is the last that was given out
  have hLast : session.epoch.toNat + 1 = w'.part.nextEpoch.toNat := by
    have hNext : w'.part.nextEpoch = w.part.nextEpoch + 1 := by rw [hPart]
    have hLater := UInt64.le_iff_toNat_le.1 hReturns
    rw [hNext, UInt64.toNat_add] at hLater ⊢
    have hSize := w.part.nextEpoch.toNat_lt
    rw [hEpoch]
    have hOne : (1 : UInt64).toNat = 1 := rfl
    omega
  refine ⟨⟨.sends session ?_ ?_ hActive ?_ ?_ ⟨hMay, ?_, hLast, ?_, fun epoch hOther => ?_⟩, ?_⟩, ?_⟩
  · rw [hPart]
  · rw [hPart]
  · rw [hPart]
  · rw [hPart]
    exact hOpen
  · rw [hEpoch]
    -- the index agrees: it has this session, and every other entry was that of an ended one
    exact hId
  · show (w'.deadlines.get? ⟨_, _, session.epoch, _⟩).map _ = _
    rw [hEpoch, ← hId, hDeadlines]
    dsimp only
    rw [if_neg hNew, if_pos rfl, Session.retireAt_of_active hActive]
    rfl
  · refine (hDeadlines _).trans ?_
    dsimp only
    split
    · rfl
    · rename_i hNotEnded
      rw [if_neg fun hSame => hOther (congrArg SessionId.epoch hSame)]
      exact (hIndex epoch).resolve_right hNotEnded
  · exact differs_establish h hNone hMade
  · rintro session' hSame
    cases hSame
    rw [hPart]

/-- The session that sends, with its chain moved. -/
theorem Settled.move (h : Settled own peer may w) {session session' : Session}
    (hCurrent : w.part.current = some session) (hId : session'.id = session.id)
    (hPhase : session'.phase = session.phase)
    (hPart : w'.part = { w.part with current := some session' })
    (hDeadlines : w'.deadlines = w.deadlines) : Settled own peer may w' := by
  obtain ⟨part, deadlines, random, events⟩ := w'
  obtain rfl : part = _ := hPart
  obtain rfl : deadlines = w.deadlines := hDeadlines
  -- only a side that sends has a current session
  cases h with
  | idle current expiring empty =>
    rw [hCurrent] at current
    cases current
  | ended session deadline current expiring ended unbarred holds =>
    rw [hCurrent] at current
    cases current
  | sends sends current expiring active begun unbarred holds =>
    rw [hCurrent] at current
    cases current
    have hEpoch : session'.epoch = session.epoch := congrArg SessionId.epoch hId
    have hRetire : session'.retireAt = session.retireAt := by
      unfold Session.retireAt
      rw [hPhase]
    refine .sends session' rfl expiring (hPhase.trans active) begun unbarred ⟨holds.allowed, ?_, ?_,
      ?_, ?_⟩
    · rw [hId, hEpoch]
      exact holds.id
    · rw [hEpoch]
      exact holds.last
    · rw [hEpoch, hRetire]
      exact holds.entry
    · rw [hEpoch]
      exact holds.alone

/-- The last part of a message: its envelope is made with the session that was found for it. -/
def encryptWith (P : Primitives) (s : Setting) (plaintext : Bytes) :
    Except Failure Session × Work Outbound → Except Failure Envelope × Work Outbound
  | (.error failure, w) => (.error failure, w)
  | (.ok session, w) =>
    match session.encrypt P s.own plaintext w.random with
    | .error failure => (.error failure, w)
    | .ok (e, session, random) =>
      (.ok e, { w with random := random, part := { w.part with current := some session } })

/-- **A message that nothing keeps back:** a rotation if one is due, a session, and the envelope. -/
theorem encrypt_eq_encryptWith {plaintext : Bytes} (hOpen : w.part.isRevoked = false)
    (hInTime : w.part.hasTimedOut s = false) :
    encrypt P s record level plaintext w =
      encryptWith P s plaintext (ready P s record level (rotateIfDue s record.deviceId level w)) := by
  unfold encrypt
  rw [hOpen, hInTime]
  rfl

/-- Making the envelope leaves everything alone, or it moves the chain of the session. -/
theorem encryptWith_cases (plaintext : Bytes) (result : Except Failure Session) (w : Work Outbound) :
    (encryptWith P s plaintext (result, w)).2 = w ∨
      ∃ session session' random, result = .ok session ∧ session'.id = session.id ∧
        session'.phase = session.phase ∧
        (encryptWith P s plaintext (result, w)).2 =
          { w with random := random, part := { w.part with current := some session' } } := by
  cases result with
  | error failure => exact .inl rfl
  | ok session =>
    unfold encryptWith
    dsimp only
    split
    · exact .inl rfl
    · rename_i e session' random hMade
      obtain ⟨-, hSession, -⟩ := Session.encrypt_cases hMade
      refine .inr ⟨session, session', random, rfl, ?_, ?_, rfl⟩
      · rw [hSession]
      · rw [hSession]

/-- **A message to a peer,** whether it is made or not. -/
theorem settles_encrypt (h : Settled s.own.deviceId record.deviceId may w) (hMay : may)
    {plaintext : Bytes}
    (hReturns : w.part.nextEpoch ≤ (encrypt P s record level plaintext w).2.part.nextEpoch) :
    Settles s.own.deviceId record.deviceId may w (encrypt P s record level plaintext w).2 := by
  -- two refusals, of which the second forgets the establishment that took too long
  by_cases hBarred : w.part.isRevoked = true
  · unfold encrypt
    rw [if_pos hBarred]
    exact .refl h
  by_cases hTimedOut : w.part.hasTimedOut s = true
  · unfold encrypt
    rw [if_neg hBarred, if_pos hTimedOut]
    exact settles_timeOut s h hTimedOut record.deviceId
  rw [Bool.not_eq_true] at hBarred hTimedOut
  rw [encrypt_eq_encryptWith hBarred hTimedOut] at hReturns ⊢
  -- whatever is due ends first; no epoch is counted by that
  refine (settles_rotateIfDue s h record.deviceId level).trans fun hDue => ?_
  have hRotated : (rotateIfDue s record.deviceId level w).part.nextEpoch = w.part.nextEpoch ∧
      (rotateIfDue s record.deviceId level w).part.isRevoked = false := by
    rcases rotateIfDue_cases s record.deviceId level w with ⟨_, -, -, hSame⟩ | ⟨-, hRests, hSame⟩
    · rw [hSame]
      exact ⟨rfl, hBarred⟩
    · exact ⟨hRests.nextEpoch, hSame.trans hBarred⟩
  obtain ⟨hNext, hOpen⟩ := hRotated
  rw [← hNext] at hReturns
  generalize rotateIfDue s record.deviceId level w = w₁ at hDue hOpen hReturns ⊢
  -- the session for the message is there, or it begins
  rcases hReady : ready P s record level w₁ with ⟨result, w₂⟩
  rw [hReady] at hReturns
  have hMade := encryptWith_cases (P := P) (s := s) plaintext result w₂
  have hNextMade :
      (encryptWith P s plaintext (result, w₂)).2.part.nextEpoch = w₂.part.nextEpoch := by
    rcases hMade with hSame | ⟨_, _, _, -, -, -, hSame⟩ <;> rw [hSame]
  rw [hNextMade] at hReturns
  have hFound : Settles s.own.deviceId record.deviceId may w₁ w₂ ∧
      ∀ session, result = .ok session → w₂.part.current = some session := by
    unfold ready at hReady
    cases hCurrent : w₁.part.current with
    | none =>
      rw [hCurrent] at hReady
      exact settles_establish hDue hMay hCurrent hOpen hReady hReturns
    | some session =>
      rw [hCurrent] at hReady
      cases hReady
      refine ⟨.refl hDue, ?_⟩
      rintro session' hSame
      cases hSame
      exact hCurrent
  obtain ⟨hSettles, hCurrent⟩ := hFound
  rcases hMade with hSame | ⟨session, session', random, hOk, hId, hPhase, hMoved⟩
  · rw [hSame]
    exact hSettles
  · rw [hMoved]
    exact ⟨hSettles.settled.move (hCurrent session hOk) hId hPhase rfl rfl, hSettles.deadlines⟩

/-- A message touches the entries of the side only, even if the counter of the epochs overruns. -/
theorem differs_encrypt (h : Settled s.own.deviceId record.deviceId may w) (plaintext : Bytes) :
    w.deadlines.Differs (SessionId.Of s.own.deviceId record.deviceId .outbound)
      (encrypt P s record level plaintext w).2.deadlines := by
  -- two refusals touch no entry
  by_cases hBarred : w.part.isRevoked = true
  · unfold encrypt
    rw [if_pos hBarred]
    exact .refl _
  by_cases hTimedOut : w.part.hasTimedOut s = true
  · unfold encrypt
    rw [if_neg hBarred, if_pos hTimedOut]
    exact .refl _
  rw [Bool.not_eq_true] at hBarred hTimedOut
  rw [encrypt_eq_encryptWith hBarred hTimedOut]
  -- a rotation that is due and a session that begins change entries of this side only
  obtain ⟨hDue, hRotated⟩ := settles_rotateIfDue s h record.deviceId level
  refine hRotated.trans ?_
  generalize rotateIfDue s record.deviceId level w = w₁ at hDue
  rcases hReady : ready P s record level w₁ with ⟨result, w₂⟩
  have hMade : (encryptWith P s plaintext (result, w₂)).2.deadlines = w₂.deadlines := by
    rcases encryptWith_cases (P := P) (s := s) plaintext result w₂ with
      hSame | ⟨_, _, _, -, -, -, hSame⟩ <;> rw [hSame]
  rw [hMade]
  unfold ready at hReady
  cases hCurrent : w₁.part.current with
  | none =>
    rw [hCurrent] at hReady
    exact differs_establish hDue hCurrent hReady
  | some session =>
    rw [hCurrent] at hReady
    cases hReady
    exact .refl _

/-- **What is due for a session that sends is done,** and touches its own entry only. -/
theorem settles_applyOutbound (h : Settled own peer may w) {id : SessionId}
    (hId : id = ⟨own, peer, id.epoch, .outbound⟩) {entry : Rotation.Deadline}
    (hEntry : w.deadlines.get? id = some entry) {action : Rotation.DueAction}
    (hDue : entry.due? s.now = some action) :
    (Pairs.applyOutbound s id action w).1 = true ∧
      Settled own peer may (Pairs.applyOutbound s id action w).2 ∧
      w.deadlines.Differs (· = id) (Pairs.applyOutbound s id action w).2.deadlines := by
  have hIndex : w.deadlines.entries own peer .outbound id.epoch = some entry := by
    rw [← hEntry, hId]
    rfl
  -- the entry is that of the one session, which has ended if and only if it is to be dropped
  have hOwn {session : Session} (holds : Holds own peer may
      (w.deadlines.entries own peer .outbound) w.part.nextEpoch session) :
      session.epoch = id.epoch ∧ session.id = id ∧ entry.retireAt = session.retireAt := by
    have hEpoch : id.epoch = session.epoch := by
      refine Decidable.by_contra fun hOther => ?_
      rw [holds.alone _ hOther] at hIndex
      cases hIndex
    have hRetire := holds.entry
    rw [← hEpoch, hIndex] at hRetire
    refine ⟨hEpoch.symm, ?_, Option.some.inj hRetire⟩
    rw [holds.id, ← hEpoch]
    exact hId.symm
  have hPhase := Rotation.Deadline.retireAt_of_due hDue
  cases h with
  -- a side without sessions has no entry in the index, so nothing of it can be due
  | idle current expiring empty =>
    rw [empty] at hIndex
    cases hIndex
  | sends session current expiring active begun unbarred holds =>
    obtain ⟨hEpoch, hSame, hRetire⟩ := hOwn holds
    have hActive := Session.retireAt_of_active active
    -- an active session has no deadline of retirement: what is due is its rotation
    rcases hPhase with ⟨rfl, -⟩ | ⟨-, retireAt, hEnded, -⟩
    · have hRotates : Pairs.applyOutbound s id .expire w =
          rotate s id.peer .intervalElapsed w := by
        simp [Pairs.applyOutbound, current, hEpoch]
      have hSettles := settles_rotate s (.sends session current expiring active begun unbarred holds)
        id.peer .intervalElapsed
      rw [hRotates]
      refine ⟨?_, hSettles.settled, ?_⟩
      · simp [rotate, expireCurrent, current]
      · have hMarked : (rotate s id.peer .intervalElapsed w).2.deadlines =
            w.deadlines.markExpiring s.config.rotation session.id s.now := by
          simp [rotate, expireCurrent, current, Work.note, Work.expire]
        intro other hOther
        rw [hMarked, hSame]
        exact (Rotation.Deadlines.get?_markExpiring ..).trans (if_neg hOther)
    · rw [hRetire, hActive] at hEnded
      cases hEnded
  | ended session deadline current expiring ended unbarred holds =>
    obtain ⟨hEpoch, hSame, hRetire⟩ := hOwn holds
    have hEnded := Session.retireAt_of_expiring ended
    -- an ended session has one: what is due is to drop it
    rcases hPhase with ⟨-, hActive⟩ | ⟨rfl, -⟩
    · rw [hRetire, hEnded] at hActive
      cases hActive
    · have hDrops : Pairs.applyOutbound s id .retire w =
          (true, Work.retire s "grace window elapsed"
            { w with part := { w.part with expiring := [] } } session) := by
        simp [Pairs.applyOutbound, expiring, hEpoch]
      rw [hDrops]
      refine ⟨rfl, .idle current rfl fun epoch => ?_, ?_⟩
      · show (w.deadlines.remove session.id).entries own peer .outbound epoch = none
        rw [hSame, hId, Rotation.Deadlines.entries_remove]
        split
        · rfl
        · rename_i hOther
          exact holds.alone epoch fun hNot => hOther (hNot.trans hEpoch)
      · intro other hOther
        show (w.deadlines.remove session.id).get? other = _
        rw [hSame]
        exact (Rotation.Deadlines.get?_remove ..).trans (if_neg hOther)

end Outbound

end EndToEnd
