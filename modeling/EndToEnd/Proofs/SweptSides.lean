import EndToEnd.Proofs.Schedules

/-!
# What a sweep leaves

A sweep as of some time ends the active sessions whose time is over, drops the ended ones whose
grace is over, and gives up the establishments that were asked for too long ago. What it leaves is
said here side by side, without a look at the index that it goes by (`Pairs.swept`).

A sweep takes its turns one after the other, from a list that it made before the first. What is left
behind some of them is `sweptBy`, for the sessions that had their turns; one turn more adds one
session to these.

Main results:

* `Session.due?_entry` — what the entry of a session says is due.
* `Outbound.sweptBy_sweptBy`, `Inbound.sweptBy_sweptBy` — turns that are taken after others.
* `Outbound.applyOutbound_eq`, `Inbound.applyInbound_eq` — one turn.
-/

namespace EndToEnd

-- ---------------------------------------------------------------------------
-- What is due for a session
-- ---------------------------------------------------------------------------

/-- The whole milliseconds in a span, however many. -/
def Duration.wholeMillis (d : Duration) : Nat := d.secs.toNat * 1000 + d.nanos.toNat / 1000000

/-- A span is counted in 64 bits. -/
theorem Duration.toNat_millis (d : Duration) :
    d.millis.toNat = d.wholeMillis % UInt64.size := UInt64.toNat_ofNat'

namespace Session

variable {p : Rotation.Policy} {now later deadline : UInt64} {session : Session}

/-- Whether a session has not ended although its time is over. -/
def hasAged (p : Rotation.Policy) (now : UInt64) (session : Session) : Bool :=
  session.isActive && p.expiry session.createdAt ≤ now

/-- Whether a session has ended and its grace is over. -/
def hasLapsed (now : UInt64) (session : Session) : Bool :=
  match session.phase with
  | .active => false
  | .expiring deadline => deadline ≤ now

/-- When a session has aged, in numbers. -/
theorem hasAged_iff :
    session.hasAged p now = true ↔ session.phase = .active ∧
      min (session.createdAt.toNat + p.interval.millis.toNat) (UInt64.size - 1) ≤ now.toNat := by
  unfold hasAged isActive Rotation.Policy.expiry
  rw [Bool.and_eq_true, decide_eq_true_eq, decide_eq_true_eq, UInt64.le_iff_toNat_le,
    toNat_saturatingAdd]

theorem hasLapsed_eq (now : UInt64) (session : Session) :
    session.hasLapsed now = session.retireAt.any (· ≤ now) := by
  unfold hasLapsed retireAt
  cases session.phase <;> rfl

/-- **What the entry of a session says is due.** -/
theorem due?_entry (p : Rotation.Policy) (now : UInt64) (session : Session) :
    (⟨p.expiry session.createdAt, session.retireAt⟩ : Rotation.Deadline).due? now =
      if session.hasAged p now then some .expire
      else if session.hasLapsed now then some .retire
      else none := by
  unfold Rotation.Deadline.due? hasAged hasLapsed isActive retireAt
  cases session.phase <;> simp

/-- What has only aged has not lapsed, at any time. -/
theorem hasLapsed_eq_false_of_hasAged (h : session.hasAged p now = true) :
    session.hasLapsed later = false := by
  unfold hasAged isActive at h
  simp only [Bool.and_eq_true, decide_eq_true_eq] at h
  unfold hasLapsed
  rw [h.1]

/-- A session that has ended does not end again. -/
theorem hasAged_expire (p : Rotation.Policy) (now deadline : UInt64) (session : Session) :
    (session.expire deadline).hasAged p now = false := by
  have hEnded : (session.expire deadline).isActive = false := by
    rw [Bool.eq_false_iff, ne_eq, isActive_iff, retireAt_expire]
    exact nofun
  unfold hasAged
  rw [hEnded, Bool.false_and]

/-- What has aged at some time has aged later. -/
theorem hasAged_later (h : session.hasAged p now = true) (hLater : now ≤ later) :
    session.hasAged p later = true := by
  unfold hasAged at h ⊢
  simp only [Bool.and_eq_true, decide_eq_true_eq] at h ⊢
  exact ⟨h.1, UInt64.le_trans h.2 hLater⟩

/-- What has lapsed stays so as the clock goes on. -/
theorem hasLapsed_later (h : session.hasLapsed now = true) (hLater : now ≤ later) :
    session.hasLapsed later = true := by
  unfold hasLapsed at h ⊢
  split
  · rename_i hActive
    rw [hActive] at h
    cases h
  · rename_i deadline hEnded
    rw [hEnded] at h
    simp only [decide_eq_true_eq] at h ⊢
    exact UInt64.le_trans h hLater

/-- A session that ends now keeps its grace. -/
theorem hasLapsed_expire (hAged : session.hasAged p now = true) (hGrace : later < deadline) :
    (session.expire deadline).hasLapsed later = false := by
  have hActive : session.isActive = true := (Bool.and_eq_true_iff.1 hAged).1
  rw [hasLapsed_eq, retireAt_expire, isActive_iff.1 hActive]
  simpa using hGrace

end Session

-- ---------------------------------------------------------------------------
-- What a sweep leaves
-- ---------------------------------------------------------------------------

namespace Outbound

variable {deadline : UInt64} {ends goes ends' goes' : Session → Bool} {o : Outbound}

/-- A sending side after some sessions have ended and others were dropped. -/
def sweptBy (deadline : UInt64) (ends goes : Session → Bool) (o : Outbound) : Outbound :=
  { o with
    current := o.current.filter fun session => !ends session
    expiring := o.expiring.filter (fun session => !goes session) ++
      (o.current.filter ends).toList.map (·.expire deadline) }

/-- Whether an establishment was asked for so long ago that it is given up. -/
def isOverdue (timeout : Duration) (now : UInt64) (o : Outbound) : Bool :=
  o.requestedAt.any fun since => timeout.millis ≤ saturatingSub now since

/-- A sending side after a sweep. -/
def swept (c : Config) (now : UInt64) (o : Outbound) : Outbound :=
  { o.sweptBy (c.rotation.graceDeadline now) (·.hasAged c.rotation now) (·.hasLapsed now) with
    requestedAt := if o.isOverdue c.establishmentTimeout now then none else o.requestedAt }

/-- A sending side that was looked at for an establishment to give up. -/
def checked (s : Setting) (o : Outbound) : Outbound :=
  if o.hasTimedOut s then { o with requestedAt := none } else o

/-- Only what is said of the sessions that are there matters. -/
theorem sweptBy_congr
    (h : ∀ session ∈ o.live, ends' session = ends session ∧ goes' session = goes session) :
    o.sweptBy deadline ends' goes' = o.sweptBy deadline ends goes := by
  have hCurrent {session : Session} (hSession : o.current = some session) :
      ends' session = ends session := (h session (by simp [live, hSession])).1
  have hExpiring : o.expiring.filter (fun session => !goes' session) =
      o.expiring.filter fun session => !goes session :=
    List.filter_congr fun session hMem => by rw [(h session (by simp [live, hMem])).2]
  unfold sweptBy
  rw [hExpiring]
  cases hSession : o.current with
  | none => rfl
  | some session => simp only [Option.filter_some, hCurrent hSession]

/-- A sweep in which no session ends or goes changes nothing. -/
theorem sweptBy_eq_self (h : ∀ session ∈ o.live, ends session = false ∧ goes session = false) :
    o.sweptBy deadline ends goes = o := by
  rw [sweptBy_congr h]
  have hAll : o.expiring.filter (fun _ => !false) = o.expiring := List.filter_eq_self.2 (by simp)
  unfold sweptBy
  rw [hAll]
  obtain ⟨current, expiring, next, requestedAt, isRevoked⟩ := o
  cases current <;> simp [Option.filter_some]

/-- Turns that are taken after others. -/
theorem sweptBy_sweptBy
    (h : ∀ session, ends session = true → ends' (session.expire deadline) = false ∧
      goes' session = false ∧ goes' (session.expire deadline) = false) :
    (o.sweptBy deadline ends goes).sweptBy deadline ends' goes' =
      o.sweptBy deadline (fun session => ends session || ends' session)
        (fun session => goes session || goes' session) := by
  unfold sweptBy
  cases o.current with
  | none => simp [List.filter_filter, Bool.and_comm]
  | some session =>
    cases hEnds : ends session with
    | false => simp [Option.filter_some, hEnds, List.filter_filter, Bool.and_comm]
    | true =>
      simp [Option.filter_some, hEnds, List.filter_filter, (h session hEnds).2.2, Bool.and_comm]

/-- Nothing is due any more for a session that a sweep has left. -/
theorem Settled.rests_of_mem_swept {own peer : String} {may : Prop} {w : Work Outbound}
    (h : Settled own peer may w) {c : Config} {now : UInt64}
    (hGrace : now < c.rotation.graceDeadline now) {session : Session}
    (hMem : session ∈ (w.part.swept c now).live) :
    session.hasAged c.rotation now = false ∧ session.hasLapsed now = false := by
  have hMem : (session ∈ w.part.current ∧ session.hasAged c.rotation now = false) ∨
      (session ∈ w.part.expiring ∧ session.hasLapsed now = false) ∨
      ∃ t, (t ∈ w.part.current ∧ t.hasAged c.rotation now = true) ∧
        t.expire (c.rotation.graceDeadline now) = session := by
    simpa [live, swept, sweptBy, Option.mem_filter_iff] using hMem
  rcases hMem with ⟨hCurrent, hYoung⟩ | ⟨hExpiring, hKept⟩ | ⟨t, ⟨-, hAged⟩, rfl⟩
  · -- a session that sends has not ended
    refine ⟨hYoung, ?_⟩
    cases h with
    | idle current =>
      rw [current] at hCurrent
      cases hCurrent
    | sends only current expiring active =>
      rw [current] at hCurrent
      cases hCurrent
      rw [Session.hasLapsed_eq, Session.retireAt_of_active active]
      rfl
    | ended only deadline current =>
      rw [current] at hCurrent
      cases hCurrent
  · -- a session that has ended does not age
    refine ⟨?_, hKept⟩
    cases h with
    | idle current expiring =>
      rw [expiring] at hExpiring
      cases hExpiring
    | sends only current expiring =>
      rw [expiring] at hExpiring
      cases hExpiring
    | ended only deadline current expiring ended =>
      rw [expiring] at hExpiring
      obtain rfl := List.mem_singleton.1 hExpiring
      unfold Session.hasAged Session.isActive
      rw [ended]
      rfl
  · -- a session that this sweep has ended is in its grace
    exact ⟨Session.hasAged_expire .., Session.hasLapsed_expire hAged hGrace⟩

/-- Behind a sweep, no establishment is waited for too long, nor was it before. -/
theorem hasTimedOut_swept {s : Setting} {now : UInt64} (hEarlier : s.now ≤ now) (o : Outbound) :
    (o.swept s.config now).hasTimedOut s = false := by
  rw [Bool.eq_false_iff]
  intro hLate
  obtain ⟨-, hLate⟩ := Bool.and_eq_true_iff.1 hLate
  obtain ⟨since, hSince, hLong⟩ := (Option.any_eq_true _ _).1 hLate
  have hSince : (if o.isOverdue s.config.establishmentTimeout now then none
      else o.requestedAt) = some since := hSince
  split at hSince
  · cases hSince
  · rename_i hInTime
    refine hInTime ((Option.any_eq_true _ _).2 ⟨since, hSince, ?_⟩)
    rw [decide_eq_true_eq] at hLong ⊢
    rw [UInt64.le_iff_toNat_le, toNat_saturatingSub] at hLong ⊢
    have hNat := UInt64.le_iff_toNat_le.1 hEarlier
    omega

end Outbound

namespace Inbound

variable {deadline : UInt64} {ends goes ends' goes' : Session → Bool} {i : Inbound}

/-- A receiving side after some sessions have ended and others were dropped. -/
def sweptBy (deadline : UInt64) (ends goes : Session → Bool) (i : Inbound) : Inbound :=
  { i with
    epochs := (i.epochs.filter fun _ session => !goes session).mapValues fun session =>
      if ends session then session.expire deadline else session }

/-- A receiving side after a sweep. -/
def swept (c : Config) (now : UInt64) (i : Inbound) : Inbound :=
  i.sweptBy (c.rotation.graceDeadline now) (·.hasAged c.rotation now) (·.hasLapsed now)

/-- Behind a sweep the session of an epoch is gone, or ended, or as it was. -/
theorem get?_sweptBy (deadline : UInt64) (ends goes : Session → Bool) (i : Inbound)
    (epoch : UInt64) :
    (i.sweptBy deadline ends goes).epochs.get? epoch =
      ((i.epochs.get? epoch).filter fun session => !goes session).map fun session =>
        if ends session then session.expire deadline else session := by
  unfold sweptBy
  rw [Table.get?_mapValues, Table.get?_filter]

/-- What is left is known by its epochs. -/
theorem eq_sweptBy {i' : Inbound} (hLatest : i'.latest = i.latest)
    (hBarred : i'.isRevoked = i.isRevoked)
    (hEpochs : ∀ epoch, i'.epochs.get? epoch = (i.sweptBy deadline ends goes).epochs.get? epoch) :
    i' = i.sweptBy deadline ends goes := by
  obtain ⟨epochs, latest, isRevoked⟩ := i'
  obtain rfl : latest = i.latest := hLatest
  obtain rfl : isRevoked = i.isRevoked := hBarred
  obtain rfl : epochs = _ := Table.ext_get? hEpochs
  rfl

/-- Only what ends and goes of the sessions that are there matters. -/
theorem sweptBy_congr
    (h : ∀ session ∈ i.live, ends' session = ends session ∧ goes' session = goes session) :
    i.sweptBy deadline ends' goes' = i.sweptBy deadline ends goes := by
  refine eq_sweptBy rfl rfl fun epoch => ?_
  rw [get?_sweptBy, get?_sweptBy]
  cases hSession : i.epochs.get? epoch with
  | none => rfl
  | some session =>
    obtain ⟨hEnds, hGoes⟩ := h session (mem_live_iff.2 ⟨epoch, hSession⟩)
    simp only [Option.filter_some, hGoes]
    cases goes session <;> simp [hEnds]

/-- A sweep in which no session ends or goes changes nothing. -/
theorem sweptBy_eq_self (h : ∀ session ∈ i.live, ends session = false ∧ goes session = false) :
    i.sweptBy deadline ends goes = i := by
  rw [sweptBy_congr h]
  refine (eq_sweptBy rfl rfl fun epoch => ?_).symm
  rw [get?_sweptBy]
  cases i.epochs.get? epoch <;> rfl

/-- Turns that are taken after others. -/
theorem sweptBy_sweptBy
    (h : ∀ session, ends session = true → ends' (session.expire deadline) = false ∧
      goes' session = false ∧ goes' (session.expire deadline) = false) :
    (i.sweptBy deadline ends goes).sweptBy deadline ends' goes' =
      i.sweptBy deadline (fun session => ends session || ends' session)
        (fun session => goes session || goes' session) := by
  refine eq_sweptBy rfl rfl fun epoch => ?_
  simp only [get?_sweptBy]
  cases i.epochs.get? epoch with
  | none => rfl
  | some session =>
    cases hGoes : goes session with
    | true => simp [Option.filter_some, hGoes]
    | false =>
      cases hEnds : ends session with
      | false => cases hLater : goes' session <;> simp [Option.filter_some, hGoes, hEnds, hLater]
      | true =>
        obtain ⟨hOnce, hKept, hKeptEnded⟩ := h session hEnds
        simp [Option.filter_some, hGoes, hEnds, hOnce, hKept, hKeptEnded]

/-- Nothing is due any more for a session that a sweep has left. -/
theorem rests_of_mem_swept {c : Config} {now : UInt64}
    (hGrace : now < c.rotation.graceDeadline now) {session : Session}
    (hMem : session ∈ (i.swept c now).live) :
    session.hasAged c.rotation now = false ∧ session.hasLapsed now = false := by
  obtain ⟨epoch, hSession⟩ := mem_live_iff.1 hMem
  unfold swept at hSession
  rw [get?_sweptBy] at hSession
  obtain ⟨t, ht, rfl⟩ := Option.map_eq_some_iff.1 hSession
  obtain ⟨-, hKept⟩ := Option.filter_eq_some_iff.1 ht
  split
  · rename_i hAged
    exact ⟨Session.hasAged_expire .., Session.hasLapsed_expire hAged hGrace⟩
  · rename_i hYoung
    exact ⟨by simpa using hYoung, by simpa using hKept⟩

end Inbound

namespace Pairs

/-- All sides after some sessions have ended and others were dropped. -/
def sweptBy (deadline : UInt64) (ends goes : Session → Bool) (p : Pairs) : Pairs :=
  ⟨p.outbound.mapValues (·.sweptBy deadline ends goes),
    p.inbound.mapValues (·.sweptBy deadline ends goes)⟩

/-- All sides after a sweep as of some time. -/
def swept (c : Config) (now : UInt64) (p : Pairs) : Pairs :=
  ⟨p.outbound.mapValues (·.swept c now), p.inbound.mapValues (·.swept c now)⟩

end Pairs

-- ---------------------------------------------------------------------------
-- One turn
-- ---------------------------------------------------------------------------

namespace Setting

/-- Whether a session ends, if sessions with some ids have their turns. -/
def ends (s : Setting) (ids : List SessionId) (session : Session) : Bool :=
  decide (session.id ∈ ids) && session.hasAged s.config.rotation s.now

/-- Whether a session is dropped, if sessions with some ids have their turns. -/
def goes (s : Setting) (ids : List SessionId) (session : Session) : Bool :=
  decide (session.id ∈ ids) && session.hasLapsed s.now

/-- The grace of what ends now. -/
def grace (s : Setting) : UInt64 := s.config.rotation.graceDeadline s.now

/-- What is due for a session. -/
def due? (s : Setting) (session : Session) : Option Rotation.DueAction :=
  (⟨s.config.rotation.expiry session.createdAt, session.retireAt⟩ : Rotation.Deadline).due? s.now

variable {s : Setting} {session : Session}

/-- A session that does not have its turn stays. -/
theorem stays_of_not_mem {ids : List SessionId} (h : session.id ∉ ids) :
    s.ends ids session = false ∧ s.goes ids session = false := by
  simp [ends, goes, h]

/-- A session that is due to end has aged. -/
theorem aged_of_due (h : s.due? session = some .expire) :
    session.hasAged s.config.rotation s.now = true := by
  unfold due? at h
  rw [Session.due?_entry] at h
  split at h
  · assumption
  · split at h <;> cases h

/-- A session that is due to be dropped has lapsed. -/
theorem lapsed_of_due (h : s.due? session = some .retire) : session.hasLapsed s.now = true := by
  unfold due? at h
  rw [Session.due?_entry] at h
  split at h
  · cases h
  · split at h
    · assumption
    · cases h

end Setting

namespace Outbound

variable {own peer : String} {may : Prop} {w : Work Outbound} {s : Setting} {session : Session}

/-- **The turn of a session that sends.** -/
theorem applyOutbound_eq (h : Settled own peer may w) (hLive : session ∈ w.part.live)
    (hEntry : w.deadlines.get? session.id =
      some ⟨s.config.rotation.expiry session.createdAt, session.retireAt⟩)
    {action : Rotation.DueAction} (hDue : s.due? session = some action) :
    (Pairs.applyOutbound s session.id action w).2.part =
        w.part.sweptBy s.grace (s.ends [session.id]) (s.goes [session.id]) ∧
      (Pairs.applyOutbound s session.id action w).2.random = w.random := by
  unfold live at hLive
  cases h with
  | idle current expiring =>
    rw [current, expiring] at hLive
    cases hLive
  -- an active session: its age alone can be due, and it winds down
  | sends only current expiring active =>
    rw [current, expiring] at hLive
    obtain rfl := List.mem_singleton.1 hLive
    cases action with
    | retire =>
      have hLapsed := Setting.lapsed_of_due hDue
      unfold Session.hasLapsed at hLapsed
      rw [active] at hLapsed
      cases hLapsed
    | expire =>
      have hEnds : s.ends [session.id] session = true := by
        simp [Setting.ends, Setting.aged_of_due hDue]
      have hDeadline : w.deadlines.retirement s.config.rotation session.id s.now = s.grace := by
        rw [Rotation.Deadlines.retirement_eq, hEntry, Session.retireAt_of_active active]
        rfl
      have hRotates : Pairs.applyOutbound s session.id .expire w =
          rotate s session.id.peer .intervalElapsed w := by
        simp [Pairs.applyOutbound, current, Session.epoch]
      rw [hRotates]
      simp [rotate, expireCurrent, current, expiring, sweptBy, hEnds, Option.filter_some,
        Work.expire, Work.note, hDeadline]
  -- an ended session: the end of its grace alone can be due, and it is dropped
  | ended only deadline current expiring ended =>
    rw [current, expiring] at hLive
    obtain rfl := List.mem_singleton.1 hLive
    cases action with
    | expire =>
      have hAged := Setting.aged_of_due hDue
      unfold Session.hasAged Session.isActive at hAged
      rw [ended] at hAged
      cases hAged
    | retire =>
      have hGoes : s.goes [session.id] session = true := by
        simp [Setting.goes, Setting.lapsed_of_due hDue]
      simp [Pairs.applyOutbound, current, expiring, sweptBy, hGoes, Session.epoch, Work.retire,
        Work.note]

end Outbound

namespace Inbound

variable {own peer : String} {may : Prop} {w : Work Inbound} {s : Setting} {session : Session}

/-- **The turn of a session that receives.** -/
theorem applyInbound_eq (h : Settled own peer may w) (hLive : session ∈ w.part.live)
    (hEntry : w.deadlines.get? session.id =
      some ⟨s.config.rotation.expiry session.createdAt, session.retireAt⟩)
    {action : Rotation.DueAction} (hDue : s.due? session = some action) :
    (Pairs.applyInbound s session.id action w).2.part =
        w.part.sweptBy s.grace (s.ends [session.id]) (s.goes [session.id]) ∧
      (Pairs.applyInbound s session.id action w).2.random = w.random := by
  obtain ⟨epoch, hSession⟩ := mem_live_iff.1 hLive
  have hId := (h.holds epoch session hSession).id
  have hEpoch : session.id.epoch = epoch := congrArg SessionId.epoch hId
  -- the sweep has only this session in hand, and passes over the others
  have hOthers (other : UInt64) (t : Session) (hOther : other ≠ epoch)
      (ht : w.part.epochs.get? other = some t) :
      s.ends [session.id] t = false ∧ s.goes [session.id] t = false := by
    refine Setting.stays_of_not_mem ?_
    rw [List.mem_singleton, (h.holds other t ht).id, hId]
    exact fun hSame => hOther (congrArg SessionId.epoch hSame)
  cases action with
  | expire =>
    have hAged := Setting.aged_of_due hDue
    have hActive : session.isActive = true := (Bool.and_eq_true_iff.1 hAged).1
    have hDeadline : w.deadlines.retirement s.config.rotation session.id s.now = s.grace := by
      rw [Rotation.Deadlines.retirement_eq, hEntry, Session.isActive_iff.1 hActive]
      rfl
    have hEnded : (Pairs.applyInbound s session.id .expire w).2 =
        { (w.expire s session).2 with part := { w.part with
          epochs := w.part.epochs.insert epoch (session.expire s.grace) } } := by
      simp [Pairs.applyInbound, expire, hEpoch, hSession, hActive, Work.expire, hDeadline]
    rw [hEnded]
    refine ⟨eq_sweptBy rfl rfl fun other => ?_, rfl⟩
    dsimp only
    rw [get?_sweptBy, Table.get?_insert]
    -- at the epoch of the session, it has ended; it has not lapsed, being active
    split
    · rename_i hOther
      subst hOther
      have hKept : session.hasLapsed s.now = false := Session.hasLapsed_eq_false_of_hasAged hAged
      simp [hSession, Option.filter_some, Setting.ends, Setting.goes, hAged, hKept]
    · rename_i hOther
      cases ht : w.part.epochs.get? other with
      | none => rfl
      | some t =>
        obtain ⟨hEnds, hGoes⟩ := hOthers other t hOther ht
        simp [Option.filter_some, hEnds, hGoes]
  | retire =>
    have hLapsed := Setting.lapsed_of_due hDue
    have hDropped : (Pairs.applyInbound s session.id .retire w).2.part =
        { w.part with epochs := w.part.epochs.erase epoch } := by
      simp [Pairs.applyInbound, hEpoch, hSession]
    have hRandom : (Pairs.applyInbound s session.id .retire w).2.random = w.random := by
      simp [Pairs.applyInbound, hEpoch, hSession, Work.retire, Work.note]
    rw [hDropped, hRandom]
    refine ⟨eq_sweptBy rfl rfl fun other => ?_, rfl⟩
    dsimp only
    rw [get?_sweptBy, Table.get?_erase]
    -- at the epoch of the session nothing is left
    split
    · rename_i hOther
      subst hOther
      simp [hSession, Option.filter_some, Setting.goes, hLapsed]
    · rename_i hOther
      cases ht : w.part.epochs.get? other with
      | none => rfl
      | some t =>
        obtain ⟨hEnds, hGoes⟩ := hOthers other t hOther ht
        simp [Option.filter_some, hEnds, hGoes]

end Inbound

end EndToEnd
