import EndToEnd.Proofs.SweptSides

/-!
# Sweeps

A sweep does all that is due at its time and nothing else. It leaves what `Pairs.swept` says, and
counts how many sessions ended, how many were dropped, and how many establishments were given up.
As long as there is any grace, nothing is due any more then, and another sweep as of that time or an
earlier one does nothing.

Main results:

* `Pairs.applyDue_eq`, `Pairs.turns_due_eq` — one turn, and all turns of a sweep.
* `Pairs.checks_eq` — the look at the establishments.
* `Pairs.sweep_eq`, `Device.sweep_complete` — a whole sweep, and a second one.
-/

namespace EndToEnd

/-- A report that counts one turn more. -/
def SweepReport.count (r : SweepReport) : Rotation.DueAction → SweepReport
  | .expire => { r with expired := r.expired + 1 }
  | .retire => { r with retired := r.retired + 1 }

namespace Pairs

variable {own peer : String} {may : String → Prop} {w : Work Pairs} {s : Setting}
  {session : Session} {ids : List SessionId}

/-- All sides after sessions with some ids had their turns. -/
def sweptAt (s : Setting) (ids : List SessionId) (p : Pairs) : Pairs :=
  p.sweptBy s.grace (s.ends ids) (s.goes ids)

/-- A side that keeps a session has been formed. -/
theorem outbound?_of_live {p : Pairs} (h : session ∈ (p.sending peer).live) :
    p.outbound? peer = some (p.sending peer) := by
  unfold sending at h ⊢
  cases hFormed : p.outbound? peer with
  | none => simp [hFormed, Outbound.initial, Outbound.live] at h
  | some o => rfl

theorem inbound?_of_live {p : Pairs} (h : session ∈ (p.receiving peer).live) :
    p.inbound? peer = some (p.receiving peer) := by
  unfold receiving at h ⊢
  cases hFormed : p.inbound? peer with
  | none => simp [hFormed, Inbound.initial, Inbound.live, Table.values, Table.empty] at h
  | some i => rfl

theorem sending_of_outbound? {p : Pairs} {o : Outbound} (h : p.outbound.get? peer = some o) :
    p.sending peer = o := by
  unfold sending outbound?
  rw [h]
  rfl

theorem receiving_of_inbound? {p : Pairs} {i : Inbound} (h : p.inbound.get? peer = some i) :
    p.receiving peer = i := by
  unfold receiving inbound?
  rw [h]
  rfl

/-- A sending side none of whose sessions has its turn stays. -/
theorem Settled.sending_stays (h : Settled own may w) {o : Outbound}
    (hSide : w.part.outbound.get? peer = some o) (hOther : ∀ id ∈ ids, ¬id.Of own peer .outbound) :
    o.sweptBy s.grace (s.ends ids) (s.goes ids) = o := by
  refine Outbound.sweptBy_eq_self fun t ht => Setting.stays_of_not_mem fun hMem => ?_
  rw [← sending_of_outbound? hSide] at ht
  exact hOther t.id hMem ((h.sending peer).mem_ids_iff.1 (List.mem_map.2 ⟨t, ht, rfl⟩)).1

/-- A side on which nothing has a turn stays as it is. -/
theorem Settled.receiving_stays (h : Settled own may w) {i : Inbound}
    (hSide : w.part.inbound.get? peer = some i) (hOther : ∀ id ∈ ids, ¬id.Of own peer .inbound) :
    i.sweptBy s.grace (s.ends ids) (s.goes ids) = i := by
  refine Inbound.sweptBy_eq_self fun t ht => Setting.stays_of_not_mem fun hMem => ?_
  rw [← receiving_of_inbound? hSide] at ht
  exact hOther t.id hMem ((h.receiving peer).mem_ids_iff.1 (List.mem_map.2 ⟨t, ht, rfl⟩)).1

/-- A turn on a sending side. -/
theorem sweptAt_of_outbound (hSettled : Settled own may w) {epoch : UInt64}
    {p : Pairs} (hInbound : p.inbound = w.part.inbound)
    (hOutbound : p.outbound = w.part.outbound.insert peer
      ((w.part.sending peer).sweptBy s.grace (s.ends [⟨own, peer, epoch, .outbound⟩])
        (s.goes [⟨own, peer, epoch, .outbound⟩])))
    (hFormed : w.part.outbound? peer = some (w.part.sending peer)) :
    p = w.part.sweptAt s [⟨own, peer, epoch, .outbound⟩] := by
  obtain ⟨outbound, inbound⟩ := p
  obtain rfl : inbound = _ := hInbound
  obtain rfl : outbound = _ := hOutbound
  refine congr (congrArg Pairs.mk (Table.ext_get? fun other => ?_)) (Table.ext_get? fun other => ?_)
  · rw [Table.get?_insert, Table.get?_mapValues]
    split
    · rename_i hOther
      rw [hOther, show w.part.outbound.get? peer = _ from hFormed]
      rfl
    · rename_i hOther
      cases hSide : w.part.outbound.get? other with
      | none => rfl
      | some o =>
        refine congrArg some (hSettled.sending_stays hSide fun id hMem => ?_).symm
        rintro ⟨epoch', rfl⟩
        cases List.mem_singleton.1 hMem
        exact hOther rfl
  · rw [Table.get?_mapValues]
    cases hSide : w.part.inbound.get? other with
    | none => rfl
    | some i =>
      refine congrArg some (hSettled.receiving_stays hSide fun id hMem => ?_).symm
      rintro ⟨epoch', rfl⟩
      cases List.mem_singleton.1 hMem

/-- A turn on a receiving side. -/
theorem sweptAt_of_inbound (hSettled : Settled own may w) {epoch : UInt64}
    {p : Pairs} (hOutbound : p.outbound = w.part.outbound)
    (hInbound : p.inbound = w.part.inbound.insert peer
      ((w.part.receiving peer).sweptBy s.grace (s.ends [⟨own, peer, epoch, .inbound⟩])
        (s.goes [⟨own, peer, epoch, .inbound⟩])))
    (hFormed : w.part.inbound? peer = some (w.part.receiving peer)) :
    p = w.part.sweptAt s [⟨own, peer, epoch, .inbound⟩] := by
  obtain ⟨outbound, inbound⟩ := p
  obtain rfl : inbound = _ := hInbound
  obtain rfl : outbound = _ := hOutbound
  refine congr (congrArg Pairs.mk (Table.ext_get? fun other => ?_)) (Table.ext_get? fun other => ?_)
  · rw [Table.get?_mapValues]
    cases hSide : w.part.outbound.get? other with
    | none => rfl
    | some o =>
      refine congrArg some (hSettled.sending_stays hSide fun id hMem => ?_).symm
      rintro ⟨epoch', rfl⟩
      cases List.mem_singleton.1 hMem
  · rw [Table.get?_insert, Table.get?_mapValues]
    split
    · rename_i hOther
      rw [hOther, show w.part.inbound.get? peer = _ from hFormed]
      rfl
    · rename_i hOther
      cases hSide : w.part.inbound.get? other with
      | none => rfl
      | some i =>
        refine congrArg some (hSettled.receiving_stays hSide fun id hMem => ?_).symm
        rintro ⟨epoch', rfl⟩
        cases List.mem_singleton.1 hMem
        exact hOther rfl

/-- **One turn** reaches one session, and is counted. -/
theorem applyDue_eq (hSettled : Settled own may w) (h : Dated s.config.rotation w) (r : SweepReport)
    (hLive : session ∈ w.part.live) {action : Rotation.DueAction}
    (hDue : s.due? session = some action) :
    (applyDue s r w session.id action).1 = r.count action ∧
      (applyDue s r w session.id action).2.part = w.part.sweptAt s [session.id] ∧
      (applyDue s r w session.id action).2.random = w.random := by
  have hEntry := h.entry_eq hSettled hLive
  have hTurn := hSettled.turn_eq s hEntry hDue
  have hCounted : (applyDue s r w session.id action).1 = r.count action := by
    unfold turn at hTurn
    unfold applyDue
    cases hDirection : session.id.direction with
    | outbound =>
      simp only [hDirection] at hTurn ⊢
      rw [hTurn]
      cases action <;> rfl
    | inbound =>
      simp only [hDirection] at hTurn ⊢
      rw [hTurn]
      cases action <;> rfl
  refine ⟨hCounted, ?_⟩
  rw [applyDue_of_turn s r hTurn]
  -- the session is at one place, and the turn is taken on the side of this place
  obtain ⟨peer, ⟨hId, hOnly⟩ | ⟨epoch, hId, hSession⟩⟩ := hSettled.place hLive
  · have hMem : session ∈ (w.part.sending peer).live := hOnly ▸ .head _
    obtain ⟨hPart, hRandom⟩ := Outbound.applyOutbound_eq (hSettled.sending peer) hMem hEntry hDue
    rw [hId] at hPart hRandom ⊢
    exact ⟨sweptAt_of_outbound hSettled rfl (congrArg (w.part.outbound.insert peer) hPart)
      (outbound?_of_live hMem), hRandom⟩
  · have hMem : session ∈ (w.part.receiving peer).live := Inbound.mem_live_iff.2 ⟨epoch, hSession⟩
    obtain ⟨hPart, hRandom⟩ := Inbound.applyInbound_eq (hSettled.receiving peer) hMem hEntry hDue
    rw [hId] at hPart hRandom ⊢
    exact ⟨sweptAt_of_inbound hSettled rfl (congrArg (w.part.inbound.insert peer) hPart)
      (inbound?_of_live hMem), hRandom⟩

-- ---------------------------------------------------------------------------
-- All turns
-- ---------------------------------------------------------------------------

variable {deadline : UInt64} {ends goes ends' goes' : Session → Bool} {p : Pairs}

/-- Only what is said of the sessions that are there matters. -/
theorem sweptBy_congr
    (h : ∀ session ∈ p.live, ends' session = ends session ∧ goes' session = goes session) :
    p.sweptBy deadline ends' goes' = p.sweptBy deadline ends goes := by
  unfold sweptBy
  congr 1
  · refine Table.ext_get? fun other => ?_
    rw [Table.get?_mapValues, Table.get?_mapValues]
    cases hSide : p.outbound.get? other with
    | none => rfl
    | some o =>
      refine congrArg some (Outbound.sweptBy_congr fun session hMem => h session ?_)
      rw [← sending_of_outbound? hSide] at hMem
      exact mem_live_iff.2 ⟨other, .inl hMem⟩
  · refine Table.ext_get? fun other => ?_
    rw [Table.get?_mapValues, Table.get?_mapValues]
    cases hSide : p.inbound.get? other with
    | none => rfl
    | some i =>
      refine congrArg some (Inbound.sweptBy_congr fun session hMem => h session ?_)
      rw [← receiving_of_inbound? hSide] at hMem
      exact mem_live_iff.2 ⟨other, .inr hMem⟩

/-- Turns that are taken after others, of other sessions. -/
theorem sweptAt_sweptAt {id : SessionId} (hOther : id ∉ ids) :
    (p.sweptAt s [id]).sweptAt s ids = p.sweptAt s (id :: ids) := by
  have hEnds : (fun session => s.ends [id] session || s.ends ids session) = s.ends (id :: ids) := by
    funext session
    unfold Setting.ends
    rw [← Bool.and_or_distrib_right]
    simp
  have hGoes : (fun session => s.goes [id] session || s.goes ids session) = s.goes (id :: ids) := by
    funext session
    unfold Setting.goes
    rw [← Bool.and_or_distrib_right]
    simp
  -- a session that has had its turn is left alone by the others
  have hOnce (session : Session) (hEnds : s.ends [id] session = true) :
      s.ends ids (session.expire s.grace) = false ∧ s.goes ids session = false ∧
        s.goes ids (session.expire s.grace) = false := by
    obtain ⟨hId, hAged⟩ := Bool.and_eq_true_iff.1 hEnds
    obtain rfl := List.mem_singleton.1 (of_decide_eq_true hId)
    obtain ⟨-, hStays⟩ := Setting.stays_of_not_mem (s := s) hOther
    refine ⟨?_, hStays, (Setting.stays_of_not_mem ?_).2⟩
    · unfold Setting.ends
      rw [Session.hasAged_expire, Bool.and_false]
    · rw [Session.id_expire]
      exact hOther
  unfold sweptAt sweptBy
  rw [← hEnds, ← hGoes]
  congr 1
  · refine Table.ext_get? fun other => ?_
    simp only [Table.get?_mapValues, Option.map_map]
    exact congrArg (Option.map · _) (funext fun o => Outbound.sweptBy_sweptBy hOnce)
  · refine Table.ext_get? fun other => ?_
    simp only [Table.get?_mapValues, Option.map_map]
    exact congrArg (Option.map · _) (funext fun i => Inbound.sweptBy_sweptBy hOnce)

theorem sweptAt_nil : p.sweptAt s [] = p := by
  unfold sweptAt sweptBy
  obtain ⟨outbound, inbound⟩ := p
  congr 1
  · refine Table.ext_get? fun other => ?_
    rw [Table.get?_mapValues]
    cases outbound.get? other with
    | none => rfl
    | some o => exact congrArg some (Outbound.sweptBy_eq_self fun session _ => ⟨rfl, rfl⟩)
  · refine Table.ext_get? fun other => ?_
    rw [Table.get?_mapValues]
    cases inbound.get? other with
    | none => rfl
    | some i => exact congrArg some (Inbound.sweptBy_eq_self fun session _ => ⟨rfl, rfl⟩)

/-- Where the index says that something is due, it is due for a session. -/
theorem Dated.exists_due (h : Dated s.config.rotation w) (hSettled : Settled own may w)
    {id : SessionId} {entry : Rotation.Deadline} (hEntry : w.deadlines.get? id = some entry)
    {action : Rotation.DueAction} (hDue : entry.due? s.now = some action) :
    ∃ session ∈ w.part.live, session.id = id ∧ s.due? session = some action := by
  have hMem : id ∈ w.part.live.map (·.id) := by
    rw [hSettled.mem_live_ids, hEntry]
    rfl
  obtain ⟨session, hLive, rfl⟩ := List.mem_map.1 hMem
  rw [h.entry_eq hSettled hLive] at hEntry
  cases hEntry
  exact ⟨session, hLive, rfl, hDue⟩

/-- **All turns** reach the sessions that have one, and are counted. -/
theorem turns_eq {turns : List (SessionId × Rotation.DueAction)} {x : SweepReport × Work Pairs}
    (hPending : Pending s x.2 turns) (hSettled : Settled own may x.2)
    (h : Dated s.config.rotation x.2) :
    let y := turns.foldl (fun (r, w) d => applyDue s r w d.1 d.2) x
    y.1 = ⟨x.1.expired + turns.countP (·.2 = .expire), x.1.retired + turns.countP (·.2 = .retire),
        x.1.timedOut⟩ ∧
      y.2.part = x.2.part.sweptAt s (turns.map (·.1)) ∧ y.2.random = x.2.random := by
  induction turns generalizing x with
  | nil => exact ⟨rfl, sweptAt_nil.symm, rfl⟩
  | cons d rest ih =>
    obtain ⟨entry, hEntry, hDue⟩ := hPending.due d (.head _)
    obtain ⟨hSettledNext, hDiffers⟩ := settled_applyDue s hSettled x.1 hEntry hDue
    have hDatedNext := dated_applyDue s hSettled h x.1 hEntry hDue
    obtain ⟨hReport, hPart, hRandom⟩ := ih (x := applyDue s x.1 x.2 d.1 d.2)
      (hPending.next s hDiffers) hSettledNext hDatedNext
    obtain ⟨session, hLive, hId, hDueSession⟩ := h.exists_due hSettled hEntry hDue
    obtain ⟨hCounted, hTurned, hSame⟩ := applyDue_eq hSettled h x.1 hLive hDueSession
    rw [hId] at hCounted hTurned hSame
    have hOther : d.1 ∉ rest.map (·.1) := by
      intro hMem
      obtain ⟨later, hLater, hSameId⟩ := List.mem_map.1 hMem
      exact (List.pairwise_cons.1 hPending.distinct).1 later hLater hSameId.symm
    refine ⟨hReport.trans ?_, hPart.trans ?_, hRandom.trans hSame⟩
    · rw [hCounted, List.countP_cons, List.countP_cons]
      cases d.2 <;> simp [SweepReport.count] <;> omega
    · rw [hTurned]
      exact sweptAt_sweptAt hOther

/-- **How often something is due** by the index is how many sessions it is due for. -/
theorem Dated.countP_due (h : Dated s.config.rotation w) (hSettled : Settled own may w)
    (action : Rotation.DueAction) :
    (w.deadlines.due s.now).countP (·.2 = action) =
      w.part.live.countP fun session => s.due? session = some action := by
  let isDue (id : SessionId) : Bool :=
    (w.deadlines.get? id).any fun entry => entry.due? s.now = some action
  calc (w.deadlines.due s.now).countP (·.2 = action)
      = w.deadlines.toList.countP (fun e => isDue e.1) := by
        unfold Rotation.Deadlines.due
        rw [List.countP_filterMap]
        refine List.countP_congr fun e he => ?_
        have hFound : w.deadlines.get? e.1 = some e.2 := Table.mem_toList_iff.1 he
        simp only [isDue, hFound, Option.any_some]
        cases e.2.due? s.now <;> simp
    _ = w.deadlines.keys.countP isDue := by
        unfold Table.keys
        rw [List.countP_map]
        rfl
    _ = (w.part.live.map (·.id)).countP isDue := (hSettled.perm_ids.countP_eq isDue).symm
    _ = w.part.live.countP fun session => s.due? session = some action := by
        rw [List.countP_map]
        refine List.countP_congr fun session hLive => ?_
        have hEntry := h.entry_eq hSettled hLive
        simp only [Function.comp_apply, isDue, hEntry, Option.any_some]
        rfl

/-- **Behind all turns of a sweep** nothing that was due is left. -/
theorem turns_due_eq (hSettled : Settled own may w) (h : Dated s.config.rotation w) :
    let y := (w.deadlines.due s.now).foldl (fun (r, w) d => applyDue s r w d.1 d.2) (⟨0, 0, 0⟩, w)
    y.1 = ⟨w.part.live.countP (·.hasAged s.config.rotation s.now),
        w.part.live.countP (·.hasLapsed s.now), 0⟩ ∧
      y.2.part = w.part.sweptBy s.grace (·.hasAged s.config.rotation s.now) (·.hasLapsed s.now) ∧
      y.2.random = w.random := by
  intro y
  have hDue (session : Session) : s.due? session =
      if session.hasAged s.config.rotation s.now then some .expire
      else if session.hasLapsed s.now then some .retire
      else none := session.due?_entry s.config.rotation s.now
  obtain ⟨hReport, hPart, hRandom⟩ := turns_eq (x := (⟨0, 0, 0⟩, w)) (pending_due s w) hSettled h
  refine ⟨hReport.trans ?_, hPart.trans (sweptBy_congr fun session hLive => ?_), hRandom⟩
  · -- what is due is counted in the index, and what is aged or lapsed among the sessions
    rw [h.countP_due hSettled, h.countP_due hSettled]
    simp only [Nat.zero_add, SweepReport.mk.injEq, and_true]
    refine ⟨List.countP_congr fun session _ => ?_, List.countP_congr fun session _ => ?_⟩
    · rw [hDue]
      cases session.hasAged s.config.rotation s.now <;> cases session.hasLapsed s.now <;> simp
    · rw [hDue]
      cases hAged : session.hasAged s.config.rotation s.now with
      | false => cases session.hasLapsed s.now <;> simp
      | true => simp [Session.hasLapsed_eq_false_of_hasAged hAged]
  · -- whatever is due for a session, the session has its turn
    have hTurn (action : Rotation.DueAction) (hAction : s.due? session = some action) :
        session.id ∈ (w.deadlines.due s.now).map (·.1) := by
      refine List.mem_map.2 ⟨(session.id, action), List.mem_filterMap.2
        ⟨(session.id, _), Table.mem_toList_iff.2 (h.entry_eq hSettled hLive), ?_⟩, rfl⟩
      exact congrArg (Option.map _) hAction
    unfold Setting.ends Setting.goes
    cases hAged : session.hasAged s.config.rotation s.now with
    | true =>
      have hMem := hTurn .expire (by rw [hDue, hAged]; rfl)
      simp [hMem]
    | false =>
      cases hLapsed : session.hasLapsed s.now with
      | true =>
        have hMem := hTurn .retire (by rw [hDue, hAged, hLapsed]; rfl)
        simp [hMem]
      | false => simp

-- ---------------------------------------------------------------------------
-- Establishments
-- ---------------------------------------------------------------------------

/-- The look at the establishment with one peer. -/
theorem sweepEstablishment_eq (s : Setting) (r : SweepReport) (w : Work Pairs) (peer : String) :
    (sweepEstablishment s r w peer).1 =
        { r with timedOut := r.timedOut +
          if (w.part.outbound.get? peer).any (·.hasTimedOut s) then 1 else 0 } ∧
      (∀ other, (sweepEstablishment s r w peer).2.part.outbound.get? other =
        if other = peer then (w.part.outbound.get? peer).map (·.checked s)
        else w.part.outbound.get? other) ∧
      (sweepEstablishment s r w peer).2.part.inbound = w.part.inbound ∧
      (sweepEstablishment s r w peer).2.random = w.random := by
  unfold sweepEstablishment checkEstablishment onExistingOutbound outbound?
  cases hSide : w.part.outbound.get? peer with
  | none =>
    refine ⟨rfl, fun other => ?_, rfl, rfl⟩
    show w.part.outbound.get? other = _
    by_cases hOther : other = peer
    · rw [if_pos hOther, hOther, hSide]
      rfl
    · rw [if_neg hOther]
  | some o =>
    unfold onOutbound outbound?
    rw [hSide]
    cases hLate : o.hasTimedOut s with
    | true =>
      simp [hLate, Work.withPart, Outbound.timeOut, Work.note, Table.get?_insert, Outbound.checked]
    | false => simp [hLate, Work.withPart, Table.get?_insert, Outbound.checked]

/-- **The look at all establishments.** -/
theorem checks_eq {peers : List String} (hDistinct : peers.Nodup) (x : SweepReport × Work Pairs) :
    let y := peers.foldl (fun (r, w) peer => sweepEstablishment s r w peer) x
    y.1 = ⟨x.1.expired, x.1.retired, x.1.timedOut +
        peers.countP fun peer => (x.2.part.outbound.get? peer).any (·.hasTimedOut s)⟩ ∧
      (∀ other, y.2.part.outbound.get? other =
        if other ∈ peers then (x.2.part.outbound.get? other).map (·.checked s)
        else x.2.part.outbound.get? other) ∧
      y.2.part.inbound = x.2.part.inbound ∧ y.2.random = x.2.random := by
  -- each peer is listed once, so that no check finds what an earlier one has changed
  induction peers generalizing x with
  | nil => exact ⟨rfl, fun _ => rfl, rfl, rfl⟩
  | cons first rest ih =>
    obtain ⟨hFirst, hRest⟩ := List.nodup_cons.1 hDistinct
    obtain ⟨hReport, hOutbound, hInbound, hRandom⟩ := sweepEstablishment_eq s x.1 x.2 first
    obtain ⟨hReports, hOutbounds, hInbounds, hRandoms⟩ :=
      ih hRest (sweepEstablishment s x.1 x.2 first)
    refine ⟨hReports.trans ?_, fun other => (hOutbounds other).trans ?_, hInbounds.trans hInbound,
      hRandoms.trans hRandom⟩
    · -- the others are found as they were before
      have hSame : rest.countP (fun peer =>
            ((sweepEstablishment s x.1 x.2 first).2.part.outbound.get? peer).any
              (·.hasTimedOut s)) =
          rest.countP fun peer => (x.2.part.outbound.get? peer).any (·.hasTimedOut s) := by
        refine List.countP_congr fun peer hMem => ?_
        rw [hOutbound, if_neg]
        rintro rfl
        exact hFirst hMem
      rw [hSame, hReport, List.countP_cons]
      simp only [SweepReport.mk.injEq, true_and]
      omega
    · rw [hOutbound]
      by_cases hOther : other = first
      · simp [hOther, hFirst]
      · simp [hOther]

end Pairs

/-- Behind the turns of a sweep, an establishment is given up exactly if it was asked for too long
ago: as long as a session sends, none is waited for. -/
theorem Outbound.checked_sweptBy {own peer : String} {may : Prop} {w : Work Outbound} {s : Setting}
    (h : Settled own peer may w) :
    (w.part.sweptBy s.grace (·.hasAged s.config.rotation s.now) (·.hasLapsed s.now)).checked s =
        w.part.swept s.config s.now ∧
      (w.part.sweptBy s.grace (·.hasAged s.config.rotation s.now)
        (·.hasLapsed s.now)).hasTimedOut s =
          w.part.isOverdue s.config.establishmentTimeout s.now := by
  have hLate : (w.part.sweptBy s.grace (·.hasAged s.config.rotation s.now)
      (·.hasLapsed s.now)).hasTimedOut s =
        w.part.isOverdue s.config.establishmentTimeout s.now := by
    unfold hasTimedOut isOverdue sweptBy
    cases hCurrent : w.part.current with
    | none => simp
    | some session =>
      have hNone := h.requestedAt_eq_none (by rw [hCurrent]; rfl)
      simp [hNone]
  refine ⟨?_, hLate⟩
  unfold checked swept
  rw [hLate]
  split <;> rfl

namespace Pairs

variable {own : String} {may : String → Prop} {w : Work Pairs} {s : Setting}

/-- One side, behind its turn and its check. -/
theorem checked_sweptBy_sending (hSettled : Settled own may w) (peer : String) {o : Outbound}
    (hFormed : w.part.outbound.get? peer = some o) :
    (o.sweptBy s.grace (·.hasAged s.config.rotation s.now) (·.hasLapsed s.now)).checked s =
        o.swept s.config s.now ∧
      (o.sweptBy s.grace (·.hasAged s.config.rotation s.now) (·.hasLapsed s.now)).hasTimedOut s =
        o.isOverdue s.config.establishmentTimeout s.now := by
  have hSettledSide := hSettled.sending peer
  rw [sending_of_outbound? hFormed] at hSettledSide
  exact Outbound.checked_sweptBy hSettledSide

/-- The sides that are found to wait too long behind the turns are those that are overdue. -/
theorem countP_hasTimedOut_sweptBy (hSettled : Settled own may w) {outbound : Table String Outbound}
    (hTurned : outbound = w.part.outbound.mapValues
      (·.sweptBy s.grace (·.hasAged s.config.rotation s.now) (·.hasLapsed s.now))) :
    outbound.keys.countP (fun peer => (outbound.get? peer).any (·.hasTimedOut s)) =
      w.part.outbound.values.countP (·.isOverdue s.config.establishmentTimeout s.now) := by
  calc outbound.keys.countP (fun peer => (outbound.get? peer).any (·.hasTimedOut s))
      = outbound.toList.countP (fun e => e.2.hasTimedOut s) := by
        unfold Table.keys
        rw [List.countP_map]
        refine List.countP_congr fun e he => ?_
        have hFound : outbound.get? e.1 = some e.2 := Table.mem_toList_iff.1 he
        simp [hFound]
    _ = w.part.outbound.toList.countP
        (fun e => e.2.isOverdue s.config.establishmentTimeout s.now) := by
        rw [hTurned]
        show (w.part.outbound.toList.map _).countP _ = _
        rw [List.countP_map]
        refine List.countP_congr fun e he => ?_
        rw [Function.comp_apply,
          (checked_sweptBy_sending hSettled e.1 (Table.mem_toList_iff.1 he)).2]
    _ = w.part.outbound.values.countP (·.isOverdue s.config.establishmentTimeout s.now) := by
        unfold Table.values
        rw [List.countP_map]
        rfl

/-- **A whole sweep.** -/
theorem sweep_eq (hSettled : Settled own may w) (h : Dated s.config.rotation w) :
    (sweep s w).1 = ⟨w.part.live.countP (·.hasAged s.config.rotation s.now),
        w.part.live.countP (·.hasLapsed s.now),
        w.part.outbound.values.countP (·.isOverdue s.config.establishmentTimeout s.now)⟩ ∧
      (sweep s w).2.part = w.part.swept s.config s.now ∧
      (sweep s w).2.random = w.random := by
  -- first the sessions that are due, then the establishments that take too long
  obtain ⟨hReport, hPart, hRandom⟩ := turns_due_eq hSettled h
  unfold sweep
  generalize (w.deadlines.due s.now).foldl (fun (r, w) d => applyDue s r w d.1 d.2)
    (⟨0, 0, 0⟩, w) = turned at hReport hPart hRandom ⊢
  obtain ⟨r, w₁⟩ := turned
  dsimp only at hReport hPart hRandom ⊢
  have hDistinct : w₁.part.outbound.keys.Nodup := List.pairwise_map.2 w₁.part.outbound.pairwise_ne
  obtain ⟨hReports, hOutbound, hInbound, hRandoms⟩ := checks_eq (s := s) hDistinct (r, w₁)
  have hTurns : w₁.part.outbound = w.part.outbound.mapValues
      (·.sweptBy s.grace (·.hasAged s.config.rotation s.now) (·.hasLapsed s.now)) :=
    congrArg Pairs.outbound hPart
  have hTurned (peer : String) : w₁.part.outbound.get? peer = (w.part.outbound.get? peer).map
      (·.sweptBy s.grace (·.hasAged s.config.rotation s.now) (·.hasLapsed s.now)) := by
    rw [hTurns]
    exact Table.get?_mapValues ..
  refine ⟨hReports.trans ?_, ?_, hRandoms.trans hRandom⟩
  · rw [hReport]
    simp only [SweepReport.mk.injEq, true_and, Nat.zero_add]
    exact countP_hasTimedOut_sweptBy hSettled hTurns
  · -- an establishment is given up where no session is, so the two do not meet at one peer
    have hInbounds := hInbound.trans (congrArg Pairs.inbound hPart)
    refine Eq.trans (b := ⟨_, _⟩) rfl (congr (congrArg Pairs.mk (Table.ext_get? fun peer => ?_))
      hInbounds)
    rw [hOutbound, Table.get?_mapValues]
    cases hFormed : w.part.outbound.get? peer with
    | none =>
      have hNone := hTurned peer
      rw [hFormed] at hNone
      split <;> simp [hNone]
    | some o =>
      have hSome := hTurned peer
      rw [hFormed] at hSome
      have hMem : peer ∈ w₁.part.outbound.keys :=
        List.mem_map.2 ⟨(peer, _), Table.mem_toList_iff.2 hSome, rfl⟩
      rw [if_pos hMem]
      dsimp only
      rw [hSome]
      exact congrArg some (checked_sweptBy_sending hSettled peer hFormed).1

/-- A sweep for which nothing is due. -/
theorem sweep_of_nothing (hDue : w.deadlines.due s.now = [])
    (hInTime : ∀ peer o, w.part.outbound.get? peer = some o → o.hasTimedOut s = false) :
    sweep s w = (⟨0, 0, 0⟩, w) := by
  have hCheck (peer : String) (r : SweepReport) : sweepEstablishment s r w peer = (r, w) := by
    unfold sweepEstablishment checkEstablishment onExistingOutbound outbound?
    cases hSide : w.part.outbound.get? peer with
    | none => rfl
    | some o =>
      -- the side is put back as it was found
      have hSame : w.part.outbound.insert peer o = w.part.outbound := by
        refine Table.ext_get? fun other => ?_
        rw [Table.get?_insert]
        split
        · rename_i hOther
          rw [hOther, hSide]
        · rfl
      simp [onOutbound, outbound?, hSide, Work.withPart, hInTime peer o hSide, hSame]
  unfold sweep
  rw [hDue]
  refine List.foldlRecOn (motive := fun x : SweepReport × Work Pairs => x = (⟨0, 0, 0⟩, w))
    w.part.outbound.keys _ rfl ?_
  rintro _ rfl peer -
  exact hCheck peer _

/-- Nothing is due any more for a session that a sweep has left. -/
theorem Settled.rests_of_mem_swept (h : Settled own may w) {c : Config} {now : UInt64}
    (hGrace : now < c.rotation.graceDeadline now) {session : Session}
    (hMem : session ∈ (w.part.swept c now).live) :
    session.hasAged c.rotation now = false ∧ session.hasLapsed now = false := by
  obtain ⟨peer, hSends | hReceives⟩ := mem_live_iff.1 hMem
  · have hFormed := outbound?_of_live hSends
    obtain ⟨o, ho, hSide⟩ : ∃ o, w.part.outbound.get? peer = some o ∧
        o.swept c now = (w.part.swept c now).sending peer :=
      Option.map_eq_some_iff.1 ((Table.get?_mapValues ..).symm.trans hFormed)
    rw [← hSide] at hSends
    have hSettled := h.sending peer
    rw [sending_of_outbound? ho] at hSettled
    exact Outbound.Settled.rests_of_mem_swept hSettled hGrace hSends
  · have hFormed := inbound?_of_live hReceives
    obtain ⟨i, hi, hSide⟩ : ∃ i, w.part.inbound.get? peer = some i ∧
        i.swept c now = (w.part.swept c now).receiving peer :=
      Option.map_eq_some_iff.1 ((Table.get?_mapValues ..).symm.trans hFormed)
    rw [← hSide] at hReceives
    exact Inbound.rests_of_mem_swept hGrace hReceives

end Pairs

-- ---------------------------------------------------------------------------
-- Devices
-- ---------------------------------------------------------------------------

namespace Device

variable {P : Primitives} {d start : Device} {may : String → Prop} {history : History}
  {now t : UInt64}

/-- Behind a sweep nothing is due, as of its time or any earlier one. -/
theorem due_of_swept (hSettled : d.Settled may) (h : d.Dated) {w : Work Pairs}
    (hBefore : Pairs.Settled d.id may w) (hSwept : d.pairs = w.part.swept d.config now)
    (hGrace : now < d.config.rotation.graceDeadline now) (hEarlier : t ≤ now) :
    d.deadlines.due t = [] := by
  refine List.eq_nil_iff_forall_not_mem.2 fun ⟨id, action⟩ hMem => ?_
  obtain ⟨entry, hEntry, hDue⟩ := Rotation.Deadlines.due_of_mem hMem
  obtain ⟨session, hLive, -, hSession⟩ :=
    Pairs.Dated.exists_due (s := d.setting t) (w := d.work) h hSettled hEntry hDue
  have hLive : session ∈ (w.part.swept d.config now).live := hSwept ▸ hLive
  obtain ⟨hYoung, hKept⟩ := hBefore.rests_of_mem_swept hGrace hLive
  cases action with
  | expire =>
    have hAged := Session.hasAged_later (Setting.aged_of_due hSession) hEarlier
    exact absurd hAged (Bool.eq_false_iff.1 hYoung)
  | retire =>
    have hLapsed := Session.hasLapsed_later (Setting.lapsed_of_due hSession) hEarlier
    exact absurd hLapsed (Bool.eq_false_iff.1 hKept)

/-- Another sweep, as of the same time or an earlier one, does nothing. -/
theorem maintain_of_swept {w : Work Pairs} (hDue : d.deadlines.due t = [])
    (hSwept : d.pairs = w.part.swept d.config now) (hEarlier : t ≤ now) :
    d.maintain P t = (⟨0, 0, 0⟩, d) := by
  have hNothing : Pairs.sweep (d.setting t) d.work = (⟨0, 0, 0⟩, d.work) := by
    refine Pairs.sweep_of_nothing hDue fun peer o ho => ?_
    have ho : d.pairs.outbound.get? peer = some o := ho
    rw [hSwept] at ho
    obtain ⟨before, -, rfl⟩ := Option.map_eq_some_iff.1 ((Table.get?_mapValues ..).symm.trans ho)
    exact Outbound.hasTimedOut_swept (s := d.setting t) hEarlier before
  unfold maintain onPairsAt
  rw [show (⟨d.pairs, d.deadlines, d.random, []⟩ : Work Pairs) = d.work from rfl, hNothing]
  rfl

/-- **A sweep is complete, and it is done at once.** A device is in any state of a run, its grace is
at least a millisecond, and the end of what ends now lies in the 64-bit range. Then a sweep as of
any time ends exactly the active sessions that have aged (those that send are nobody's current
session then), drops exactly the ended ones that have lapsed, and forgets exactly the requests that
are overdue; all other sessions, with their key chains and counters, and everything else but the
index and the log are as they were. The report counts these three sets. Nothing is due any more as
of that time, and another sweep, as of that time or an earlier one, reports nothing and changes
nothing.

In the run no counter passes `2 ^ 64 - 1`. -/
theorem sweep_complete (hStart : Starts P start) (hRun : Run P start history d)
    (hGrace : 1 ≤ d.config.rotation.grace.millis)
    (hEnd : now.toNat + d.config.rotation.grace.millis.toNat < UInt64.size) :
    let p := d.config.rotation
    let report := (d.maintain P now).1
    let swept := (d.maintain P now).2
    report.expired = d.pairs.live.countP (·.hasAged p now) ∧
      report.retired = d.pairs.live.countP (·.hasLapsed now) ∧
      report.timedOut =
        d.pairs.outbound.values.countP (·.isOverdue d.config.establishmentTimeout now) ∧
      swept.pairs = d.pairs.swept d.config now ∧
      (p.graceDeadline now).toNat = now.toNat + p.grace.millis.toNat ∧
      (swept.config = d.config ∧ swept.identity = d.identity ∧ swept.contacts = d.contacts ∧
        swept.roots = d.roots ∧ swept.now = d.now ∧ swept.random = d.random) ∧
      swept.deadlines.due now = [] ∧
      ∀ t, t ≤ now → swept.maintain P t = (⟨0, 0, 0⟩, swept) := by
  intro p report swept
  have hSettled := hRun.settled hStart
  have hRunSwept : Run P start _ swept := hRun.step (.maintain now) rfl
  obtain ⟨hReport, hPairs, hRandom⟩ :=
    Pairs.sweep_eq (s := d.setting now) (w := d.work) hSettled (hRun.dated hStart)
  have hDeadline : (p.graceDeadline now).toNat = now.toNat + p.grace.millis.toNat := by
    unfold Rotation.Policy.graceDeadline
    rw [toNat_saturatingAdd]
    have hEnd : now.toNat + p.grace.millis.toNat < UInt64.size := hEnd
    omega
  have hLater : now < p.graceDeadline now := by
    have hSome : 1 ≤ p.grace.millis.toNat := UInt64.le_iff_toNat_le.1 hGrace
    rw [UInt64.lt_iff_toNat_lt]
    omega
  have hSwept : swept.pairs = d.work.part.swept swept.config now := hPairs
  have hDue (t : UInt64) (hEarlier : t ≤ now) : swept.deadlines.due t = [] :=
    due_of_swept (hRunSwept.settled hStart) (hRunSwept.dated hStart) hSettled hSwept hLater hEarlier
  exact ⟨congrArg (·.expired) hReport, congrArg (·.retired) hReport, congrArg (·.timedOut) hReport,
    hPairs, hDeadline, ⟨rfl, rfl, rfl, rfl, rfl, hRandom⟩, hDue now (UInt64.le_refl _),
    fun t hEarlier => maintain_of_swept (hDue t hEarlier) hSwept hEarlier⟩

/-- Bob receives two letters of Ann, the second of which begins an epoch, writes to her, and asks
for a session with Eve. -/
def dailyOps : List Operation :=
  let letters := plainLetters .standard [.send "bob" .basic [1], .send "bob" .military [2]]
  [meetPlain "ann" 1, meetPlain "eve" 5] ++ letters.map .receive ++
    [.send "ann" .basic [3], .request "eve"]

/-- Bob's sweep after a day. -/
theorem sweep_complete_of_dailyOps :
    let bob := after .plain (plain .standard "bob" 3) dailyOps
    ((bob.maintain .plain 86400000).1.expired, (bob.maintain .plain 86400000).1.retired,
        (bob.maintain .plain 86400000).1.timedOut) = (2, 1, 1) ∧
      (bob.maintain .plain 86400000).2.deadlines.due 86400000 = [] := by
  intro bob
  have hRun : Run .plain (plain .standard "bob" 3)
      (during .plain (plain .standard "bob" 3) dailyOps) bob := run_after (by decide +kernel)
  obtain ⟨hExpired, hRetired, hTimedOut, -, -, -, hDue, -⟩ :=
    sweep_complete (plain_starts "bob" 3 rfl) hRun (by decide +kernel)
      (show (86400000 : UInt64).toNat + bob.config.rotation.grace.millis.toNat < UInt64.size by
        decide +kernel)
  rw [hExpired, hRetired, hTimedOut]
  exact ⟨by decide +kernel, hDue⟩

/-- A key rotation interval of `2 ^ 64` milliseconds. -/
def endless : Config :=
  { Config.standard with
    rotation := { Config.standard.rotation with interval := ⟨18446744073709551, 616000000⟩ } }

/-- **A sweep goes by what is counted of the interval:** a session has just been created, its
interval is longer than the clock can ever show, and it ends at once. -/
theorem sweep_ends_endless_session :
    let ops : List Operation := [meetPlain "bob" 3, .send "bob" .basic [1]]
    let ann := after .plain (plain endless "ann" 1) ops
    endless.validate = .ok () ∧ endless.rotation.interval.wholeMillis = UInt64.size ∧
      allReturn .plain (plain endless "ann" 1) ops = true ∧
      1 ≤ ann.config.rotation.grace.wholeMillis ∧
      ann.now.toNat + ann.config.rotation.grace.wholeMillis < UInt64.size ∧
      ann.pairs.live.map (fun session => (session.phase, session.createdAt)) = [(.active, 0)] ∧
      ¬min (0 + ann.config.rotation.interval.wholeMillis) (UInt64.size - 1) ≤ ann.now.toNat ∧
      (ann.maintain .plain ann.now).1.expired = 1 ∧
      (ann.maintain .plain ann.now).2.pairs.live.map (·.phase) = [.expiring 300000] := by
  intro ops ann
  exact ⟨rfl, by decide, by decide +kernel, by decide +kernel, by decide +kernel,
    by decide +kernel, by decide +kernel, by decide +kernel, by decide +kernel⟩

end Device

end EndToEnd
