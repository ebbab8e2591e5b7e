import EndToEnd.Proofs.Plain
import EndToEnd.Proofs.SettledPairs
import EndToEnd.Proofs.Starts

/-!
# The books of a device

A device keeps its sessions in the sides of its pairs, and beside them the index of what is to
happen to them. In every state that a run can reach the two agree, and no pair has more sessions
than it should (`Device.Balanced`).

The invariant behind this is `Device.Settled`, which says the same side by side. It also says with
which peers there may be sessions at all; an operation begins a session only with a peer on file
that is not revoked.

Main results:

* `Device.settled_step`, `Device.Run.settled` — the invariant.
* `Device.books_balance` — the sessions and the index agree in every state of a run.
-/

namespace EndToEnd

-- ---------------------------------------------------------------------------
-- All sessions
-- ---------------------------------------------------------------------------

/-- Values listed one after the other are distinct, if those under each key are, and no two keys
share one. -/
theorem Table.nodup_flatMap_values {κ α β : Type} [Ord κ] [Std.LawfulEqOrd κ] (t : Table κ α)
    (f : α → List β) (hEach : ∀ k v, t.get? k = some v → (f v).Nodup)
    (hApart : ∀ k v k' v', t.get? k = some v → t.get? k' = some v' → ∀ b ∈ f v, b ∈ f v' → k = k') :
    (t.values.flatMap f).Nodup := by
  have hFound {e : κ × α} (he : e ∈ t.toList) : t.get? e.1 = some e.2 := mem_toList_iff.1 he
  unfold values
  rw [List.flatMap_map]
  refine List.pairwise_flatMap.2 ⟨fun e he => hEach e.1 e.2 (hFound he), ?_⟩
  refine t.pairwise_ne.imp_of_mem fun {e e'} he he' hOther b hb b' hb' => ?_
  rintro rfl
  exact hOther (hApart e.1 e.2 e'.1 e'.2 (hFound he) (hFound he') b hb hb')

namespace Pairs

variable {own : String} {may : String → Prop} {w : Work Pairs}

/-- A live session is on one side of some pair. -/
theorem mem_live_iff {p : Pairs} {session : Session} :
    session ∈ p.live ↔
      ∃ peer, session ∈ (p.sending peer).live ∨ session ∈ (p.receiving peer).live := by
  unfold live
  rw [List.mem_append, List.mem_flatMap, List.mem_flatMap]
  constructor
  · rintro (⟨o, ho, hLive⟩ | ⟨i, hi, hLive⟩)
    · obtain ⟨⟨peer, o⟩, hEntry, rfl⟩ := List.mem_map.1 ho
      have hSide : p.sending peer = o := by
        unfold sending outbound?
        rw [Table.mem_toList_iff.1 hEntry]
        rfl
      exact ⟨peer, .inl (hSide ▸ hLive)⟩
    · obtain ⟨⟨peer, i⟩, hEntry, rfl⟩ := List.mem_map.1 hi
      have hSide : p.receiving peer = i := by
        unfold receiving inbound?
        rw [Table.mem_toList_iff.1 hEntry]
        rfl
      exact ⟨peer, .inr (hSide ▸ hLive)⟩
  · rintro ⟨peer, hLive | hLive⟩
    · -- a side that was never formed has no session
      unfold sending at hLive
      cases hFormed : p.outbound? peer with
      | none => simp [hFormed, Outbound.initial, Outbound.live] at hLive
      | some o =>
        rw [hFormed] at hLive
        exact .inl ⟨o, List.mem_map.2 ⟨(peer, o), Table.mem_toList_iff.2 hFormed, rfl⟩, hLive⟩
    · unfold receiving at hLive
      cases hFormed : p.inbound? peer with
      | none =>
        simp [hFormed, Inbound.initial, Inbound.live, Table.values, Table.empty] at hLive
      | some i =>
        rw [hFormed] at hLive
        exact .inr ⟨i, List.mem_map.2 ⟨(peer, i), Table.mem_toList_iff.2 hFormed, rfl⟩, hLive⟩

/-- The state of a session is asked of its side. -/
theorem stateOf_eq (p : Pairs) (id : SessionId) :
    p.stateOf id = match id.direction with
      | .outbound => (p.sending id.peer).stateOf id.epoch
      | .inbound => (p.receiving id.peer).stateOf id.epoch := by
  unfold stateOf sending receiving
  cases id.direction with
  | outbound =>
    cases p.outbound? id.peer with
    | none => simp [Outbound.stateOf, Outbound.initial, Outbound.live]
    | some o => rfl
  | inbound =>
    cases p.inbound? id.peer with
    | none => simp [Inbound.stateOf, Inbound.initial, Inbound.isPast]
    | some i => rfl

/-- The ids of all sessions are those in the index. -/
theorem Settled.mem_live_ids (h : Settled own may w) {id : SessionId} :
    id ∈ w.part.live.map (·.id) ↔ (w.deadlines.get? id).isSome = true := by
  have hWith {peer : String} {session : Session} :
      session ∈ w.part.liveWith peer ↔
        session ∈ (w.part.sending peer).live ∨ session ∈ (w.part.receiving peer).live := by
    rw [liveWith_eq, List.mem_append]
  constructor
  · intro hMem
    obtain ⟨session, hLive, rfl⟩ := List.mem_map.1 hMem
    obtain ⟨peer, hSide⟩ := mem_live_iff.1 hLive
    have hIds : session.id ∈ (w.part.liveWith peer).map (·.id) :=
      List.mem_map.2 ⟨session, hWith.2 hSide, rfl⟩
    exact (h.mem_liveWith_ids.1 hIds).2
  · intro hSome
    have hIds := h.mem_liveWith_ids.2 ⟨rfl, hSome⟩
    obtain ⟨session, hLive, hId⟩ := List.mem_map.1 hIds
    exact List.mem_map.2 ⟨session, mem_live_iff.2 ⟨id.peer, hWith.1 hLive⟩, hId⟩

/-- No two sessions go by one id. -/
theorem Settled.nodup_live_ids (h : Settled own may w) : (w.part.live.map (·.id)).Nodup := by
  -- the sides as they are found in the tables
  have hSending {peer : String} {o : Outbound} (hFormed : w.part.outbound.get? peer = some o) :
      Outbound.Settled own peer (may peer) (w.withPart o) := by
    have hSide := h.sending peer
    unfold Pairs.sending outbound? at hSide
    rwa [hFormed] at hSide
  have hReceiving {peer : String} {i : Inbound} (hFormed : w.part.inbound.get? peer = some i) :
      Inbound.Settled own peer (may peer) (w.withPart i) := by
    have hSide := h.receiving peer
    unfold Pairs.receiving inbound? at hSide
    rwa [hFormed] at hSide
  unfold live
  rw [List.map_append, List.map_flatMap, List.map_flatMap]
  refine List.nodup_append.2 ⟨?_, ?_, ?_⟩
  · -- a sending side has one session at most
    refine w.part.outbound.nodup_flatMap_values _ ?_ ?_
    · intro peer o hFormed
      rcases (hSending hFormed).live_cases with ⟨hLive, -⟩ | ⟨session, hLive, -⟩
      · have hLive : o.live = [] := hLive
        rw [hLive]
        exact .nil
      · have hLive : o.live = [session] := hLive
        rw [hLive]
        exact List.pairwise_singleton ..
    · -- two peers have no id in common
      intro peer o peer' o' hFormed hFormed' id hMem hMem'
      obtain ⟨⟨epoch, rfl⟩, -⟩ := (hSending hFormed).mem_ids_iff.1 hMem
      obtain ⟨⟨epoch', hSame⟩, -⟩ := (hSending hFormed').mem_ids_iff.1 hMem'
      exact congrArg SessionId.peer hSame
  · -- a receiving side has one session for an epoch
    refine w.part.inbound.nodup_flatMap_values _ ?_ ?_
    · -- the ids of two entries of the table differ in the epoch, which is the key of the entry
      intro peer i hFormed
      have hHolds := (hReceiving hFormed).holds
      unfold Inbound.live Table.values
      rw [List.map_map]
      refine List.pairwise_map.2 ?_
      refine i.epochs.pairwise_ne.imp_of_mem fun {e e'} he he' hOther hSame => ?_
      have hId := (hHolds e.1 e.2 (Table.mem_toList_iff.1 he)).id
      have hId' := (hHolds e'.1 e'.2 (Table.mem_toList_iff.1 he')).id
      have hSame : e.2.id = e'.2.id := hSame
      rw [hId, hId'] at hSame
      exact hOther (congrArg SessionId.epoch hSame)
    · -- two peers have no id in common
      intro peer i peer' i' hFormed hFormed' id hMem hMem'
      obtain ⟨⟨epoch, rfl⟩, -⟩ := (hReceiving hFormed).mem_ids_iff.1 hMem
      obtain ⟨⟨epoch', hSame⟩, -⟩ := (hReceiving hFormed').mem_ids_iff.1 hMem'
      exact congrArg SessionId.peer hSame
  · -- one sends, the other receives
    rintro id hMem _ hMem' rfl
    obtain ⟨o, ho, hMem⟩ := List.mem_flatMap.1 hMem
    obtain ⟨i, hi, hMem'⟩ := List.mem_flatMap.1 hMem'
    obtain ⟨⟨peer, o⟩, hEntry, rfl⟩ := List.mem_map.1 ho
    obtain ⟨⟨peer', i⟩, hEntry', rfl⟩ := List.mem_map.1 hi
    obtain ⟨⟨epoch, rfl⟩, -⟩ := (hSending (Table.mem_toList_iff.1 hEntry)).mem_ids_iff.1 hMem
    obtain ⟨⟨epoch', hSame⟩, -⟩ :=
      (hReceiving (Table.mem_toList_iff.1 hEntry')).mem_ids_iff.1 hMem'
    cases hSame

/-- **The index lists the sessions,** each once. -/
theorem Settled.perm_ids (h : Settled own may w) :
    (w.part.live.map (·.id)).Perm w.deadlines.keys := by
  have hKeys : w.deadlines.keys.Nodup := List.pairwise_map.2 w.deadlines.pairwise_ne
  refine (List.perm_ext_iff_of_nodup h.nodup_live_ids hKeys).2 fun id => ?_
  rw [h.mem_live_ids, Option.isSome_iff_exists]
  unfold Table.keys
  rw [List.mem_map]
  constructor
  · rintro ⟨entry, hEntry⟩
    exact ⟨(id, entry), Table.mem_toList_iff.2 hEntry, rfl⟩
  · rintro ⟨⟨id, entry⟩, hEntry, rfl⟩
    exact ⟨entry, Table.mem_toList_iff.1 hEntry⟩

/-- Every session is in its place. -/
theorem Settled.place (h : Settled own may w) {session : Session} (hLive : session ∈ w.part.live) :
    ∃ peer, (session.id = ⟨own, peer, session.epoch, .outbound⟩ ∧
        (w.part.sending peer).live = [session]) ∨
      ∃ epoch, session.id = ⟨own, peer, epoch, .inbound⟩ ∧
        (w.part.receiving peer).epochs.get? epoch = some session := by
  obtain ⟨peer, hSends | hReceives⟩ := Pairs.mem_live_iff.1 hLive
  · rcases (h.sending peer).live_cases with ⟨hNone, -⟩ | ⟨only, hOnly, -, hHolds⟩
    · have hNone : (w.part.sending peer).live = [] := hNone
      rw [hNone] at hSends
      cases hSends
    · have hOnly : (w.part.sending peer).live = [only] := hOnly
      rw [hOnly] at hSends
      obtain rfl := List.mem_singleton.1 hSends
      exact ⟨peer, .inl ⟨hHolds.id, hOnly⟩⟩
  · obtain ⟨epoch, hSession⟩ := Inbound.mem_live_iff.1 hReceives
    exact ⟨peer, .inr ⟨epoch, ((h.receiving peer).holds epoch session hSession).id, hSession⟩⟩

/-- Every live session has an entry that says when it is dropped. -/
theorem Settled.entry (h : Settled own may w) {session : Session} (hLive : session ∈ w.part.live) :
    ∃ entry, w.deadlines.get? session.id = some entry ∧ entry.retireAt = session.retireAt := by
  have hAgrees : (w.deadlines.get? session.id).map (·.retireAt) = some session.retireAt := by
    obtain ⟨peer, ⟨hId, hOnly⟩ | ⟨epoch, hId, hSession⟩⟩ := h.place hLive
    · rcases (h.sending peer).live_cases with ⟨hNone, -⟩ | ⟨only, hSame, -, hHolds⟩
      · have hNone : (w.part.sending peer).live = [] := hNone
        rw [hOnly] at hNone
        cases hNone
      · have hSame : (w.part.sending peer).live = [only] := hSame
        rw [hOnly] at hSame
        obtain rfl := (List.cons.inj hSame).1
        rw [hId]
        exact hHolds.entry
    · have hIndex : (w.deadlines.get? ⟨own, peer, epoch, .inbound⟩).map (·.retireAt) =
          ((w.part.receiving peer).epochs.get? epoch).map (·.retireAt) :=
        (h.receiving peer).index epoch
      rw [hId, hIndex, hSession]
      rfl
  exact Option.map_eq_some_iff.1 hAgrees

/-- Asked for a live session, the pairs answer with its state. -/
theorem Settled.stateOf (h : Settled own may w) {session : Session} (hLive : session ∈ w.part.live) :
    w.part.stateOf session.id = session.state := by
  rw [stateOf_eq]
  obtain ⟨peer, ⟨hId, hOnly⟩ | ⟨epoch, hId, hSession⟩⟩ := h.place hLive
  · rw [hId]
    simp [Outbound.stateOf, hOnly]
  · rw [hId]
    simp [Inbound.stateOf, hSession]

end Pairs

namespace Device

variable {P : Primitives} {d start : Device} {may : String → Prop} {history : History}

-- ---------------------------------------------------------------------------
-- The invariant
-- ---------------------------------------------------------------------------

/-- A device whose sides agree with the index. There are sessions only with peers for which `may`
holds. -/
def Settled (may : String → Prop) (d : Device) : Prop := Pairs.Settled d.id may d.work

/-- A device whose sessions are left by settled work is settled. -/
theorem settled_of_left {w : Work Pairs} {d' : Device} (hEvolves : d.Evolves d')
    (hSettled : Pairs.Settled d.id may w) (hLeft : d'.Left w) : d'.Settled may := by
  have hId : d'.id = d.id := congrArg Identity.deviceId hEvolves.identity
  unfold Settled
  rw [hId]
  refine hSettled.congr (fun peer => ?_) (fun peer => ?_) hLeft.2
  · exact congrArg (·.sending peer) hLeft.1
  · exact congrArg (·.receiving peer) hLeft.1

/-- The number of the next epoch does not go back when a message is sent that returns. -/
theorem nextEpoch_le_send (hFiled : d.contacts.Filed) {peer : String} {level : Level}
    {plaintext : Bytes} (hReturns : overruns P d (.send peer level plaintext) = false) :
    (d.pairs.sending peer).nextEpoch ≤
      ((d.send P peer level plaintext).2.pairs.sending peer).nextEpoch := by
  show _ ≤ ((d.step P (.send peer level plaintext)).2.pairs.sending peer).nextEpoch
  have hCounter := counter_of_returns hReturns
  rcases sending_step (P := P) hFiled (.send peer level plaintext) peer with
    ⟨-, hRests⟩ | ⟨level', plaintext', record, e, -, -, -, -, hMakes⟩
  · rw [hRests.nextEpoch]
    exact UInt64.le_refl _
  · generalize ((d.step P (.send peer level plaintext)).2.pairs.sending peer) = o at hMakes hCounter ⊢
    cases hMakes with
    | continues current fits made => exact UInt64.le_refl _
    | begins begun made =>
      -- the last number has no successor
      rw [UInt64.le_iff_toNat_le, UInt64.toNat_add]
      have hNotLast : (d.pairs.sending peer).nextEpoch.toNat ≠ UInt64.size - 1 := by
        intro hLast
        have hLast : (d.pairs.sending peer).nextEpoch = lastNumber := UInt64.toNat_inj.1 hLast
        have hNext : (d.pairs.sending peer).nextEpoch + 1 = lastNumber := hCounter hLast
        rw [hLast] at hNext
        exact absurd hNext (by decide)
      have hSize := (d.pairs.sending peer).nextEpoch.toNat_lt
      have hOne : (1 : UInt64).toNat = 1 := rfl
      unfold UInt64.size at hNotLast
      omega

/-- **An operation keeps the invariant,** if `may` holds for all peers that are not revoked. -/
theorem settled_step (hFiled : d.contacts.Filed) (h : d.Settled may)
    (hMay : ∀ id record, d.contacts.get? id = some record → record.isRevoked = false → may id)
    (op : Operation) (hReturns : overruns P d op = false) : (d.step P op).2.Settled may := by
  by_cases hMessage : op.handlesMessage = false
  · -- the sides rest or lose sessions, and the index follows them
    obtain ⟨hEvolves, w, hCalm, hLeft⟩ := calms_step (P := P) d op hMessage
    exact settled_of_left hEvolves (hCalm.settled h) hLeft
  cases op with
  | send peer level plaintext =>
    -- the counter of the epochs has not passed its end, by assumption
    have hLater := nextEpoch_le_send hFiled hReturns
    show (d.send P peer level plaintext).2.Settled may
    rcases send_cases (d.send P peer level plaintext).eta.symm with
      ⟨-, -, hEvolves, w, hCalm, hLeft⟩ |
        ⟨record, made, w, hRecord, hTrusted, hw, hEvolves, hLeft, -⟩
    · exact settled_of_left hEvolves (hCalm.settled h) hLeft
    · have hId := hFiled peer record hRecord
      obtain rfl : _ = w := congrArg Prod.snd hw
      rw [hLeft.1, ← hId] at hLater
      have hMayRecord : may record.deviceId := by
        rw [hId]
        exact hMay peer record hRecord hTrusted
      -- whoever is written to is on file and trusted, so the pair may have sessions
      have hSettled : Pairs.Settled (d.setting d.now).own.deviceId may d.work := h
      exact settled_of_left hEvolves (Pairs.settled_encrypt hSettled hMayRecord hLater) hLeft
  | receive bytes =>
    show (d.receive P bytes).2.Settled may
    rcases receive_cases (d.receive P bytes).eta.symm with
      ⟨-, -, log, hLog⟩ | ⟨e, sender, opened, w, -, hAuthentic, hw, hEvolves, hLeft, -⟩
    · rw [hLog]
      exact h
    · obtain ⟨hSender, hTrusted⟩ := authenticate_eq_ok hAuthentic
      obtain rfl : _ = w := congrArg Prod.snd hw
      -- so is whoever an envelope is accepted from
      have hMaySender : may sender.deviceId := by
        rw [hFiled _ _ hSender]
        exact hMay _ sender hSender hTrusted
      have hSettled : Pairs.Settled (d.setting d.now).own.deviceId may d.work := h
      exact settled_of_left hEvolves (Pairs.settled_decrypt hSettled hMaySender e) hLeft
  | _ => exact absurd rfl hMessage

/-- At the beginning there are no sessions and no entries. -/
theorem Starts.settled (hStart : Starts P d) : d.Settled may := by
  obtain ⟨hBlank, hDeadlines, -⟩ := hStart.blank
  have hEntry (id : SessionId) : d.work.deadlines.get? id = none := by
    show d.deadlines.get? id = none
    rw [hDeadlines]
    rfl
  refine ⟨fun peer => ?_, fun peer => ?_, fun id entry hSome => ?_⟩
  · obtain ⟨hCurrent, hExpiring⟩ := List.append_eq_nil_iff.1 (hBlank.live peer)
    refine .idle ?_ hExpiring fun epoch => hEntry _
    exact Option.toList_eq_nil_iff.1 hCurrent
  · have hInitial : d.work.part.receiving peer = .initial := hBlank.receiving peer
    rw [hInitial]
    refine ⟨fun epoch session hSession => (nomatch hSession), fun epoch => ?_⟩
    unfold Inbound.Cell.Agrees Inbound.cell
    rw [show (d.work.withPart Inbound.initial).deadlines.entries d.id peer .inbound epoch = none from
      hEntry _]
    rfl
  · rw [hEntry] at hSome
    cases hSome

/-- **In every state of a run,** the sides agree with the index. -/
theorem Run.settled (hStart : Starts P start) (hRun : Run P start history d) :
    d.Settled fun _ => True := by
  induction hRun with
  | start => exact hStart.settled
  | step op before returns ih =>
    exact settled_step (before.filed hStart) ih (fun _ _ _ _ => trivial) op returns

-- ---------------------------------------------------------------------------
-- What the books say
-- ---------------------------------------------------------------------------

/-- The books of a device balance: its sessions and its index agree, and no pair has more sessions
than it should. -/
structure Balanced (d : Device) : Prop where
  /-- The index has the ids of the sessions, each once. -/
  ids : (d.pairs.live.map (·.id)).Perm d.deadlines.keys
  counts : d.deadlines.size = d.pairs.live.length
  /-- A session is dropped when its entry says so, and not before it has ended. -/
  entries : ∀ session ∈ d.pairs.live, ∃ entry, d.deadlines.get? session.id = some entry ∧
    (session.phase = .active → entry.retireAt = none) ∧
    ∀ deadline, session.phase = .expiring deadline → entry.retireAt = some deadline
  /-- Asked for its state, a session that is kept is not retired. -/
  states : ∀ session ∈ d.pairs.live, d.pairs.stateOf session.id = session.state ∧
    session.state ≠ .retired
  /-- At most one session sends to a peer or has ended there, that of the epoch before the next. -/
  sending : ∀ peer, (d.pairs.sending peer).live = [] ∨
    ∃ session, (d.pairs.sending peer).live = [session] ∧
      session.epoch.toNat + 1 = (d.pairs.sending peer).nextEpoch.toNat ∧
      ((d.pairs.sending peer).current = some session ∧ session.phase = .active ∨
        (d.pairs.sending peer).expiring = [session] ∧
          ∃ deadline, session.phase = .expiring deadline)
  /-- No establishment is waited for while a session sends. -/
  pending : ∀ peer, (d.pairs.sending peer).current.isSome = true →
    (d.pairs.sending peer).requestedAt = none
  /-- No session receives an epoch after the latest, and only that of the latest may be active. -/
  receiving : ∀ peer epoch session, (d.pairs.receiving peer).epochs.get? epoch = some session →
    session.id = ⟨d.id, peer, epoch, .inbound⟩ ∧
      ∃ latest, (d.pairs.receiving peer).latest = some latest ∧ epoch ≤ latest ∧
        (session.phase = .active → epoch = latest)
  /-- There are no sessions on a side that is barred. -/
  barred : ∀ peer,
    ((d.pairs.sending peer).isRevoked = true → (d.pairs.sending peer).live = []) ∧
    ((d.pairs.receiving peer).isRevoked = true → (d.pairs.receiving peer).live = [])

/-- **The books balance when the sides agree with the index.** -/
theorem Settled.balanced (h : d.Settled may) : d.Balanced where
  ids := h.perm_ids
  counts := by
    have hLength := h.perm_ids.length_eq
    rw [List.length_map] at hLength
    unfold Table.size
    rw [show d.deadlines.toList.length = d.deadlines.keys.length from (List.length_map _).symm]
    exact hLength.symm
  -- in all other respects a pair is balanced as soon as its two sides are settled
  entries := by
    intro session hLive
    obtain ⟨entry, hEntry, hRetire⟩ := Pairs.Settled.entry h hLive
    exact ⟨entry, hEntry, fun hActive => hRetire.trans (Session.retireAt_of_active hActive),
      fun deadline hEnded => hRetire.trans (Session.retireAt_of_expiring hEnded)⟩
  states := by
    intro session hLive
    refine ⟨Pairs.Settled.stateOf h hLive, ?_⟩
    unfold Session.state
    cases session.phase with
    | active => exact nofun
    | expiring deadline => exact nofun
  sending peer := (h.sending peer).only
  pending peer := (h.sending peer).requestedAt_eq_none
  receiving := by
    intro peer epoch session hSession
    have hHolds := (h.receiving peer).holds epoch session hSession
    obtain ⟨latest, hLatest, hLe⟩ := Inbound.isPast_iff.1 hHolds.past
    have hLatest : (d.pairs.receiving peer).latest = some latest := hLatest
    refine ⟨hHolds.id, latest, hLatest, hLe, fun hActive => ?_⟩
    have hSame : (d.pairs.receiving peer).latest = some epoch :=
      hHolds.latest (by simp [Session.isActive, hActive])
    rw [hLatest] at hSame
    exact (Option.some.inj hSame).symm
  barred peer := ⟨fun hBarred => (h.sending peer).live_eq_nil (.inr hBarred),
    fun hBarred => (h.receiving peer).live_eq_nil (.inr hBarred)⟩

/-- **The books balance in every state of a run.** The index has exactly the sessions, each as far as
it has come, no pair has more of them than it should, and a side that is barred has none.

In the run no counter passes `2 ^ 64 - 1`. -/
theorem books_balance (hStart : Starts P start) (hRun : Run P start history d) : d.Balanced :=
  (hRun.settled hStart).balanced

/-- Bob receives two letters of Ann, the second of which begins an epoch, and writes to her twice,
ending what he sends with. -/
def busyOps : List Operation :=
  let letters := plainLetters .standard [.send "bob" .basic [1], .send "bob" .military [2]]
  meetPlain "ann" 1 :: letters.map .receive ++
    [.send "ann" .basic [3], .rotate "ann", .send "ann" .military [4], .maintain 5, .rotate "ann"]

/-- Bob behind all that he was asked. -/
theorem books_balance_of_busyOps :
    let bob := after .plain (plain .standard "bob" 3) busyOps
    bob.pairs.live.map (fun s => (s.id, s.state)) =
        [(⟨"bob", "ann", 1, .outbound⟩, .expiring), (⟨"bob", "ann", 0, .inbound⟩, .expiring),
          (⟨"bob", "ann", 1, .inbound⟩, .active)] ∧
      bob.Balanced :=
  ⟨by decide +kernel, books_balance (plain_starts "bob" 3 rfl) (run_after (by decide +kernel))⟩

end Device

end EndToEnd
