import EndToEnd.Proofs.Recovery
import EndToEnd.Proofs.Rotations

/-!
# Sessions on record

The log has an entry for every session that begins, and for those that are dropped. Whatever is done,
the entries that it puts on record account for the sessions before and after, with one exception: a
session whose grace is over when a message of its epoch comes in is dropped without an entry. So the
entries about beginnings are as many as the sessions that are kept, the entries about ends and the
sessions that lapsed together.

Main results:

* `Outbound.accounts_encrypt`, `Inbound.accounts_decrypt` — what a message puts on record of the
  sessions of its side.
* `Pairs.accounts_retire`, `Pairs.accounts_sweep` — sessions that are dropped on purpose are all put
  on record.
* `Device.accounts_step`, `Device.accounts_after` — an operation, and any number of them.
* `Device.begun_are_kept_dropped_or_lapsed` — the balance of a log from which nothing was taken.
-/

namespace EndToEnd

-- ---------------------------------------------------------------------------
-- Books
-- ---------------------------------------------------------------------------

/-- Whether an event is of a kind and names devices that are asked about. -/
def Audit.Event.isAbout (about : List String → Bool) (kind : Audit.Kind) (event : Audit.Event) :
    Bool :=
  decide (event.kind = kind) && about event.devices

namespace Session

variable {own : String} {about : List String → Bool} {before between after gone more : List Session}
  {events later : List Audit.Event}

/-- How many sessions a device has with the peers that are asked about. -/
def number (own : String) (about : List String → Bool) (sessions : List Session) : Nat :=
  sessions.countP fun session => about [own, session.id.peer]

/-- Sessions are counted list by list. -/
theorem number_append (own : String) (about : List String → Bool) (sessions more : List Session) :
    number own about (sessions ++ more) = number own about sessions + number own about more :=
  List.countP_append

/-- Only the ids of sessions count. -/
theorem number_congr (h : (before.map (·.id)).Perm (after.map (·.id))) :
    number own about before = number own about after := by
  have hIds (sessions : List Session) : number own about sessions =
      (sessions.map (·.id)).countP fun id => about [own, id.peer] := by
    rw [List.countP_map]
    rfl
  rw [hIds, hIds, h.countP_eq]

/-- Events that account for the sessions that began and were dropped in between. -/
def Accounts (own : String) (about : List String → Bool) (before : List Session)
    (events : List Audit.Event) (after : List Session) : Prop :=
  number own about before + events.countP (·.isAbout about .sessionEstablished) =
    number own about after + events.countP (·.isAbout about .sessionRetired)

namespace Accounts

/-- Events by which no session begins or is dropped. -/
theorem of_aside (hEvents : ∀ event ∈ events, event.kind.isSession = false)
    (hIds : (before.map (·.id)).Perm (after.map (·.id))) : Accounts own about before events after := by
  have hNone (kind : Audit.Kind) (hKind : kind.isSession = true) :
      events.countP (·.isAbout about kind) = 0 := by
    refine List.countP_eq_zero.2 fun event hEvent hIs => ?_
    unfold Audit.Event.isAbout at hIs
    rw [Bool.and_eq_true, decide_eq_true_eq] at hIs
    have hAside := hEvents event hEvent
    rw [hIs.1, hKind] at hAside
    cases hAside
  unfold Accounts
  rw [hNone _ rfl, hNone _ rfl, number_congr hIds]

/-- Events of two stretches account for both together. -/
theorem trans (h : Accounts own about before events between)
    (h' : Accounts own about between later after) :
    Accounts own about before (events ++ later) after := by
  unfold Accounts at *
  rw [List.countP_append, List.countP_append]
  omega

/-- Only the numbers of the sessions matter. -/
theorem congr (h : Accounts own about before events after)
    (hBefore : number own about between = number own about before)
    (hAfter : number own about more = number own about after) :
    Accounts own about between events more := by
  unfold Accounts at *
  rw [hBefore, hAfter, h]

/-- Sessions that nothing is done to. -/
theorem append_left (h : Accounts own about before events after) (rest : List Session) :
    Accounts own about (rest ++ before) events (rest ++ after) := by
  unfold Accounts at *
  rw [number_append, number_append]
  omega

/-- The event of a session that begins. -/
theorem begins (session : Session) {peer : String} (hPeer : session.id.peer = peer)
    (detail : String) (rest : List Session) :
    Accounts own about rest [⟨.sessionEstablished, [own, peer], .success, detail⟩] (session :: rest) := by
  subst hPeer
  unfold Accounts number Audit.Event.isAbout
  cases hAbout : about [own, session.id.peer] <;> simp [hAbout]

/-- The event of a session that is dropped. -/
theorem retires (session : Session) (detail : String) (rest : List Session) :
    Accounts own about (session :: rest)
      [⟨.sessionRetired, [own, session.id.peer], .success, detail⟩] rest := by
  unfold Accounts number Audit.Event.isAbout
  cases hAbout : about [own, session.id.peer] <;> simp [hAbout]

end Accounts

end Session

namespace Work

variable {ρ σ τ : Type} {w : Work ρ} {w' : Work σ} {w'' : Work τ} {own : String}
  {about : List String → Bool} {before between after more : List Session}

/-- Work that says of the sessions that began and were dropped what is to be put on record. -/
def Accounts (own : String) (about : List String → Bool) (before after : List Session) (w : Work ρ)
    (w' : Work σ) : Prop :=
  ∃ told, w'.events = w.events ++ told ∧ Session.Accounts own about before told after

namespace Accounts

/-- Work that has nothing to say, and leaves the ids of the sessions. -/
theorem of_ids (h : w'.events = w.events) (hIds : (before.map (·.id)).Perm (after.map (·.id))) :
    Accounts own about before after w w' :=
  ⟨[], by rw [h, List.append_nil], .of_aside nofun hIds⟩

theorem refl (sessions : List Session) (w : Work ρ) : Accounts own about sessions sessions w w :=
  .of_ids rfl (.refl _)

/-- Work that is accounted for, one piece behind the other. -/
theorem trans (h : Accounts own about before between w w')
    (h' : Accounts own about between after w' w'') : Accounts own about before after w w'' := by
  obtain ⟨told, hTold, hAccounts⟩ := h
  obtain ⟨told', hTold', hAccounts'⟩ := h'
  exact ⟨told ++ told', by rw [hTold', hTold, List.append_assoc], hAccounts.trans hAccounts'⟩

/-- Only the ids of the sessions count, in any order. -/
theorem congr (h : Accounts own about before after w w')
    (hBefore : (between.map (·.id)).Perm (before.map (·.id)))
    (hAfter : (after.map (·.id)).Perm (more.map (·.id))) :
    Accounts own about between more w w' := by
  obtain ⟨told, hTold, hAccounts⟩ := h
  exact ⟨told, hTold, hAccounts.congr (Session.number_congr hBefore)
    (Session.number_congr hAfter).symm⟩

/-- Sessions that the work leaves alone may stand on both sides. -/
theorem append_left (h : Accounts own about before after w w') (rest : List Session) :
    Accounts own about (rest ++ before) (rest ++ after) w w' := by
  obtain ⟨told, hTold, hAccounts⟩ := h
  exact ⟨told, hTold, hAccounts.append_left rest⟩

/-- One event that is about something else. -/
theorem of_note {event : Audit.Event} (h : w'.events = w.events ++ [event])
    (hAside : event.kind.isSession = false)
    (hIds : (before.map (·.id)).Perm (after.map (·.id))) : Accounts own about before after w w' :=
  ⟨[event], h, .of_aside (fun _ hEvent => List.mem_singleton.1 hEvent ▸ hAside) hIds⟩

end Accounts

/-- Every session that is dropped is put on record. -/
theorem accounts_retireAll (s : Setting) (reason : String) (w : Work σ)
    (sessions rest : List Session) :
    Accounts s.own.deviceId about (sessions ++ rest) rest w (retireAll s reason w sessions) := by
  induction sessions generalizing w with
  | nil => exact .refl ..
  | cons session others ih =>
    have hFirst : Accounts s.own.deviceId about (session :: (others ++ rest)) (others ++ rest) w
        (retire s reason w session) := ⟨[_], rfl, .retires session _ _⟩
    exact hFirst.trans (ih (retire s reason w session))

end Work

-- ---------------------------------------------------------------------------
-- Sending sides
-- ---------------------------------------------------------------------------

namespace Outbound

variable {P : Primitives} {about : List String → Bool} (s : Setting)

/-- Asking for an establishment begins and drops no session. -/
theorem accounts_request (w : Work Outbound) {own : String} :
    Work.Accounts own about w.part.live (w.part.request s.now).2.live w
      { w with part := (w.part.request s.now).2 } := by
  refine .of_ids rfl ?_
  unfold request
  split <;> exact .refl _

/-- A session that ends goes behind those that have ended. -/
theorem accounts_expireCurrent (w : Work Outbound) {own : String} :
    Work.Accounts own about w.part.live (expireCurrent s w).2.part.live w (expireCurrent s w).2 := by
  unfold expireCurrent live
  cases hCurrent : w.part.current with
  | none =>
    refine .of_ids rfl ?_
    rw [hCurrent]
  | some session =>
    refine .of_ids rfl ?_
    have hId : (w.expire s session).1.id = session.id := Session.id_expire ..
    simp only [Option.toList_some, Option.toList_none, List.nil_append, List.singleton_append,
      List.map_append, List.map_cons, List.map_nil, hId]
    exact (List.perm_append_singleton _ _).symm

/-- A rotation ends a session, which stays. -/
theorem accounts_rotate (peer : String) (reason : Rotation.Reason) (w : Work Outbound) {own : String} :
    Work.Accounts own about w.part.live (rotate s peer reason w).2.part.live w
      (rotate s peer reason w).2 := by
  have hEnds : Work.Accounts own about w.part.live (expireCurrent s w).2.part.live w
      (expireCurrent s w).2 := accounts_expireCurrent s w
  unfold rotate
  generalize expireCurrent s w = ended at hEnds
  obtain ⟨epoch, w'⟩ := ended
  cases epoch with
  | none => exact hEnds
  | some epoch => exact hEnds.trans (.of_note rfl rfl (.refl _))

/-- A rotation that is due drops nothing. -/
theorem accounts_rotateIfDue (peer : String) (level : Level) (w : Work Outbound) {own : String} :
    Work.Accounts own about w.part.live (rotateIfDue s peer level w).part.live w
      (rotateIfDue s peer level w) := by
  unfold rotateIfDue
  split
  · exact accounts_rotate ..
  · exact .refl ..

/-- The session that a side which sends with none makes is put on record, and so are those that it
supersedes. -/
theorem accounts_establish (peer : Peer) (level : Level) (w : Work Outbound)
    (hNone : w.part.current = none) :
    Work.Accounts s.own.deviceId about w.part.live (establish P s peer level w).2.part.live w
      (establish P s peer level w).2 := by
  have hLive : w.part.live = w.part.expiring := by
    unfold live
    rw [hNone]
    rfl
  dsimp only [establish]
  split
  · refine .of_ids rfl ?_
    unfold live
    exact .refl _
  · rename_i session hBegun
    obtain ⟨keys, -, hSession⟩ := beginSession_eq_ok hBegun
    have hPeer : session.id.peer = peer.deviceId := by
      rw [hSession]
      rfl
    rw [hLive, Work.part_retireAll]
    refine Work.Accounts.trans ?_ (Work.accounts_retireAll s _ _ w.part.expiring [session])
    exact ⟨[_], rfl, (Session.Accounts.begins session hPeer _ w.part.expiring).congr rfl
      (Session.number_congr ((List.perm_append_singleton _ _).map _))⟩

/-- **A message puts on record which sessions of its side began and were dropped for it.** -/
theorem accounts_encrypt (peer : Peer) (level : Level) (plaintext : Bytes) (w : Work Outbound) :
    Work.Accounts s.own.deviceId about w.part.live
      (encrypt P s peer level plaintext w).2.part.live w (encrypt P s peer level plaintext w).2 := by
  have hDue : Work.Accounts s.own.deviceId about w.part.live
      (rotateIfDue s peer.deviceId level w).part.live w (rotateIfDue s peer.deviceId level w) :=
    accounts_rotateIfDue ..
  -- whether a session is at hand or begins, the one that is used is the current one of the side
  have hReady : Work.Accounts s.own.deviceId about w.part.live
      (ready P s peer level (rotateIfDue s peer.deviceId level w)).2.part.live w
      (ready P s peer level (rotateIfDue s peer.deviceId level w)).2 ∧
      ∀ session, (ready P s peer level (rotateIfDue s peer.deviceId level w)).1 = .ok session →
        (ready P s peer level (rotateIfDue s peer.deviceId level w)).2.part.current =
          some session := by
    generalize rotateIfDue s peer.deviceId level w = turned at hDue
    unfold ready
    cases hCurrent : turned.part.current with
    | some session => exact ⟨hDue, fun _ h => by cases h; exact hCurrent⟩
    | none =>
      refine ⟨hDue.trans (accounts_establish s peer level turned hCurrent), fun session hOk => ?_⟩
      dsimp only at hOk ⊢
      rcases hMade : establish P s peer level turned with ⟨result, made⟩
      rw [hMade] at hOk
      obtain rfl : result = .ok session := hOk
      rcases establish_cases hMade with ⟨failure, hFailed, -⟩ | ⟨begun, hBegun, -, hPart⟩
      · cases hFailed
      · cases hBegun
        exact congrArg current hPart
  unfold encrypt
  split
  · exact .refl ..
  split
  · exact .of_note rfl rfl (.refl _)
  obtain ⟨hAccounts, hSession⟩ := hReady
  generalize ready P s peer level (rotateIfDue s peer.deviceId level w) = made at hAccounts hSession
  obtain ⟨result, w'⟩ := made
  cases result with
  | error failure => exact hAccounts
  | ok session =>
    dsimp only at hAccounts hSession ⊢
    -- the numbers of the epoch are used up
    split
    · exact hAccounts
    · -- the session of the message stays in its place
      rename_i e session' random hMade
      obtain ⟨-, rfl, -⟩ := Session.encrypt_cases hMade
      refine hAccounts.trans (.of_ids rfl ?_)
      unfold live
      rw [hSession session rfl]
      exact .refl _

end Outbound

-- ---------------------------------------------------------------------------
-- Receiving sides
-- ---------------------------------------------------------------------------

namespace Inbound

variable {P : Primitives} {about : List String → Bool} {own : String} (s : Setting)

/-- A session that takes the place of another with its id. -/
theorem ids_insert {i : Inbound} {epoch : UInt64} {session session' : Session}
    (h : i.epochs.get? epoch = some session) (hId : session'.id = session.id) :
    (i.epochs.values.map (·.id)).Perm ((i.epochs.insert epoch session').values.map (·.id)) := by
  have hBefore := (i.epochs.values_perm epoch).map (·.id)
  have hAfter := (i.epochs.values_insert epoch session').map (·.id)
  rw [h] at hBefore
  rw [List.map_cons, hId] at hAfter
  exact hBefore.trans hAfter.symm

/-- A session that ends stays until it is dropped. -/
theorem accounts_expire (w : Work Inbound) (epoch : UInt64) :
    Work.Accounts own about w.part.live (expire s w epoch).2.part.live w (expire s w epoch).2 := by
  unfold expire
  split
  · rename_i session hSession
    split
    · exact .of_ids rfl (ids_insert hSession (Session.id_expire ..))
    · exact .refl ..
  · exact .refl ..

/-- Sessions that end stay until they are dropped. -/
theorem accounts_expireAll (w : Work Inbound) :
    Work.Accounts own about w.part.live (expireAll s w).part.live w (expireAll s w) := by
  unfold expireAll
  generalize w.part.epochs.keys = epochs
  induction epochs generalizing w with
  | nil => exact .refl ..
  | cons epoch rest ih => exact (accounts_expire s w epoch).trans (ih (expire s w epoch).2)

/-- The session whose grace is found to be over when a message of an epoch comes in. -/
def lapsed? (now epoch : UInt64) (i : Inbound) : Option Session :=
  if i.isRevoked then none
  else (i.epochs.get? epoch).filter fun session => !session.canDecrypt now

/-- What lapses is kept, on a side that is not barred, and past its grace. -/
theorem lapsed?_eq_some_iff {now epoch : UInt64} {i : Inbound} {session : Session} :
    lapsed? now epoch i = some session ↔
      i.isRevoked = false ∧ i.epochs.get? epoch = some session ∧ session.canDecrypt now = false := by
  unfold lapsed?
  split
  · rename_i hBarred
    simp [hBarred]
  · rename_i hOpen
    simp [Option.filter_eq_some_iff, hOpen]

/-- A session that lapses opens nothing. -/
theorem fst_decrypt_of_lapsed {s : Setting} {e : Envelope} {w : Work Inbound} {session : Session}
    (h : lapsed? s.now e.epoch w.part = some session) (sender : Peer) :
    (decrypt P s sender e w).1 = .error (.sessionExpired sender.deviceId e.epoch) := by
  obtain ⟨hOpen, hKnown, hOver⟩ := lapsed?_eq_some_iff.1 h
  unfold decrypt
  rw [hOpen, if_neg Bool.false_ne_true, hKnown]
  dsimp only
  unfold continueEpoch
  rw [hOver, if_neg Bool.false_ne_true]

/-- **An envelope puts on record which session began with it,** but not which one lapsed. -/
theorem accounts_decrypt (sender : Peer) (e : Envelope) (w : Work Inbound) :
    Work.Accounts s.own.deviceId about w.part.live
      ((lapsed? s.now e.epoch w.part).toList ++ (decrypt P s sender e w).2.part.live) w
      (decrypt P s sender e w).2 := by
  unfold decrypt lapsed?
  split
  · exact .refl ..
  -- an epoch that is known: it is read, or it has run out and is dropped
  cases hKnown : w.part.epochs.get? e.epoch with
  | some session =>
    dsimp only
    unfold continueEpoch
    rw [Option.filter_some]
    cases hReadable : session.canDecrypt s.now with
    | true =>
      rw [if_pos rfl, if_neg (by decide)]
      split
      · exact .refl ..
      · rename_i plaintext session' hOpened
        obtain ⟨-, -, -, -, -, -, rfl⟩ := Session.decrypt_eq_ok_iff.1 hOpened
        exact .of_ids rfl (ids_insert hKnown rfl)
    -- the session that has run out is the one that `lapsed?` accounts for
    | false =>
      refine .of_ids rfl (List.Perm.map _ ?_)
      have hPerm := w.part.epochs.values_perm e.epoch
      rwa [hKnown] at hPerm
  -- an epoch that is unknown: it is refused, or it begins and the older ones end
  | none =>
    dsimp only
    split
    · exact .refl ..
    unfold beginEpoch
    split
    · exact .refl ..
    rename_i session hBegun
    split
    · exact .refl ..
    rename_i plaintext session' hOpened
    have hPeer : session'.id.peer = sender.deviceId := by
      obtain ⟨-, -, -, -, -, -, rfl⟩ := Session.decrypt_eq_ok_iff.1 hOpened
      exact congrArg SessionId.peer (beginSession_eq_ok hBegun).1
    -- the epoch has no session when the others have ended
    have hAged : Work.Accounts s.own.deviceId about w.part.live (expireAll s w).part.live w
        (expireAll s w) := accounts_expireAll s w
    have hUnknown : (expireAll s w).part.epochs.get? e.epoch = none := by
      refine Option.eq_none_iff_forall_ne_some.2 fun kept hKept => ?_
      obtain ⟨before, hBefore, -⟩ := (wanes_expireAll s w).kept _ kept hKept
      rw [hKnown] at hBefore
      cases hBefore
    have hOthers := (expireAll s w).part.epochs.values_perm e.epoch
    rw [hUnknown] at hOthers
    refine hAged.trans ⟨[_], rfl, (Session.Accounts.begins session' hPeer _
      (expireAll s w).part.live).congr rfl (Session.number_congr (List.Perm.map _ ?_))⟩
    exact ((expireAll s w).part.epochs.values_insert _ _).trans (hOthers.symm.cons _)

end Inbound

-- ---------------------------------------------------------------------------
-- All pairs
-- ---------------------------------------------------------------------------

namespace Pairs

variable {P : Primitives} {α : Type} {about : List String → Bool} {own : String}

/-- The sessions of a sending side stand beside all others. -/
theorem live_outbound (p : Pairs) (peer : String) :
    ∃ rest, p.live.Perm ((p.sending peer).live ++ rest) ∧
      ∀ o, ({ p with outbound := p.outbound.insert peer o } : Pairs).live.Perm (o.live ++ rest) := by
  refine ⟨(p.outbound.erase peer).values.flatMap (·.live) ++ p.inbound.values.flatMap (·.live), ?_,
    fun o => ?_⟩
  · rw [← List.append_assoc]
    exact (p.outbound.flatMap_values_perm peer rfl).append_right _
  · rw [← List.append_assoc]
    exact ((p.outbound.values_insert peer o).flatMap_right (·.live)).append_right _

/-- The sessions of a receiving side stand beside all others. -/
theorem live_inbound (p : Pairs) (peer : String) :
    ∃ rest, p.live.Perm ((p.receiving peer).live ++ rest) ∧
      ∀ i, ({ p with inbound := p.inbound.insert peer i } : Pairs).live.Perm (i.live ++ rest) := by
  refine ⟨p.outbound.values.flatMap (·.live) ++ (p.inbound.erase peer).values.flatMap (·.live), ?_,
    fun i => ?_⟩
  · exact ((p.inbound.flatMap_values_perm peer rfl).append_left _).trans
      (List.perm_append_comm_assoc ..)
  · exact (((p.inbound.values_insert peer i).flatMap_right (·.live)).append_left _).trans
      (List.perm_append_comm_assoc ..)

-- What becomes of one side is what becomes of all sessions. `out` says which of them are taken out
-- of the side without a word.

/-- Work on one sending side is accounted for among all sessions; `out` are those that it hands out.
-/
theorem accounts_onOutbound {peer : String} {op : Work Outbound → α × Work Outbound}
    {w : Work Pairs} (out : α → List Session)
    (h : ∀ v : Work Outbound, Work.Accounts own about v.part.live
      (out (op v).1 ++ (op v).2.part.live) v (op v).2) :
    Work.Accounts own about w.part.live
      (out (onOutbound peer op w).1 ++ (onOutbound peer op w).2.part.live) w
      (onOutbound peer op w).2 := by
  obtain ⟨rest, hBefore, hAfter⟩ := live_outbound w.part peer
  obtain ⟨told, hTold, hSide⟩ := h (w.withPart (w.part.sending peer))
  refine ⟨told, hTold, (hSide.append_left rest).congr (Session.number_congr (List.Perm.map _ ?_))
    (Session.number_congr (List.Perm.map _ ?_))⟩
  · exact hBefore.trans List.perm_append_comm
  · refine ((hAfter _).append_left _).trans ?_
    rw [← List.append_assoc]
    exact List.perm_append_comm

/-- Work on one receiving side is accounted for among all sessions; `out` are those that it hands
out. -/
theorem accounts_onInbound {peer : String} {op : Work Inbound → α × Work Inbound} {w : Work Pairs}
    (out : α → List Session)
    (h : let v := w.withPart (w.part.receiving peer)
      Work.Accounts own about v.part.live (out (op v).1 ++ (op v).2.part.live) v (op v).2) :
    Work.Accounts own about w.part.live
      (out (onInbound peer op w).1 ++ (onInbound peer op w).2.part.live) w
      (onInbound peer op w).2 := by
  obtain ⟨rest, hBefore, hAfter⟩ := live_inbound w.part peer
  obtain ⟨told, hTold, hSide⟩ := h
  refine ⟨told, hTold, (hSide.append_left rest).congr (Session.number_congr (List.Perm.map _ ?_))
    (Session.number_congr (List.Perm.map _ ?_))⟩
  · exact hBefore.trans List.perm_append_comm
  · refine ((hAfter _).append_left _).trans ?_
    rw [← List.append_assoc]
    exact List.perm_append_comm

/-- Likewise where the sending side has to be there. -/
theorem accounts_onExistingOutbound {peer : String} {otherwise : α}
    {op : Work Outbound → α × Work Outbound} {w : Work Pairs} (out : α → List Session)
    (hNothing : out otherwise = [])
    (h : ∀ v : Work Outbound, Work.Accounts own about v.part.live
      (out (op v).1 ++ (op v).2.part.live) v (op v).2) :
    Work.Accounts own about w.part.live
      (out (onExistingOutbound peer otherwise op w).1 ++
        (onExistingOutbound peer otherwise op w).2.part.live) w
      (onExistingOutbound peer otherwise op w).2 := by
  unfold onExistingOutbound
  split
  · exact accounts_onOutbound out h
  · rw [hNothing]
    exact .refl ..

/-- Likewise where the receiving side has to be there. -/
theorem accounts_onExistingInbound {peer : String} {otherwise : α}
    {op : Work Inbound → α × Work Inbound} {w : Work Pairs} (out : α → List Session)
    (hNothing : out otherwise = [])
    (h : ∀ v : Work Inbound, Work.Accounts own about v.part.live
      (out (op v).1 ++ (op v).2.part.live) v (op v).2) :
    Work.Accounts own about w.part.live
      (out (onExistingInbound peer otherwise op w).1 ++
        (onExistingInbound peer otherwise op w).2.part.live) w
      (onExistingInbound peer otherwise op w).2 := by
  unfold onExistingInbound
  split
  · exact accounts_onInbound out (h _)
  · rw [hNothing]
    exact .refl ..

/-- Work of several steps. -/
theorem accounts_foldl {β σ : Type} (work : σ → Work Pairs) {op : σ → β → σ}
    (h : ∀ x b, Work.Accounts own about (work x).part.live (work (op x b)).part.live (work x)
      (work (op x b))) (l : List β) (x : σ) :
    Work.Accounts own about (work x).part.live (work (l.foldl op x)).part.live (work x)
      (work (l.foldl op x)) := by
  induction l generalizing x with
  | nil => exact .refl ..
  | cons b rest ih => exact (h x b).trans (ih (op x b))

variable (s : Setting)

theorem accounts_request (peer : String) (w : Work Pairs) :
    Work.Accounts own about w.part.live (request s peer w).2.part.live w (request s peer w).2 :=
  accounts_onOutbound (fun _ => []) fun v => Outbound.accounts_request s v

/-- An establishment that is given up had no session yet. -/
theorem accounts_checkEstablishment (peer : String) (w : Work Pairs) :
    Work.Accounts own about w.part.live (checkEstablishment s peer w).2.part.live w
      (checkEstablishment s peer w).2 := by
  refine accounts_onExistingOutbound (fun _ => []) rfl fun v => ?_
  split
  · exact .of_note rfl rfl (.refl _)
  · exact .refl ..

theorem accounts_rotate (peer : String) (w : Work Pairs) :
    Work.Accounts own about w.part.live (rotate s peer w).2.part.live w (rotate s peer w).2 :=
  accounts_onExistingOutbound (fun _ => []) rfl fun v => Outbound.accounts_expireCurrent s v

/-- Sessions that are taken out of both sides of a peer and then dropped. -/
theorem accounts_dropped {w w₁ w₂ : Work Pairs} {sent received : List Session}
    (hSent : Work.Accounts s.own.deviceId about w.part.live (sent ++ w₁.part.live) w w₁)
    (hReceived : Work.Accounts s.own.deviceId about w₁.part.live (received ++ w₂.part.live) w₁ w₂)
    (reason : String) :
    Work.Accounts s.own.deviceId about w.part.live
      (w₂.retireAll s reason (sent ++ received)).part.live w
      (w₂.retireAll s reason (sent ++ received)) := by
  rw [Work.part_retireAll]
  refine (hSent.trans (hReceived.append_left sent)).trans ?_
  rw [← List.append_assoc]
  exact Work.accounts_retireAll ..

/-- A revocation puts every session that it drops on record. -/
theorem accounts_revoke (peer : String) (w : Work Pairs) :
    Work.Accounts s.own.deviceId about w.part.live (revoke s peer w).2.part.live w
      (revoke s peer w).2 := by
  unfold revoke
  refine accounts_dropped s (accounts_onOutbound id fun v => ?_) (accounts_onInbound id ?_) _
  · refine .of_ids rfl (List.Perm.map _ ?_)
    exact (List.append_nil _).symm ▸ .refl _
  · refine .of_ids rfl (List.Perm.map _ ?_)
    exact (List.append_nil _).symm ▸ .refl _

/-- Sessions that are dropped together are each put on record. -/
theorem accounts_retire (reason peer : String) (w : Work Pairs) :
    Work.Accounts s.own.deviceId about w.part.live (retire s reason peer w).2.part.live w
      (retire s reason peer w).2 := by
  unfold retire
  refine accounts_dropped s (accounts_onExistingOutbound id rfl fun v => ?_)
    (accounts_onExistingInbound id rfl fun v => ?_) _
  · refine .of_ids rfl (List.Perm.map _ ?_)
    exact (List.append_nil _).symm ▸ .refl _
  · refine .of_ids rfl (List.Perm.map _ ?_)
    exact (List.append_nil _).symm ▸ .refl _

theorem accounts_shutdown (w : Work Pairs) :
    Work.Accounts s.own.deviceId about w.part.live (shutdown s w).2.part.live w (shutdown s w).2 :=
  accounts_foldl (fun x : Nat × Work Pairs => x.2)
    (fun x peer => by exact accounts_retire s "shutdown" peer x.2) w.part.peers (0, w)

/-- The first of a list that passes a test, taken out. -/
theorem perm_eraseP {test : Session → Bool} {l : List Session} {session : Session}
    (h : l.find? test = some session) : l.Perm (session :: l.eraseP test) := by
  induction l with
  | nil => cases h
  | cons first rest ih =>
    cases hFirst : test first with
    | true =>
      rw [List.find?_cons_of_pos hFirst] at h
      cases h
      rw [List.eraseP_cons_of_pos hFirst]
    | false =>
      rw [List.find?_cons_of_neg (by simp [hFirst])] at h
      rw [List.eraseP_cons_of_neg (by simp [hFirst])]
      exact ((ih h).cons first).trans (.swap ..)

/-- What is due for a session that sends is put on record if it is dropped. -/
theorem accounts_applyOutbound (id : SessionId) (action : Rotation.DueAction) (w : Work Outbound) :
    Work.Accounts s.own.deviceId about w.part.live (applyOutbound s id action w).2.part.live w
      (applyOutbound s id action w).2 := by
  unfold applyOutbound
  split
  · split
    · exact Outbound.accounts_rotate ..
    · exact .refl ..
  · split
    · rename_i session hFound
      refine (Work.accounts_retireAll s "grace window elapsed" { w with part := { w.part with
        expiring := w.part.expiring.eraseP (·.epoch = id.epoch) } } [session] _).congr
        (List.Perm.map _ ?_) (.refl _)
      exact ((perm_eraseP hFound).append_left _).trans List.perm_middle
    · exact .refl ..

/-- What is due for a session that receives is put on record if it is dropped. -/
theorem accounts_applyInbound (id : SessionId) (action : Rotation.DueAction) (w : Work Inbound) :
    Work.Accounts s.own.deviceId about w.part.live (applyInbound s id action w).2.part.live w
      (applyInbound s id action w).2 := by
  unfold applyInbound
  split
  · exact Inbound.accounts_expire ..
  · split
    · rename_i session hFound
      have hPerm := w.part.epochs.values_perm id.epoch
      rw [hFound] at hPerm
      exact (Work.accounts_retireAll s "grace window elapsed" { w with part := { w.part with
        epochs := w.part.epochs.erase id.epoch } } [session] _).congr (hPerm.map _) (.refl _)
    · exact .refl ..

/-- What is due for any session is accounted for. -/
theorem accounts_applyDue (r : SweepReport) (w : Work Pairs) (id : SessionId)
    (action : Rotation.DueAction) :
    Work.Accounts s.own.deviceId about w.part.live (applyDue s r w id action).2.part.live w
      (applyDue s r w id action).2 := by
  obtain ⟨w', hDone, hResult⟩ := applyDue_cases s r w id action
  have hAccounts : Work.Accounts s.own.deviceId about w.part.live w'.part.live w w' := by
    rcases hDone with ⟨-, rfl⟩ | ⟨-, rfl⟩
    · exact accounts_onExistingOutbound (fun _ => []) rfl fun v => accounts_applyOutbound s id action v
    · exact accounts_onExistingInbound (fun _ => []) rfl fun v => accounts_applyInbound s id action v
  rcases hResult with hSame | hForgotten
  · rw [hSame]
    exact hAccounts
  · rw [hForgotten]
    exact hAccounts.trans (.of_ids rfl (.refl _))

/-- A sweep of establishments begins and drops no session. -/
theorem accounts_sweepEstablishment (r : SweepReport) (w : Work Pairs) (peer : String) :
    Work.Accounts own about w.part.live (sweepEstablishment s r w peer).2.part.live w
      (sweepEstablishment s r w peer).2 := by
  have hCheck : Work.Accounts own about w.part.live (checkEstablishment s peer w).2.part.live w
      (checkEstablishment s peer w).2 := accounts_checkEstablishment s peer w
  unfold sweepEstablishment
  split <;> simpa only [‹checkEstablishment s peer w = _›] using hCheck

/-- **A sweep puts on record every session that it drops.** -/
theorem accounts_sweep (w : Work Pairs) :
    Work.Accounts s.own.deviceId about w.part.live (sweep s w).2.part.live w (sweep s w).2 := by
  unfold sweep
  exact Work.Accounts.trans
    (accounts_foldl (fun x : SweepReport × Work Pairs => x.2)
      (fun x d => by exact accounts_applyDue s x.1 x.2 d.1 d.2) (w.deadlines.due s.now) (⟨0, 0, 0⟩, w))
    (accounts_foldl (fun x : SweepReport × Work Pairs => x.2)
      (fun x peer => by exact accounts_sweepEstablishment s x.1 x.2 peer) _ _)

/-- A message accounts for the session that it begins and for those that it replaces. -/
theorem accounts_encrypt (peer : Peer) (level : Level) (plaintext : Bytes) (w : Work Pairs) :
    Work.Accounts s.own.deviceId about w.part.live (encrypt P s peer level plaintext w).2.part.live w
      (encrypt P s peer level plaintext w).2 :=
  accounts_onOutbound (fun _ => []) fun v => Outbound.accounts_encrypt s peer level plaintext v

/-- An envelope accounts for the session that it begins, but not for one that is found past its
grace. -/
theorem accounts_decrypt (sender : Peer) (e : Envelope) (w : Work Pairs) :
    Work.Accounts s.own.deviceId about w.part.live
      (((w.part.receiving sender.deviceId).lapsed? s.now e.epoch).toList ++
        (decrypt P s sender e w).2.part.live) w
      (decrypt P s sender e w).2 :=
  accounts_onInbound (fun _ => _) (Inbound.accounts_decrypt s sender e _)

end Pairs

-- ---------------------------------------------------------------------------
-- Devices
-- ---------------------------------------------------------------------------

namespace Device

variable {P : Primitives} {about : List String → Bool} {d d' d'' start : Device}
  {gone more : List Session} {ops : List Operation}

/-- The entries that were gained account for the sessions that began and for those that were dropped,
but not for some that are gone. -/
def Accounts (about : List String → Bool) (gone : List Session) (d d' : Device) : Prop :=
  ∃ events, d.audit.Adds events d'.audit ∧
    Session.Accounts d.id about d.pairs.live events (gone ++ d'.pairs.live)

namespace Accounts

/-- Operations that are accounted for, one behind the other. -/
theorem trans (h : Accounts about gone d d') (h' : Accounts about more d' d'') (hId : d'.id = d.id) :
    Accounts about (gone ++ more) d d'' := by
  obtain ⟨events, hAdds, hAccounts⟩ := h
  obtain ⟨events', hAdds', hAccounts'⟩ := h'
  rw [hId] at hAccounts'
  refine ⟨events ++ events', hAdds.trans hAdds', ?_⟩
  rw [List.append_assoc]
  exact hAccounts.trans (hAccounts'.append_left gone)

/-- What follows loses no session. -/
theorem and_then (h : Accounts about gone d d') (h' : Accounts about [] d' d'') (hId : d'.id = d.id) :
    Accounts about gone d d'' := by
  have hTrans := h.trans h' hId
  rwa [List.append_nil] at hTrans

/-- Entries by which no session begins or is dropped. -/
theorem of_notes (h : Notes (fun event => event.kind.isSession = false) d d')
    (hPairs : d'.pairs = d.pairs) : Accounts about [] d d' := by
  obtain ⟨events, hAdds, hNone⟩ := h
  refine ⟨events, hAdds, .of_aside hNone ?_⟩
  rw [hPairs]
  exact .refl _

/-- An operation aside from sessions accounts for nothing. -/
theorem of_aside (h : Notes IsAside d d') (hPairs : d'.pairs = d.pairs) : Accounts about [] d d' :=
  of_notes (h.mono fun _ hAside => hAside.2.1) hPairs

end Accounts

/-- What work on the sessions says of them goes on record. -/
theorem accounts_onPairsAt {α : Type} {now : UInt64} {op : Setting → Work Pairs → α × Work Pairs}
    (h : Work.Accounts d.id about d.pairs.live (gone ++ (op (d.setting now) d.work).2.part.live) d.work
      (op (d.setting now) d.work).2) : Accounts about gone d (d.onPairsAt P now op).2 := by
  obtain ⟨told, hTold, hAccounts⟩ := h
  refine ⟨told, ?_, hAccounts⟩
  have hEvents : (op (d.setting now) d.work).2.events = told := hTold
  rw [← hEvents]
  exact Audit.Log.adds_appendAll d.audit _ d.now

-- ---------------------------------------------------------------------------
-- One operation
-- ---------------------------------------------------------------------------

/-- A verification leaves the pairs alone. -/
theorem pairs_verify (id : String) (evidence : Evidence) (d : Device) :
    (d.verify P id evidence).2.pairs = d.pairs :=
  congrArg Work.part (verify_same (P := P) id evidence d).2.2

/-- Evidence is accounted for: a revocation puts on record what it drops. -/
theorem accounts_applyEvidence (id : String) (evidence : Evidence) (d : Device) :
    Accounts about [] d (d.applyEvidence P id evidence).2 := by
  have hVerified : Accounts about [] d (d.verify P id evidence).2 :=
    .of_aside (notes_verify id evidence d) (pairs_verify id evidence d)
  have hId : (d.verify P id evidence).2.id = d.id :=
    congrArg Identity.deviceId (verify_same (P := P) id evidence d).1.identity
  unfold applyEvidence
  generalize d.verify P id evidence = verified at hVerified hId
  obtain ⟨verified, d₁⟩ := verified
  dsimp only at hVerified hId ⊢
  split
  · exact hVerified.trans (accounts_onPairsAt
      (Pairs.accounts_revoke (d₁.setting d₁.now) id d₁.work)) hId
  · exact hVerified

theorem accounts_crossSignPeer (id : String) (d : Device) :
    Accounts about [] d (d.crossSignPeer P id).2 := by
  unfold crossSignPeer
  split
  · exact .of_aside (.of_eq rfl) rfl
  · exact accounts_applyEvidence ..

theorem accounts_rotate (peer : String) (d : Device) :
    Accounts about [] d (d.rotate P peer).2 := by
  have hWork : Accounts about [] d (d.onPairs P fun s => Pairs.rotate s peer).2 :=
    accounts_onPairsAt (Pairs.accounts_rotate (d.setting d.now) peer d.work)
  have hId : (d.onPairs P fun s => Pairs.rotate s peer).2.id = d.id := rfl
  unfold rotate
  split
  · rename_i d₁ hRotated
    rwa [hRotated] at hWork
  · rename_i epoch d₁ hRotated
    rw [hRotated] at hWork hId
    have hRecord : Accounts about [] d₁ (d₁.record P ⟨.forcedRotation, [d₁.id, peer], .success,
        s!"epoch {epoch.toNat} ({Rotation.Reason.forced.text})"⟩).2 :=
      .of_notes (notes_record _ d₁ rfl) (sameButLog_record _ d₁).pairs
    split <;> simpa only [‹record P _ d₁ = _›] using hWork.and_then hRecord hId

theorem accounts_requestEstablishment (peer : String) (d : Device) :
    Accounts about [] d (d.requestEstablishment P peer).2 :=
  accounts_onPairsAt (Pairs.accounts_request (d.setting d.now) peer d.work)

/-- A sweep puts on record what it drops. -/
theorem accounts_maintain (now : UInt64) (d : Device) : Accounts about [] d (d.maintain P now).2 :=
  accounts_onPairsAt (Pairs.accounts_sweep (d.setting now) d.work)

/-- Closing puts on record what it drops. -/
theorem accounts_shutdown (d : Device) : Accounts about [] d (d.shutdown P).2 := by
  have hWork : Accounts about [] d (d.onPairs P Pairs.shutdown).2 :=
    accounts_onPairsAt (Pairs.accounts_shutdown (d.setting d.now) d.work)
  have hFlushed := hWork.and_then (.of_aside (notes_flushAudit _) rfl) rfl
  rw [shutdown_eq]
  exact hFlushed

/-- **Sending** puts on record which sessions began and were dropped for the message. -/
theorem accounts_send (peer : String) (level : Level) (plaintext : Bytes) (d : Device) :
    Accounts about [] d (d.send P peer level plaintext).2 := by
  unfold send
  split
  · have hCheck : Accounts about [] d (d.onPairs P fun s => Pairs.checkEstablishment s peer).2 :=
      accounts_onPairsAt (Pairs.accounts_checkEstablishment (d.setting d.now) peer d.work)
    have hId : (d.onPairs P fun s => Pairs.checkEstablishment s peer).2.id = d.id := rfl
    unfold refuseUnknown
    split
    · rename_i failure d₁ hChecked
      rwa [hChecked] at hCheck
    · rename_i d₁ hChecked
      rw [hChecked] at hCheck hId
      exact hCheck.and_then (.of_aside (notes_note _ d₁ ⟨rfl, rfl, rfl⟩) rfl) hId
  rename_i record _
  split
  · exact .of_aside (notes_note _ d ⟨rfl, rfl, rfl⟩) rfl
  split
  · exact .of_aside (notes_note _ d ⟨rfl, rfl, rfl⟩) rfl
  -- only here a session can begin or end
  have hWork : Accounts about [] d
      (d.onPairs P fun s => Pairs.encrypt P s record level plaintext).2 :=
    accounts_onPairsAt (Pairs.accounts_encrypt (d.setting d.now) record level plaintext d.work)
  unfold sendTo
  split <;> rwa [‹onPairs P _ d = _›] at hWork

variable (P) in
/-- The session that an operation finds past its grace, and drops without an entry. -/
def lapsing? (d : Device) : Operation → Option Session
  | .receive bytes =>
    (Envelope.decode d.config.limits bytes).toOption.bind fun e =>
      (d.authenticate P e).toOption.bind fun sender =>
        (d.pairs.receiving sender.deviceId).lapsed? d.now e.epoch
  | _ => none

/-- An authentic envelope makes the session of its epoch lapse if that is past its grace. -/
theorem lapsing?_of_authentic {bytes : Bytes} {e : Envelope} {sender : Peer}
    (hDecoded : Envelope.decode d.config.limits bytes = .ok e)
    (hPeer : d.authenticate P e = .ok sender) : d.lapsing? P (.receive bytes) =
      (d.pairs.receiving sender.deviceId).lapsed? d.now e.epoch := by
  simp [lapsing?, hDecoded, hPeer, Except.toOption]

/-- A rejection is aside from sessions. -/
theorem accounts_reject (sender : Option String) (failure : Failure) (d : Device) :
    Accounts about [] d (d.reject P sender failure).2 :=
  .of_aside (notes_reject ..) (reject_cases sender failure d).2.pairs

/-- **Receiving** puts on record which session began with the message, but not which one lapsed. -/
theorem accounts_receive (bytes : Bytes) (d : Device) :
    Accounts about (d.lapsing? P (.receive bytes)).toList d (d.receive P bytes).2 := by
  unfold receive
  split
  · rename_i failure hDecoded
    -- no session can run out before the sender is made out
    have hNone : d.lapsing? P (.receive bytes) = none := by
      simp [lapsing?, hDecoded, Except.toOption]
    rw [hNone]
    exact accounts_reject ..
  rename_i e hDecoded
  unfold receiveEnvelope
  split
  · rename_i failure hPeer
    have hNone : d.lapsing? P (.receive bytes) = none := by
      simp [lapsing?, hDecoded, hPeer, Except.toOption]
    rw [hNone]
    exact accounts_reject ..
  rename_i sender hPeer
  rw [lapsing?_of_authentic hDecoded hPeer]
  -- the session that runs out, if one does, is that of the epoch of the envelope
  have hWork : Accounts about ((d.pairs.receiving sender.deviceId).lapsed? d.now e.epoch).toList d
      (d.onPairs P fun s => Pairs.decrypt P s sender e).2 :=
    accounts_onPairsAt (Pairs.accounts_decrypt (d.setting d.now) sender e d.work)
  have hId : (d.onPairs P fun s => Pairs.decrypt P s sender e).2.id = d.id := rfl
  split
  · rename_i failure d₁ hOpened
    rw [hOpened] at hWork hId
    exact hWork.and_then (accounts_reject ..) hId
  · rename_i plaintext d₁ hOpened
    rwa [hOpened] at hWork

/-- **An operation** that takes nothing off the record accounts for every session that begins or is
dropped, but for one that lapsed. -/
theorem accounts_step (d : Device) (op : Operation) (hKeeps : op ≠ .sweepAudit) :
    Accounts about (d.lapsing? P op).toList d (d.step P op).2 := by
  cases op with
  | send peer level plaintext => exact accounts_send ..
  | receive bytes => exact accounts_receive ..
  | remember id keys => exact .of_aside (notes_remember id keys d) (pairs_remember id keys d)
  | importBundle text => exact .of_aside (notes_importBundle text d) (pairs_importBundle text d)
  | verify id evidence => exact accounts_applyEvidence id evidence d
  | revoke id reason => exact accounts_applyEvidence id (.revocation reason) d
  | crossSignPeer id => exact accounts_crossSignPeer ..
  | rotate peer => exact accounts_rotate ..
  | request peer => exact accounts_requestEstablishment peer d
  | maintain now => exact accounts_maintain now d
  | shutdown => exact accounts_shutdown ..
  | flushAudit => exact .of_aside (notes_flushAudit d) rfl
  | sweepAudit => exact absurd rfl hKeeps
  | save store passphrase => exact .of_aside (notes_save store passphrase d) (pairs_save ..)
  | addRoot | setClock => exact .of_aside (.of_eq rfl) rfl
  | setSink isFull => exact .of_aside ⟨[], .of_eq rfl, nofun⟩ rfl

-- ---------------------------------------------------------------------------
-- Many operations
-- ---------------------------------------------------------------------------

variable (P) in
/-- The sessions that lapse while a device is asked for some operations, earliest first. -/
def lapsed (d : Device) : List Operation → List Session
  | [] => []
  | op :: rest => (d.lapsing? P op).toList ++ lapsed (step P d op).2 rest

/-- **A whole run accounts for its sessions,** but for those that lapsed. -/
theorem accounts_after (hKeeps : .sweepAudit ∉ ops) :
    Accounts about (lapsed P d ops) d (after P d ops) := by
  induction ops generalizing d with
  | nil => exact .of_aside (.of_eq rfl) rfl
  | cons op rest ih =>
    rw [List.mem_cons, not_or] at hKeeps
    exact (accounts_step d op (Ne.symm hKeeps.1)).trans (ih hKeeps.2) (id_step d op)

/-- A device keeps its id. -/
theorem id_after (d : Device) (ops : List Operation) : (after P d ops).id = d.id := by
  induction ops generalizing d with
  | nil => rfl
  | cons op rest ih => exact (ih _).trans (id_step d op)

/-- What lapses was kept, its grace is over, and what came in is refused. -/
theorem of_lapsing? {op : Operation} {session : Session} (h : d.lapsing? P op = some session) :
    ∃ bytes, op = .receive bytes ∧ session ∈ d.pairs.live ∧ session.canDecrypt d.now = false ∧
      ∃ failure, (d.receive P bytes).1 = .error failure := by
  cases op with
  | receive bytes =>
    refine ⟨bytes, rfl, ?_⟩
    cases hDecoded : Envelope.decode d.config.limits bytes with
    | error failure => simp [lapsing?, hDecoded, Except.toOption] at h
    | ok e =>
      cases hPeer : d.authenticate P e with
      | error failure => simp [lapsing?, hDecoded, hPeer, Except.toOption] at h
      | ok sender =>
        rw [lapsing?_of_authentic hDecoded hPeer] at h
        obtain ⟨-, hKnown, hOver⟩ := Inbound.lapsed?_eq_some_iff.1 h
        have hLive : session ∈ (d.pairs.receiving sender.deviceId).live :=
          List.mem_map.2 ⟨(e.epoch, session), Table.mem_toList_iff.2 hKnown, rfl⟩
        refine ⟨Pairs.mem_live_iff.2 ⟨sender.deviceId, .inr hLive⟩, hOver, ?_⟩
        rcases receive_cases (d.receive P bytes).eta.symm with
          ⟨failure, hFailed, -⟩ | ⟨e', sender', opened, w, hDecoded', hPeer', hw, -, -, hResult⟩
        · exact ⟨failure, hFailed⟩
        rw [hDecoded] at hDecoded'
        cases hDecoded'
        rw [hPeer] at hPeer'
        cases hPeer'
        rcases hResult with ⟨-, failure, -, hFailed⟩ | ⟨plaintext, hOpened, -⟩
        · exact ⟨failure, hFailed⟩
        · -- the session that has run out refuses the envelope
          have hRefused := Inbound.fst_decrypt_of_lapsed (P := P) (s := d.setting d.now) (e := e)
            (w := d.work.withPart (d.pairs.receiving sender.deviceId)) h sender
          exact nomatch hRefused.symm.trans ((congrArg Prod.fst hw).trans hOpened)
  | _ => cases h

/-- What lapsed was live, past its grace, and met by a message that was refused. -/
theorem exists_asked_of_mem_lapsed {session : Session} (h : session ∈ lapsed P d ops) :
    ∃ d' bytes, Asked P d ops d' (.receive bytes) ∧ session ∈ d'.pairs.live ∧
      session.canDecrypt d'.now = false ∧ ∃ failure, (d'.receive P bytes).1 = .error failure := by
  induction ops generalizing d with
  | nil => cases h
  | cons op rest ih =>
    rcases List.mem_append.1 h with hNow | hLater
    · obtain ⟨bytes, rfl, hLapses⟩ := of_lapsing? (Option.mem_toList.1 hNow)
      exact ⟨d, bytes, .first, hLapses⟩
    · obtain ⟨d', bytes, hAsked, hLapses⟩ := ih hLater
      exact ⟨d', bytes, hAsked.later, hLapses⟩

/-- A device begins with an empty log and without sessions. -/
theorem Starts.vacant (h : Starts P d) : d.audit.entries = [] ∧ d.pairs.live = [] := by
  have hLog : d.audit.entries = [] := by
    cases h with
    | created h =>
      obtain ⟨-, rfl⟩ := create_eq_ok h
      rfl
    | restored h =>
      obtain ⟨identity, d₀, hCreate, hMade⟩ := restore_eq_ok h
      obtain ⟨-, rfl⟩ := create_eq_ok hCreate
      rcases hMade with ⟨-, -, rfl⟩ | ⟨state, -, -, rfl⟩ <;> rfl
  exact ⟨hLog, h.blank.1.live_eq_nil⟩

/-- The balance for any choice of devices. -/
theorem balance_after (hStart : Starts P start) (hKeeps : .sweepAudit ∉ ops)
    (about : List String → Bool) :
    (after P start ops).audit.entries.countP (fun e => e.toEvent.isAbout about .sessionEstablished) =
      Session.number (after P start ops).id about (after P start ops).pairs.live
        + (after P start ops).audit.entries.countP (fun e => e.toEvent.isAbout about .sessionRetired)
        + Session.number (after P start ops).id about (lapsed P start ops) := by
  obtain ⟨hLog, hLive⟩ := hStart.vacant
  have hAfter : Accounts about (lapsed P start ops) start (after P start ops) :=
    accounts_after hKeeps
  obtain ⟨events, ⟨entries, hEntries, rfl⟩, hAccounts⟩ := hAfter
  rw [hLog, List.nil_append] at hEntries
  unfold Session.Accounts at hAccounts
  rw [hLive, ← id_after (P := P) start ops, Session.number_append, List.countP_map,
    List.countP_map] at hAccounts
  have hNone : Session.number (after P start ops).id about [] = 0 := rfl
  rw [hNone, Nat.zero_add] at hAccounts
  rw [hEntries]
  refine hAccounts.trans ?_
  rw [Nat.add_comm (Session.number _ _ (lapsed P start ops)), Nat.add_right_comm]
  rfl

/-- **The balance of a log from which nothing was taken.** Every session that began, with anyone and
with each peer alone, is kept, was put on record when it was dropped, or has lapsed: it was kept, its
grace was over, and a message of its epoch came in and was refused. -/
theorem begun_are_kept_dropped_or_lapsed (hStart : Starts P start) (hKeeps : .sweepAudit ∉ ops) :
    let d := after P start ops
    let lapsed := lapsed P start ops
    d.audit.count .sessionEstablished =
        d.pairs.live.length + d.audit.count .sessionRetired + lapsed.length ∧
      (∀ peer, let noted (kind : Audit.Kind) :=
          d.audit.entries.countP fun e => e.kind = kind ∧ e.devices = [d.id, peer]
        noted .sessionEstablished = d.pairs.live.countP (·.id.peer = peer)
          + noted .sessionRetired + lapsed.countP (·.id.peer = peer)) ∧
      ∀ session ∈ lapsed, ∃ d' bytes, Asked P start ops d' (.receive bytes) ∧
        session ∈ d'.pairs.live ∧ session.canDecrypt d'.now = false ∧
        ∃ failure, (d'.receive P bytes).1 = .error failure := by
  intro d lapsed
  refine ⟨?_, fun peer => ?_, fun session hSession => exists_asked_of_mem_lapsed hSession⟩
  · have hAll := balance_after hStart hKeeps fun _ => true
    simpa [Audit.Event.isAbout, Session.number, Audit.Log.count] using hAll
  · have hPeer := balance_after hStart hKeeps fun devices => decide (devices = [d.id, peer])
    simpa [Audit.Event.isAbout, Session.number, d] using hPeer

/-- Bob gets a letter of each of two epochs of Ann's, and another of the first epoch when the grace of
that epoch is over. -/
def overdueOps : List Operation :=
  let letters := plainLetters .standard
    [.send "bob" .basic [1], .send "bob" .basic [2], .rotate "bob", .send "bob" .basic [3]]
  [meetPlain "ann" 1, .receive (letters.getD 0 []), .receive (letters.getD 2 []), .setClock 300000,
    .receive (letters.getD 1 [])]

/-- He answers in two epochs of his own before. -/
theorem begun_are_kept_dropped_or_lapsed_of_overdueOps :
    let ops := overdueOps.take 3 ++ [.send "ann" .basic [4], .rotate "ann", .send "ann" .basic [5]] ++
      overdueOps.drop 3
    let bob := after .plain (plain .standard "bob" 3) ops
    let lapsed := lapsed .plain (plain .standard "bob" 3) ops
    bob.audit.count .sessionEstablished = 4 ∧
      bob.pairs.live.map (·.id) = [⟨"bob", "ann", 1, .outbound⟩, ⟨"bob", "ann", 1, .inbound⟩] ∧
      lapsed.map (·.id) = [⟨"bob", "ann", 0, .inbound⟩] ∧
      bob.audit.count .sessionRetired = 1 := by
  intro ops bob lapsed
  have hLive : bob.pairs.live.map (·.id) =
      [⟨"bob", "ann", 1, .outbound⟩, ⟨"bob", "ann", 1, .inbound⟩] := by decide +kernel
  have hLapsed : lapsed.map (·.id) = [⟨"bob", "ann", 0, .inbound⟩] := by decide +kernel
  have hBegun : bob.audit.count .sessionEstablished = 4 := by decide +kernel
  have hKeeps : .sweepAudit ∉ ops := by simp [ops, overdueOps, meetPlain]
  have hStart : Starts .plain (plain .standard "bob" 3) := plain_starts "bob" 3 rfl
  obtain ⟨hBalance, -, -⟩ := begun_are_kept_dropped_or_lapsed hStart hKeeps
  have hLive' : bob.pairs.live.length = 2 := by simpa using congrArg List.length hLive
  have hLapsed' : lapsed.length = 1 := by simpa using congrArg List.length hLapsed
  have hBalance : 4 = 2 + bob.audit.count .sessionRetired + 1 := by
    rw [← hBegun, ← hLive', ← hLapsed']
    exact hBalance
  exact ⟨hBegun, hLive, hLapsed, by omega⟩

/-- **A session can end without an entry:** two began, one is kept, and none was put on record as
dropped. -/
theorem lapsed_session_leaves_no_entry :
    let bob := after .plain (plain .standard "bob" 3) overdueOps
    Starts .plain (plain .standard "bob" 3) ∧
      allReturn .plain (plain .standard "bob" 3) overdueOps = true ∧
      .sweepAudit ∉ overdueOps ∧ bob.audit.count .sessionEstablished = 2 ∧
      bob.pairs.live.length = 1 ∧ bob.audit.count .sessionRetired = 0 :=
  ⟨plain_starts "bob" 3 rfl, by decide +kernel, by simp [overdueOps, meetPlain], by decide +kernel,
    by decide +kernel, by decide +kernel⟩

end Device

end EndToEnd
