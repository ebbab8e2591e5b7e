import EndToEnd.Proofs.Chain
import EndToEnd.Proofs.Plain
import EndToEnd.Proofs.Starts

/-!
# No message is accepted twice

Whatever bytes a device is given, and whatever else is asked of it in between, it accepts the
messages of an epoch in increasing order of their numbers, each once, and an epoch that has left its
table never comes back.

The invariant is `Inbound.Tracks`: the receiving side of a pair keeps exactly the trace of the
accepted messages that refusing needs. The latest epoch is that of an accepted message and no
earlier than any; each session that is kept stands right behind the last accepted message of its
epoch.

Main results:

* `Device.Run.tracks` — the invariant holds in every run.
* `Device.Run.closed` — an epoch that is past and not kept stays so.
* `Device.accepts_once` — anti-replay for whole runs.
-/

namespace EndToEnd

/-- The place of a message: its epoch and its number there. -/
def ReceivedMessage.place (m : ReceivedMessage) : UInt64 × UInt64 := (m.epoch, m.sequence)

/-- The places of the accepted messages of a peer, in order of acceptance. -/
def History.places (sender : String) (h : History) : List (UInt64 × UInt64) :=
  (h.accepted sender).map (·.place)

/-- What was accepted in two stretches was accepted in them one after the other. -/
theorem History.places_append (sender : String) (h h' : History) :
    History.places sender (h ++ h') = h.places sender ++ h'.places sender := by
  simp [History.places]

/-- Places in order of acceptance: within an epoch, the numbers rise. -/
def InOrder (places : List (UInt64 × UInt64)) : Prop :=
  places.Pairwise fun a b => a.1 = b.1 → a.2 < b.2

/-- Places in order are all different. -/
theorem InOrder.nodup {places : List (UInt64 × UInt64)} (h : InOrder places) : places.Nodup := by
  refine List.Pairwise.imp (fun hAb => ?_) h
  rintro rfl
  exact UInt64.lt_irrefl _ (hAb rfl)

/-- One more place, behind all earlier ones of its epoch. -/
theorem InOrder.append {places : List (UInt64 × UInt64)} (h : InOrder places) {p : UInt64 × UInt64}
    (hp : ∀ q ∈ places, q.1 = p.1 → q.2 < p.2) : InOrder (places ++ [p]) := by
  refine List.pairwise_append.2 ⟨h, List.pairwise_singleton _ _, fun q hq p' hp' => ?_⟩
  rw [List.mem_singleton] at hp'
  subst hp'
  exact hp q hq

namespace Inbound

variable {P : Primitives} {i i' : Inbound} {places : List (UInt64 × UInt64)}

-- ---------------------------------------------------------------------------
-- The invariant
-- ---------------------------------------------------------------------------

/-- A receiving side that has accepted messages at some places. -/
structure Tracks (i : Inbound) (places : List (UInt64 × UInt64)) : Prop where
  /-- No accepted epoch is later than the latest. -/
  below : ∀ p ∈ places, ∃ latest, i.latest = some latest ∧ p.1 ≤ latest
  /-- The latest epoch is that of an accepted message. -/
  attained : ∀ latest, i.latest = some latest → ∃ p ∈ places, p.1 = latest
  /-- A session stands right behind the last accepted message of its epoch. -/
  behind : ∀ epoch session, i.epochs.get? epoch = some session →
    ∃ last, (epoch, last) ∈ places ∧ session.ratchet.next.toNat = last.toNat + 1 ∧
      ∀ p ∈ places, p.1 = epoch → p.2 ≤ last

namespace Tracks

theorem initial : Tracks .initial [] :=
  ⟨fun _ h => (nomatch h), fun _ h => (nomatch h), fun _ _ h => by cases h⟩

/-- An epoch that is kept is past. -/
theorem isPast (h : Tracks i places) {epoch : UInt64} {session : Session}
    (hs : i.epochs.get? epoch = some session) : i.isPast epoch = true := by
  obtain ⟨last, hLast, -, -⟩ := h.behind epoch session hs
  exact isPast_iff.2 (h.below (epoch, last) hLast)

/-- An epoch that is not past is later than all accepted ones. -/
theorem lt_of_isPast_eq_false (h : Tracks i places) {epoch : UInt64}
    (he : i.isPast epoch = false) : ∀ p ∈ places, p.1 < epoch := by
  intro p hp
  obtain ⟨latest, hLatest, hLe⟩ := h.below p hp
  refine UInt64.lt_of_le_of_lt hLe (UInt64.not_le.1 fun hPast => ?_)
  rw [isPast_iff.2 ⟨latest, hLatest, hPast⟩] at he
  cases he

/-- An epoch that is later than all accepted ones is not past. -/
theorem isPast_eq_false (h : Tracks i places) {epoch : UInt64} (he : ∀ p ∈ places, p.1 < epoch) :
    i.isPast epoch = false := by
  cases hPast : i.isPast epoch with
  | false => rfl
  | true =>
    obtain ⟨latest, hLatest, hBelow⟩ := isPast_iff.1 hPast
    obtain ⟨p, hp, rfl⟩ := h.attained latest hLatest
    exact absurd (he p hp) (UInt64.not_lt.2 hBelow)

/-- Waning loses nothing that refusing needs. -/
theorem wanes {barring : Prop} (h : Tracks i places) (hw : Wanes barring i i') :
    Tracks i' places := by
  refine ⟨?_, ?_, ?_⟩
  · rw [hw.latest]
    exact h.below
  · rw [hw.latest]
    exact h.attained
  · intro epoch session' hs'
    obtain ⟨session, hs, hAged⟩ := hw.kept epoch session' hs'
    obtain ⟨last, hLast, hNext, hMax⟩ := h.behind epoch session hs
    refine ⟨last, hLast, ?_, hMax⟩
    rw [hAged.eq]
    exact hNext

/-- The number of an accepted message is larger than all accepted ones of its epoch. -/
theorem lt_sequence (h : Tracks i places) {s : Setting} {sender : Peer} {e : Envelope}
    {plaintext : Bytes} (ha : Accepts P s sender e plaintext i i') :
    ∀ p ∈ places, p.1 = e.epoch → p.2 < e.sequence := by
  intro p hp hEpoch
  cases ha with
  | continues known _ opened =>
    obtain ⟨last, -, hNext, hMax⟩ := h.behind _ _ known
    have hAhead := UInt64.le_iff_toNat_le.1 (Session.next_of_decrypt opened).1
    have hLast := UInt64.le_iff_toNat_le.1 (hMax p hp hEpoch)
    rw [UInt64.lt_iff_toNat_lt]
    omega
  | begins _ above _ _ _ =>
    have hBelow := h.lt_of_isPast_eq_false above p hp
    rw [hEpoch] at hBelow
    exact absurd hBelow (UInt64.lt_irrefl _)

/-- Accepting a message adds its place. -/
theorem accepts (h : Tracks i places) {s : Setting} {sender : Peer} {e : Envelope}
    {plaintext : Bytes} (ha : Accepts P s sender e plaintext i i')
    (hNumber : e.sequence ≠ UInt64.ofNat (UInt64.size - 1)) :
    Tracks i' (places ++ [(e.epoch, e.sequence)]) := by
  -- the number is above every one accepted in its epoch, so it is the last of them from now on
  have hLarger := h.lt_sequence ha
  -- the session of the epoch, and what the other epochs were
  have hBehind (session' : Session) (hNext : session'.ratchet.next = e.sequence + 1) :
      ∃ last, (e.epoch, last) ∈ places ++ [(e.epoch, e.sequence)] ∧
        session'.ratchet.next.toNat = last.toNat + 1 ∧
        ∀ p ∈ places ++ [(e.epoch, e.sequence)], p.1 = e.epoch → p.2 ≤ last := by
    refine ⟨e.sequence, by simp, ?_, fun p hp hEpoch => ?_⟩
    · rw [hNext, Ratchet.toNat_add_one hNumber]
    · rcases List.mem_append.1 hp with hp | hp
      · exact UInt64.le_of_lt (hLarger p hp hEpoch)
      · rw [List.mem_singleton.1 hp]
        exact UInt64.le_refl _
  have hOther {epoch : UInt64} (hNe : epoch ≠ e.epoch) {session : Session}
      (hs : i.epochs.get? epoch = some session) :
      ∃ last, (epoch, last) ∈ places ++ [(e.epoch, e.sequence)] ∧
        session.ratchet.next.toNat = last.toNat + 1 ∧
        ∀ p ∈ places ++ [(e.epoch, e.sequence)], p.1 = epoch → p.2 ≤ last := by
    obtain ⟨last, hLast, hNext, hMax⟩ := h.behind epoch session hs
    refine ⟨last, List.mem_append_left _ hLast, hNext, fun p hp hEpoch => ?_⟩
    rcases List.mem_append.1 hp with hp | hp
    · exact hMax p hp hEpoch
    · rw [List.mem_singleton.1 hp] at hEpoch
      exact absurd hEpoch.symm hNe
  cases ha with
  -- the epoch goes on: only its own session moves
  | @continues session session' known readable opened =>
    refine ⟨fun p hp => ?_, fun latest hLatest => ?_, fun epoch t ht => ?_⟩
    · rcases List.mem_append.1 hp with hp | hp
      · exact h.below p hp
      · rw [List.mem_singleton.1 hp]
        exact isPast_iff.1 (h.isPast known)
    · obtain ⟨p, hp, hLast⟩ := h.attained latest hLatest
      exact ⟨p, List.mem_append_left _ hp, hLast⟩
    · rw [Table.get?_insert] at ht
      -- at the epoch of the envelope stands the session that has read it
      split at ht
      · rename_i hEpoch
        cases ht
        subst hEpoch
        exact hBehind session' (Session.next_of_decrypt opened).2.1
      · exact hOther ‹_› ht
  -- the epoch begins: the session of it is new, and the others are as old age leaves them
  | @begins session session' aged unknown above begun opened wanes =>
    refine ⟨fun p hp => ⟨e.epoch, rfl, ?_⟩, fun latest hLatest => ?_, fun epoch t ht => ?_⟩
    · rcases List.mem_append.1 hp with hp | hp
      · exact UInt64.le_of_lt (h.lt_of_isPast_eq_false above p hp)
      · rw [List.mem_singleton.1 hp]
        exact UInt64.le_refl _
    · cases hLatest
      exact ⟨(e.epoch, e.sequence), by simp, rfl⟩
    · rw [Table.get?_insert] at ht
      split at ht
      · rename_i hEpoch
        cases ht
        subst hEpoch
        exact hBehind session' (Session.next_of_decrypt opened).2.1
      · -- age changes the state of a session and not its place
        obtain ⟨t₀, ht₀, hAged⟩ := wanes.kept epoch t ht
        have hStands := hOther ‹_› ht₀
        rw [hAged.eq]
        exact hStands

end Tracks

-- ---------------------------------------------------------------------------
-- Epochs that are over
-- ---------------------------------------------------------------------------

/-- An epoch that is no later than the latest, and not kept. -/
def Closed (i : Inbound) (epoch : UInt64) : Prop :=
  i.isPast epoch = true ∧ i.epochs.get? epoch = none

namespace Closed

variable {epoch : UInt64}

/-- An epoch that is closed stays so where no session begins. -/
theorem wanes {barring : Prop} (h : i.Closed epoch) (hw : Wanes barring i i') :
    i'.Closed epoch := by
  obtain ⟨hPast, hNone⟩ := h
  refine ⟨by rw [isPast, hw.latest]; exact hPast, ?_⟩
  cases hs' : i'.epochs.get? epoch with
  | none => rfl
  | some session' =>
    obtain ⟨session, hs, -⟩ := hw.kept epoch session' hs'
    rw [hNone] at hs
    cases hs

/-- Nothing is accepted in an epoch that is over, and it stays so. -/
theorem accepts (h : i.Closed epoch) {s : Setting} {sender : Peer} {e : Envelope}
    {plaintext : Bytes} (ha : Accepts P s sender e plaintext i i') :
    e.epoch ≠ epoch ∧ i'.Closed epoch := by
  obtain ⟨hPast, hNone⟩ := h
  cases ha with
  | continues known _ _ =>
    have hNe : epoch ≠ e.epoch := by
      rintro rfl
      rw [hNone] at known
      cases known
    exact ⟨hNe.symm, hPast, by rw [Table.get?_insert, if_neg hNe, hNone]⟩
  | @begins _ session' aged _ above _ _ wanes =>
    have hNe : epoch ≠ e.epoch := by
      rintro rfl
      rw [hPast] at above
      cases above
    obtain ⟨-, hAged⟩ := Closed.wanes ⟨hPast, hNone⟩ wanes
    refine ⟨hNe.symm, isPast_iff.2 ⟨e.epoch, rfl, ?_⟩, by rw [Table.get?_insert, if_neg hNe, hAged]⟩
    obtain ⟨latest, hLatest, hLe⟩ := isPast_iff.1 hPast
    refine UInt64.le_trans hLe (UInt64.le_of_lt (UInt64.not_le.1 fun hAbove => ?_))
    rw [isPast_iff.2 ⟨latest, hLatest, hAbove⟩] at above
    cases above

end Closed

end Inbound

namespace Device

variable {P : Primitives} {start d d' : Device} {history later : History} {sender : String}

-- ---------------------------------------------------------------------------
-- One operation
-- ---------------------------------------------------------------------------

/-- A message that is received does not have the last number, or the number behind it would be
needed. -/
theorem counted_of_returns {bytes : Bytes} {m : ReceivedMessage}
    (hReply : (d.step P (.receive bytes)).1 = .received (.ok m))
    (hReturns : overruns P d (.receive bytes) = false) : m.sequence ≠ lastNumber := by
  have hReceived : (d.receive P bytes).1 = .ok m := by injection hReply
  simpa [overruns, hReceived] using hReturns

/-- An operation that returns adds the place of the message it brings, if it brings one. -/
theorem tracks_step {places : List (UInt64 × UInt64)} (op : Operation)
    (hTracks : (d.pairs.receiving sender).Tracks places) (hOrder : InOrder places)
    (hReturns : overruns P d op = false) :
    ((d.step P op).2.pairs.receiving sender).Tracks
        (places ++ History.places sender [(op, (d.step P op).1)]) ∧
      InOrder (places ++ History.places sender [(op, (d.step P op).1)]) := by
  rcases receiving_step (P := P) d op sender with
    ⟨hNone, hWanes⟩ | ⟨bytes, e, peer, plaintext, rfl, hReply, hTakes⟩
  · have hPlaces : History.places sender [(op, (d.step P op).1)] = [] := by
      simp [History.places, History.accepted, hNone]
    rw [hPlaces, List.append_nil]
    exact ⟨hTracks.wanes hWanes, hOrder⟩
  · have hPlaces : History.places sender
        [(Operation.receive bytes, (d.step P (.receive bytes)).1)] =
        [(e.epoch, e.sequence)] := by
      simp [History.places, History.accepted, History.message?, hReply, ReceivedMessage.place]
    have hNumber : e.sequence ≠ lastNumber := counted_of_returns hReply hReturns
    rw [hPlaces]
    exact ⟨hTracks.accepts hTakes.accepts hNumber,
      hOrder.append (hTracks.lt_sequence hTakes.accepts)⟩

/-- No operation accepts a message of an epoch that is over, and it stays over. -/
theorem closed_step {epoch : UInt64} (op : Operation)
    (hClosed : (d.pairs.receiving sender).Closed epoch) :
    ((d.step P op).2.pairs.receiving sender).Closed epoch ∧
      ∀ p ∈ History.places sender [(op, (d.step P op).1)], p.1 ≠ epoch := by
  rcases receiving_step (P := P) d op sender with
    ⟨hNone, hWanes⟩ | ⟨bytes, e, peer, plaintext, rfl, hReply, hTakes⟩
  · refine ⟨hClosed.wanes hWanes, fun p hp => ?_⟩
    simp [History.places, History.accepted, hNone] at hp
  · obtain ⟨hOther, hStays⟩ := hClosed.accepts hTakes.accepts
    refine ⟨hStays, fun p hp => ?_⟩
    have hp : p = (e.epoch, e.sequence) := by
      simpa [History.places, History.accepted, History.message?, hReply, ReceivedMessage.place]
        using hp
    rw [hp]
    exact hOther

-- ---------------------------------------------------------------------------
-- Runs
-- ---------------------------------------------------------------------------

/-- **The invariant holds in every run**, and messages are accepted in order. -/
theorem Run.tracks (hStart : Starts P start) (hRun : Run P start history d) (sender : String) :
    (d.pairs.receiving sender).Tracks (history.places sender) ∧
      InOrder (history.places sender) := by
  induction hRun with
  | start =>
    rw [hStart.receiving sender]
    exact ⟨.initial, .nil⟩
  | step op _ returns ih =>
    rw [History.places_append]
    exact tracks_step op ih.1 ih.2 returns

/-- **An epoch that is over stays so**, and none of its messages is ever accepted again. -/
theorem Run.closed {epoch : UInt64} (hClosed : (d.pairs.receiving sender).Closed epoch)
    (hRun : Run P d later d') :
    (d'.pairs.receiving sender).Closed epoch ∧ ∀ p ∈ later.places sender, p.1 ≠ epoch := by
  induction hRun with
  | start => exact ⟨hClosed, fun _ h => (nomatch h)⟩
  | step op _ _ ih =>
    obtain ⟨hStays, hOther⟩ := closed_step op ih.1
    refine ⟨hStays, fun p hp => ?_⟩
    rw [History.places_append] at hp
    rcases List.mem_append.1 hp with hp | hp
    · exact ih.2 p hp
    · exact hOther p hp

/-- **Anti-replay.** In every run, whatever bytes are received and whatever else happens: no place
is accepted twice, the numbers of an epoch are accepted in increasing order, and an epoch that is no
later than an accepted one and is not in the table is never accepted again, however the run goes
on.

In the run no counter passes `2 ^ 64 - 1`. -/
theorem accepts_once (hStart : Starts P start) (hRun : Run P start history d) (sender : String) :
    (history.places sender).Nodup ∧ InOrder (history.places sender) ∧
      ∀ epoch, (∃ p ∈ history.places sender, epoch ≤ p.1) →
        (d.pairs.receiving sender).epochs.get? epoch = none →
        ∀ later d', Run P d later d' → ∀ p ∈ later.places sender, p.1 ≠ epoch := by
  obtain ⟨hTracks, hOrder⟩ := hRun.tracks hStart sender
  refine ⟨hOrder.nodup, hOrder, ?_⟩
  rintro epoch ⟨p, hp, hLe⟩ hNone later d' hLater
  obtain ⟨latest, hLatest, hBelow⟩ := hTracks.below p hp
  have hPast : (d.pairs.receiving sender).isPast epoch = true :=
    Inbound.isPast_iff.2 ⟨latest, hLatest, UInt64.le_trans hLe hBelow⟩
  exact (hLater.closed ⟨hPast, hNone⟩).2

/-- Bob has Ann on file and is given two letters of hers three times over, with a sweep in between
and a shutdown towards the end. -/
def replayOps : List Operation :=
  let letters := plainLetters .standard [.send "bob" .basic [1], .send "bob" .military [2]]
  meetPlain "ann" 1 ::
    letters.map .receive ++ [.maintain 5] ++ letters.reverse.map .receive ++ [.shutdown]
      ++ letters.map .receive

/-- Bob is given every letter twice. -/
theorem accepts_once_of_replayOps :
    let bob := plain .standard "bob" 3
    let history := during .plain bob replayOps
    history.places "ann" = [(0, 1), (1, 1)] ∧ (history.places "ann").Nodup ∧
      InOrder (history.places "ann") ∧
      ∀ epoch, (∃ p ∈ history.places "ann", epoch ≤ p.1) →
        ((after .plain bob replayOps).pairs.receiving "ann").epochs.get? epoch = none →
        ∀ later d', Run .plain (after .plain bob replayOps) later d' →
          ∀ p ∈ later.places "ann", p.1 ≠ epoch :=
  ⟨by decide +kernel,
    accepts_once (plain_starts "bob" 3 rfl) (run_after (by decide +kernel)) "ann"⟩

end Device

end EndToEnd
