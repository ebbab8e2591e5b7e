import EndToEnd.Proofs.Numbering
import EndToEnd.Proofs.SinkMoods
import EndToEnd.Proofs.Waiting

/-!
# The limits of an epoch

An epoch carries no more messages than the configuration allows, and none once it is as old as the
configuration allows. Both are looked at before every message, so they hold whether or not the
device is ever swept. An epoch that has ended, for whatever reason, is not taken up again.

The session that sends knows when its epoch was opened and how many messages it has made. What the
run has to add is that this is true: `Outbound.Spent` relates the count to the envelopes that were
given, and `Device.Limited` the time to the operation that opened the epoch.

Main results:

* `Device.limited_step`, `Device.limited_after` — what one operation, and any number of them, keep.
* `Device.limits_are_kept` — the limits, for every message that is sent.
-/

namespace EndToEnd

theorem Pairs.currentEpoch_eq (p : Pairs) (peer : String) :
    p.currentEpoch peer = (p.sending peer).current.map (·.id.epoch) := by
  unfold currentEpoch sending
  cases p.outbound? peer <;> rfl

namespace Outbound

variable {P : Primitives} {s : Setting} {peer : Peer} {level : Level} {plaintext : Bytes}
  {e : Envelope} {o o' : Outbound} {es : List Envelope} {threshold : UInt64}

-- ---------------------------------------------------------------------------
-- How many messages an epoch carries
-- ---------------------------------------------------------------------------

/-- A sending side that has kept to a number of messages for an epoch. The session counts at least
the envelopes that were given in its epoch: it also counts those that could not be written. -/
structure Spent (o : Outbound) (threshold : UInt64) (es : List Envelope) : Prop where
  within : ∀ epoch, es.countP (·.epoch = epoch) ≤ threshold.toNat
  counted : ∀ session, o.current = some session →
    es.countP (·.epoch = session.id.epoch) ≤ session.messages.toNat ∧
      session.messages.toNat ≤ threshold.toNat

namespace Spent

/-- Where no key is taken nothing is spent. -/
theorem rests (h : Spent o threshold es) (hRests : o.Rests o') : Spent o' threshold es :=
  ⟨h.within, fun session hs => h.counted session (hRests.current session hs)⟩

/-- A session that may carry one more message, and the side behind that message. -/
theorem push {session session' : Session}
    (hWithin : ∀ epoch, es.countP (·.epoch = epoch) ≤ threshold.toNat)
    (hCounted : es.countP (·.epoch = session.id.epoch) ≤ session.messages.toNat)
    (hMore : session.messages < threshold) (hEpoch : e.epoch = session.id.epoch)
    (hId : session'.id = session.id) (hMessages : session'.messages = session.messages + 1)
    (hCurrent : o'.current = some session') :
    Spent o' threshold es ∧ Spent o' threshold (es ++ [e]) := by
  have hMore : session.messages.toNat < threshold.toNat := UInt64.lt_iff_toNat_lt.1 hMore
  -- below the threshold the count does not wrap
  have hNext : session'.messages.toNat = session.messages.toNat + 1 := by
    rw [hMessages]
    refine Ratchet.toNat_add_one fun hLast => ?_
    rw [hLast] at hMore
    exact absurd hMore (Nat.not_lt.2 (Nat.le_sub_one_of_lt threshold.toNat_lt))
  -- the envelope counts for its own epoch only
  have hOne (epoch : UInt64) : (es ++ [e]).countP (·.epoch = epoch) =
      es.countP (·.epoch = epoch) + if session.id.epoch = epoch then 1 else 0 := by
    rw [List.countP_append, List.countP_singleton, hEpoch]
    simp only [decide_eq_true_eq]
  constructor
  · refine ⟨hWithin, fun t ht => ?_⟩
    cases hCurrent.symm.trans ht
    rw [hId, hNext]
    omega
  · refine ⟨fun epoch => ?_, fun t ht => ?_⟩
    · have hBefore := hWithin epoch
      rw [hOne]
      split
      · rename_i hSame
        rw [hSame] at hCounted
        omega
      · exact hBefore
    · cases hCurrent.symm.trans ht
      rw [hOne, hId, if_pos rfl, hNext]
      omega

/-- **A message keeps to the number,** whether or not its envelope is written. -/
theorem makes (h : Spent o s.config.rotation.threshold es) (hNumbered : o.Numbered es)
    (hThreshold : s.config.rotation.threshold ≠ 0)
    (hMakes : Makes P s peer level plaintext o e o') :
    Spent o' s.config.rotation.threshold es ∧ Spent o' s.config.rotation.threshold (es ++ [e]) := by
  cases hMakes with
  | @continues session session' random random' current fits made =>
    obtain ⟨hEpoch, -⟩ := Session.header_of_encrypt made
    obtain ⟨-, hMessages, -⟩ := Session.usage_of_encrypt made
    obtain ⟨hId, -⟩ := Session.session_of_encrypt made
    obtain ⟨-, hMore, -⟩ := Rotation.Policy.of_evaluate_eq_none fits
    exact push h.within (h.counted session current).1 hMore hEpoch hId hMessages rfl
  | @begins session session' ephemeral random random' begun made =>
    obtain ⟨hEpoch, -⟩ := Session.header_of_encrypt made
    obtain ⟨-, hMessages, -⟩ := Session.usage_of_encrypt made
    obtain ⟨hId, -⟩ := Session.session_of_encrypt made
    obtain ⟨keys, -, rfl⟩ := beginSession_eq_ok begun
    -- nothing was made in an epoch that begins only now
    have hNone : es.countP (·.epoch = o.nextEpoch) = 0 := by
      rw [List.countP_eq_zero]
      intro f hf hSame
      have hBelow := hNumbered.used f hf
      rw [of_decide_eq_true hSame] at hBelow
      exact UInt64.lt_irrefl _ hBelow
    exact push h.within (Nat.le_of_eq hNone) (UInt64.pos_iff_ne_zero.2 hThreshold) hEpoch hId
      hMessages rfl

end Spent

end Outbound

namespace Device

variable {P : Primitives} {start d : Device} {peer : String} {ops before later : List Operation}
  {op : Operation} {epoch : UInt64} {es : List Envelope}

-- ---------------------------------------------------------------------------
-- Epochs that open and end
-- ---------------------------------------------------------------------------

/-- An operation opens an epoch with a peer: messages are sent in it from now on. -/
def Opens (P : Primitives) (peer : String) (epoch : UInt64) (d : Device) (op : Operation) : Prop :=
  d.pairs.currentEpoch peer ≠ some epoch ∧
    (d.step P op).2.pairs.currentEpoch peer = some epoch

/-- An operation ends an epoch with a peer: messages were sent in it, and a rotation is forced, or
for any other reason they are not sent in it from now on. -/
def Ends (P : Primitives) (peer : String) (epoch : UInt64) (d : Device) (op : Operation) : Prop :=
  d.pairs.currentEpoch peer = some epoch ∧
    (op = .rotate peer ∨ (d.step P op).2.pairs.currentEpoch peer ≠ some epoch)

theorem Ends.currentEpoch_ne (h : Ends P peer epoch d op) :
    (d.step P op).2.pairs.currentEpoch peer ≠ some epoch := by
  rcases h.2 with rfl | hGone
  · show (d.rotate P peer).2.pairs.currentEpoch peer ≠ some epoch
    rw [currentEpoch_rotate]
    exact nofun
  · exact hGone

theorem currentEpoch_eq_some_iff :
    d.pairs.currentEpoch peer = some epoch ↔
      ∃ session, (d.pairs.sending peer).current = some session ∧ session.epoch = epoch := by
  rw [Pairs.currentEpoch_eq, Option.map_eq_some_iff]
  rfl

/-- Messages are sent in the last epoch before the counter. -/
theorem lt_nextEpoch (hNumbered : (d.pairs.sending peer).Numbered es)
    (h : d.pairs.currentEpoch peer = some epoch) : epoch < (d.pairs.sending peer).nextEpoch := by
  obtain ⟨session, hCurrent, rfl⟩ := currentEpoch_eq_some_iff.1 h
  have hLast : session.epoch.toNat + 1 = _ := hNumbered.last session hCurrent
  rw [UInt64.lt_iff_toNat_lt]
  omega

/-- **What becomes of the session that sends:** it stays what it was, or begins now, in the next
epoch. The counter never falls. -/
theorem current_step (hFiled : d.contacts.Filed) (op : Operation)
    (hReturns : overruns P d op = false) (peer : String) :
    (d.pairs.sending peer).nextEpoch ≤ ((d.step P op).2.pairs.sending peer).nextEpoch ∧
      ∀ session', ((d.step P op).2.pairs.sending peer).current = some session' →
        (∃ session, (d.pairs.sending peer).current = some session ∧
            session'.epoch = session.epoch ∧ session'.createdAt = session.createdAt) ∨
          session'.epoch = (d.pairs.sending peer).nextEpoch ∧ session'.createdAt = d.now := by
  rcases sending_step (P := P) hFiled op peer with
    ⟨-, hRests⟩ | ⟨level, plaintext, record, e, rfl, -, -, -, hMakes⟩
  · refine ⟨UInt64.le_of_eq hRests.nextEpoch.symm, fun session' hs => .inl ?_⟩
    exact ⟨session', hRests.current session' hs, rfl, rfl⟩
  · obtain ⟨session', hCurrent', hEpoch', -, -, hBegun⟩ := hMakes.current
    have hCounter := counter_of_returns hReturns
    rcases hBegun with ⟨session, hCurrent, hEpoch, -, hCreated, -, hNext⟩ |
      ⟨hEpoch, -, hCreated, hNext⟩
    · refine ⟨UInt64.le_of_eq hNext.symm, fun t ht => .inl ⟨session, hCurrent, ?_, ?_⟩⟩
      all_goals cases hCurrent'.symm.trans ht
      · exact hEpoch'.trans hEpoch.symm
      · exact hCreated
    · refine ⟨?_, fun t ht => .inr ?_⟩
      · rw [hNext] at hCounter ⊢
        rw [UInt64.le_iff_toNat_le, Ratchet.toNat_add_one fun hLast => ?_]
        · exact Nat.le_succ _
        · have hWrapped := hCounter hLast
          rw [hLast] at hWrapped
          exact absurd hWrapped (by decide)
      · cases hCurrent'.symm.trans ht
        exact ⟨hEpoch'.trans hEpoch, hCreated⟩

-- ---------------------------------------------------------------------------
-- One operation
-- ---------------------------------------------------------------------------

/-- An operation keeps to the number of messages, whatever envelope it gives. -/
theorem spent_step (hFiled : d.contacts.Filed) (hThreshold : d.config.rotation.threshold ≠ 0)
    (hNumbered : (d.pairs.sending peer).Numbered es)
    (hSpent : (d.pairs.sending peer).Spent d.config.rotation.threshold es) (op : Operation)
    (hReturns : overruns P d op = false) :
    ∃ more, more.map Envelope.write = History.written peer [(op, (d.step P op).1)] ∧
      ((d.step P op).2.pairs.sending peer).Numbered (es ++ more) ∧
      ((d.step P op).2.pairs.sending peer).Spent d.config.rotation.threshold (es ++ more) ∧
      ∀ e ∈ more, ∃ level plaintext record, op = .send peer level plaintext ∧
        Outbound.Makes P (d.setting d.now) record level plaintext (d.pairs.sending peer) e
          ((d.step P op).2.pairs.sending peer) := by
  obtain ⟨more, hWritten, ⟨rfl, hRests⟩ | ⟨level, plaintext, record, e, rfl, hMakes, hMore⟩⟩ :=
    envelopes_step (P := P) hFiled op peer
  · refine ⟨[], hWritten, ?_, ?_, fun _ h => (nomatch h)⟩
    · rw [List.append_nil]
      exact hNumbered.rests hRests
    · rw [List.append_nil]
      exact hSpent.rests hRests
  · obtain ⟨hSame, hNext, -⟩ := hNumbered.makes hMakes (counter_of_returns hReturns)
    obtain ⟨hSpentSame, hSpentNext⟩ := hSpent.makes hNumbered hThreshold hMakes
    rcases hMore with rfl | rfl
    · exact ⟨[], hWritten, by rwa [List.append_nil], by rwa [List.append_nil],
        fun _ h => (nomatch h)⟩
    · refine ⟨[e], hWritten, hNext, hSpentNext, fun f hf => ?_⟩
      rw [List.mem_singleton.1 hf]
      exact ⟨level, plaintext, record, rfl, hMakes⟩

/-- What the device behind some operations knows of the epochs with a peer. -/
structure Traced (P : Primitives) (peer : String) (start : Device) (ops : List Operation) :
    Prop where
  /-- The session that sends says when its epoch was opened. -/
  opened : ∀ session, ((after P start ops).pairs.sending peer).current = some session →
    ∃ d op, Asked P start ops d op ∧ Opens P peer session.epoch d op ∧ d.now = session.createdAt
  /-- Epochs that have ended lie below the counter, and messages are not sent in them. -/
  ended : ∀ d op epoch, Asked P start ops d op → Ends P peer epoch d op →
    epoch < ((after P start ops).pairs.sending peer).nextEpoch ∧
      (after P start ops).pairs.currentEpoch peer ≠ some epoch

/-- One operation more. -/
theorem Traced.step (h : Traced P peer start ops) (hFiled : (after P start ops).contacts.Filed)
    (hNumbered : ((after P start ops).pairs.sending peer).Numbered es)
    (hReturns : overruns P (after P start ops) op = false) :
    Traced P peer start (ops ++ [op]) := by
  have hAfter : after P start (ops ++ [op]) = ((after P start ops).step P op).2 := after_append ..
  obtain ⟨hCounter, hCurrent⟩ := current_step hFiled op hReturns peer
  constructor
  · -- the current session was opened by this call or by one before
    intro session' hs
    rw [hAfter] at hs
    rcases hCurrent session' hs with ⟨session, hBefore, hEpoch, hCreated⟩ | ⟨hEpoch, hCreated⟩
    · obtain ⟨d, op', hAsked, hOpens, hNow⟩ := h.opened session hBefore
      rw [hEpoch, hCreated]
      exact ⟨d, op', asked_snoc.2 (.inl hAsked), hOpens, hNow⟩
    · refine ⟨_, op, asked_snoc.2 (.inr ⟨rfl, rfl⟩), ⟨fun hSame => ?_, ?_⟩, hCreated.symm⟩
      · -- the number of the next epoch is not in use
        have hBelow := lt_nextEpoch hNumbered hSame
        rw [hEpoch] at hBelow
        exact UInt64.lt_irrefl _ hBelow
      · exact currentEpoch_eq_some_iff.2 ⟨session', hs, rfl⟩
  · -- an epoch that has ended stays behind the counter, so it does not come back
    intro d op' epoch hAsked hEnds
    rw [hAfter]
    rcases asked_snoc.1 hAsked with hBefore | ⟨rfl, rfl⟩
    · obtain ⟨hBelow, hGone⟩ := h.ended d op' epoch hBefore hEnds
      refine ⟨UInt64.lt_of_lt_of_le hBelow hCounter, fun hBack => ?_⟩
      obtain ⟨session', hs, rfl⟩ := currentEpoch_eq_some_iff.1 hBack
      rcases hCurrent session' hs with ⟨session, hSession, hEpoch, -⟩ | ⟨hEpoch, -⟩
      · exact hGone (currentEpoch_eq_some_iff.2 ⟨session, hSession, hEpoch.symm⟩)
      · rw [hEpoch] at hBelow
        exact UInt64.lt_irrefl _ hBelow
    · exact ⟨UInt64.lt_of_lt_of_le (lt_nextEpoch hNumbered hEnds.1) hCounter,
        hEnds.currentEpoch_ne⟩

-- ---------------------------------------------------------------------------
-- Any operations
-- ---------------------------------------------------------------------------

/-- What holds for a peer behind some operations that all returned, and for the envelopes that they
gave. -/
structure Limited (P : Primitives) (peer : String) (start : Device) (ops : List Operation)
    (es : List Envelope) : Prop where
  returned : allReturn P start ops = true
  written : es.map Envelope.write = (during P start ops).written peer
  numbered : ((after P start ops).pairs.sending peer).Numbered es
  spent : ((after P start ops).pairs.sending peer).Spent start.config.rotation.threshold es
  traced : Traced P peer start ops

/-- At the beginning no envelope was made. -/
theorem limited_start (hStart : Starts P start) (peer : String) :
    Limited P peer start [] [] where
  returned := rfl
  written := rfl
  numbered := .of_none .nil (fun _ h => (nomatch h)) (hStart.current peer)
  spent := ⟨fun _ => Nat.zero_le _, fun _ hs => nomatch (hStart.current peer).symm.trans hs⟩
  traced := ⟨fun _ hs => (nomatch (hStart.current peer).symm.trans hs),
    fun _ _ _ hAsked => nomatch hAsked⟩

/-- **One operation more keeps the invariant,** whatever envelope it gives. -/
theorem Limited.step (hStart : Starts P start) (h : Limited P peer start ops es)
    (hReturns : overruns P (after P start ops) op = false) :
    ∃ more, Limited P peer start (ops ++ [op]) (es ++ more) ∧
      ∀ e ∈ more, ∃ level plaintext record, op = .send peer level plaintext ∧
        Outbound.Makes P ((after P start ops).setting (after P start ops).now) record level
          plaintext ((after P start ops).pairs.sending peer) e
          (((after P start ops).step P op).2.pairs.sending peer) := by
  have hRun := run_after h.returned
  have hFiled := hRun.filed hStart
  have hConfig : start.config = (after P start ops).config := hRun.evolves.config.symm
  have hThreshold : (after P start ops).config.rotation.threshold ≠ 0 :=
    hConfig ▸ (Config.validate_eq_ok_iff.1 hStart.validate).1
  obtain ⟨more, hWritten, hNumbered, hSpent, hMade⟩ :=
    spent_step hFiled hThreshold h.numbered (hConfig ▸ h.spent) op hReturns
  have hAfter : after P start (ops ++ [op]) = ((after P start ops).step P op).2 := after_append ..
  refine ⟨more, ⟨?_, ?_, hAfter ▸ hNumbered, ?_, h.traced.step hFiled h.numbered hReturns⟩, hMade⟩
  · rw [allReturn_append, h.returned]
    simp [allReturn, hReturns]
  · rw [List.map_append, h.written, hWritten, during_append, History.written_append]
    rfl
  · rw [hAfter, hConfig]
    exact hSpent

/-- **And so do any number of operations more.** -/
theorem Limited.after (hStart : Starts P start) (h : Limited P peer start ops es)
    (hReturn : allReturn P (Device.after P start ops) later = true) :
    ∃ more, Limited P peer start (ops ++ later) (es ++ more) := by
  induction later generalizing ops es with
  | nil => exact ⟨[], by rwa [List.append_nil, List.append_nil]⟩
  | cons op rest ih =>
    simp only [allReturn, Bool.and_eq_true, Bool.not_eq_true'] at hReturn
    obtain ⟨more, hNext, -⟩ := h.step hStart hReturn.1
    obtain ⟨rest', hLast⟩ := ih hNext (by rw [after_append]; exact hReturn.2)
    rw [List.append_assoc, List.append_assoc] at hLast
    exact ⟨_, hLast⟩

/-- A message that is sent gives one envelope more. -/
theorem Limited.send (hStart : Starts P start) (h : Limited P peer start before es) {level : Level}
    {plaintext bytes : Bytes}
    (hReturns : overruns P (Device.after P start before) (.send peer level plaintext) = false)
    (hSent : ((Device.after P start before).send P peer level plaintext).1 = .ok bytes) :
    ∃ e record, Limited P peer start (before ++ [.send peer level plaintext]) (es ++ [e]) ∧
      e.write = bytes ∧
      Outbound.Makes P
        ((Device.after P start before).setting (Device.after P start before).now) record level
        plaintext ((Device.after P start before).pairs.sending peer) e
        (((Device.after P start before).step P (.send peer level plaintext)).2.pairs.sending
          peer) := by
  obtain ⟨more, hNext, hMade⟩ := h.step hStart hReturns
  have hBytes : (during P start (before ++ [.send peer level plaintext])).written peer =
      (during P start before).written peer ++ [bytes] := by
    rw [during_append, History.written_append]
    simp [during, History.written, History.written?, Device.step, answer, hSent]
  have hOne := hNext.written
  rw [List.map_append, h.written, hBytes] at hOne
  obtain ⟨e, rfl, hWrite⟩ := List.map_eq_singleton_iff.1 (List.append_cancel_left hOne)
  obtain ⟨_, _, record, hOp, hMakes⟩ := hMade e (.head _)
  cases hOp
  exact ⟨e, record, hNext, hWrite, hMakes⟩

section Made

variable {level : Level} {plaintext : Bytes} {e : Envelope} {record : Peer}
  (hMakes : Outbound.Makes P
    ((Device.after P start before).setting (Device.after P start before).now) record level plaintext
    ((Device.after P start before).pairs.sending peer) e
    (((Device.after P start before).step P (.send peer level plaintext)).2.pairs.sending peer))

include hMakes

/-- The epoch of a message opens with it, or was opened before, less than the interval ago. -/
theorem Limited.opens (h : Limited P peer start before es)
    (hClock : clockGoesOn P start before = true) :
    Opens P peer e.epoch (Device.after P start before) (.send peer level plaintext) ∨
      ∃ d₀ op, Asked P start before d₀ op ∧ Opens P peer e.epoch d₀ op ∧
        d₀.now ≤ (Device.after P start before).now ∧
        (Device.after P start before).now.toNat - d₀.now.toNat <
          start.config.rotation.interval.millis.toNat := by
  obtain ⟨session', hCurrent', hEpoch', -, -, hBegun⟩ := hMakes.current
  rcases hBegun with ⟨session, hCurrent, hEpoch, -, hCreated, hYoung, -⟩ | ⟨hEpoch, -⟩
  · obtain ⟨d₀, op, hAsked, hOpens, hNow⟩ := h.traced.opened session hCurrent
    rw [hEpoch] at hOpens
    have hGoesOn := hAsked.now_le hClock
    refine .inr ⟨d₀, op, hAsked, hOpens, hGoesOn, ?_⟩
    have hYoung : ¬(Device.after P start before).config.rotation.Over session.createdAt
        (Device.after P start before).now := hYoung
    rw [(run_after h.returned).evolves.config, ← hNow] at hYoung
    rw [UInt64.le_iff_toNat_le] at hGoesOn
    unfold Rotation.Policy.Over at hYoung
    omega
  · refine .inl ⟨fun hSame => ?_, currentEpoch_eq_some_iff.2 ⟨session', hCurrent', hEpoch'⟩⟩
    have hBelow := lt_nextEpoch h.numbered hSame
    rw [hEpoch] at hBelow
    exact UInt64.lt_irrefl _ hBelow

/-- The epoch of a message was not ended before. -/
theorem Limited.not_ended (h : Limited P peer start before es) :
    ∀ d₀ op, Asked P start before d₀ op → ¬Ends P peer e.epoch d₀ op := by
  intro d₀ op hAsked hEnds
  obtain ⟨session', -, -, -, -, hBegun⟩ := hMakes.current
  obtain ⟨hBelow, hGone⟩ := h.traced.ended d₀ op e.epoch hAsked hEnds
  rcases hBegun with ⟨session, hCurrent, hEpoch, -⟩ | ⟨hEpoch, -⟩
  · exact hGone (currentEpoch_eq_some_iff.2 ⟨session, hCurrent, hEpoch⟩)
  · rw [hEpoch] at hBelow
    exact UInt64.lt_irrefl _ hBelow

end Made

/-- **The limits of an epoch are kept** by every message that is sent, whatever else is asked of the
device before and behind it, as long as the clock is not set back. The envelope of the message has
the level that was asked for. No more envelopes are given in its epoch, in all, than the threshold
allows. The epoch opens with this message, or it was opened by an earlier operation, less than the
interval ago as the clock counts it. And no earlier operation ended it.

What is asked returns: no counter passes `2 ^ 64 - 1`. -/
theorem limits_are_kept (hStart : Starts P start) {level : Level} {plaintext bytes : Bytes}
    (hReturn : allReturn P start (before ++ .send peer level plaintext :: later) = true)
    (hClock : clockGoesOn P start (before ++ .send peer level plaintext :: later) = true)
    (hSent : ((Device.after P start before).send P peer level plaintext).1 = .ok bytes) :
    let d := Device.after P start before
    let policy := start.config.rotation
    ∃ (es : List Envelope) (e : Envelope), es.map Envelope.write =
        (during P start (before ++ .send peer level plaintext :: later)).written peer ∧
      es[((during P start before).written peer).length]? = some e ∧ e.write = bytes ∧
      e.level = level ∧
      es.countP (·.epoch = e.epoch) ≤ policy.threshold.toNat ∧
      (Opens P peer e.epoch d (.send peer level plaintext) ∨
        ∃ d₀ op, Asked P start before d₀ op ∧ Opens P peer e.epoch d₀ op ∧ d₀.now ≤ d.now ∧
          d.now.toNat - d₀.now.toNat < policy.interval.millis.toNat) ∧
      ∀ d₀ op, Asked P start before d₀ op → ¬Ends P peer e.epoch d₀ op := by
  intro d policy
  rw [allReturn_append, Bool.and_eq_true] at hReturn
  obtain ⟨hBefore, hReturn⟩ := hReturn
  simp only [allReturn, Bool.and_eq_true, Bool.not_eq_true'] at hReturn
  rw [clockGoesOn_append, Bool.and_eq_true] at hClock
  -- the envelopes before the message, its own, and those behind it
  obtain ⟨es, hLimited⟩ := (limited_start hStart peer).after hStart hBefore
  rw [List.nil_append, List.nil_append] at hLimited
  obtain ⟨e, record, hNext, hWrite, hMakes⟩ := hLimited.send hStart hReturn.1 hSent
  have hLater : allReturn P (Device.after P start (before ++ [.send peer level plaintext])) later =
      true := by
    rw [after_append]
    exact hReturn.2
  obtain ⟨rest, hWhole⟩ := hNext.after hStart hLater
  rw [List.append_assoc, List.singleton_append] at hWhole
  have hPlace : (es ++ [e] ++ rest)[((during P start before).written peer).length]? = some e := by
    rw [← hLimited.written, List.length_map]
    simp
  obtain ⟨-, -, -, -, hLevel, -⟩ := hMakes.current
  exact ⟨_, e, hWhole.written, hPlace, hWrite, hLevel, hWhole.spent.within e.epoch,
    hLimited.opens hMakes hClock.1, hLimited.not_ended hMakes⟩

/-- Two messages in an epoch, for ten seconds at most. -/
def hasty : Config := { Config.standard with rotation := ⟨.ofSecs 10, 2, .ofSecs 300⟩ }

/-- Ann writes to Bob: two messages in one epoch, and the first of another. Then half the time of
that one goes by, and she is swept. -/
def hastyOps : List Operation :=
  [meetPlain "bob" 3, .send "bob" .basic [1], .send "bob" .basic [2], .send "bob" .basic [3],
    .setClock 5000, .maintain 5000]

/-- What she does behind the next message: one more, and two at other levels, one of them after a
rotation. -/
def hastyLater : List Operation :=
  [.send "bob" .basic [5], .send "bob" .enhanced [6], .rotate "bob", .send "bob" .basic [7]]

/-- Ann under a threshold that she soon reaches. -/
theorem limits_are_kept_of_hastyOps :
    let ann := plain hasty "ann" 1
    let whole := hastyOps ++ .send "bob" .basic [4] :: hastyLater
    let d := Device.after .plain ann hastyOps
    ((during .plain ann whole).written "bob").length = 7 ∧
      ∃ bytes, (d.send .plain "bob" .basic [4]).1 = .ok bytes ∧
        ∃ (es : List Envelope) (e : Envelope),
          es.map Envelope.write = (during .plain ann whole).written "bob" ∧
          es[((during .plain ann hastyOps).written "bob").length]? = some e ∧ e.write = bytes ∧
          e.level = .basic ∧ es.countP (·.epoch = e.epoch) ≤ hasty.rotation.threshold.toNat ∧
          (Opens .plain "bob" e.epoch d (.send "bob" .basic [4]) ∨
            ∃ d₀ op, Asked .plain ann hastyOps d₀ op ∧ Opens .plain "bob" e.epoch d₀ op ∧
              d₀.now ≤ d.now ∧
              d.now.toNat - d₀.now.toNat < hasty.rotation.interval.millis.toNat) ∧
          ∀ d₀ op, Asked .plain ann hastyOps d₀ op → ¬Ends .plain "bob" e.epoch d₀ op := by
  intro ann whole d
  have hSome : (d.send .plain "bob" .basic [4]).1.toOption.map (fun _ => ()) = some () := by
    decide +kernel
  obtain ⟨bytes, hSent, -⟩ := exists_ok_of_map hSome
  exact ⟨by decide +kernel, bytes, hSent, limits_are_kept (plain_starts "ann" 1 rfl)
    (show allReturn .plain ann whole = true by decide +kernel)
    (show clockGoesOn .plain ann whole = true by decide +kernel) hSent⟩

end Device

end EndToEnd
