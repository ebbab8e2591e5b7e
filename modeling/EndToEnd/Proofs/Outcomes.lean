import EndToEnd.Proofs.Positions

/-!
# What becomes of envelopes

For every epoch, `Device.outcomes` has what became of the envelopes that were made in it: a device
gives an envelope, or it wastes it and refuses the message as malformed. The numbers of the epoch
count them without a gap, given or not (`Outbound.Tallies`), and the last letter lies as far behind
the last envelope as envelopes were wasted since (`Trails`).

Main results:

* `Outbound.Tallies.makes`, `Trails.given`, `Trails.more` — one envelope more.
* `Device.tallies_after`, `Device.trails_after` — any number of operations.
-/

namespace EndToEnd

-- ---------------------------------------------------------------------------
-- What becomes of envelopes
-- ---------------------------------------------------------------------------

namespace Device

/-- Of a message of which there was an envelope, whether the envelope was given. -/
def given? : Except Failure Bytes → Option Bool
  | .ok _ => some true
  | .error failure => if failure.isMalformed then some false else none

/-- Whether the envelope was given that an operation made for a peer in an epoch, if it made one. -/
def outcome? (P : Primitives) (peer : String) (epoch : UInt64) (d : Device) : Operation → Option Bool
  | .send other level plaintext =>
    if other = peer ∧
        (d.send P other level plaintext).2.pairs.currentEpoch peer = some epoch then
      given? (d.send P other level plaintext).1
    else none
  | _ => none

/-- What became of the envelopes that some operations made for a peer in an epoch, earliest
first. -/
def outcomes (P : Primitives) (peer : String) (epoch : UInt64) (d : Device) :
    List Operation → List Bool
  | [] => []
  | op :: rest => (outcome? P peer epoch d op).toList ++ outcomes P peer epoch (step P d op).2 rest

end Device

/-- How many envelopes were wasted since the last that was given. -/
def wasted (outcomes : List Bool) : Nat := (outcomes.reverse.takeWhile (!·)).length

/-- An envelope that is given makes up for those that were wasted. -/
@[simp] theorem wasted_given (outcomes : List Bool) : wasted (outcomes ++ [true]) = 0 := by
  simp [wasted]

/-- An envelope that is refused is one more that is wasted. -/
@[simp] theorem wasted_more (outcomes : List Bool) :
    wasted (outcomes ++ [false]) = wasted outcomes + 1 := by
  simp [wasted]

namespace Device

/-- An envelope that could not be written was not given. -/
theorem given?_of_encode {e : Envelope} {limits : Envelope.Limits} {failure : Failure}
    (h : e.encode limits = .error failure) : given? (e.encode limits) = some false := by
  rw [h]
  exact if_pos (Envelope.isMalformed_of_check (Envelope.check_of_encode h))

variable {P : Primitives} {d d' start : Device} {peer : String} {level : Level} {plaintext : Bytes}
  {e : Envelope} {epoch : UInt64} {ops : List Operation}

/-- What becomes of an envelope belongs to its epoch. -/
theorem outcome?_of_makes {s : Setting} {record : Peer}
    (hMakes : Outbound.Makes P s record level plaintext (d.pairs.sending peer) e
      ((d.send P peer level plaintext).2.pairs.sending peer))
    (hReply : (d.send P peer level plaintext).1 = e.encode d.config.limits) (epoch : UInt64) :
    outcome? P peer epoch d (.send peer level plaintext) =
      if epoch = e.epoch then given? (e.encode d.config.limits) else none := by
  obtain ⟨session', hCurrent', hEpoch', -⟩ := hMakes.used
  dsimp only [outcome?]
  rw [hReply, Pairs.currentEpoch_eq, hCurrent', Option.map_some]
  simp [show session'.id.epoch = e.epoch from hEpoch', eq_comm]

/-- Where the side of a peer rests, there was no envelope. -/
theorem outcome?_of_rests (hFiled : d.contacts.Filed) {op : Operation}
    (hRests : (d.pairs.sending peer).Rests ((d.step P op).2.pairs.sending peer)) (epoch : UInt64) :
    outcome? P peer epoch d op = none := by
  cases op with
  | send other level plaintext =>
    by_cases hPeer : other = peer
    · subst hPeer
      rcases send_effect (P := P) hFiled other level plaintext with
        ⟨failure, hFailed, hEarly, -⟩ | ⟨record, e, -, -, hMakes, -⟩
      · dsimp only [outcome?]
        rw [hFailed]
        simp [given?, hEarly]
      · exact absurd hRests hMakes.not_rests
    · exact if_neg fun h => hPeer h.1
  | _ => rfl

end Device

-- ---------------------------------------------------------------------------
-- Numbers count envelopes
-- ---------------------------------------------------------------------------

namespace Outbound

/-- A sending side whose numbers count the envelopes that were made in each epoch. -/
structure Tallies (o : Outbound) (outcomes : UInt64 → List Bool) : Prop where
  next : ∀ session, o.current = some session →
    session.ratchet.next.toNat = (outcomes session.epoch).length + 1
  below : ∀ session, o.current = some session → session.epoch < o.nextEpoch
  unused : ∀ epoch, o.nextEpoch ≤ epoch → outcomes epoch = []

variable {P : Primitives} {s : Setting} {record : Peer} {level : Level} {plaintext : Bytes}
  {o o' : Outbound} {e : Envelope} {outcomes : UInt64 → List Bool}

/-- Where no key is taken the tally is the same. -/
theorem Tallies.rests (h : o.Tallies outcomes) (hRests : o.Rests o') : o'.Tallies outcomes := by
  refine ⟨fun session hs => h.next session (hRests.current session hs), fun session hs => ?_, ?_⟩
  · rw [hRests.nextEpoch]
    exact h.below session (hRests.current session hs)
  · rw [hRests.nextEpoch]
    exact h.unused

/-- **The number of an envelope** counts it in its epoch. -/
theorem Tallies.sequence (h : o.Tallies outcomes)
    (hMakes : Makes P s record level plaintext o e o') :
    e.sequence.toNat = (outcomes e.epoch).length + 1 := by
  obtain ⟨session', -, -, -, ⟨session, hCurrent, hEpoch, hNext, -⟩ | ⟨hEpoch, hFirst, -⟩⟩ :=
    hMakes.used
  · rw [← hNext, ← hEpoch]
    exact h.next session hCurrent
  · rw [hFirst, hEpoch, h.unused _ (UInt64.le_refl _)]
    rfl

/-- **One envelope more** is counted, whether or not it is given. -/
theorem Tallies.makes (h : o.Tallies outcomes)
    (hMakes : Makes P s record level plaintext o e o')
    (hCounter : o.nextEpoch = Device.lastNumber → o'.nextEpoch = Device.lastNumber)
    (given : Bool) :
    o'.Tallies fun epoch => outcomes epoch ++ if epoch = e.epoch then [given] else [] := by
  have hSequence := h.sequence hMakes
  obtain ⟨session', hCurrent', hEpoch', hNext', hBefore⟩ := hMakes.used
  -- the epoch of the envelope lies below the counter, which does not fall
  have hBelow : e.epoch < o'.nextEpoch ∧ o.nextEpoch ≤ o'.nextEpoch := by
    rcases hBefore with ⟨session, hCurrent, hEpoch, -, -, -, hSame⟩ | ⟨hEpoch, -, -, -, hMore⟩
    · rw [hSame, ← hEpoch]
      exact ⟨h.below session hCurrent, UInt64.le_refl _⟩
    · have hAdd : (o.nextEpoch + 1).toNat = o.nextEpoch.toNat + 1 := by
        refine Ratchet.toNat_add_one fun hLast => ?_
        have hWrapped := hCounter hLast
        rw [hMore, hLast] at hWrapped
        exact absurd hWrapped (by decide)
      rw [hMore, hEpoch, UInt64.lt_iff_toNat_lt, UInt64.le_iff_toNat_le, hAdd]
      omega
  refine ⟨fun session hs => ?_, fun session hs => ?_, fun epoch hAbove => ?_⟩
  · cases hCurrent'.symm.trans hs
    rw [hNext', hSequence, hEpoch', if_pos rfl, List.length_append]
    rfl
  · cases hCurrent'.symm.trans hs
    rw [hEpoch']
    exact hBelow.1
  · have hOther : epoch ≠ e.epoch := by
      rintro rfl
      exact UInt64.not_lt.2 hAbove hBelow.1
    rw [if_neg hOther, List.append_nil]
    exact h.unused epoch (UInt64.le_trans hBelow.2 hAbove)

end Outbound

namespace Device

variable {P : Primitives} {d start : Device} {peer : String} {ops : List Operation}
  {before : UInt64 → List Bool}

/-- **Every operation adds its outcome to the tally,** if it has one. -/
theorem tallies_step (hFiled : d.contacts.Filed) (h : (d.pairs.sending peer).Tallies before)
    (op : Operation) (hReturns : overruns P d op = false) :
    ((d.step P op).2.pairs.sending peer).Tallies fun epoch =>
      before epoch ++ (outcome? P peer epoch d op).toList := by
  rcases sending_step (P := P) hFiled op peer with
    ⟨-, hRests⟩ | ⟨level, plaintext, record, e, rfl, -, -, hReply, hMakes⟩
  · simp only [outcome?_of_rests hFiled hRests, Option.toList_none, List.append_nil]
    exact h.rests hRests
  · have hReply : (d.send P peer level plaintext).1 = e.encode d.config.limits := by
      injection hReply
    have hOutcome := outcome?_of_makes hMakes hReply
    have hGiven : ∃ given, given? (e.encode d.config.limits) = some given := by
      cases hEncoded : e.encode d.config.limits with
      | ok bytes => exact ⟨true, rfl⟩
      | error failure => exact ⟨false, hEncoded ▸ given?_of_encode hEncoded⟩
    obtain ⟨given, hGiven⟩ := hGiven
    have hMore := h.makes hMakes (counter_of_returns hReturns) given
    simp only [hOutcome, hGiven, apply_ite Option.toList, Option.toList_some, Option.toList_none]
    exact hMore

/-- At the beginning nothing was made. -/
theorem Starts.tallies (hStart : Starts P start) (peer : String) :
    (start.pairs.sending peer).Tallies fun _ => [] :=
  ⟨fun _ hs => (nomatch (hStart.current peer).symm.trans hs),
    fun _ hs => (nomatch (hStart.current peer).symm.trans hs), fun _ _ => rfl⟩

/-- **Numbers count envelopes** behind any operations that return. -/
theorem tallies_after (hFiled : d.contacts.Filed) (h : (d.pairs.sending peer).Tallies before)
    (hReturn : allReturn P d ops = true) :
    ((after P d ops).pairs.sending peer).Tallies fun epoch =>
      before epoch ++ outcomes P peer epoch d ops := by
  induction ops generalizing d before with
  | nil => simpa [outcomes, after] using h
  | cons op rest ih =>
    simp only [allReturn, Bool.and_eq_true, Bool.not_eq_true'] at hReturn
    have hNext := ih ((evolves_step d op).filed hFiled) (tallies_step hFiled h op hReturn.1)
      hReturn.2
    simpa only [outcomes, List.append_assoc, after] using hNext

end Device

-- ---------------------------------------------------------------------------
-- Letters and what was wasted behind them
-- ---------------------------------------------------------------------------

/-- How the envelopes of an epoch that were given stand to all that were made in it. There are none,
and all were wasted; or the last of them has the number before those that were wasted since. -/
def Trails (es : List Envelope) (epoch : UInt64) (outcomes : List Bool) : Prop :=
  ((∀ e ∈ es, e.epoch ≠ epoch) ∧ wasted outcomes = outcomes.length) ∨
    ∃ e ∈ es, e.epoch = epoch ∧ e.sequence.toNat + wasted outcomes = outcomes.length ∧
      ∀ f ∈ es, f.epoch = epoch → f.sequence ≤ e.sequence

namespace Trails

variable {es : List Envelope} {e : Envelope} {epoch : UInt64} {outcomes : List Bool}

/-- Nothing that was given has a number behind those that were used. -/
theorem le (h : Trails es epoch outcomes) :
    ∀ f ∈ es, f.epoch = epoch → f.sequence.toNat ≤ outcomes.length := by
  intro f hf hEpoch
  rcases h with ⟨hNone, -⟩ | ⟨e, -, -, hSum, hMax⟩
  · exact absurd hEpoch (hNone f hf)
  · have hLe := UInt64.le_iff_toNat_le.1 (hMax f hf hEpoch)
    omega

/-- An envelope that is given. -/
theorem given (h : Trails es e.epoch outcomes) (hNext : e.sequence.toNat = outcomes.length + 1) :
    Trails (es ++ [e]) e.epoch (outcomes ++ [true]) := by
  refine .inr ⟨e, by simp, rfl, ?_, fun f hf hEpoch => ?_⟩
  · rw [wasted_given, List.length_append, hNext]
    rfl
  · rcases List.mem_append.1 hf with hf | hf
    · have hLe := h.le f hf hEpoch
      rw [UInt64.le_iff_toNat_le]
      omega
    · rw [List.mem_singleton.1 hf]
      exact UInt64.le_refl _

/-- An envelope that is wasted. -/
theorem more (h : Trails es epoch outcomes) : Trails es epoch (outcomes ++ [false]) := by
  unfold Trails
  rw [wasted_more, List.length_append, List.length_singleton]
  rcases h with ⟨hNone, hAll⟩ | ⟨e, he, hEpoch, hSum, hMax⟩
  · exact .inl ⟨hNone, congrArg (· + 1) hAll⟩
  · exact .inr ⟨e, he, hEpoch, by omega, hMax⟩

/-- An envelope of another epoch. -/
theorem other (h : Trails es epoch outcomes) (hOther : e.epoch ≠ epoch) :
    Trails (es ++ [e]) epoch outcomes := by
  have hMem {f : Envelope} (hf : f ∈ es ++ [e]) (hEpoch : f.epoch = epoch) : f ∈ es := by
    rcases List.mem_append.1 hf with hf | hf
    · exact hf
    · rw [List.mem_singleton.1 hf] at hEpoch
      exact absurd hEpoch hOther
  rcases h with ⟨hNone, hAll⟩ | ⟨f, hf, hEpoch, hSum, hMax⟩
  · exact .inl ⟨fun g hg hEpoch => hNone g (hMem hg hEpoch) hEpoch, hAll⟩
  · exact .inr ⟨f, List.mem_append_left _ hf, hEpoch, hSum,
      fun g hg hSame => hMax g (hMem hg hSame) hSame⟩

end Trails

namespace Device

variable {P : Primitives} {d start : Device} {b : Identity} {letters : List Letter}
  {ops : List Operation} {before : UInt64 → List Bool}

/-- An operation that returns sends at most one letter, and what was wasted since the last letter is
counted. -/
theorem trails_step (hP : P.Lawful) (hFiled : d.contacts.Filed)
    (hKeys : ∀ record, d.contacts.get? b.deviceId = some record → record.keys = b.publicKeys P)
    (h : d.Posts P b letters) (hTallies : (d.pairs.sending b.deviceId).Tallies before)
    (hTrails : ∀ epoch, Trails (letters.map (·.envelope)) epoch (before epoch)) (op : Operation)
    (hReturns : overruns P d op = false) :
    ∃ more, more.map Letter.sent = History.sent b.deviceId [(op, (d.step P op).1)] ∧
      (d.step P op).2.Posts P b (letters ++ more) ∧
      ∀ epoch, Trails ((letters ++ more).map (·.envelope)) epoch
        (before epoch ++ (outcome? P b.deviceId epoch d op).toList) := by
  rcases posts_cases hP hFiled hKeys h op hReturns with
    ⟨hNone, hRests, hPosts⟩ |
      ⟨level, plaintext, record, e, rfl, hReply, hMakes, -, hLevel, hSame, hMore⟩
  · -- nothing is made, and no number is used
    refine ⟨[], ?_, ?_, fun epoch => ?_⟩
    · rw [History.written?_eq, Option.map_eq_none_iff] at hNone
      simp [History.sent, hNone]
    · rw [List.append_nil]
      exact hPosts
    · rw [outcome?_of_rests hFiled hRests, Option.toList_none, List.append_nil, List.append_nil]
      exact hTrails epoch
  · have hResult : (d.send P b.deviceId level plaintext).1 = e.encode d.config.limits := by
      injection hReply
    have hOutcome := outcome?_of_makes hMakes hResult
    cases hEncoded : e.encode d.config.limits with
    -- the envelope is made and not given: its number is used all the same
    | error failure =>
      refine ⟨[], ?_, ?_, fun epoch => ?_⟩
      · simp [History.sent, hReply, hEncoded, History.sent?]
      · rw [List.append_nil]
        exact hSame
      · rw [List.append_nil, hOutcome, given?_of_encode hEncoded]
        by_cases hEpoch : epoch = e.epoch
        · rw [if_pos hEpoch]
          exact (hTrails epoch).more
        · rw [if_neg hEpoch, Option.toList_none, List.append_nil]
          exact hTrails epoch
    -- the envelope is given, and is the last of its epoch
    | ok bytes =>
      obtain ⟨rfl, hPosts⟩ := hMore bytes hEncoded
      refine ⟨[⟨e, plaintext⟩], ?_, hPosts, fun epoch => ?_⟩
      · simp [History.sent, hReply, hEncoded, History.sent?, Letter.sent, hLevel]
      · rw [hOutcome, hEncoded, List.map_append]
        by_cases hEpoch : epoch = e.epoch
        · subst hEpoch
          rw [if_pos rfl]
          exact (hTrails e.epoch).given (hTallies.sequence hMakes)
        · rw [if_neg hEpoch, Option.toList_none, List.append_nil]
          exact (hTrails epoch).other (Ne.symm hEpoch)

/-- **What was sent is a list of letters,** and what was wasted since the last of each epoch is
counted, behind any operations that return. -/
theorem trails_after (hP : P.Lawful) (hFiled : d.contacts.Filed)
    (hKeys : ∀ record, (after P d ops).contacts.get? b.deviceId = some record →
      record.keys = b.publicKeys P)
    (h : d.Posts P b letters) (hTallies : (d.pairs.sending b.deviceId).Tallies before)
    (hTrails : ∀ epoch, Trails (letters.map (·.envelope)) epoch (before epoch))
    (hReturn : allReturn P d ops = true) :
    ∃ more, more.map Letter.sent = (during P d ops).sent b.deviceId ∧
      (after P d ops).Posts P b (letters ++ more) ∧
      ∀ epoch, Trails ((letters ++ more).map (·.envelope)) epoch
        (before epoch ++ outcomes P b.deviceId epoch d ops) := by
  -- along the calls, with what each has posted behind what was posted before
  induction ops generalizing d before letters with
  | nil =>
    refine ⟨[], rfl, ?_, fun epoch => ?_⟩
    · rw [List.append_nil]
      exact h
    · rw [List.append_nil]
      simpa [outcomes] using hTrails epoch
  | cons op rest ih =>
    simp only [allReturn, Bool.and_eq_true, Bool.not_eq_true'] at hReturn
    have hEvolves := evolves_step (P := P) d op
    -- the record of the receiver keeps its keys, so it has them at every call
    have hKeys' := (run_after hReturn.2).evolves.keys_of hKeys
    obtain ⟨first, hFirst, hPosts, hNext⟩ := trails_step hP hFiled (hEvolves.keys_of hKeys') h
      hTallies hTrails op hReturn.1
    obtain ⟨more, hMore, hLast, hEnd⟩ := ih (hEvolves.filed hFiled) hKeys hPosts
      (tallies_step hFiled hTallies op hReturn.1) hNext hReturn.2
    rw [List.append_assoc] at hLast
    refine ⟨first ++ more, ?_, hLast, fun epoch => ?_⟩
    · rw [List.map_append, hFirst, hMore]
      exact (History.sent_append ..).symm
    · have hEnd := hEnd epoch
      rw [List.append_assoc, List.append_assoc] at hEnd
      exact hEnd

end Device

end EndToEnd
