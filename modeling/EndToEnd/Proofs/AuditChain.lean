import EndToEnd.Proofs.AuditHistory

/-!
# The chain of an audit log

As long as the clock is not set back, a sweep drops the oldest entries and no others. What a log
retains is then the end of all that was ever put on it, unbroken, and passes the check of the chain
in every state: behind a sweep that drops everything, and whatever the sink did. A sink that takes a
part of what it is given and then fails is one that refuses, as far as the log can tell.

Main results:

* `Log.entries_suffix` — what is retained is the end of what was recorded.
* `Log.retained_chain_verifies` — the chain passes its check in every state of a history.
-/

namespace EndToEnd.Audit

variable {P : Primitives} {number : Nat} {digest : String} {l : List Entry}

-- ---------------------------------------------------------------------------
-- Entries in the order of time
-- ---------------------------------------------------------------------------

/-- Entries of which none is earlier than the one before it. -/
def InTime (l : List Entry) : Prop :=
  l.Pairwise fun earlier later => earlier.timestamp ≤ later.timestamp

/-- Without what is older than some time, the end of such entries is left. -/
theorem InTime.filter_suffix (h : InTime l) (cutoff : UInt64) :
    (l.filter fun e => cutoff ≤ e.timestamp) <:+ l := by
  induction l with
  | nil => exact List.suffix_refl _
  | cons first rest ih =>
    obtain ⟨hFirst, hRest⟩ := List.pairwise_cons.1 h
    by_cases hKept : cutoff ≤ first.timestamp
    · -- the first one stays, and so do all later ones
      have hAll : ∀ e ∈ first :: rest, decide (cutoff ≤ e.timestamp) = true := by
        intro e hMem
        rcases List.mem_cons.1 hMem with rfl | hMem
        · exact decide_eq_true hKept
        · exact decide_eq_true (UInt64.le_trans hKept (hFirst e hMem))
      exact ⟨[], List.filter_eq_self.2 hAll⟩
    · rw [List.filter_cons_of_neg (by simpa using hKept)]
      exact (ih hRest).trans (List.suffix_cons first rest)

namespace Log

variable {log : Log} {turns : List Turn} {past : List Entry}

theorem timestamp_of_mem_entered {e : Entry} {t : Turn} (h : e ∈ log.entered P t) :
    e.timestamp = t.now := by
  obtain ⟨request, now, refuses⟩ := t
  cases request with
  | record event | note event =>
    cases List.mem_singleton.1 h
    rfl
  | flush | sweep age => cases h

theorem timestamp_of_mem_recorded {e : Entry} (h : e ∈ log.recorded P turns) :
    ∃ t ∈ turns, e.timestamp = t.now := by
  induction turns generalizing log with
  | nil => cases h
  | cons t rest ih =>
    rcases List.mem_append.1 h with hEntered | hLater
    · exact ⟨t, .head _, timestamp_of_mem_entered hEntered⟩
    · obtain ⟨later, hMem, hTime⟩ := ih hLater
      exact ⟨later, .tail _ hMem, hTime⟩

/-- With a clock that is not set back, entries are recorded in the order of time. -/
theorem inTime_recorded (h : turns.Pairwise fun earlier later => earlier.now ≤ later.now) :
    InTime (log.recorded P turns) := by
  induction turns generalizing log with
  | nil => exact List.Pairwise.nil
  | cons t rest ih =>
    obtain ⟨hFirst, hRest⟩ := List.pairwise_cons.1 h
    refine List.pairwise_append.2 ⟨?_, ih hRest, fun e he e' he' => ?_⟩
    · unfold entered
      split
      · exact List.pairwise_singleton _ _
      · exact List.pairwise_singleton _ _
      · exact List.Pairwise.nil
      · exact List.Pairwise.nil
    · obtain ⟨later, hMem, hTime⟩ := timestamp_of_mem_recorded he'
      rw [timestamp_of_mem_entered he, hTime]
      exact hFirst later hMem

/-- A turn leaves the end of what was recorded. -/
theorem suffix_turn (h : log.entries <:+ past) (t : Turn)
    (hTime : InTime (past ++ log.entered P t)) :
    (log.turn P t).2.entries <:+ past ++ log.entered P t := by
  obtain ⟨gone, hGone⟩ := h
  have hAll : log.entries ++ log.entered P t <:+ past ++ log.entered P t :=
    ⟨gone, by rw [← List.append_assoc, hGone]⟩
  cases hDelivers : log.delivers P t with
  | false =>
    rw [(turn_of_quiet hDelivers).2.1]
    exact hAll
  | true =>
    obtain ⟨-, ⟨cutoff, hEntries⟩, -⟩ := turn_of_delivers hDelivers
    rw [hEntries]
    have hLeft : InTime (log.entries ++ log.entered P t) := hTime.sublist hAll.sublist
    exact (hLeft.filter_suffix cutoff).trans hAll

/-- **What is retained** is the end of what was recorded. -/
theorem entries_suffix (h : log.entries <:+ past) (hTime : InTime (past ++ log.recorded P turns)) :
    (log.after P turns).entries <:+ past ++ log.recorded P turns := by
  induction turns generalizing past log with
  | nil =>
    rw [show log.recorded P [] = [] from rfl, List.append_nil]
    exact h
  | cons t rest ih =>
    have hAll : past ++ log.recorded P (t :: rest) =
        past ++ log.entered P t ++ (log.turn P t).2.recorded P rest := (List.append_assoc ..).symm
    rw [hAll] at hTime ⊢
    exact ih (suffix_turn h t (List.pairwise_append.1 hTime).1) hTime

end Log

-- ---------------------------------------------------------------------------
-- The check
-- ---------------------------------------------------------------------------

/-- The end of entries that carry on. -/
theorem Follow.of_suffix {all : List Entry} (h : Follow P number digest all) (hEnd : l <:+ all) :
    ∃ number digest, Follow P number digest l := by
  obtain ⟨gone, rfl⟩ := hEnd
  induction gone generalizing number digest with
  | nil => exact ⟨number, digest, h⟩
  | cons first rest ih => exact ih h.2.2.2

/-- **Entries that carry on pass the check.** -/
theorem Follow.checkChain (h : Follow P number digest l) {before : Option Entry}
    (hBefore : ∀ b ∈ before, b.digest = digest ∧ b.sequence = UInt64.ofNat number) :
    Log.checkChain P before l = .ok () := by
  induction l generalizing number digest before with
  | nil => rfl
  | cons e rest ih =>
    obtain ⟨hSequence, hPrevious, hDigest, hRest⟩ := h
    have hFollows : (before.any fun b => !Log.follows b e) = false := by
      cases before with
      | none => rfl
      | some b =>
        obtain ⟨hBeforeDigest, hBeforeSequence⟩ := hBefore b rfl
        have hNext : e.sequence = b.sequence + 1 := by
          rw [hSequence, hBeforeSequence, UInt64.ofNat_add number]
          rfl
        simp [Log.follows, hPrevious, hBeforeDigest, hNext]
    unfold Log.checkChain
    rw [if_neg (by simp [← hDigest]), hFollows, if_neg Bool.false_ne_true]
    refine ih hRest fun b hb => ?_
    cases hb
    exact ⟨rfl, hSequence⟩

namespace Log

/-- With a clock that is not set back, a log holds the end of what was recorded. -/
theorem entries_suffix_recorded (P : Primitives) (sink : Sink)
    (hClock : turns.Pairwise fun earlier later => earlier.now ≤ later.now) :
    ((empty sink).after P turns).entries <:+ (empty sink).recorded P turns := by
  have hNothing : (empty sink).entries <:+ [] := List.suffix_refl _
  exact entries_suffix hNothing (inTime_recorded hClock)

/-- A log whose clock is not set back passes the check. -/
theorem verify_after (P : Primitives) (sink : Sink)
    (hClock : turns.Pairwise fun earlier later => earlier.now ≤ later.now) :
    ((empty sink).after P turns).verify P = .ok () := by
  obtain ⟨number, digest, hRetained⟩ :=
    (follow_recorded_empty P sink turns).of_suffix (entries_suffix_recorded P sink hClock)
  exact hRetained.checkChain nofun

/-- **The retained chain always verifies.** As long as the clock is not set back, a log holds the
end of all that was ever recorded, whatever the sink did and however much was swept. In what was
recorded each entry has the next number and the digest of the entry before it, the first one 64
zeros, and none is earlier than the one before it. -/
theorem retained_chain_verifies (P : Primitives) (sink : Sink) {turns : List Turn}
    (hClock : turns.Pairwise fun earlier later => earlier.now ≤ later.now) :
    let log := (empty sink).after P turns
    let recorded := (empty sink).recorded P turns
    log.entries <:+ recorded ∧ Follow P 0 Entry.origin recorded ∧ InTime recorded ∧
      log.verify P = .ok () :=
  ⟨entries_suffix_recorded P sink hClock, follow_recorded_empty P sink turns,
    inTime_recorded hClock, verify_after P sink hClock⟩

/-- A sweep drops everything before an entry is recorded; a later one is refused. -/
def sweptTurns : List Turn :=
  [⟨.note ⟨.sessionEstablished, ["ann", "bob"], .success, "outbound epoch 0 at basic"⟩, 1, false⟩,
    ⟨.sweep ⟨0, 0⟩, 5, false⟩, ⟨.record ⟨.peerRevoked, ["bob"], .success, "revoked"⟩, 6, true⟩,
    ⟨.sweep ⟨0, 0⟩, 9, true⟩]

theorem retained_chain_verifies_of_sweptTurns :
    let log := (empty .memory).after .plain sweptTurns
    let recorded := (empty .memory).recorded .plain sweptTurns
    recorded.length = 2 ∧ log.entries = recorded.drop 1 ∧
      log.entries.map (·.previous) = (recorded.take 1).map (·.digest) ∧
      log.verify .plain = .ok () := by
  intro log recorded
  have hClock : sweptTurns.Pairwise fun earlier later => earlier.now ≤ later.now := by decide
  obtain ⟨-, -, -, hVerify⟩ := retained_chain_verifies .plain .memory hClock
  exact ⟨by decide, by decide +kernel, by decide +kernel, hVerify⟩

end Log

end EndToEnd.Audit
