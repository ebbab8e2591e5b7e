import EndToEnd.Audit.Log
import EndToEnd.Proofs.Plain

/-!
# The history of an audit log

A log is asked to put events on record, to deliver what waits and to sweep, one turn after another.
The clock and the mood of the sink are free in every turn, so a history may be driven by any sink
that takes all it is given or refuses. Here an entry is followed on its way to the sink.

Main results:

* `Log.turn_eq` — all that a turn can do to a log.
* `Log.follow_recorded` — the entries that a history puts on record carry on where the log left off.
* `Log.nothing_is_lost` — what the sink has taken and what waits are all that was ever recorded.
-/

namespace EndToEnd.Audit

-- ---------------------------------------------------------------------------
-- Turns
-- ---------------------------------------------------------------------------

/-- What a log can be asked to do. -/
inductive Request where
  | record (event : Event)
  | note (event : Event)
  | flush
  | sweep (age : Duration)
  deriving DecidableEq

/-- A request, the time at which it is made, and whether the sink refuses entries then. -/
structure Turn where
  request : Request
  now : UInt64
  refuses : Bool
  deriving DecidableEq

/-- What a log answers. -/
inductive Answer where
  | entry (result : Except Failure Entry)
  | count (result : Except Failure Nat)

namespace Log

variable (P : Primitives)

/-- The log with a sink that refuses entries, or takes them. -/
def withMood (refuses : Bool) (log : Log) : Log :=
  { log with sink := { log.sink with isFull := refuses } }

/-- One turn: the answer, and the log as it then is. -/
def turn (log : Log) (t : Turn) : Answer × Log :=
  let log := log.withMood t.refuses
  match t.request with
  | .record event =>
    let (result, log) := log.record P event t.now
    (.entry result, log)
  | .note event => (.entry (.ok (log.entryOf P event t.now)), log.append P event t.now)
  | .flush =>
    let (result, log) := log.flush
    (.count result, log)
  | .sweep age =>
    let (result, log) := log.sweep age t.now
    (.count result, log)

/-- What a turn puts on record: one entry, or none. -/
def entered (log : Log) (t : Turn) : List Entry :=
  match t.request with
  | .record event | .note event => [log.entryOf P event t.now]
  | .flush | .sweep _ => []

/-- Whether a turn hands everything that waits to the sink: it puts a critical event on record, or
delivers or sweeps, and succeeds. -/
def delivers (log : Log) (t : Turn) : Bool :=
  match t.request, (log.turn P t).1 with
  | .record event, .entry (.ok _) => event.kind.isCritical
  | .flush, .count (.ok _) | .sweep _, .count (.ok _) => true
  | _, _ => false

/-- The log behind some turns. -/
def after (log : Log) : List Turn → Log
  | [] => log
  | t :: rest => after (log.turn P t).2 rest

/-- All that some turns put on record, earliest first. -/
def recorded (log : Log) : List Turn → List Entry
  | [] => []
  | t :: rest => log.entered P t ++ recorded (log.turn P t).2 rest

/-- Whether no turn of some hands anything to the sink. -/
def isQuiet (log : Log) : List Turn → Bool
  | [] => true
  | t :: rest => !log.delivers P t && isQuiet (log.turn P t).2 rest

end Log

-- ---------------------------------------------------------------------------
-- What a turn can do
-- ---------------------------------------------------------------------------

@[simp] theorem Archive.append_nil (a : Archive) : a.append [] = a := by
  cases a <;> simp [append]

/-- Batches that follow each other are one batch. -/
theorem Archive.append_append (a : Archive) (l l' : List Entry) :
    (a.append l).append l' = a.append (l ++ l') := by
  cases a <;> simp [append]

namespace Log

/-- The log with the event of a turn on record, before anything is delivered. -/
def enter (P : Primitives) (log : Log) (t : Turn) : Log :=
  match t.request with
  | .record event | .note event => log.append P event t.now
  | .flush | .sweep _ => log

/-- The log with everything delivered. -/
def handOver (log : Log) : Log := { log with
  pending := []
  sink := { log.sink with archive := log.sink.archive.append log.pending } }

/-- The log without the entries that a turn drops once everything is delivered. -/
def trim (t : Turn) (log : Log) : Log :=
  match t.request with
  | .sweep age =>
    { log with entries := log.entries.filter fun e => saturatingSub t.now age.millis ≤ e.timestamp }
  | _ => log

variable {P : Primitives} {log : Log} {t : Turn}

/-- A turn puts its entry on record behind the others. -/
@[simp] theorem entries_enter : (log.enter P t).entries = log.entries ++ log.entered P t := by
  obtain ⟨request, now, refuses⟩ := t
  cases request <;> simp [enter, entered]

/-- What a turn puts on record waits first. -/
@[simp] theorem pending_enter : (log.enter P t).pending = log.pending ++ log.entered P t := by
  obtain ⟨request, now, refuses⟩ := t
  cases request <;> simp [enter, entered]

@[simp] theorem sink_enter : (log.enter P t).sink = log.sink := by
  unfold enter
  split <;> rfl

/-- Where nothing waits there is nothing to deliver. -/
theorem handOver_of_pending (h : log.pending = []) : log.handOver = log := by
  unfold handOver
  rw [h, Archive.append_nil, ← h]

/-- Whether the sink, asked to take what waits, refuses. -/
def isRefused (log : Log) : Bool := log.sink.isFull && !log.pending.isEmpty

/-- A delivery hands over everything, or nothing if the sink refuses. -/
theorem flush_eq (log : Log) :
    log.flush = if log.isRefused then (.error (.storage "disk full"), log)
      else (.ok log.pending.length, log.handOver) := by
  unfold flush deliver isRefused
  cases hPending : log.pending with
  | nil => simp [handOver_of_pending hPending]
  | cons e rest =>
    cases hFull : log.sink.isFull with
    | false => simp [handOver, hPending]
    | true => simp

/-- A sweep delivers first; if the sink refuses, nothing is dropped. -/
theorem sweep_eq (log : Log) (age : Duration) (now : UInt64) :
    log.sweep age now = if log.isRefused then (.error (.storage "disk full"), log)
      else (.ok (log.entries.length - (log.handOver.trim ⟨.sweep age, now, false⟩).entries.length),
        log.handOver.trim ⟨.sweep age, now, false⟩) := by
  unfold sweep
  rw [flush_eq]
  cases log.isRefused <;> rfl

/-- When a turn hands over everything that waits. -/
theorem delivers_eq :
    log.delivers P t = match t.request with
      | .record event => event.kind.isCritical && !t.refuses
      | .note _ => false
      | .flush | .sweep _ => !(log.withMood t.refuses).isRefused := by
  obtain ⟨request, now, refuses⟩ := t
  cases request with
  | record event =>
    cases hCritical : event.kind.isCritical <;> cases refuses <;>
      simp [delivers, turn, record, deliver, withMood, hCritical]
  | note event => rfl
  | flush =>
    simp only [delivers, turn, flush_eq]
    cases (log.withMood refuses).isRefused <;> rfl
  | sweep age =>
    simp only [delivers, turn, sweep_eq]
    cases (log.withMood refuses).isRefused <;> rfl

/-- **All that a turn can do:** its event is put on record, and then everything is delivered, or
nothing. -/
theorem turn_eq (P : Primitives) (log : Log) (t : Turn) :
    (log.turn P t).2 = (if log.delivers P t then ((log.enter P t).handOver).trim t
      else log.enter P t).withMood t.refuses := by
  rw [delivers_eq]
  obtain ⟨request, now, refuses⟩ := t
  cases request with
  | record event =>
    cases hCritical : event.kind.isCritical <;> cases refuses <;>
      simp only [turn, record, deliver, hCritical] <;> rfl
  | note event => rfl
  | flush =>
    simp only [turn, flush_eq]
    cases (log.withMood refuses).isRefused <;> rfl
  | sweep age =>
    simp only [turn, sweep_eq]
    cases (log.withMood refuses).isRefused <;> rfl

/-- Only an entry that is put on record moves the number of the next. -/
theorem nextSequence_turn :
    (log.turn P t).2.nextSequence = (log.enter P t).nextSequence := by
  rw [turn_eq]
  obtain ⟨request, now, refuses⟩ := t
  split <;> cases request <;> rfl

/-- Only an entry that is put on record moves the digest of the last. -/
theorem lastDigest_turn : (log.turn P t).2.lastDigest = (log.enter P t).lastDigest := by
  rw [turn_eq]
  obtain ⟨request, now, refuses⟩ := t
  split <;> cases request <;> rfl

/-- A turn that does not deliver only adds to what waits. -/
theorem turn_of_quiet (h : log.delivers P t = false) :
    (log.turn P t).2.pending = log.pending ++ log.entered P t ∧
      (log.turn P t).2.entries = log.entries ++ log.entered P t ∧
      (log.turn P t).2.sink.archive = log.sink.archive := by
  rw [turn_eq, h]
  have hArchive : (log.enter P t).sink.archive = log.sink.archive := congrArg _ sink_enter
  exact ⟨pending_enter, entries_enter, hArchive⟩

/-- A turn that delivers hands over all that waits, its own entry last, and may then drop what is
older than some time. -/
theorem turn_of_delivers (h : log.delivers P t = true) :
    (log.turn P t).2.pending = [] ∧
      (∃ cutoff : UInt64, (log.turn P t).2.entries =
        (log.entries ++ log.entered P t).filter fun e => cutoff ≤ e.timestamp) ∧
      (log.turn P t).2.sink.archive =
        log.sink.archive.append (log.pending ++ log.entered P t) := by
  rw [turn_eq, h, if_pos rfl]
  have hArchive : (log.enter P t).handOver.sink.archive =
      log.sink.archive.append (log.pending ++ log.entered P t) := by
    unfold handOver
    rw [pending_enter, sink_enter]
  -- everything is at least as late as the beginning
  have hAll : log.entries ++ log.entered P t =
      (log.entries ++ log.entered P t).filter fun e => (0 : UInt64) ≤ e.timestamp :=
    (List.filter_eq_self.2 fun _ _ => decide_eq_true UInt64.zero_le).symm
  rw [← entries_enter] at hAll ⊢
  obtain ⟨request, now, refuses⟩ := t
  cases request with
  | sweep age => exact ⟨rfl, ⟨saturatingSub now age.millis, rfl⟩, hArchive⟩
  | _ => exact ⟨rfl, ⟨0, hAll⟩, hArchive⟩

-- ---------------------------------------------------------------------------
-- Many turns
-- ---------------------------------------------------------------------------

/-- Turns and later turns, one behind the other. -/
theorem after_append (turns later : List Turn) :
    log.after P (turns ++ later) = (log.after P turns).after P later := by
  induction turns generalizing log with
  | nil => rfl
  | cons t rest ih => exact ih

/-- What turns and later turns put on record, one behind the other. -/
theorem recorded_append (turns later : List Turn) :
    log.recorded P (turns ++ later) =
      log.recorded P turns ++ (log.after P turns).recorded P later := by
  induction turns generalizing log with
  | nil => rfl
  | cons t rest ih =>
    show log.entered P t ++ (log.turn P t).2.recorded P (rest ++ later) = _
    rw [ih, ← List.append_assoc]
    rfl

/-- As long as nothing is delivered, all that is recorded waits. -/
theorem after_of_quiet {turns : List Turn} (h : log.isQuiet P turns = true) :
    (log.after P turns).pending = log.pending ++ log.recorded P turns ∧
      (log.after P turns).sink.archive = log.sink.archive := by
  induction turns generalizing log with
  | nil => exact ⟨(List.append_nil _).symm, rfl⟩
  | cons t rest ih =>
    simp only [isQuiet, Bool.and_eq_true, Bool.not_eq_true'] at h
    obtain ⟨hPending, -, hArchive⟩ := turn_of_quiet h.1
    obtain ⟨hLater, hLaterArchive⟩ := ih h.2
    refine ⟨?_, hLaterArchive.trans hArchive⟩
    show ((log.turn P t).2.after P rest).pending = log.pending ++ (log.entered P t ++ _)
    rw [hLater, hPending, List.append_assoc]

end Log

-- ---------------------------------------------------------------------------
-- The chain of entries
-- ---------------------------------------------------------------------------

/-- Entries that carry on, one after the other, behind a number and a digest: each has the next
number, the digest of the one before it, and the digest that it should have. -/
def Follow (P : Primitives) : Nat → String → List Entry → Prop
  | _, _, [] => True
  | number, digest, e :: rest =>
    e.sequence = UInt64.ofNat (number + 1) ∧ e.previous = digest ∧ e.digest = e.computeDigest P ∧
      Follow P (number + 1) e.digest rest

namespace Follow

variable {P : Primitives} {number : Nat} {digest : String} {l : List Entry}

/-- An entry of a chain has the number of its place. -/
theorem sequence_of_mem (h : Follow P number digest l) {e : Entry} (hMem : e ∈ l) :
    ∃ i < l.length, e.sequence = UInt64.ofNat (number + i + 1) := by
  induction l generalizing number digest with
  | nil => cases hMem
  | cons first rest ih =>
    obtain ⟨hSequence, -, -, hRest⟩ := h
    rcases List.mem_cons.1 hMem with rfl | hMem
    · exact ⟨0, Nat.zero_lt_succ _, hSequence⟩
    · obtain ⟨i, hi, hNumber⟩ := ih hRest hMem
      exact ⟨i + 1, Nat.succ_lt_succ hi, by rw [hNumber, Nat.add_right_comm number 1 i]; rfl⟩

/-- No entry is there twice, as long as there are numbers of 64 bits left. -/
theorem nodup (h : Follow P number digest l) (hNumbers : number + l.length < UInt64.size) :
    l.Nodup := by
  induction l generalizing number digest with
  | nil => exact List.nodup_nil
  | cons first rest ih =>
    obtain ⟨hSequence, -, -, hRest⟩ := h
    rw [List.length_cons] at hNumbers
    refine List.nodup_cons.2 ⟨fun hMem => ?_, ih hRest (by omega)⟩
    obtain ⟨i, hi, hNumber⟩ := hRest.sequence_of_mem hMem
    rw [hSequence] at hNumber
    have hSame := congrArg UInt64.toNat hNumber
    rw [UInt64.toNat_ofNat_of_lt' (by omega), UInt64.toNat_ofNat_of_lt' (by omega)] at hSame
    omega

end Follow

/-- **What is recorded carries on** where the log left off. -/
theorem Log.follow_recorded {P : Primitives} {log : Log} {number : Nat}
    (hNext : log.nextSequence = UInt64.ofNat (number + 1)) (turns : List Turn) :
    Follow P number log.lastDigest (log.recorded P turns) := by
  induction turns generalizing log number with
  | nil => trivial
  | cons t rest ih =>
    have hNextTurn : (log.turn P t).2.nextSequence = (log.enter P t).nextSequence :=
      nextSequence_turn
    have hLastTurn : (log.turn P t).2.lastDigest = (log.enter P t).lastDigest := lastDigest_turn
    unfold recorded
    obtain ⟨request, now, refuses⟩ := t
    cases request with
    | record event | note event =>
      have hLater : log.nextSequence + 1 = UInt64.ofNat (number + 1 + 1) := by
        rw [hNext, UInt64.ofNat_add (number + 1)]
        rfl
      have hRest := ih (hNextTurn.trans hLater)
      rw [hLastTurn] at hRest
      exact ⟨hNext, rfl, rfl, hRest⟩
    | flush | sweep age =>
      have hRest := ih (hNextTurn.trans hNext)
      rw [hLastTurn] at hRest
      exact hRest

/-- What a log records from its beginning carries on from the number zero and 64 zeros. -/
theorem Log.follow_recorded_empty (P : Primitives) (sink : Sink) (turns : List Turn) :
    Follow P 0 Entry.origin ((empty sink).recorded P turns) := by
  have hNext : (empty sink).nextSequence = UInt64.ofNat (0 + 1) := rfl
  exact follow_recorded hNext turns

-- ---------------------------------------------------------------------------
-- On the way to the sink
-- ---------------------------------------------------------------------------

namespace Log

variable {P : Primitives} {sink : Sink} {log : Log} {t : Turn} {past : List Entry}

/-- Where the entries are that were ever recorded: the sink has taken the earlier ones and the later
ones wait. What waits has not left the log, and there is nothing else in the log. -/
structure Accounts (sink : Sink) (recorded : List Entry) (log : Log) : Prop where
  taken : ∃ taken, log.sink.archive = sink.archive.append taken ∧ taken ++ log.pending = recorded
  waiting : log.pending <:+ log.entries
  known : log.entries.Sublist recorded

/-- A turn keeps account of all entries. -/
theorem Accounts.turn (h : Accounts sink past log) (t : Turn) :
    Accounts sink (past ++ log.entered P t) (log.turn P t).2 := by
  obtain ⟨⟨taken, hArchive, hPast⟩, ⟨gone, hWaiting⟩, hKnown⟩ := h
  have hKnownMore := hKnown.append (List.Sublist.refl (log.entered P t))
  cases hDelivers : log.delivers P t with
  | false =>
    obtain ⟨hPending, hEntries, hSink⟩ := turn_of_quiet hDelivers
    refine ⟨⟨taken, hSink.trans hArchive, ?_⟩, ⟨gone, ?_⟩, hEntries ▸ hKnownMore⟩
    · rw [hPending, ← List.append_assoc, hPast]
    · rw [hPending, hEntries, ← List.append_assoc, hWaiting]
  | true =>
    obtain ⟨hPending, ⟨cutoff, hEntries⟩, hSink⟩ := turn_of_delivers hDelivers
    refine ⟨⟨past ++ log.entered P t, ?_, ?_⟩, ?_, ?_⟩
    · rw [hSink, hArchive, Archive.append_append, ← List.append_assoc, hPast]
    · rw [hPending, List.append_nil]
    · rw [hPending]
      exact List.nil_suffix
    · rw [hEntries]
      exact List.filter_sublist.trans hKnownMore

/-- A history keeps account of all entries. -/
theorem Accounts.after (h : Accounts sink past log) (turns : List Turn) :
    Accounts sink (past ++ log.recorded P turns) (log.after P turns) := by
  induction turns generalizing past log with
  | nil =>
    rw [show log.recorded P [] = [] from rfl, List.append_nil]
    exact h
  | cons t rest ih =>
    show Accounts sink (past ++ (log.entered P t ++ _)) _
    rw [← List.append_assoc]
    exact ih (h.turn t)

/-- An empty log accounts for nothing recorded. -/
theorem accounts_empty (sink : Sink) : Accounts sink [] (empty sink) :=
  ⟨⟨[], (Archive.append_nil _).symm, rfl⟩, List.suffix_refl _, List.Sublist.refl _⟩

/-- A log that has put an entry on record which the sink refused: the entry is in the log and waits,
and whatever delivers next hands it over behind all that waited before it. -/
structure Owes (P : Primitives) (before : Log) (e : Entry) (log : Log) : Prop where
  kept : log.entries = before.entries ++ [e]
  waits : log.pending = before.pending ++ [e]
  untaken : log.sink.archive = before.sink.archive
  next : ∀ turns t, log.isQuiet P turns = true → (log.after P turns).delivers P t = true →
    (log.after P (turns ++ [t])).pending = [] ∧
      (log.after P (turns ++ [t])).sink.archive =
        before.sink.archive.append (before.pending ++ e :: log.recorded P (turns ++ [t]))

/-- An entry that the sink refused is owed. -/
theorem owes_of_refused {event : Event} {now : UInt64} :
    Owes P log (log.entryOf P event now) (log.turn P ⟨.record event, now, true⟩).2 := by
  have hQuiet : log.delivers P ⟨.record event, now, true⟩ = false := by
    rw [delivers_eq]
    exact Bool.and_false _
  obtain ⟨hPending, hEntries, hSink⟩ := turn_of_quiet hQuiet
  refine ⟨hEntries, hPending, hSink, fun turns t hTurns hDelivers => ?_⟩
  obtain ⟨hWaiting, hArchive⟩ := after_of_quiet hTurns
  obtain ⟨hTaken, -, hDelivered⟩ := turn_of_delivers hDelivers
  rw [after_append, recorded_append]
  refine ⟨hTaken, hDelivered.trans ?_⟩
  rw [hArchive, hSink, hWaiting, hPending]
  simp [recorded, entered]

/-- **Nothing is lost on the way to the sink,** whatever a log is asked and whenever its sink
refuses. What the sink has taken and what waits are all entries that were ever recorded, each once
and in order. A critical entry that the sink takes leaves nothing waiting; one that it refuses is
owed to it. A sweep drops only what the sink has taken, and nothing if the sink refuses. -/
theorem nothing_is_lost (P : Primitives) (sink : Sink) (turns : List Turn) :
    let log := (empty sink).after P turns
    let recorded := (empty sink).recorded P turns
    Accounts sink recorded log ∧ (recorded.length < UInt64.size → recorded.Nodup) ∧
      (∀ event now, event.kind.isCritical = true →
        let e := log.entryOf P event now
        let taken := log.turn P ⟨.record event, now, false⟩
        let refused := log.turn P ⟨.record event, now, true⟩
        taken.1 = .entry (.ok e) ∧ taken.2.pending = [] ∧
          (∃ failure, refused.1 = .entry (.error failure)) ∧ Owes P log e refused.2) ∧
      ∀ age now,
        (log.pending ≠ [] → ∃ failure,
          log.turn P ⟨.sweep age, now, true⟩ = (.count (.error failure), log.withMood true)) ∧
        ∀ refuses, let swept := (log.turn P ⟨.sweep age, now, refuses⟩).2
          ∀ e ∈ log.entries, e ∉ swept.entries →
            ∃ taken, swept.sink.archive = sink.archive.append taken ∧
              taken ++ swept.pending = recorded ∧ e ∈ taken := by
  intro log recorded
  have hAccounts : Accounts sink recorded log := (accounts_empty sink).after turns
  have hFollow : Follow P 0 Entry.origin recorded := follow_recorded_empty P sink turns
  refine ⟨hAccounts, fun hNumbers => hFollow.nodup (by omega), fun event now hCritical => ?_,
    fun age now => ⟨fun hPending => ?_, fun refuses => ?_⟩⟩
  · -- a critical entry
    have hDelivers : log.delivers P ⟨.record event, now, false⟩ = true := by
      rw [delivers_eq]
      simp [hCritical]
    refine ⟨?_, (turn_of_delivers hDelivers).1, ⟨.storage "disk full", ?_⟩, owes_of_refused⟩
    · simp only [turn, record, deliver, hCritical]
      rfl
    · simp only [turn, record, deliver, hCritical]
      rfl
  · -- a sweep that is refused
    have hRefused : (log.withMood true).isRefused = true := by
      simpa [isRefused, withMood] using hPending
    refine ⟨.storage "disk full", ?_⟩
    simp only [turn, sweep_eq, hRefused]
    rfl
  · -- an entry that a sweep has dropped
    intro swept e hMem hDropped
    cases hDelivers : log.delivers P ⟨.sweep age, now, refuses⟩ with
    | false =>
      refine absurd ?_ hDropped
      rw [(turn_of_quiet hDelivers).2.1]
      exact List.mem_append_left _ hMem
    | true =>
      obtain ⟨⟨taken, hArchive, hTaken⟩, -, -⟩ := hAccounts.turn ⟨.sweep age, now, refuses⟩
      have hAll : taken ++ swept.pending = recorded := hTaken.trans (List.append_nil _)
      -- it was written with all that waited, as a sweep writes before it drops
      have hNone : swept.pending = [] := (turn_of_delivers hDelivers).1
      refine ⟨taken, hArchive, hAll, ?_⟩
      rw [hNone, List.append_nil] at hAll
      exact hAll ▸ hAccounts.known.subset hMem

/-- One entry waits for a disk that is full. -/
def fullDiskTurns : List Turn :=
  [⟨.note ⟨.sessionEstablished, ["ann", "bob"], .success, "outbound epoch 0 at basic"⟩, 1, false⟩,
    ⟨.flush, 2, true⟩, ⟨.sweep ⟨0, 0⟩, 3, true⟩]

/-- An entry waits while the disk is full, and nothing is dropped. -/
theorem nothing_is_lost_of_fullDisk :
    let log := (empty .memory).after .plain fullDiskTurns
    let revoked : Event := ⟨.peerRevoked, ["bob"], .success, "tofu-accepted -> revoked"⟩
    let refused := (log.turn .plain ⟨.record revoked, 4, true⟩).2
    revoked.kind.isCritical = true ∧ refused.pending.length = 2 ∧
      refused.sink.archive = .memory [] ∧
      (refused.turn .plain ⟨.flush, 5, false⟩).2.sink.archive = .memory refused.entries ∧
      Owes .plain log (log.entryOf .plain revoked 4) refused := by
  intro log revoked refused
  obtain ⟨-, -, hCritical, -⟩ := nothing_is_lost .plain .memory fullDiskTurns
  exact ⟨rfl, by decide +kernel, by decide +kernel, by decide +kernel,
    (hCritical revoked 4 rfl).2.2.2⟩

end Log

end EndToEnd.Audit
