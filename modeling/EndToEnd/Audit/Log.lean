import EndToEnd.Audit.Entry
import EndToEnd.Failure
import EndToEnd.Time.Duration

/-!
# The audit log

Entries are kept in a chain and delivered to a sink outside. Critical entries are delivered, behind
everything that still waits, before the operation that made them returns; other entries wait for
the next delivery. If the sink refuses, nothing is lost: the entries stay in the log and go on
waiting. Old entries leave the log only once they are delivered.

Main facts: `entries_append` and `pending_append` (what a new entry does to the log), and
`deliver_eq_ok_iff` (the sink takes all that waits, or nothing).
-/

namespace EndToEnd.Audit

-- ---------------------------------------------------------------------------
-- The sink
-- ---------------------------------------------------------------------------

/-- Where delivered entries are kept. -/
inductive Archive where
  /-- As they are. -/
  | memory (entries : List Entry)
  /-- As lines of a file. -/
  | file (content : Bytes)
  deriving DecidableEq

/-- Adds entries to an archive. -/
def Archive.append : Archive → List Entry → Archive
  | memory kept, entries => memory (kept ++ entries)
  | file content, entries => file (content ++ entries.flatMap Entry.line)

/-- The receiver of entries, which takes all that it is given or refuses. -/
structure Sink where
  archive : Archive
  isFull : Bool
  deriving DecidableEq

/-- A sink that keeps entries as they are. -/
def Sink.memory : Sink := ⟨.memory [], false⟩

/-- A sink that writes entries to a file. -/
def Sink.file : Sink := ⟨.file [], false⟩

-- ---------------------------------------------------------------------------
-- The log
-- ---------------------------------------------------------------------------

/-- The entries on record and those that wait for delivery. -/
structure Log where
  entries : List Entry
  /-- The entries that the sink has not taken yet. -/
  pending : List Entry
  nextSequence : UInt64
  /-- The digest of the latest entry, which the next one will carry. -/
  lastDigest : String
  sink : Sink
  deriving DecidableEq

namespace Log

variable (P : Primitives)

/-- A log without entries. -/
def empty (sink : Sink) : Log := ⟨[], [], 1, Entry.origin, sink⟩

/-- The entry that an event would become. -/
def entryOf (log : Log) (event : Event) (now : UInt64) : Entry :=
  .ofEvent P event log.nextSequence now log.lastDigest

/-- Puts an event on record; its entry waits for delivery. -/
def append (log : Log) (event : Event) (now : UInt64) : Log :=
  let e := log.entryOf P event now
  { log with
    entries := log.entries ++ [e]
    pending := log.pending ++ [e]
    nextSequence := log.nextSequence + 1
    lastDigest := e.digest }

/-- Puts events on record one after the other. -/
def appendAll (log : Log) (events : List Event) (now : UInt64) : Log :=
  events.foldl (fun log event => log.append P event now) log

/-- Hands everything that waits to the sink. -/
def deliver (log : Log) : Except Failure Log :=
  if log.sink.isFull then .error (.storage "disk full")
  else .ok { log with
    pending := []
    sink := { log.sink with archive := log.sink.archive.append log.pending } }

/-- Hands everything that waits to the sink, if anything waits, and counts it. -/
def flush (log : Log) : Except Failure Nat × Log :=
  if log.pending.isEmpty then (.ok 0, log)
  else
    match log.deliver with
    | .ok delivered => (.ok log.pending.length, delivered)
    | .error failure => (.error failure, log)

/-- Puts an event on record; a critical one is delivered at once. -/
def record (log : Log) (event : Event) (now : UInt64) : Except Failure Entry × Log :=
  let e := log.entryOf P event now
  let log := log.append P event now
  if event.kind.isCritical then
    match log.deliver with
    | .ok delivered => (.ok e, delivered)
    | .error failure => (.error failure, log)
  else (.ok e, log)

/-- The number of entries of a kind. -/
def count (log : Log) (kind : Kind) : Nat := log.entries.countP (·.kind = kind)

/-- Drops the entries that are older than a span of time, everything being delivered first, and
counts them. -/
def sweep (log : Log) (age : Duration) (now : UInt64) : Except Failure Nat × Log :=
  match log.flush with
  | (.error failure, log) => (.error failure, log)
  | (.ok _, log) =>
    let kept := log.entries.filter fun e => saturatingSub now age.millis ≤ e.timestamp
    (.ok (log.entries.length - kept.length), { log with entries := kept })

-- ---------------------------------------------------------------------------
-- The chain
-- ---------------------------------------------------------------------------

/-- Whether an entry carries on where another ends. -/
def follows (earlier later : Entry) : Bool :=
  later.previous = earlier.digest && later.sequence = earlier.sequence + 1

/-- Checks the digests of entries, and that each carries on where the one before it ends. -/
def checkChain (before : Option Entry) : List Entry → Except Failure Unit
  | [] => .ok ()
  | e :: rest =>
    if e.computeDigest P ≠ e.digest then
      .error (.storage s!"audit entry {e.sequence.toNat} digest mismatch")
    else if before.any fun b => !follows b e then
      .error (.storage s!"audit chain broken before entry {e.sequence.toNat}")
    else checkChain (some e) rest

/-- Checks the entries on record. -/
def verify (log : Log) : Except Failure Unit := checkChain P none log.entries

-- ---------------------------------------------------------------------------
-- Small facts
-- ---------------------------------------------------------------------------

variable {P}

@[simp] theorem entries_append (log : Log) (event : Event) (now : UInt64) :
    (log.append P event now).entries = log.entries ++ [log.entryOf P event now] := rfl

@[simp] theorem pending_append (log : Log) (event : Event) (now : UInt64) :
    (log.append P event now).pending = log.pending ++ [log.entryOf P event now] := rfl

@[simp] theorem sink_append (log : Log) (event : Event) (now : UInt64) :
    (log.append P event now).sink = log.sink := rfl

/-- The sink takes all that waits, or nothing. -/
theorem deliver_eq_ok_iff {log delivered : Log} :
    log.deliver = .ok delivered ↔
      log.sink.isFull = false ∧ delivered = { log with
        pending := []
        sink := { log.sink with archive := log.sink.archive.append log.pending } } := by
  unfold deliver
  split
  · simp [*]
  · simp only [*, Except.ok.injEq, true_and]
    exact eq_comm

end Log

end EndToEnd.Audit
