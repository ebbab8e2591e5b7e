import EndToEnd.Device.Messaging
import EndToEnd.Device.Persistence
import EndToEnd.Device.Relations
import EndToEnd.Proofs.Sides

/-!
# Runs of a device

What a device can be asked to do, what it answers, and what becomes of it when it is asked many
things one after the other. The bytes given to `receive`, the times given to `maintain`, the clock
and the moods of the sink are all free, so a run may be driven by an adversary.

* `Device.step` is one operation, `Device.Run` any number of them with their answers.
* A device `Starts` when it is created or restored from a store.
* Runs are told as far as counters reach: an operation that `overruns` the last number of 64 bits is
  no part of a run.
-/

namespace EndToEnd

/-- What a device can be asked to do, and what its surroundings can do to it. -/
inductive Operation where
  | send (peer : String) (level : Level) (plaintext : Bytes)
  | receive (bytes : Bytes)
  | remember (id : String) (keys : PublicKeys)
  | importBundle (text : Bytes)
  | verify (id : String) (evidence : Evidence)
  | revoke (id reason : String)
  | crossSignPeer (id : String)
  | addRoot (id : String) (keys : PublicKeys)
  | rotate (peer : String)
  | request (peer : String)
  /-- One sweep, as of any time. -/
  | maintain (now : UInt64)
  | shutdown
  | flushAudit
  | sweepAudit
  | save (store : Store) (passphrase : String)
  /-- The clock reads a time from now on. -/
  | setClock (now : UInt64)
  /-- The sink refuses, or takes entries again. -/
  | setSink (isFull : Bool)
  deriving DecidableEq

/-- Whether an operation makes or opens an envelope. -/
def Operation.handlesMessage : Operation → Bool
  | send .. | receive _ => true
  | _ => false

/-- The time that an operation works on the sessions as of. -/
def Operation.time (clock : UInt64) : Operation → UInt64
  | maintain now => now
  | _ => clock

/-- What a device answers. -/
inductive Reply where
  | sent (result : Except Failure Bytes)
  | received (result : Except Failure ReceivedMessage)
  | peer (result : Except Failure Peer)
  | trust (result : Except Failure Trust)
  | count (result : Except Failure Nat)
  | epoch (result : Except Failure (Option UInt64))
  | state (state : SessionState)
  | report (report : SweepReport)
  | stored (result : Except Failure Store)
  | done

/-- Operations with their answers, earliest first. -/
abbrev History := List (Operation × Reply)

namespace Device

variable (P : Primitives)

-- ---------------------------------------------------------------------------
-- One operation
-- ---------------------------------------------------------------------------

/-- The answer that a result makes. -/
def answer {α : Type} (reply : α → Reply) (r : α × Device) : Reply × Device := (reply r.1, r.2)

/-- Does what is asked: the answer, and the device as it then is. -/
def step (d : Device) : Operation → Reply × Device
  | .send peer level plaintext => answer .sent (d.send P peer level plaintext)
  | .receive bytes => answer .received (d.receive P bytes)
  | .remember id keys => answer .peer (d.remember P id keys)
  | .importBundle text => answer .peer (d.importBundle P text)
  | .verify id evidence => answer .trust (d.verifyPeer P id evidence)
  | .revoke id reason => answer .count (d.revoke P id reason)
  | .crossSignPeer id => answer .trust (d.crossSignPeer P id)
  | .addRoot id keys => (.done, d.addRoot id keys)
  | .rotate peer => answer .epoch (d.rotate P peer)
  | .request peer => answer .state (d.requestEstablishment P peer)
  | .maintain now => answer .report (d.maintain P now)
  | .shutdown => answer .count (d.shutdown P)
  | .flushAudit => answer .count d.flushAudit
  | .sweepAudit => answer .count d.sweepAudit
  | .save store passphrase => answer .stored (d.save P store passphrase)
  | .setClock now => (.done, { d with now := now })
  | .setSink isFull =>
    (.done, { d with audit := { d.audit with sink := { d.audit.sink with isFull := isFull } } })

/-- The last number of 64 bits. -/
def lastNumber : UInt64 := UInt64.ofNat (UInt64.size - 1)

/-- Whether an operation would need the number behind the last one: for the epoch after the one it
begins, or for the message after the one it accepts. Where sums are checked the operation then does
not return, and where they are not the counter starts again at zero; runs stop before it, and nothing
is said of either. -/
def overruns (d : Device) : Operation → Bool
  | .send peer level plaintext =>
    (d.pairs.sending peer).nextEpoch = lastNumber
      && ((d.send P peer level plaintext).2.pairs.sending peer).nextEpoch ≠ lastNumber
  | .receive bytes =>
    match (d.receive P bytes).1 with
    | .ok message => message.sequence = lastNumber
    | .error _ => false
  | _ => false

-- ---------------------------------------------------------------------------
-- Many operations
-- ---------------------------------------------------------------------------

/-- The devices at the beginning of a run: just created, or just restored from what a store
holds. -/
inductive Starts (d : Device) : Prop where
  | created {config : Config} {sink : Audit.Sink} {identity : Option Identity} {now : UInt64}
      {random : RandomSource} (h : create P config sink identity now random = .ok d)
  | restored {config : Config} {sink : Audit.Sink} {store : Store} {passphrase : String}
      {now : UInt64} {random : RandomSource}
      (h : restore P config sink store passphrase now random = .ok d)

/-- From one device to another by operations that all return: no counter of epochs or of messages
passes the last number, `2 ^ 64 - 1`. This is all that runs leave out. -/
inductive Run (d : Device) : History → Device → Prop where
  | start : Run d [] d
  | step {history : History} {d' : Device} (op : Operation) (before : Run d history d')
      (returns : overruns P d' op = false) :
      Run d (history ++ [(op, (Device.step P d' op).1)]) (Device.step P d' op).2

/-- The device behind some operations. -/
def after (d : Device) : List Operation → Device
  | [] => d
  | op :: rest => after (step P d op).2 rest

/-- Some operations with their answers. -/
def during (d : Device) : List Operation → History
  | [] => []
  | op :: rest => (op, (step P d op).1) :: during (step P d op).2 rest

/-- Whether some operations all return, that is, no counter passes the last number. -/
def allReturn (d : Device) : List Operation → Bool
  | [] => true
  | op :: rest => !overruns P d op && allReturn (step P d op).2 rest

/-- Whether the clock is never set back by some operations. -/
def clockGoesOn (d : Device) : List Operation → Bool
  | [] => true
  | op :: rest => d.now ≤ (step P d op).2.now && clockGoesOn (step P d op).2 rest

/-- Whether no sweep among some operations is as of a time that the clock has not come to. -/
def sweepsInTime (d : Device) : List Operation → Bool
  | [] => true
  | op :: rest => op.time d.now ≤ d.now && sweepsInTime (step P d op).2 rest

/-- Among some operations, one was asked of a device as it then was. -/
inductive Asked : Device → List Operation → Device → Operation → Prop where
  | first {d : Device} {op : Operation} {rest : List Operation} : Asked d (op :: rest) d op
  | later {d d' : Device} {op op' : Operation} {rest : List Operation}
      (h : Asked (step P d op).2 rest d' op') : Asked d (op :: rest) d' op'

variable {P} {d d' d'' : Device} {history later : History}

theorem Run.trans (h : Run P d history d') (h' : Run P d' later d'') :
    Run P d (history ++ later) d'' := by
  induction h' with
  | start =>
    rw [List.append_nil]
    exact h
  | step op _ returns ih =>
    rw [← List.append_assoc]
    exact .step op ih returns

/-- Operations that all return are a run. -/
theorem run_after {ops : List Operation} (h : allReturn P d ops = true) :
    Run P d (during P d ops) (after P d ops) := by
  induction ops generalizing d with
  | nil => exact .start
  | cons op rest ih =>
    simp only [allReturn, Bool.and_eq_true, Bool.not_eq_true'] at h
    exact (Run.step op .start h.1).trans (ih h.2)

theorem after_append (d : Device) (ops more : List Operation) :
    after P d (ops ++ more) = after P (after P d ops) more := by
  induction ops generalizing d with
  | nil => rfl
  | cons op rest ih => exact ih _

theorem during_append (d : Device) (ops more : List Operation) :
    during P d (ops ++ more) = during P d ops ++ during P (after P d ops) more := by
  induction ops generalizing d with
  | nil => rfl
  | cons op rest ih => exact congrArg _ (ih _)

theorem allReturn_append {ops more : List Operation} :
    allReturn P d (ops ++ more) = (allReturn P d ops && allReturn P (after P d ops) more) := by
  induction ops generalizing d with
  | nil => rfl
  | cons op rest ih =>
    show (_ && allReturn P _ (rest ++ more)) = ((_ && allReturn P _ rest) && _)
    rw [ih, Bool.and_assoc]
    rfl

theorem clockGoesOn_append {ops more : List Operation} :
    clockGoesOn P d (ops ++ more) =
      (clockGoesOn P d ops && clockGoesOn P (after P d ops) more) := by
  induction ops generalizing d with
  | nil => rfl
  | cons op rest ih =>
    show (_ && clockGoesOn P _ (rest ++ more)) = ((_ && clockGoesOn P _ rest) && _)
    rw [ih, Bool.and_assoc]
    rfl

/-- What was asked last, or before. -/
theorem asked_snoc {ops : List Operation} {op last : Operation} :
    Asked P d (ops ++ [last]) d' op ↔
      Asked P d ops d' op ∨ d' = after P d ops ∧ op = last := by
  induction ops generalizing d with
  | nil =>
    constructor
    · rintro (_ | h)
      · exact .inr ⟨rfl, rfl⟩
      · cases h
    · rintro (h | ⟨rfl, rfl⟩)
      · cases h
      · exact .first
  | cons first rest ih =>
    constructor
    · rintro (_ | h)
      · exact .inl .first
      · exact (ih.1 h).imp_left .later
    · rintro (h | h)
      · cases h with
        | first => exact .first
        | later h => exact .later (ih.2 (.inl h))
      · exact .later (ih.2 (.inr h))

/-- If the clock goes on, it was not later before. -/
theorem now_le_after {ops : List Operation} (h : clockGoesOn P d ops = true) :
    d.now ≤ (after P d ops).now := by
  induction ops generalizing d with
  | nil => exact UInt64.le_refl _
  | cons op rest ih =>
    simp only [clockGoesOn, Bool.and_eq_true, decide_eq_true_eq] at h
    exact UInt64.le_trans h.1 (ih h.2)

theorem Asked.now_le {ops : List Operation} {op : Operation} (h : Asked P d ops d' op)
    (hClock : clockGoesOn P d ops = true) : d'.now ≤ (after P d ops).now := by
  induction h with
  | first => exact now_le_after hClock
  | later _ ih =>
    simp only [clockGoesOn, Bool.and_eq_true, decide_eq_true_eq] at hClock
    exact ih hClock.2

end Device

-- ---------------------------------------------------------------------------
-- What a history tells
-- ---------------------------------------------------------------------------

namespace History

/-- The message of a peer that an answer brings, if it brings one. -/
def message? (sender : String) : Reply → Option ReceivedMessage
  | .received (.ok message) => if message.sender = sender then some message else none
  | _ => none

/-- The messages of a peer that were accepted, earliest first. -/
def accepted (sender : String) (h : History) : List ReceivedMessage :=
  h.filterMap fun e => message? sender e.2

/-- The written envelope for a peer that an operation gave, if it gave one. -/
def written? (peer : String) : Operation × Reply → Option Bytes
  | (.send other _ _, .sent (.ok bytes)) => if other = peer then some bytes else none
  | _ => none

/-- The written envelopes for a peer, earliest first. -/
def written (peer : String) (h : History) : List Bytes := h.filterMap (written? peer)

@[simp] theorem accepted_append (sender : String) (h h' : History) :
    accepted sender (h ++ h') = accepted sender h ++ accepted sender h' :=
  List.filterMap_append

@[simp] theorem written_append (peer : String) (h h' : History) :
    written peer (h ++ h') = written peer h ++ written peer h' :=
  List.filterMap_append

end History

end EndToEnd
