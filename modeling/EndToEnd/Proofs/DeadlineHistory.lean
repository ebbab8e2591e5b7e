import EndToEnd.Proofs.SweptSides
import Mathlib.Data.List.DropRight

/-!
# The history of the index

The index of deadlines is told when a session begins, when it ends and when it is dropped, and it
checks nothing of this. A session may be marked without having been scheduled, marked again with an
earlier time or a later one, scheduled again, or removed before it ended. Whatever the index was
told, what is due can be read off the calls about each session: off the last one that scheduled or
removed it, and the marks behind that. Of several marks the one with the earliest deadline counts.

Deadlines are sums on a clock that stops at the last number. A span in them is counted modulo
`2 ^ 64` milliseconds, so one that is longer than the clock can show may be over at once.

Main results:

* `SessionId.compare_eq_lt_iff` — the order of ids, field by field.
* `Rotation.Deadlines.get?_made` — what one call does to the entry of each session.
* `Rotation.Deadlines.retireAt_after`, `Rotation.Deadlines.get?_after_eq_unended` — the entry of a
  session behind any calls.
* `Rotation.Deadlines.due_after_calls` — what is due behind any calls, and what marking returns.
* `Rotation.Deadlines.unending_grace_is_over_at_once` — a span that is cut down.
-/

namespace EndToEnd

-- ---------------------------------------------------------------------------
-- Deadlines as numbers
-- ---------------------------------------------------------------------------

theorem toNat_min (a b : UInt64) : (min a b).toNat = min a.toNat b.toNat := by
  show (if a ≤ b then a else b).toNat = _
  rw [Nat.min_def, apply_ite UInt64.toNat]
  exact if_congr UInt64.le_iff_toNat_le rfl rfl

namespace Duration

/-- When a span is over that begins at some time, as far as its milliseconds are counted, on a clock
that stops at the last number. -/
def endFrom (span : Duration) (start : UInt64) : Nat :=
  min (start.toNat + span.wholeMillis % UInt64.size) (UInt64.size - 1)

/-- What a saturating sum of a time and a span comes to. -/
theorem toNat_saturatingAdd_millis (span : Duration) (start : UInt64) :
    (saturatingAdd start span.millis).toNat = span.endFrom start := by
  rw [toNat_saturatingAdd, toNat_millis]
  rfl

/-- A span that 64 bits can count is counted as it is. -/
theorem endFrom_eq {span : Duration} (hFits : span.wholeMillis < UInt64.size) (start : UInt64) :
    span.endFrom start = min (start.toNat + span.wholeMillis) (UInt64.size - 1) := by
  unfold endFrom
  rw [Nat.mod_eq_of_lt hFits]

end Duration

-- ---------------------------------------------------------------------------
-- The order of ids
-- ---------------------------------------------------------------------------

namespace SessionId

/-- One id comes before another: by the device, the peer, the epoch and the direction. -/
def Before (a b : SessionId) : Prop :=
  a.device < b.device ∨ a.device = b.device ∧
    (a.peer < b.peer ∨ a.peer = b.peer ∧
      (a.epoch < b.epoch ∨ a.epoch = b.epoch ∧
        a.direction = .outbound ∧ b.direction = .inbound))

/-- The order of ids, field by field. -/
theorem compare_eq_lt_iff {a b : SessionId} : compare a b = .lt ↔ a.Before b := by
  have hText (s t : String) : compare s t = .lt ↔ s < t := compareOfLessAndEq_eq_lt
  have hDirection : compare a.direction.rank b.direction.rank = .lt ↔
      a.direction = .outbound ∧ b.direction = .inbound := by
    cases a.direction <;> cases b.direction <;> decide
  show order a b = .lt ↔ _
  simp only [order, compareLex, compareOn, Ordering.then_eq_lt, hText, hDirection,
    Std.LawfulEqOrd.compare_eq_iff_eq, Std.compare_eq_lt, Before]

end SessionId

namespace Rotation

-- ---------------------------------------------------------------------------
-- What is due by the entries
-- ---------------------------------------------------------------------------

/-- A session is to be dropped once it has ended and its grace is over. -/
theorem Deadline.due?_eq_retire_iff {d : Deadline} {now : UInt64} :
    d.due? now = some .retire ↔ ∃ retireAt, d.retireAt = some retireAt ∧ retireAt ≤ now := by
  unfold due?
  cases d.retireAt <;> simp

/-- A session ends once it is old enough, unless it has ended. -/
theorem Deadline.due?_eq_expire_iff {d : Deadline} {now : UInt64} :
    d.due? now = some .expire ↔ d.retireAt = none ∧ d.expireAt ≤ now := by
  unfold due?
  cases d.retireAt <;> simp

namespace Deadlines

variable {p : Policy} {t : Deadlines} {id : SessionId} {now : UInt64} {action : DueAction}

/-- What is due has an entry that is due, and what has one is due. -/
theorem mem_due_iff :
    (id, action) ∈ t.due now ↔ ∃ d, t.get? id = some d ∧ d.due? now = some action := by
  refine ⟨due_of_mem, fun ⟨d, hEntry, hDue⟩ => ?_⟩
  exact List.mem_filterMap.2 ⟨(id, d), Table.mem_toList_iff.2 hEntry, by rw [hDue]; rfl⟩

/-- **What is due is listed by increasing id,** and so no id twice. -/
theorem pairwise_due (t : Deadlines) (now : UInt64) :
    ((t.due now).map (·.1)).Pairwise SessionId.Before := by
  refine List.pairwise_map.2 (t.increasing.filterMap _ fun e e' hLess d hd d' hd' => ?_)
  obtain ⟨_, -, rfl⟩ := Option.map_eq_some_iff.1 hd
  obtain ⟨_, -, rfl⟩ := Option.map_eq_some_iff.1 hd'
  exact SessionId.compare_eq_lt_iff.1 hLess

-- ---------------------------------------------------------------------------
-- Calls
-- ---------------------------------------------------------------------------

/-- What an index is told. -/
inductive Call where
  | schedule (id : SessionId) (createdAt : UInt64)
  | markExpiring (id : SessionId) (now : UInt64)
  | remove (id : SessionId)
  deriving DecidableEq, Repr

namespace Call

/-- The session that a call is about. -/
def session : Call → SessionId
  | schedule id _ => id
  | markExpiring id _ => id
  | remove id => id

/-- When the session began, if a call schedules it. -/
def scheduled? (id : SessionId) : Call → Option UInt64
  | schedule other createdAt => if other = id then some createdAt else none
  | _ => none

/-- When the session ended, if a call marks it. -/
def marked? (id : SessionId) : Call → Option UInt64
  | markExpiring other now => if other = id then some now else none
  | _ => none

/-- Whether a call schedules the session. -/
def schedules (id : SessionId) (c : Call) : Bool := (c.scheduled? id).isSome

/-- Whether a call removes the session. -/
def removes (id : SessionId) (c : Call) : Bool := c = remove id

/-- Whether a call schedules or removes the session. -/
def settles (id : SessionId) (c : Call) : Bool := c.schedules id || c.removes id

@[simp] theorem scheduled?_schedule_self (id : SessionId) (createdAt : UInt64) :
    (schedule id createdAt).scheduled? id = some createdAt := if_pos rfl

@[simp] theorem marked?_markExpiring_self (id : SessionId) (now : UInt64) :
    (markExpiring id now).marked? id = some now := if_pos rfl

@[simp] theorem settles_schedule_self (id : SessionId) (createdAt : UInt64) :
    (schedule id createdAt).settles id = true := by
  simp [settles, schedules]

@[simp] theorem settles_markExpiring (id other : SessionId) (now : UInt64) :
    (markExpiring other now).settles id = false := rfl

@[simp] theorem settles_remove_self (id : SessionId) : (remove id).settles id = true := by
  simp [settles, removes]

/-- A call about another session says nothing about this one. -/
theorem passes_of_ne {c : Call} (h : id ≠ c.session) :
    c.scheduled? id = none ∧ c.marked? id = none ∧ c.removes id = false := by
  cases c with
  | schedule other createdAt => exact ⟨if_neg h.symm, rfl, rfl⟩
  | markExpiring other now => exact ⟨rfl, if_neg h.symm, rfl⟩
  | remove other => exact ⟨rfl, rfl, decide_eq_false fun hSame => h (remove.inj hSame).symm⟩

end Call

/-- What a call makes of an index. -/
def made (p : Policy) (t : Deadlines) : Call → Deadlines
  | .schedule id createdAt => t.schedule p id createdAt
  | .markExpiring id now => t.markExpiring p id now
  | .remove id => t.remove id

/-- What calls make of an index that was empty. -/
def after (p : Policy) (calls : List Call) : Deadlines := calls.foldl (made p) Table.empty

/-- The entry that a call leaves for the session that it is about. -/
def entryBy (p : Policy) (t : Deadlines) : Call → Option Deadline
  | .schedule _ createdAt => some ⟨p.expiry createdAt, none⟩
  | .markExpiring id now =>
    some ⟨((t.get? id).map (·.expireAt)).getD now, some (t.retirement p id now)⟩
  | .remove _ => none

/-- **A call changes the entry of its session** and no other. -/
theorem get?_made (p : Policy) (t : Deadlines) (c : Call) (id : SessionId) :
    (t.made p c).get? id = if id = c.session then t.entryBy p c else t.get? id := by
  cases c with
  | schedule other createdAt => exact get?_schedule ..
  | markExpiring other now => exact get?_markExpiring ..
  | remove other => exact get?_remove ..

-- ---------------------------------------------------------------------------
-- The calls behind some call
-- ---------------------------------------------------------------------------

/-- The calls behind the last one that passes a test, and all of them if none does. -/
def since (test : Call → Bool) (calls : List Call) : List Call := calls.rtakeWhile fun c => !test c

/-- When a session was marked behind the last call that passes a test. -/
def marksSince (test : Call → Bool) (id : SessionId) (calls : List Call) : List UInt64 :=
  (since test calls).filterMap (·.marked? id)

/-- When a session began, by the last call that scheduled it since it was removed. -/
def began? (id : SessionId) (calls : List Call) : Option UInt64 :=
  ((since (·.removes id) calls).filterMap (·.scheduled? id)).getLast?

/-- The deadlines by all marks since a session was last scheduled or removed. -/
def graceEnds (p : Policy) (id : SessionId) (calls : List Call) : List Nat :=
  (marksSince (·.settles id) id calls).map p.grace.endFrom

variable {calls more : List Call}

/-- One call more is made of what the others left. -/
theorem after_snoc (p : Policy) (calls : List Call) (c : Call) :
    after p (calls ++ [c]) = (after p calls).made p c :=
  List.foldl_concat ..

/-- One call more is behind the last that passes the test, unless it passes itself. -/
theorem since_snoc (test : Call → Bool) (calls : List Call) (c : Call) :
    since test (calls ++ [c]) = if test c then [] else since test calls ++ [c] := by
  unfold since
  rw [List.rtakeWhile_concat]
  cases test c <;> rfl

/-- One call more may add a mark, or make the marks before it count no more. -/
theorem marksSince_snoc (test : Call → Bool) (id : SessionId) (calls : List Call) (c : Call) :
    marksSince test id (calls ++ [c]) =
      if test c then [] else marksSince test id calls ++ (c.marked? id).toList := by
  unfold marksSince
  rw [since_snoc]
  split
  · rfl
  · rw [List.filterMap_append]
    cases hMarked : c.marked? id <;> simp [hMarked]

/-- One call more may begin the session, or remove it. -/
theorem began?_snoc (id : SessionId) (calls : List Call) (c : Call) :
    began? id (calls ++ [c]) =
      if c.removes id then none else (c.scheduled? id).or (began? id calls) := by
  unfold began?
  rw [since_snoc]
  split
  · rfl
  · rw [List.filterMap_append, List.getLast?_append]
    cases hScheduled : c.scheduled? id <;> simp [hScheduled]

/-- One call more may add a deadline, or make those before it count no more. -/
theorem graceEnds_snoc (p : Policy) (id : SessionId) (calls : List Call) (c : Call) :
    graceEnds p id (calls ++ [c]) =
      if c.settles id then []
      else graceEnds p id calls ++ ((c.marked? id).map p.grace.endFrom).toList := by
  unfold graceEnds
  rw [marksSince_snoc]
  split
  · rfl
  · rw [List.map_append, Option.toList_map]

/-- Marks of a session that is neither scheduled nor removed add to those before. -/
theorem graceEnds_append (p : Policy) (calls : List Call)
    (hMore : ∀ c ∈ more, c.settles id = false) :
    graceEnds p id (calls ++ more) =
      graceEnds p id calls ++ (more.filterMap (·.marked? id)).map p.grace.endFrom := by
  induction more using List.reverseRecOn with
  | nil => simp
  | append_singleton more c ih =>
    have hLast : c.settles id = false := hMore c (by simp)
    rw [← List.append_assoc, graceEnds_snoc, if_neg (by simp [hLast]),
      ih fun c' hc => hMore c' (by simp [hc]), List.append_assoc, List.filterMap_append,
      List.map_append]
    cases hMarked : c.marked? id <;> simp [hMarked]

-- ---------------------------------------------------------------------------
-- Entries behind any calls
-- ---------------------------------------------------------------------------

/-- The least of some numbers and one more. -/
theorem min?_snoc (ends : List Nat) (last : Nat) :
    (ends ++ [last]).min? = some (ends.min?.elim last (min · last)) := by
  cases ends with
  | nil => rfl
  | cons first rest =>
    simp only [List.cons_append, List.min?_cons', List.foldl_concat, Option.elim_some]

/-- Marking returns the earliest of some deadlines and its own, if the entry has the earliest of
them. -/
theorem toNat_retirement (p : Policy) {ends : List Nat}
    (hEnds : ((t.get? id).bind (·.retireAt)).map UInt64.toNat = ends.min?) (now : UInt64) :
    some (t.retirement p id now).toNat = (ends ++ [p.grace.endFrom now]).min? := by
  have hNow : (p.graceDeadline now).toNat = p.grace.endFrom now :=
    Duration.toNat_saturatingAdd_millis ..
  rw [min?_snoc, ← hEnds, ← hNow]
  unfold retirement
  cases (t.get? id).bind (·.retireAt) with
  | none => rfl
  | some earlier => exact congrArg some (toNat_min earlier (p.graceDeadline now))

/-- **The deadline of a session that has ended** is the earliest by all marks since it was last
scheduled or removed, behind any calls. -/
theorem retireAt_after (p : Policy) (id : SessionId) (calls : List Call) :
    (((after p calls).get? id).bind (·.retireAt)).map UInt64.toNat =
      (graceEnds p id calls).min? := by
  -- by the last call: the entry and the marks change together, or neither does
  induction calls using List.reverseRecOn with
  | nil => rfl
  | append_singleton calls c ih =>
    rw [after_snoc, graceEnds_snoc, get?_made]
    by_cases hId : id = c.session
    · rw [if_pos hId]
      cases c with
      | schedule other createdAt =>
        obtain rfl : id = other := hId
        simp [entryBy]
      | markExpiring other now =>
        obtain rfl : id = other := hId
        simpa [entryBy] using toNat_retirement p ih now
      | remove other =>
        obtain rfl : id = other := hId
        simp [entryBy]
    · obtain ⟨hScheduled, hMarked, hRemoves⟩ := Call.passes_of_ne hId
      rw [if_neg hId, ih]
      simp [Call.settles, Call.schedules, hScheduled, hMarked, hRemoves]

/-- **A session has not ended,** behind any calls, if it was scheduled since it was last removed, and
not marked since it was last scheduled. -/
theorem get?_after_eq_unended (p : Policy) (id : SessionId) (calls : List Call)
    (expireAt : UInt64) :
    (after p calls).get? id = some ⟨expireAt, none⟩ ↔
      ∃ created, began? id calls = some created ∧ marksSince (·.schedules id) id calls = [] ∧
        p.expiry created = expireAt := by
  -- what an earlier mark left as the age of an unknown session never shows, so it is not looked at
  induction calls using List.reverseRecOn with
  | nil => simp [after, began?, since]
  | append_singleton calls c ih =>
    rw [after_snoc, began?_snoc, marksSince_snoc, get?_made]
    by_cases hId : id = c.session
    · rw [if_pos hId]
      cases c with
      | schedule other createdAt =>
        obtain rfl : id = other := hId
        simp [entryBy, Call.schedules, Call.removes]
      | markExpiring other now =>
        obtain rfl : id = other := hId
        simp [entryBy, Call.schedules, Call.scheduled?]
      | remove other =>
        obtain rfl : id = other := hId
        simp [entryBy, Call.removes]
    · obtain ⟨hScheduled, hMarked, hRemoves⟩ := Call.passes_of_ne hId
      rw [if_neg hId, ih]
      simp [Call.schedules, hScheduled, hMarked, hRemoves]

/-- **What marking returns** is the earliest deadline by all marks up to this one. -/
theorem retirement_after (p : Policy) (id : SessionId) (calls : List Call) (time : UInt64) :
    some ((after p calls).retirement p id time).toNat =
      (graceEnds p id (calls ++ [.markExpiring id time])).min? := by
  rw [toNat_retirement p (retireAt_after p id calls) time, graceEnds_snoc]
  simp

/-- **Marking a session again never postpones its end,** whatever is called in between, unless it is
scheduled or removed there. -/
theorem retirement_le (p : Policy) (calls : List Call) (time later : UInt64)
    (hMore : ∀ c ∈ more, c.settles id = false) :
    (after p (calls ++ .markExpiring id time :: more)).retirement p id later ≤
      (after p calls).retirement p id time := by
  have hFirst := retirement_after p id calls time
  have hAgain := retirement_after p id (calls ++ .markExpiring id time :: more) later
  have hSince : ∀ c ∈ more ++ [.markExpiring id later], c.settles id = false := by
    simpa [or_imp, forall_and] using hMore
  have hCalls : calls ++ .markExpiring id time :: more ++ [.markExpiring id later] =
      calls ++ [.markExpiring id time] ++ (more ++ [.markExpiring id later]) := by simp
  -- all that the first mark goes by is there for the second
  rw [hCalls, graceEnds_append p _ hSince] at hAgain
  obtain ⟨hMem, -⟩ := List.min?_eq_some_iff.1 hFirst.symm
  obtain ⟨-, hLeast⟩ := List.min?_eq_some_iff.1 hAgain.symm
  exact UInt64.le_iff_toNat_le.2 (hLeast _ (List.mem_append_left _ hMem))

-- ---------------------------------------------------------------------------
-- What is due behind any calls
-- ---------------------------------------------------------------------------

/-- **What is to be dropped** behind any calls. -/
theorem retire_mem_due_iff (p : Policy) (id : SessionId) (calls : List Call) (now : UInt64) :
    (id, .retire) ∈ (after p calls).due now ↔
      ∃ first, (graceEnds p id calls).min? = some first ∧ first ≤ now.toNat := by
  rw [mem_due_iff, ← retireAt_after]
  simp only [Deadline.due?_eq_retire_iff, Option.map_eq_some_iff, Option.bind_eq_some_iff]
  constructor
  · rintro ⟨d, hEntry, retireAt, hEnded, hOver⟩
    exact ⟨_, ⟨retireAt, ⟨d, hEntry, hEnded⟩, rfl⟩, UInt64.le_iff_toNat_le.1 hOver⟩
  · rintro ⟨_, ⟨retireAt, ⟨d, hEntry, hEnded⟩, rfl⟩, hOver⟩
    exact ⟨d, hEntry, retireAt, hEnded, UInt64.le_iff_toNat_le.2 hOver⟩

/-- **What ends** behind any calls. -/
theorem expire_mem_due_iff (p : Policy) (id : SessionId) (calls : List Call) (now : UInt64) :
    (id, .expire) ∈ (after p calls).due now ↔
      ∃ created, began? id calls = some created ∧ marksSince (·.schedules id) id calls = [] ∧
        p.interval.endFrom created ≤ now.toNat := by
  have hExpiry (created : UInt64) : (p.expiry created).toNat = p.interval.endFrom created :=
    Duration.toNat_saturatingAdd_millis ..
  rw [mem_due_iff]
  simp only [Deadline.due?_eq_expire_iff]
  constructor
  · rintro ⟨⟨expireAt, _⟩, hEntry, rfl, hOld⟩
    obtain ⟨created, hBegan, hUnmarked, rfl⟩ :=
      (get?_after_eq_unended p id calls expireAt).1 hEntry
    exact ⟨created, hBegan, hUnmarked, hExpiry created ▸ UInt64.le_iff_toNat_le.1 hOld⟩
  · rintro ⟨created, hBegan, hUnmarked, hOld⟩
    refine ⟨⟨p.expiry created, none⟩, ?_, rfl, UInt64.le_iff_toNat_le.2 (hExpiry created ▸ hOld)⟩
    exact (get?_after_eq_unended p id calls _).2 ⟨created, hBegan, hUnmarked, rfl⟩

/-- **What is due is decided by the calls.** An index was told anything, in any order and with any
times. Then what is due at some time is listed by increasing id. A session is to be dropped exactly
if it was marked since it was last scheduled or removed, and the earliest deadline by these marks has
come. It ends exactly if it was scheduled since it was last removed, not marked since it was last
scheduled, and is old enough. Marking returns the earliest deadline by all these marks and its own, so
marking again never postpones an end. The deadlines are sums that stop at the last number, as long as
64 bits can count the span. -/
theorem due_after_calls (p : Policy) (calls : List Call) (now : UInt64) :
    let index := after p calls
    ((index.due now).map (·.1)).Pairwise SessionId.Before ∧
      (∀ id, (id, .retire) ∈ index.due now ↔
        ∃ first, (graceEnds p id calls).min? = some first ∧ first ≤ now.toNat) ∧
      (∀ id, (id, .expire) ∈ index.due now ↔
        ∃ created, began? id calls = some created ∧ marksSince (·.schedules id) id calls = [] ∧
          p.interval.endFrom created ≤ now.toNat) ∧
      (∀ id time, some (index.retirement p id time).toNat =
        (graceEnds p id (calls ++ [.markExpiring id time])).min?) ∧
      (∀ id time more later, (∀ c ∈ more, c.settles id = false) →
        (after p (calls ++ .markExpiring id time :: more)).retirement p id later ≤
          index.retirement p id time) ∧
      ∀ (span : Duration) (start : UInt64), span.wholeMillis < UInt64.size →
        span.endFrom start = min (start.toNat + span.wholeMillis) (UInt64.size - 1) := by
  intro index
  exact ⟨pairwise_due index now, fun id => retire_mem_due_iff p id calls now,
    fun id => expire_mem_due_iff p id calls now, fun id time => retirement_after p id calls time,
    fun id time more later hMore => retirement_le p calls time later hMore,
    fun span start hFits => Duration.endFrom_eq hFits start⟩

/-- An epoch of Ann's letters to Bob. -/
def toBob (epoch : UInt64) : SessionId := ⟨"ann", "bob", epoch, .outbound⟩

/-- Calls in no good order: one epoch is marked before it is scheduled, and behind that twice, the
earlier time last; one is scheduled, removed, and marked nevertheless; one is scheduled twice. -/
def disorder : List Call :=
  [.markExpiring (toBob 1) 5, .schedule (toBob 1) 100, .schedule (toBob 2) 0,
    .schedule (toBob 0) 7, .markExpiring (toBob 1) 9000, .remove (toBob 2),
    .markExpiring (toBob 1) 4000, .markExpiring (toBob 2) 6000, .schedule (toBob 0) 300]

/-- What is due behind calls in no good order. -/
theorem due_after_calls_of_disorder :
    let p := Config.standard.rotation
    let index := after p disorder
    let more : List Call := [.schedule (toBob 0) 8, .remove (toBob 2)]
    p.grace.wholeMillis < UInt64.size ∧ (∀ c ∈ more, c.settles (toBob 1) = false) ∧
      ((toBob 1, .retire) ∈ index.due 304000 ∧ (toBob 2, .retire) ∉ index.due 304000) ∧
      ((toBob 0, .expire) ∈ index.due 86400300 ∧ (toBob 2, .expire) ∉ index.due 86400300) ∧
      (index.retirement p (toBob 1) 9500).toNat = 304000 ∧
      (after p (disorder ++ .markExpiring (toBob 1) 3000 :: more)).retirement p (toBob 1) 9500 ≤
        index.retirement p (toBob 1) 3000 ∧
      p.grace.endFrom 4000 = min ((4000 : UInt64).toNat + p.grace.wholeMillis) (UInt64.size - 1) := by
  intro p index more
  have hFits : p.grace.wholeMillis < UInt64.size := by decide
  have hMore : ∀ c ∈ more, c.settles (toBob 1) = false := by decide
  obtain ⟨-, hRetire, -, hReturned, hAgain, hSpan⟩ := due_after_calls p disorder 304000
  obtain ⟨-, -, hExpire, -⟩ := due_after_calls p disorder 86400300
  refine ⟨hFits, hMore, ⟨(hRetire _).2 ?_, mt (hRetire _).1 ?_⟩,
    ⟨(hExpire _).2 ?_, mt (hExpire _).1 ?_⟩, Option.some.inj ((hReturned _ _).trans ?_),
    hAgain _ _ more _ hMore, hSpan _ _ hFits⟩
  · exact ⟨304000, by decide, by decide⟩
  · rintro ⟨first, hFirst, hOver⟩
    have hLate : (graceEnds p (toBob 2) disorder).min? = some 306000 := by decide
    cases hLate.symm.trans hFirst
    exact absurd hOver (by decide)
  · exact ⟨300, by decide, by decide, by decide⟩
  · rintro ⟨created, hBegan, -⟩
    have hRemoved : began? (toBob 2) disorder = none := by decide
    cases hRemoved.symm.trans hBegan
  · decide

/-- The standard limits with a grace of `2 ^ 64` milliseconds. -/
def unending : Policy :=
  { Config.standard.rotation with grace := ⟨18446744073709551, 616000000⟩ }

/-- **Marking goes by what is counted of the grace:** the grace is longer than the clock can ever
show, and it is over at the time at which it begins. -/
theorem unending_grace_is_over_at_once :
    { Config.standard with rotation := unending }.validate = .ok () ∧
      unending.grace.wholeMillis = UInt64.size ∧
      ¬min ((1000 : UInt64).toNat + unending.grace.wholeMillis) (UInt64.size - 1) ≤
        (1000 : UInt64).toNat ∧
      (after unending []).retirement unending (toBob 0) 1000 = 1000 ∧
      (after unending [.markExpiring (toBob 0) 1000]).due 1000 = [(toBob 0, .retire)] :=
  ⟨rfl, by decide, by decide, by decide, by decide⟩

end Deadlines

end Rotation

end EndToEnd
