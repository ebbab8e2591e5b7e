import EndToEnd.Envelope.Wellformed
import EndToEnd.Identity.Peer
import EndToEnd.Table
import EndToEnd.Text.Quoted

/-!
# Contacts

The peers that a device has on file, by device id. A peer is put on file once; presenting other keys
for a known id is refused, and so is the device's own id.

Main facts: `remember_eq_ok_iff` (when a peer is accepted and what is then on file) and
`get?_update` (a change reaches one record and notes the time).
-/

namespace EndToEnd

/-- The peers on file. -/
structure Contacts where
  /-- How many bytes a device id may have. -/
  idLimit : Nat
  peers : Table String Peer
  deriving DecidableEq, Inhabited

namespace Contacts

/-- Nobody on file. -/
def empty (idLimit : Nat) : Contacts := ⟨idLimit, .empty⟩

/-- The record of a peer, if there is one. -/
def get? (c : Contacts) (id : String) : Option Peer := c.peers.get? id

/-- The record of a peer. -/
def lookup (c : Contacts) (id : String) : Except Failure Peer :=
  match c.get? id with
  | some peer => .ok peer
  | none => .error (.unknownPeer id)

/-- Why no peer of a device with some own id can have an id, if there is a reason. -/
def refusal? (c : Contacts) (own : Option String) (id : String) : Option Failure :=
  if (Envelope.idFault? c.idLimit id).isSome then
    some (.invalidInput ("invalid device id " ++ Text.quote id))
  else if own = some id then some (.invalidInput "cannot remember the local device as a peer")
  else none

/-- Puts a peer on file, or finds it there with the same keys. -/
def remember (c : Contacts) (own : Option String) (id : String) (keys : PublicKeys) (now : UInt64) :
    Except Failure (Peer × Contacts) :=
  match c.refusal? own id, c.get? id with
  | some failure, _ => .error failure
  | none, none =>
    let peer := Peer.met id keys now
    .ok (peer, { c with peers := c.peers.insert id peer })
  | none, some peer => if peer.keys = keys then .ok (peer, c) else .error (.keyMismatch id)

/-- Changes the record of a peer and notes the time. -/
def update (c : Contacts) (id : String) (now : UInt64) (change : Peer → Peer) : Contacts :=
  { c with peers := c.peers.modify id fun peer => { change peer with updatedAt := now } }

/-- All records, in the order of the ids. -/
def snapshot (c : Contacts) : List Peer := c.peers.values

/-- Replaces all records; of two with one id the later stays. -/
def restore (c : Contacts) (peers : List Peer) : Contacts :=
  { c with peers := .ofList (peers.map fun peer => (peer.deviceId, peer)) }

/-- A peer is accepted exactly under an id that peers can have, and with the keys on file if there
are any. -/
theorem remember_eq_ok_iff {c c' : Contacts} {own : Option String} {id : String} {keys : PublicKeys}
    {now : UInt64} {peer : Peer} :
    c.remember own id keys now = .ok (peer, c') ↔
      c.refusal? own id = none ∧
        (c.get? id = none ∧ peer = .met id keys now ∧
            c' = { c with peers := c.peers.insert id peer } ∨
          c.get? id = some peer ∧ peer.keys = keys ∧ c' = c) := by
  unfold remember
  split
  · simp [*]
  · simp only [*, Except.ok.injEq, Prod.mk.injEq, true_and, reduceCtorEq, false_and, or_false]
    constructor
    · rintro ⟨rfl, rfl⟩
      exact ⟨rfl, rfl⟩
    · rintro ⟨rfl, rfl⟩
      exact ⟨rfl, rfl⟩
  · simp only [true_and, reduceCtorEq, false_and, false_or, Option.some.injEq, *]
    split
    · simp only [Except.ok.injEq, Prod.mk.injEq]
      constructor
      · rintro ⟨rfl, rfl⟩
        exact ⟨rfl, ‹_›, rfl⟩
      · rintro ⟨rfl, -, rfl⟩
        exact ⟨rfl, rfl⟩
    · simp only [reduceCtorEq, false_iff, not_and]
      rintro rfl h
      exact absurd h ‹_›

/-- A change reaches one record and notes the time. -/
theorem get?_update (c : Contacts) (id other : String) (now : UInt64) (change : Peer → Peer) :
    (c.update id now change).get? other =
      if other = id then (c.get? id).map fun peer => { change peer with updatedAt := now }
      else c.get? other := by
  simp only [update, get?, Table.modify]
  cases h : c.peers.get? id with
  | none => split <;> simp_all
  | some peer => simp [Table.get?_insert]

end Contacts

end EndToEnd
