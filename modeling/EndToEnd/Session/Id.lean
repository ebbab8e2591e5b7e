import EndToEnd.Text.Short

/-!
# Session ids

A session is one epoch between two devices, seen from one of them, in one direction. Ids are
ordered by the device, the peer, the epoch and the direction, in this order; outbound comes before
inbound.
-/

namespace EndToEnd

/-- Whether messages of a session are sent or received. -/
inductive Direction where
  | outbound
  | inbound
  deriving DecidableEq, Repr

/-- The place of a direction. -/
def Direction.rank : Direction → Nat
  | outbound => 0
  | inbound => 1

/-- The name of a session. -/
structure SessionId where
  /-- The device that holds the session. -/
  device : String
  peer : String
  epoch : UInt64
  direction : Direction
  deriving DecidableEq, Repr

namespace SessionId

/-- The order of ids. -/
def order : SessionId → SessionId → Ordering :=
  compareLex (compareOn device)
    (compareLex (compareOn peer) (compareLex (compareOn epoch) (compareOn (·.direction.rank))))

instance : Ord SessionId := ⟨order⟩

instance : Std.TransOrd SessionId :=
  inferInstanceAs (Std.TransCmp (compareLex (compareOn device)
    (compareLex (compareOn peer) (compareLex (compareOn epoch) (compareOn fun i => i.direction.rank)))))

instance : Std.LawfulEqOrd SessionId where
  compare_self {a} := Std.compare_self
  eq_of_compare {a b} h := by
    have h : order a b = .eq := h
    simp only [order, compareLex_eq_eq, compareOn, Std.LawfulEqOrd.compare_eq_iff_eq] at h
    obtain ⟨hd, hp, he, hr⟩ := h
    have : a.direction = b.direction := by
      revert hr
      cases a.direction <;> cases b.direction <;> simp [Direction.rank]
    cases a
    cases b
    simp_all

/-- An id in short form. -/
def text (id : SessionId) : String :=
  let arrow := match id.direction with
    | .outbound => "->"
    | .inbound => "<-"
  Text.short id.device ++ arrow ++ Text.short id.peer ++ s!"#{id.epoch.toNat}"

end SessionId

end EndToEnd
