/-!
# Trust

How far a device trusts the keys on file for a peer. Trust only rises, and a revoked peer stays
revoked: new evidence is merged into what is known and never replaces it.

Main facts: `merge` is the maximum of the order of trust, so it can only rise
(`rank_merge`), and nothing leads away from `revoked` (`merge_revoked`, `revoked_merge`).
-/

namespace EndToEnd

/-- How far the keys on file for a peer are trusted. -/
inductive Trust where
  | unverified
  /-- Accepted when first seen, or compared by eye. -/
  | tofuAccepted
  /-- Vouched for by a chain of signatures that ends at a trusted root. -/
  | crossSigned
  | revoked
  deriving DecidableEq, Repr, Inhabited

namespace Trust

/-- The place of a state in the order of trust; revocation stands above all. -/
def rank : Trust → Nat
  | unverified => 0
  | tofuAccepted => 1
  | crossSigned => 2
  | revoked => 3

/-- The state after evidence for another state. -/
def merge (known proposed : Trust) : Trust :=
  if known = revoked ∨ proposed.rank ≤ known.rank then known else proposed

/-- Whether someone vouched for the keys. -/
def isVerified : Trust → Bool
  | tofuAccepted | crossSigned => true
  | unverified | revoked => false

/-- The name of a state. -/
def name : Trust → String
  | unverified => "unverified"
  | tofuAccepted => "tofu-accepted"
  | crossSigned => "cross-signed"
  | revoked => "revoked"

/-- The name of a state in one word. -/
def word : Trust → String
  | unverified => "Unverified"
  | tofuAccepted => "TofuAccepted"
  | crossSigned => "CrossSigned"
  | revoked => "Revoked"

/-- All states. -/
def all : List Trust := [unverified, tofuAccepted, crossSigned, revoked]

/-- The state with a name in one word. -/
def ofWord? (text : String) : Option Trust := all.find? (·.word = text)

@[simp] theorem rank_merge (a b : Trust) : (a.merge b).rank = max a.rank b.rank := by
  cases a <;> cases b <;> rfl

@[simp] theorem merge_revoked (a : Trust) : a.merge revoked = revoked := by cases a <;> rfl

@[simp] theorem revoked_merge (a : Trust) : revoked.merge a = revoked := by cases a <;> rfl

end Trust

end EndToEnd
