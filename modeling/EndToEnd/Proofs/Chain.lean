import EndToEnd.Session.Basic

/-!
# The keys of a chain

A chain of keys is determined by its seed: the key of a message is that many steps behind it. A
ratchet that `Follows` a chain holds the chain key of its position, however it came there, so two
ratchets on one chain find the same message keys.

Main results:

* `Ratchet.deriveAt_eq_ok_iff` — which numbers can be reached, and what is worked out for them.
* `Ratchet.Follows.deriveAt` — the key that is worked out is that of the chain.
* `Session.next_of_decrypt` — what an opened envelope does to a session.
-/

namespace EndToEnd

namespace Ratchet

variable {step : Step} {seed : Key} {r : Ratchet}

/-- The chain key behind `n` messages. -/
def chainAfter (step : Step) (seed : Key) : Nat → Key
  | 0 => seed
  | n + 1 => (step (chainAfter step seed n)).2

theorem chainKey_step (step : Step) (seed : Key) (n : Nat) :
    chainAfter step (step seed).2 n = chainAfter step seed (n + 1) := by
  induction n with
  | zero => rfl
  | succ n ih =>
    show (step (chainAfter step (step seed).2 n)).2 = _
    rw [ih]
    rfl

theorem step_chainAfter_pred (step : Step) (seed : Key) {n : Nat} (h : 1 ≤ n) :
    (step (chainAfter step seed (n - 1))).2 = chainAfter step seed n := by
  cases n with
  | zero => omega
  | succ n => rfl

theorem chainAfter_add (step : Step) (seed : Key) (m n : Nat) :
    chainAfter step (chainAfter step seed m) n = chainAfter step seed (m + n) := by
  induction n with
  | zero => rfl
  | succ n ih =>
    show (step (chainAfter step (chainAfter step seed m) n)).2 = _
    rw [ih]
    rfl

theorem stepsAhead_eq (step : Step) (seed : Key) (n : Nat) :
    stepsAhead step seed n = step (chainAfter step seed n) := by
  induction n generalizing seed with
  | zero => rfl
  | succ n ih =>
    show stepsAhead step (step seed).2 n = _
    rw [ih, chainKey_step]

/-- **Which numbers can be reached:** none that was passed, and none too far ahead. -/
theorem deriveAt_eq_ok_iff {target maxSkip : UInt64} {a : Advance} :
    r.deriveAt step target maxSkip = .ok a ↔
      r.next ≤ target ∧ target.toNat ≤ r.next.toNat + maxSkip.toNat ∧
        a = ⟨⟨(stepsAhead step r.chainKey (target.toNat - r.next.toNat)).1, target⟩,
          (stepsAhead step r.chainKey (target.toNat - r.next.toNat)).2⟩ := by
  unfold deriveAt
  split
  · -- the number was passed already
    rename_i hPassed
    simp only [reduceCtorEq, false_iff, not_and]
    exact fun h => absurd hPassed (UInt64.not_lt.2 h)
  · rename_i hAhead
    have hAhead := UInt64.not_lt.1 hAhead
    have hDistance : (target - r.next).toNat = target.toNat - r.next.toNat :=
      UInt64.toNat_sub_of_le _ _ hAhead
    have hNat : r.next.toNat ≤ target.toNat := UInt64.le_iff_toNat_le.1 hAhead
    split
    · -- it is further ahead than a receiver may skip
      rename_i hFar
      rw [UInt64.lt_iff_toNat_lt, hDistance] at hFar
      simp only [reduceCtorEq, false_iff, not_and]
      intro _ _
      omega
    · rename_i hNear
      rw [UInt64.lt_iff_toNat_lt, hDistance] at hNear
      have hReach : target.toNat ≤ r.next.toNat + maxSkip.toNat := by omega
      rw [hDistance]
      simp only [hAhead, hReach, true_and, Except.ok.injEq]
      exact eq_comm

/-- A worked out advance moves the chain right behind its message. -/
theorem commit_of_deriveAt {target maxSkip : UInt64} {a : Advance}
    (h : r.deriveAt step target maxSkip = .ok a) : r.commit a = ⟨a.chainKey, target + 1⟩ := by
  obtain ⟨hAhead, -, rfl⟩ := deriveAt_eq_ok_iff.1 h
  exact if_neg (UInt64.not_lt.2 hAhead)

-- ---------------------------------------------------------------------------
-- On a chain
-- ---------------------------------------------------------------------------

/-- The key of a message of a chain; the first message has number one. -/
def messageKey (step : Step) (seed : Key) (sequence : UInt64) : Key :=
  (step (chainAfter step seed (sequence.toNat - 1))).1

/-- A ratchet at its place on a chain. -/
structure Follows (step : Step) (seed : Key) (r : Ratchet) : Prop where
  begun : 1 ≤ r.next.toNat
  place : r.chainKey = chainAfter step seed (r.next.toNat - 1)

theorem follows_ofSeed (step : Step) (seed : Key) : Follows step seed (.ofSeed seed) :=
  ⟨Nat.le_refl 1, rfl⟩

theorem toNat_add_one {n : UInt64} (h : n ≠ UInt64.ofNat (UInt64.size - 1)) :
    (n + 1).toNat = n.toNat + 1 := by
  have hBelow : n.toNat < 2 ^ 64 := n.toNat_lt
  have hLast : n.toNat ≠ 2 ^ 64 - 1 := fun h' => h (UInt64.toNat_inj.1 h')
  rw [UInt64.toNat_add]
  show (n.toNat + 1) % 2 ^ 64 = n.toNat + 1
  omega

/-- Taking the next key stays on the chain. -/
theorem Follows.next (h : Follows step seed r) (hNext : r.next ≠ UInt64.ofNat (UInt64.size - 1)) :
    Follows step seed ⟨(step r.chainKey).2, r.next + 1⟩ := by
  refine ⟨?_, ?_⟩
  · show 1 ≤ (r.next + 1).toNat
    rw [toNat_add_one hNext]
    omega
  · show (step r.chainKey).2 = chainAfter step seed ((r.next + 1).toNat - 1)
    rw [toNat_add_one hNext, h.place, Nat.add_sub_cancel]
    exact step_chainAfter_pred step seed h.begun

/-- **What is worked out for a message is what the chain has for it.** -/
theorem Follows.deriveAt (h : Follows step seed r) {target maxSkip : UInt64} {a : Advance}
    (ha : r.deriveAt step target maxSkip = .ok a) :
    a.messageKey.key = messageKey step seed target ∧
      a.chainKey = chainAfter step seed target.toNat := by
  obtain ⟨hAhead, -, rfl⟩ := deriveAt_eq_ok_iff.1 ha
  have hBegun := h.begun
  have hAhead : r.next.toNat ≤ target.toNat := UInt64.le_iff_toNat_le.1 hAhead
  have hPlace : chainAfter step r.chainKey (target.toNat - r.next.toNat) =
      chainAfter step seed (target.toNat - 1) := by
    have hSplit : target.toNat - 1 = r.next.toNat - 1 + (target.toNat - r.next.toNat) := by omega
    rw [hSplit, h.place, chainAfter_add]
  constructor
  · show (stepsAhead step r.chainKey _).1 = _
    rw [stepsAhead_eq, hPlace]
    rfl
  · show (stepsAhead step r.chainKey _).2 = _
    rw [stepsAhead_eq, hPlace]
    exact step_chainAfter_pred step seed (by omega)

/-- Making an advance stays on the chain. -/
theorem Follows.commit (h : Follows step seed r) {target maxSkip : UInt64} {a : Advance}
    (ha : r.deriveAt step target maxSkip = .ok a)
    (hTarget : target ≠ UInt64.ofNat (UInt64.size - 1)) : Follows step seed (r.commit a) := by
  rw [commit_of_deriveAt ha]
  refine ⟨?_, ?_⟩
  · show 1 ≤ (target + 1).toNat
    rw [toNat_add_one hTarget]
    omega
  · show a.chainKey = chainAfter step seed ((target + 1).toNat - 1)
    rw [toNat_add_one hTarget, Nat.add_sub_cancel]
    exact (h.deriveAt ha).2

end Ratchet

namespace Session

variable {P : Primitives} {maxSkip : UInt64} {e : Envelope} {plaintext : Bytes} {s s' : Session}

/-- **What an opened envelope does to a session:** the chain moves right behind its number, which
had not been passed. -/
theorem next_of_decrypt (h : s.decrypt P maxSkip e = .ok (plaintext, s')) :
    s.ratchet.next ≤ e.sequence ∧ s'.ratchet.next = e.sequence + 1 ∧
      s' = { s with ratchet := s'.ratchet, messages := s'.messages } := by
  obtain ⟨-, -, advance, hAdvance, -, -, rfl⟩ := decrypt_eq_ok_iff.1 h
  refine ⟨(Ratchet.deriveAt_eq_ok_iff.1 hAdvance).1, ?_, rfl⟩
  show (s.ratchet.commit advance).next = e.sequence + 1
  rw [Ratchet.commit_of_deriveAt hAdvance]

end Session

end EndToEnd
