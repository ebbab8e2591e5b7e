import EndToEnd.Proofs.Chain
import EndToEnd.Proofs.Plain

/-!
# Moves of a ratchet

A sender takes the keys of its ratchet one after the other. A receiver works an advance out and makes
it later, when other advances may have been made in between, so the advances that wait may belong to
any positions, ahead or behind. Whatever is asked of a ratchet, and in whatever order, it stays on
the chain of its seed, and so does everything that was worked out from it: both halves of an advance
are determined by its number alone. That is why an advance can be made late. It does not matter where
the ratchet stands, since the chain key that it is replaced by is that of the position it moves to.

The number 2⁶⁴ - 1 is not worked out here. Making an advance for it would begin the numbers anew.

Main results:

* `Ratchet.Follows.commit_fits` — making an advance that fits the chain stays on the chain.
* `Ratchet.deriveAtCounted_run` — what is worked out takes a step for each number up to the target.
* `Ratchet.Holding.onChain_after` — a ratchet and all that waits stay on the chain.
* `Ratchet.Holding.moves_agree` — all of it, for every order of moves.
-/

namespace EndToEnd

namespace Ratchet

variable {step : Step} {seed : Key} {r : Ratchet}

-- ---------------------------------------------------------------------------
-- Which keys there are
-- ---------------------------------------------------------------------------

theorem next_eq_last_iff : r.next = UInt64.ofNat (UInt64.size - 1) ↔
    ¬r.next.toNat < UInt64.size - 1 := by
  have hBelow : r.next.toNat < UInt64.size := r.next.toNat_lt
  have hLast : (UInt64.ofNat (UInt64.size - 1)).toNat = UInt64.size - 1 := by decide
  rw [← UInt64.toNat_inj, hLast]
  omega

/-- The number of the latest key is one below that of the next. -/
theorem Follows.toNat_last (h : Follows step seed r) : r.last.toNat = r.next.toNat - 1 := by
  have hOne : (1 : UInt64) ≤ r.next := UInt64.le_iff_toNat_le.2 h.begun
  exact UInt64.toNat_sub_of_le _ _ hOne

/-- **The next key** is that of its number, and there is one unless the numbers are used up. -/
theorem Follows.advance_eq (h : Follows step seed r) :
    r.advance step =
      if r.next.toNat < UInt64.size - 1 then
        .ok (⟨messageKey step seed r.next, r.next⟩,
          ⟨chainAfter step seed r.next.toNat, r.next + 1⟩)
      else .error (.keyDerivation "ratchet sequence exhausted") := by
  unfold advance
  by_cases hLast : r.next = UInt64.ofNat (UInt64.size - 1)
  · rw [if_pos hLast, if_neg (next_eq_last_iff.1 hLast)]
  · rw [if_neg hLast, if_pos (Decidable.not_not.1 (mt next_eq_last_iff.2 hLast)), h.place,
      ← step_chainAfter_pred step seed h.begun]
    rfl

/-- **The key of a number that was passed** is refused as a replay, and no other. -/
theorem deriveAt_eq_replay_iff {target maxSkip : UInt64} :
    r.deriveAt step target maxSkip = .error (.replay target r.last) ↔ target < r.next := by
  unfold deriveAt
  constructor
  · intro h
    refine Decidable.byContradiction fun hAhead => ?_
    rw [if_neg hAhead] at h
    split at h <;> cases h
  · exact fun hPassed => if_pos hPassed

/-- **The key of a number too far ahead** is refused as a skip, and no other. -/
theorem deriveAt_eq_skip_iff {target maxSkip : UInt64} :
    r.deriveAt step target maxSkip = .error (.malformedEnvelope
        s!"sequence {target.toNat} skips more than {maxSkip.toNat} messages") ↔
      maxSkip.toNat < target.toNat - r.next.toNat := by
  unfold deriveAt
  by_cases hPassed : target < r.next
  · have hNat : target.toNat < r.next.toNat := UInt64.lt_iff_toNat_lt.1 hPassed
    rw [if_pos hPassed]
    exact iff_of_false (fun h => by cases h) (by omega)
  · have hDistance : (target - r.next).toNat = target.toNat - r.next.toNat :=
      UInt64.toNat_sub_of_le _ _ (UInt64.not_lt.1 hPassed)
    have hFar : maxSkip < target - r.next ↔ maxSkip.toNat < target.toNat - r.next.toNat := by
      rw [UInt64.lt_iff_toNat_lt, hDistance]
    rw [if_neg hPassed, ← hFar]
    by_cases hSkips : maxSkip < target - r.next
    · rw [if_pos hSkips]
      exact iff_of_true rfl hSkips
    · rw [if_neg hSkips]
      exact iff_of_false (fun h => by cases h) hSkips

/-- **The key of any other number** is the one that the chain has for it. -/
theorem Follows.deriveAt_eq (h : Follows step seed r) {target maxSkip : UInt64}
    (hAhead : r.next.toNat ≤ target.toNat)
    (hNear : target.toNat - r.next.toNat ≤ maxSkip.toNat) :
    r.deriveAt step target maxSkip =
      .ok ⟨⟨messageKey step seed target, target⟩, chainAfter step seed target.toNat⟩ := by
  have hFound : r.deriveAt step target maxSkip = .ok _ :=
    deriveAt_eq_ok_iff.2 ⟨UInt64.le_iff_toNat_le.2 hAhead, by omega, rfl⟩
  obtain ⟨hKey, hChainKey⟩ := h.deriveAt hFound
  rw [hFound, ← hKey, ← hChainKey]

-- ---------------------------------------------------------------------------
-- How many steps it takes
-- ---------------------------------------------------------------------------

/-- A step of the chain that is counted. -/
def counted (step : Step) (chainKey : Key) : StateM Nat (Key × Key) := do
  modify (· + 1)
  return step chainKey

/-- The keys `n` steps behind a chain key, with the steps counted. -/
def stepsAheadCounted (step : Step) (chainKey : Key) : Nat → StateM Nat (Key × Key)
  | 0 => counted step chainKey
  | n + 1 => do
    let (_, next) ← counted step chainKey
    stepsAheadCounted step next n

/-- Works out the key of a message as `deriveAt` does, with the steps counted. -/
def deriveAtCounted (step : Step) (r : Ratchet) (target maxSkip : UInt64) :
    StateM Nat (Except Failure Advance) :=
  if target < r.next then return .error (.replay target r.last)
  else if maxSkip < target - r.next then
    return .error (.malformedEnvelope
      s!"sequence {target.toNat} skips more than {maxSkip.toNat} messages")
  else do
    let (message, chain) ← stepsAheadCounted step r.chainKey (target - r.next).toNat
    return .ok ⟨⟨message, target⟩, chain⟩

theorem stepsAheadCounted_run (step : Step) (chainKey : Key) (n count : Nat) :
    (stepsAheadCounted step chainKey n).run count =
      (stepsAhead step chainKey n, count + (n + 1)) := by
  induction n generalizing chainKey count with
  | zero => rfl
  | succ n ih =>
    show (stepsAheadCounted step (step chainKey).2 n).run (count + 1) = _
    rw [ih, show count + 1 + (n + 1) = count + (n + 1 + 1) by omega]
    rfl

/-- **Counting changes no result,** and there is a step for each number from the next to the target;
a refusal takes none. -/
theorem deriveAtCounted_run (step : Step) (r : Ratchet) (target maxSkip : UInt64) :
    (r.deriveAtCounted step target maxSkip).run 0 =
      (r.deriveAt step target maxSkip,
        if r.next.toNat ≤ target.toNat ∧ target.toNat - r.next.toNat ≤ maxSkip.toNat then
          target.toNat - r.next.toNat + 1
        else 0) := by
  -- behind, too far ahead, or within reach: only the last of the three steps the chain
  unfold deriveAtCounted deriveAt
  by_cases hPassed : target < r.next
  · have hNat : target.toNat < r.next.toNat := UInt64.lt_iff_toNat_lt.1 hPassed
    rw [if_pos hPassed, if_pos hPassed, if_neg (by omega)]
    rfl
  · have hAhead : r.next ≤ target := UInt64.not_lt.1 hPassed
    have hNat : r.next.toNat ≤ target.toNat := UInt64.le_iff_toNat_le.1 hAhead
    have hDistance : (target - r.next).toNat = target.toNat - r.next.toNat :=
      UInt64.toNat_sub_of_le _ _ hAhead
    rw [if_neg hPassed, if_neg hPassed]
    by_cases hFar : maxSkip < target - r.next
    · have hFarNat := UInt64.lt_iff_toNat_lt.1 hFar
      rw [hDistance] at hFarNat
      rw [if_pos hFar, if_pos hFar, if_neg (by omega)]
      rfl
    · have hNearNat := mt UInt64.lt_iff_toNat_lt.2 hFar
      rw [hDistance] at hNearNat
      rw [if_neg hFar, if_neg hFar, if_pos (by omega), hDistance]
      have hRun := stepsAheadCounted_run step r.chainKey (target.toNat - r.next.toNat) 0
      rw [Nat.zero_add] at hRun
      show (let p := (stepsAheadCounted step r.chainKey (target.toNat - r.next.toNat)).run 0
        ((.ok ⟨⟨p.1.1, target⟩, p.1.2⟩ : Except Failure Advance), p.2)) = _
      rw [hRun]

-- ---------------------------------------------------------------------------
-- Advances that wait
-- ---------------------------------------------------------------------------

/-- An advance on a chain: both its keys are those that the chain has for its number. -/
structure Advance.Fits (step : Step) (seed : Key) (a : Advance) : Prop where
  below : a.messageKey.sequence.toNat < UInt64.size - 1
  key : a.messageKey.key = Ratchet.messageKey step seed a.messageKey.sequence
  place : a.chainKey = chainAfter step seed a.messageKey.sequence.toNat

/-- What is worked out fits the chain. -/
theorem Follows.fits_deriveAt (h : Follows step seed r) {target maxSkip : UInt64} {a : Advance}
    (ha : r.deriveAt step target maxSkip = .ok a) (hTarget : target.toNat < UInt64.size - 1) :
    a.Fits step seed := by
  obtain ⟨hKey, hPlace⟩ := h.deriveAt ha
  obtain ⟨-, -, rfl⟩ := deriveAt_eq_ok_iff.1 ha
  exact ⟨hTarget, hKey, hPlace⟩

/-- **Where an advance moves to:** right behind its number, or nowhere if that was passed. -/
theorem Advance.Fits.toNat_next_commit {a : Advance} (ha : a.Fits step seed) (r : Ratchet) :
    (r.commit a).next.toNat = max r.next.toNat (a.messageKey.sequence.toNat + 1) := by
  have hBelow := ha.below
  have hAfter : (a.messageKey.sequence + 1).toNat = a.messageKey.sequence.toNat + 1 := by
    refine toNat_add_one fun hLast => ?_
    rw [hLast] at hBelow
    exact absurd hBelow (by decide)
  unfold commit
  split
  · rename_i hPassed
    have hNat := UInt64.lt_iff_toNat_lt.1 hPassed
    omega
  · rename_i hAhead
    have hNat := mt UInt64.lt_iff_toNat_lt.2 hAhead
    show (a.messageKey.sequence + 1).toNat = _
    omega

/-- **Making an advance stays on the chain,** whenever it was worked out. -/
theorem Follows.commit_fits (h : Follows step seed r) {a : Advance} (ha : a.Fits step seed) :
    Follows step seed (r.commit a) := by
  have hNext := ha.toNat_next_commit r
  refine ⟨by have hBegun := h.begun; omega, ?_⟩
  rw [hNext]
  unfold Ratchet.commit
  split
  · rename_i hPassed
    have hNat := UInt64.lt_iff_toNat_lt.1 hPassed
    rw [Nat.max_eq_left (by omega)]
    exact h.place
  · rename_i hAhead
    have hNat := mt UInt64.lt_iff_toNat_lt.2 hAhead
    rw [Nat.max_eq_right (by omega), Nat.add_sub_cancel]
    exact ha.place

-- ---------------------------------------------------------------------------
-- Moves in any order
-- ---------------------------------------------------------------------------

/-- What is asked of a ratchet. -/
inductive Move where
  | advance
  | derive (target maxSkip : UInt64)
  /-- The advance to make is given by its place among all that were worked out. -/
  | commit (place : Nat)

/-- No advance is worked out for the last number. -/
def Move.Below : Move → Prop
  | derive target _ => target.toNat < UInt64.size - 1
  | advance => True
  | commit _ => True

instance : DecidablePred Move.Below
  | .derive target _ => inferInstanceAs (Decidable (target.toNat < UInt64.size - 1))
  | .advance => inferInstanceAs (Decidable True)
  | .commit _ => inferInstanceAs (Decidable True)

/-- A ratchet with the advances that were worked out from it. -/
structure Holding where
  ratchet : Ratchet
  waiting : List Advance

namespace Holding

/-- A ratchet at its start. -/
def start (seed : Key) : Holding := ⟨.ofSeed seed, []⟩

/-- What a move leaves. A move that fails leaves everything as it is. -/
def move (step : Step) (h : Holding) : Move → Holding
  | .advance =>
    match h.ratchet.advance step with
    | .ok (_, ratchet) => { h with ratchet }
    | .error _ => h
  | .derive target maxSkip =>
    match h.ratchet.deriveAt step target maxSkip with
    | .ok a => { h with waiting := h.waiting ++ [a] }
    | .error _ => h
  | .commit place =>
    match h.waiting[place]? with
    | some a => { h with ratchet := h.ratchet.commit a }
    | none => h

/-- The message key that a move returns, if any. -/
def given? (step : Step) (h : Holding) : Move → Option MessageKey
  | .advance => (h.ratchet.advance step).toOption.map (·.1)
  | .derive target maxSkip => (h.ratchet.deriveAt step target maxSkip).toOption.map (·.messageKey)
  | .commit _ => none

/-- What moves leave, one after the other. -/
def after (step : Step) (h : Holding) (moves : List Move) : Holding := moves.foldl (move step) h

/-- The message keys that moves return. -/
def given (step : Step) (h : Holding) : List Move → List MessageKey
  | [] => []
  | m :: rest => (h.given? step m).toList ++ given step (h.move step m) rest

variable {h : Holding} {m : Move} {moves : List Move}

variable (step seed) in
/-- The ratchet and all that waits are on the chain of the seed. -/
structure OnChain (h : Holding) : Prop where
  follows : Follows step seed h.ratchet
  fits : ∀ a ∈ h.waiting, a.Fits step seed

theorem onChain_start (step : Step) (seed : Key) : (start seed).OnChain step seed :=
  ⟨follows_ofSeed step seed, fun _ ha => absurd ha List.not_mem_nil⟩

/-- **Every move stays on the chain,** and none goes back. -/
theorem OnChain.move (h₀ : h.OnChain step seed) (hBelow : m.Below) :
    (h.move step m).OnChain step seed ∧ h.ratchet.next.toNat ≤ (h.move step m).ratchet.next.toNat := by
  cases m with
  -- an advance takes the next key of the chain, if there is one
  | advance =>
    by_cases hLeft : h.ratchet.next.toNat < UInt64.size - 1
    · simp only [Holding.move, h₀.follows.advance_eq, if_pos hLeft]
      have hNext : h.ratchet.next ≠ UInt64.ofNat (UInt64.size - 1) :=
        fun hLast => next_eq_last_iff.1 hLast hLeft
      have hFollows := h₀.follows.next hNext
      rw [h₀.follows.place, step_chainAfter_pred step seed h₀.follows.begun] at hFollows
      refine ⟨⟨hFollows, h₀.fits⟩, ?_⟩
      show h.ratchet.next.toNat ≤ (h.ratchet.next + 1).toNat
      rw [toNat_add_one hNext]
      omega
    · simp only [Holding.move, h₀.follows.advance_eq, if_neg hLeft]
      exact ⟨h₀, Nat.le_refl _⟩
  -- a derivation leaves the chain where it is, and what it has found belongs to it
  | derive target maxSkip =>
    cases hFound : h.ratchet.deriveAt step target maxSkip with
    | error fault =>
      simp only [Holding.move, hFound]
      exact ⟨h₀, Nat.le_refl _⟩
    | ok a =>
      simp only [Holding.move, hFound]
      refine ⟨⟨h₀.follows, fun b hb => ?_⟩, Nat.le_refl _⟩
      rcases List.mem_append.1 hb with hOld | hNew
      · exact h₀.fits b hOld
      · rw [List.mem_singleton.1 hNew]
        exact h₀.follows.fits_deriveAt hFound hBelow
  -- a commit moves the chain to what was found, and never backwards
  | commit place =>
    cases hPlace : h.waiting[place]? with
    | none =>
      simp only [Holding.move, hPlace]
      exact ⟨h₀, Nat.le_refl _⟩
    | some a =>
      simp only [Holding.move, hPlace]
      have hFits := h₀.fits a (List.mem_of_getElem? hPlace)
      refine ⟨⟨h₀.follows.commit_fits hFits, h₀.fits⟩, ?_⟩
      show h.ratchet.next.toNat ≤ (h.ratchet.commit a).next.toNat
      rw [hFits.toNat_next_commit]
      exact Nat.le_max_left _ _

/-- **Moves in any order stay on the chain,** and never go back. -/
theorem OnChain.after (h₀ : h.OnChain step seed) (hBelow : ∀ m ∈ moves, m.Below) :
    (h.after step moves).OnChain step seed ∧
      h.ratchet.next.toNat ≤ (h.after step moves).ratchet.next.toNat := by
  induction moves generalizing h with
  | nil => exact ⟨h₀, Nat.le_refl _⟩
  | cons m rest ih =>
    obtain ⟨hMoved, hForwards⟩ := h₀.move (hBelow m (.head _))
    obtain ⟨hEnd, hFurther⟩ := ih hMoved fun m' hm => hBelow m' (.tail _ hm)
    exact ⟨hEnd, Nat.le_trans hForwards hFurther⟩

/-- What a move returns is what the chain has for its number. -/
theorem OnChain.given? (h₀ : h.OnChain step seed) {k : MessageKey} (hGiven : h.given? step m = some k) :
    k.key = messageKey step seed k.sequence := by
  cases m with
  | advance =>
    by_cases hLeft : h.ratchet.next.toNat < UInt64.size - 1
    · simp only [Holding.given?, h₀.follows.advance_eq, if_pos hLeft] at hGiven
      cases hGiven
      rfl
    · simp only [Holding.given?, h₀.follows.advance_eq, if_neg hLeft] at hGiven
      cases hGiven
  | derive target maxSkip =>
    cases hFound : h.ratchet.deriveAt step target maxSkip with
    | error fault =>
      simp only [Holding.given?, hFound] at hGiven
      cases hGiven
    | ok a =>
      simp only [Holding.given?, hFound] at hGiven
      cases hGiven
      obtain ⟨hKey, -⟩ := h₀.follows.deriveAt hFound
      obtain ⟨-, -, rfl⟩ := deriveAt_eq_ok_iff.1 hFound
      exact hKey
  | commit place => cases hGiven

/-- **All that moves return is what the chain has.** -/
theorem OnChain.given (h₀ : h.OnChain step seed) (hBelow : ∀ m ∈ moves, m.Below) :
    ∀ k ∈ h.given step moves, k.key = messageKey step seed k.sequence := by
  induction moves generalizing h with
  | nil => exact fun k hk => absurd hk List.not_mem_nil
  | cons m rest ih =>
    intro k hk
    rcases List.mem_append.1 hk with hFirst | hLater
    · exact h₀.given? (Option.mem_toList.1 hFirst)
    · exact ih (h₀.move (hBelow m (.head _))).1 (fun m' hm => hBelow m' (.tail _ hm)) k hLater

/-- **Taking the keys one after the other and working them out agree.** Behind any moves the ratchet
is where the chain of the seed has it, and every key that was returned is that of its number, so two
ratchets of one seed return one key for a number. A key is refused as a replay exactly if its number
was passed, and as a skip exactly if it is too far ahead; otherwise it is worked out with a step for
each number up to it, which changes nothing. An advance that waits moves the ratchet behind its
number, unless it is there or further already, and no moves lead back. -/
theorem moves_agree (P : Primitives) (suite : Suite) (seed : Key) (moves : List Move)
    (hMoves : ∀ m ∈ moves, m.Below) :
    let step := suite.ratchetStep P
    let h := (start seed).after step moves
    (1 ≤ h.ratchet.next.toNat ∧
      h.ratchet.chainKey = chainAfter step seed (h.ratchet.next.toNat - 1)) ∧
    (∀ k ∈ (start seed).given step moves, k.key = messageKey step seed k.sequence) ∧
    (∀ others : List Move, (∀ m ∈ others, m.Below) →
      ∀ k ∈ (start seed).given step moves, ∀ k' ∈ (start seed).given step others,
        k.sequence = k'.sequence → k = k') ∧
    (h.ratchet.advance step =
      if h.ratchet.next.toNat < UInt64.size - 1 then
        .ok (⟨messageKey step seed h.ratchet.next, h.ratchet.next⟩,
          ⟨chainAfter step seed h.ratchet.next.toNat, h.ratchet.next + 1⟩)
      else .error (.keyDerivation "ratchet sequence exhausted")) ∧
    (∀ target maxSkip : UInt64,
      (h.move step (.derive target maxSkip)).ratchet = h.ratchet ∧
      h.ratchet.last.toNat = h.ratchet.next.toNat - 1 ∧
      (h.ratchet.deriveAt step target maxSkip = .error (.replay target h.ratchet.last) ↔
        target.toNat < h.ratchet.next.toNat) ∧
      (h.ratchet.deriveAt step target maxSkip = .error (.malformedEnvelope
          s!"sequence {target.toNat} skips more than {maxSkip.toNat} messages") ↔
        maxSkip.toNat < target.toNat - h.ratchet.next.toNat) ∧
      (h.ratchet.next.toNat ≤ target.toNat →
        target.toNat - h.ratchet.next.toNat ≤ maxSkip.toNat →
        (h.ratchet.deriveAtCounted step target maxSkip).run 0 =
          (h.ratchet.deriveAt step target maxSkip, target.toNat - h.ratchet.next.toNat + 1) ∧
        h.ratchet.deriveAt step target maxSkip =
          .ok ⟨⟨messageKey step seed target, target⟩, chainAfter step seed target.toNat⟩)) ∧
    (∀ a ∈ h.waiting, (h.ratchet.commit a).next.toNat =
      max h.ratchet.next.toNat (a.messageKey.sequence.toNat + 1)) ∧
    ∀ more : List Move, (∀ m ∈ more, m.Below) →
      h.ratchet.next.toNat ≤ (h.after step more).ratchet.next.toNat := by
  intro step h
  have hStart := onChain_start step seed
  obtain ⟨hReached, -⟩ := hStart.after hMoves
  have hFollows : Follows step seed h.ratchet := hReached.follows
  refine ⟨⟨hFollows.begun, hFollows.place⟩, hStart.given hMoves, ?_, hFollows.advance_eq, ?_, ?_, ?_⟩
  · intro others hOthers k hk k' hk' hSequence
    have hKey : k.key = k'.key := by
      rw [hStart.given hMoves k hk, hStart.given hOthers k' hk', hSequence]
    show MessageKey.mk k.key k.sequence = MessageKey.mk k'.key k'.sequence
    rw [hKey, hSequence]
  · intro target maxSkip
    refine ⟨?_, hFollows.toNat_last, deriveAt_eq_replay_iff.trans UInt64.lt_iff_toNat_lt,
      deriveAt_eq_skip_iff, ?_⟩
    · simp only [Holding.move]
      cases h.ratchet.deriveAt step target maxSkip <;> rfl
    · intro hAhead hNear
      have hCounted := deriveAtCounted_run step h.ratchet target maxSkip
      rw [if_pos ⟨hAhead, hNear⟩] at hCounted
      exact ⟨hCounted, hFollows.deriveAt_eq hAhead hNear⟩
  · exact fun a ha => (hReached.fits a ha).toNat_next_commit h.ratchet
  · exact fun more hMore => (hReached.after hMore).2

/-- Two advances that are made in the other order than they were worked out, one of them again. -/
def crossed : List Move :=
  [.advance, .derive 4 10, .derive 3 10, .commit 1, .commit 0, .commit 1, .advance]

/-- The late one is passed over, and the next key is that of number five. -/
theorem moves_agree_crossed :
    (∀ m ∈ crossed, m.Below) ∧
      let step := Level.basic.suite.ratchetStep .plain
      let h := (start (.ofNat 32 5)).after step crossed
      h.ratchet.next = 6 ∧ h.ratchet.chainKey = chainAfter step (.ofNat 32 5) 5 ∧
        ((start (.ofNat 32 5)).given step crossed).map (·.sequence) = [1, 4, 3, 5] ∧
        ∀ k ∈ (start (.ofNat 32 5)).given step crossed,
          k.key = messageKey step (.ofNat 32 5) k.sequence := by
  have hBelow : ∀ m ∈ crossed, m.Below := by decide
  obtain ⟨⟨-, hPlace⟩, hGiven, -⟩ :=
    moves_agree .plain Level.basic.suite (.ofNat 32 5) crossed hBelow
  have hNext : ((start (.ofNat 32 5)).after (Level.basic.suite.ratchetStep .plain)
      crossed).ratchet.next = 6 := by decide +kernel
  refine ⟨hBelow, hNext, ?_, by decide +kernel, hGiven⟩
  rw [hPlace, hNext]
  rfl

end Holding

end Ratchet

end EndToEnd
