import EndToEnd.Suite.Basic

/-!
# Ratchets

A chain of keys, one for each message of an epoch, that can only be followed forwards. The sender
takes the keys one after the other. The receiver derives the key of a later message without moving,
and moves only when that message has proved genuine.
-/

namespace EndToEnd

/-- The position in a key chain. -/
structure Ratchet where
  chainKey : Key
  /-- The number of the message that the next key is for; the first is one. -/
  next : UInt64
  deriving DecidableEq

/-- The key of one message. -/
structure MessageKey where
  key : Key
  sequence : UInt64
  deriving DecidableEq

namespace Ratchet

/-- A step of the chain: the message key, and the chain key that follows. -/
abbrev Step := Key → Key × Key

/-- An advance that has been worked out but not made. -/
structure Advance where
  messageKey : MessageKey
  chainKey : Key
  deriving DecidableEq

/-- The start of a chain. -/
def ofSeed (seed : Key) : Ratchet := ⟨seed, 1⟩

/-- The number of the latest message whose key was taken; zero before the first. -/
def last (r : Ratchet) : UInt64 := r.next - 1

/-- Takes the next key. -/
def advance (step : Step) (r : Ratchet) : Except CryptoFault (MessageKey × Ratchet) :=
  if r.next = UInt64.ofNat (UInt64.size - 1) then
    .error (.keyDerivation "ratchet sequence exhausted")
  else
    let (message, chain) := step r.chainKey
    .ok (⟨message, r.next⟩, ⟨chain, r.next + 1⟩)

/-- The message key and the following chain key `n` steps behind a chain key. -/
def stepsAhead (step : Step) (chainKey : Key) : Nat → Key × Key
  | 0 => step chainKey
  | n + 1 => stepsAhead step (step chainKey).2 n

/-- Works out the key of message `target`, at most `maxSkip` messages ahead of the next. -/
def deriveAt (step : Step) (r : Ratchet) (target maxSkip : UInt64) : Except Failure Advance :=
  if target < r.next then .error (.replay target r.last)
  else if maxSkip < target - r.next then
    .error (.malformedEnvelope s!"sequence {target.toNat} skips more than {maxSkip.toNat} messages")
  else
    let (message, chain) := stepsAhead step r.chainKey (target - r.next).toNat
    .ok ⟨⟨message, target⟩, chain⟩

/-- Makes an advance; one that lies behind the present position is passed over. -/
def commit (r : Ratchet) (a : Advance) : Ratchet :=
  if a.messageKey.sequence < r.next then r else ⟨a.chainKey, a.messageKey.sequence + 1⟩

/-- A short description, which shows no key. -/
def describe (level : Level) (r : Ratchet) : String :=
  s!"ChainRatchet \x7b level: {level.word}, next_sequence: {r.next.toNat}, .. \x7d"

end Ratchet

end EndToEnd
