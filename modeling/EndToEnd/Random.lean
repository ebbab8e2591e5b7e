import EndToEnd.Bytes.Basic

/-!
# Random bytes

All random bytes of a device come from one endless sequence, read from front to back. A sequence
can be anything; the one grown from a seed is that of the SplitMix64 generator, eight bytes of each
output, least significant first.
-/

namespace EndToEnd

/-- An endless sequence of bytes and how far it has been read. -/
structure RandomSource where
  byteAt : Nat → UInt8
  position : Nat

namespace RandomSource

/-- The next `n` bytes, and the source behind them. -/
def draw (source : RandomSource) (n : Nat) : Bytes × RandomSource :=
  ((List.range n).map fun i => source.byteAt (source.position + i),
    { source with position := source.position + n })

/-- The next key, and the source behind it. -/
def drawKey (source : RandomSource) : Key × RandomSource :=
  let (bytes, rest) := source.draw 32
  (.leading 32 bytes, rest)

/-- Output number `n` of SplitMix64. -/
def splitMix (seed : UInt64) (n : Nat) : UInt64 :=
  let z := seed + 0x9E3779B97F4A7C15 * UInt64.ofNat (n + 1)
  let z := (z ^^^ (z >>> 30)) * 0xBF58476D1CE4E5B9
  let z := (z ^^^ (z >>> 27)) * 0x94D049BB133111EB
  z ^^^ (z >>> 31)

/-- The sequence grown from a seed. -/
def ofSeed (seed : UInt64) : RandomSource where
  byteAt i := (splitMix seed (i / 8) >>> UInt64.ofNat (8 * (i % 8))).toUInt8
  position := 0

@[simp] theorem length_draw (source : RandomSource) (n : Nat) : (source.draw n).1.length = n := by
  simp [draw]

end RandomSource

end EndToEnd
