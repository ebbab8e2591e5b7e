import EndToEnd.Bytes.Basic

/-!
# SHA-256 and SHA-512

Both functions are one construction over words of 32 or 64 bits: a message is padded to whole
blocks, each block is expanded to one word per round, and the rounds mix the words into a state of
eight. The constants are what their definition says, leading bits of the fractional parts of the
square and cube roots of the first primes, computed here rather than listed.

A `Midstate` is a state with the blocks absorbed so far; keyed uses of the hash start from one.
-/

namespace EndToEnd.Sha2

/-- The words that a member of the family computes with. -/
class Word (α : Type) extends Inhabited α, Add α, XorOp α, AndOp α, Complement α where
  /-- Bits in a word. -/
  width : Nat
  /-- Rounds in the compression of one block. -/
  rounds : Nat
  ofNat : Nat → α
  toNat : α → Nat
  /-- Mixes three rotations of the first state word. -/
  bigSigma0 : α → α
  /-- Mixes three rotations of the fifth state word. -/
  bigSigma1 : α → α
  /-- Mixes two rotations and a shift of the word fifteen places back. -/
  smallSigma0 : α → α
  /-- Mixes two rotations and a shift of the word two places back. -/
  smallSigma1 : α → α

/-- Rotation of a 32-bit word. -/
@[inline] def rotate32 (x n : UInt32) : UInt32 := (x >>> n) ||| (x <<< (32 - n))

/-- Rotation of a 64-bit word. -/
@[inline] def rotate64 (x n : UInt64) : UInt64 := (x >>> n) ||| (x <<< (64 - n))

instance : Word UInt32 where
  width := 32
  rounds := 64
  ofNat := UInt32.ofNat
  toNat := UInt32.toNat
  bigSigma0 x := rotate32 x 2 ^^^ rotate32 x 13 ^^^ rotate32 x 22
  bigSigma1 x := rotate32 x 6 ^^^ rotate32 x 11 ^^^ rotate32 x 25
  smallSigma0 x := rotate32 x 7 ^^^ rotate32 x 18 ^^^ (x >>> 3)
  smallSigma1 x := rotate32 x 17 ^^^ rotate32 x 19 ^^^ (x >>> 10)

instance : Word UInt64 where
  width := 64
  rounds := 80
  ofNat := UInt64.ofNat
  toNat := UInt64.toNat
  bigSigma0 x := rotate64 x 28 ^^^ rotate64 x 34 ^^^ rotate64 x 39
  bigSigma1 x := rotate64 x 14 ^^^ rotate64 x 18 ^^^ rotate64 x 41
  smallSigma0 x := rotate64 x 1 ^^^ rotate64 x 8 ^^^ (x >>> 7)
  smallSigma1 x := rotate64 x 19 ^^^ rotate64 x 61 ^^^ (x >>> 6)

-- ---------------------------------------------------------------------------
-- Constants
-- ---------------------------------------------------------------------------

/-- The primes below `n`, in order. -/
def primesBelow (n : Nat) : List Nat :=
  (List.range n).filter fun p => 2 ≤ p && (List.range p).all fun d => d < 2 || p % d != 0

/-- Settles the low `bits` bits of a root that is at least `acc`, from the highest down. -/
def refineRoot (exponent n acc : Nat) : Nat → Nat
  | 0 => acc
  | bit + 1 =>
    let next := acc + 1 <<< bit
    refineRoot exponent n (if next.pow exponent ≤ n then next else acc) bit

/-- The greatest number below `2 ^ bits` whose `exponent`-th power is at most `n`. -/
def root (exponent n bits : Nat) : Nat := refineRoot exponent n 0 bits

/-- The first `bits` fractional bits of the `exponent`-th root of `n`. -/
def rootBits (exponent bits n : Nat) : Nat :=
  root exponent (n <<< (bits * exponent)) (bits + 6) % (1 <<< bits)

section
variable {α : Type} [Word α]

/-- One word for each round: cube roots of the first primes. -/
def roundConstants (α : Type) [Word α] : List α :=
  ((primesBelow 410).take (Word.rounds α)).map fun p => Word.ofNat (rootBits 3 (Word.width α) p)

/-- The eight words of the state. -/
structure State (α : Type) where
  a : α
  b : α
  c : α
  d : α
  e : α
  f : α
  g : α
  h : α

/-- The start of every hash: square roots of the first eight primes. -/
def initial (α : Type) [Word α] : State α :=
  let word p := Word.ofNat (rootBits 2 (Word.width α) p)
  ⟨word 2, word 3, word 5, word 7, word 11, word 13, word 17, word 19⟩

-- ---------------------------------------------------------------------------
-- Compression
-- ---------------------------------------------------------------------------

/-- The words of a block. -/
def blockWords (block : Bytes) : Array α :=
  ((Bytes.chunks (Word.width α / 8) block).map fun w => Word.ofNat (Bytes.ofBigEndian w)).toArray

/-- Extends the words of a block by `n` more, each from four that stand before it. -/
@[specialize] def extend (words : Array α) : Nat → Array α
  | 0 => words
  | n + 1 =>
    let back (k : Nat) := words[words.size - k]?.getD default
    let next := Word.smallSigma1 (back 2) + back 7 + Word.smallSigma0 (back 15) + back 16
    extend (words.push next) n

/-- One round of mixing. -/
@[specialize] def round (s : State α) (constant word : α) : State α :=
  let choice := (s.e &&& s.f) ^^^ (~~~s.e &&& s.g)
  let majority := (s.a &&& s.b) ^^^ (s.a &&& s.c) ^^^ (s.b &&& s.c)
  let t1 := s.h + Word.bigSigma1 s.e + choice + constant + word
  let t2 := Word.bigSigma0 s.a + majority
  ⟨t1 + t2, s.a, s.b, s.c, s.d + t1, s.e, s.f, s.g⟩

/-- Runs the rounds over the constants and the expanded words side by side. -/
@[specialize] def rounds (s : State α) (constants words : List α) : State α :=
  match constants, words with
  | k :: constants, w :: words => rounds (round s k w) constants words
  | _, _ => s

/-- Absorbs one block. -/
@[specialize] def compress (constants : List α) (s : State α) (block : Bytes) : State α :=
  let words := extend (blockWords block) (Word.rounds α - 16)
  let t := rounds s constants words.toList
  ⟨s.a + t.a, s.b + t.b, s.c + t.c, s.d + t.d, s.e + t.e, s.f + t.f, s.g + t.g, s.h + t.h⟩

/-- Bytes in a block. -/
def blockSize (α : Type) [Word α] : Nat := 2 * Word.width α

/-- A state together with the length of what it has absorbed. -/
structure Midstate (α : Type) where
  state : State α
  absorbed : Nat

/-- Nothing absorbed yet. -/
def start (α : Type) [Word α] : Midstate α := ⟨initial α, 0⟩

/-- Absorbs a string that is a whole number of blocks. -/
@[specialize] def absorb (constants : List α) (m : Midstate α) (bytes : Bytes) : Midstate α :=
  ⟨(Bytes.chunks (blockSize α) bytes).foldl (compress constants) m.state, m.absorbed + bytes.length⟩

/-- What follows a message of the given length: a one bit, zeros, and the length in bits. -/
def trailer (α : Type) [Word α] (length : Nat) : Bytes :=
  let lengthSize := Word.width α / 4
  0x80 :: List.replicate (Bytes.padding (blockSize α) (length + 1 + lengthSize)) 0
    ++ Bytes.bigEndian lengthSize (8 * length)

/-- The digest of what was absorbed followed by a last string. -/
@[specialize] def finish (constants : List α) (m : Midstate α) (bytes : Bytes) : Bytes :=
  let s := (absorb constants m (bytes ++ trailer α (m.absorbed + bytes.length))).state
  [s.a, s.b, s.c, s.d, s.e, s.f, s.g, s.h].flatMap fun w =>
    Bytes.bigEndian (Word.width α / 8) (Word.toNat w)

end

/-- The round constants of SHA-256. -/
def constants256 : List UInt32 := roundConstants UInt32

/-- The round constants of SHA-512. -/
def constants512 : List UInt64 := roundConstants UInt64

/-- The starting state of SHA-256. -/
def start256 : Midstate UInt32 := start UInt32

/-- The starting state of SHA-512. -/
def start512 : Midstate UInt64 := start UInt64

/-- The SHA-256 digest of a byte string. -/
def sha256 (bytes : Bytes) : Bytes := finish constants256 start256 bytes

/-- The SHA-512 digest of a byte string. -/
def sha512 (bytes : Bytes) : Bytes := finish constants512 start512 bytes

end EndToEnd.Sha2
