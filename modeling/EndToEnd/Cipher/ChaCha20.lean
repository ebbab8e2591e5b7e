import EndToEnd.Bytes.Basic

/-!
# ChaCha20

The state is a square of sixteen words, kept as four rows. One mixing step works on all four
columns at once; turning the rows first makes the same step work on the diagonals. A block of key
stream is the mixed state added to the state it came from; the derivation of a subkey from a long
nonce mixes without that addition.
-/

namespace EndToEnd.ChaCha20

/-- Four words. -/
structure Row where
  w0 : UInt32
  w1 : UInt32
  w2 : UInt32
  w3 : UInt32

namespace Row

/-- Combines two rows word by word. -/
@[inline] def zip (f : UInt32 → UInt32 → UInt32) (x y : Row) : Row :=
  ⟨f x.w0 y.w0, f x.w1 y.w1, f x.w2 y.w2, f x.w3 y.w3⟩

/-- The words of a row moved one place to the left, around the end. -/
@[inline] def turn (x : Row) : Row := ⟨x.w1, x.w2, x.w3, x.w0⟩

/-- Word by word: exclusive or, then a rotation to the left. -/
@[inline] def mask (amount : UInt32) (x y : Row) : Row :=
  zip (fun a b => let c := a ^^^ b; (c <<< amount) ||| (c >>> (32 - amount))) x y

/-- The bytes of a row. -/
def bytes (x : Row) : Bytes :=
  [x.w0, x.w1, x.w2, x.w3].flatMap fun w => Bytes.littleEndian 4 w.toNat

/-- The row that sixteen bytes spell; missing bytes count as zero. -/
def ofBytes (bytes : Bytes) : Row :=
  let word i := UInt32.ofNat (Bytes.ofLittleEndian ((bytes.drop (4 * i)).take 4))
  ⟨word 0, word 1, word 2, word 3⟩

@[simp] theorem length_bytes (x : Row) : x.bytes.length = 16 := by simp [bytes]

end Row

/-- The four rows of the state. -/
structure State where
  a : Row
  b : Row
  c : Row
  d : Row

namespace State

/-- Mixes each column. -/
def mixColumns (s : State) : State :=
  let a := s.a.zip (· + ·) s.b
  let d := s.d.mask 16 a
  let c := s.c.zip (· + ·) d
  let b := s.b.mask 12 c
  let a := a.zip (· + ·) b
  let d := d.mask 8 a
  let c := c.zip (· + ·) d
  let b := b.mask 7 c
  ⟨a, b, c, d⟩

/-- Mixes each column, then each diagonal. -/
def doubleRound (s : State) : State :=
  let s := s.mixColumns
  let t := mixColumns ⟨s.a, s.b.turn, s.c.turn.turn, s.d.turn.turn.turn⟩
  ⟨t.a, t.b.turn.turn.turn, t.c.turn.turn, t.d.turn⟩

/-- A number of double rounds. -/
def mix (s : State) : Nat → State
  | 0 => s
  | n + 1 => s.doubleRound.mix n

/-- Adds two states word by word. -/
def add (s t : State) : State :=
  ⟨s.a.zip (· + ·) t.a, s.b.zip (· + ·) t.b, s.c.zip (· + ·) t.c, s.d.zip (· + ·) t.d⟩

/-- The bytes of a state. -/
def bytes (s : State) : Bytes := s.a.bytes ++ s.b.bytes ++ s.c.bytes ++ s.d.bytes

@[simp] theorem length_bytes (s : State) : s.bytes.length = 64 := by simp [bytes]

/-- The state for a key and sixteen bytes of counter and nonce. -/
def ofInput (key : Key) (input : Bytes) : State :=
  ⟨Row.ofBytes (Bytes.ofText "expand 32-byte k"), Row.ofBytes (key.bytes.take 16),
    Row.ofBytes (key.bytes.drop 16), Row.ofBytes input⟩

end State

/-- Block number `counter` of the key stream under a key and a twelve-byte nonce. -/
def block (key : Key) (nonce : Bytes) (counter : Nat) : Bytes :=
  let s := State.ofInput key (Bytes.littleEndian 4 counter ++ nonce)
  (s.add (s.mix 10)).bytes

/-- Blocks of key stream from number `counter` on, enough for `length` bytes. -/
def stream (key : Key) (nonce : Bytes) (counter length : Nat) : Bytes :=
  (List.range ((length + 63) / 64)).flatMap fun i => block key nonce (counter + i)

/-- The subkey for the first sixteen bytes of a long nonce. -/
def subkey (key : Key) (input : Bytes) : Key :=
  let s := (State.ofInput key input).mix 10
  .leading 32 (s.a.bytes ++ s.d.bytes)

end EndToEnd.ChaCha20
