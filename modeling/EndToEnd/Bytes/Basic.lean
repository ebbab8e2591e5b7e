/-!
# Byte strings

A byte string is a list of bytes. This module holds the two integer layouts (most and least
significant byte first), the passage between text and its UTF-8 bytes, byte strings of a fixed
length, and the bytewise exclusive or that every stream cipher of the library uses.

Main facts: both integer layouts have the stated length and read back the number modulo
`capacity width`; `xorWith` keeps the length of its first argument and undoes itself.
-/

namespace EndToEnd

/-- A string of bytes. -/
abbrev Bytes := List UInt8

namespace Bytes

-- ---------------------------------------------------------------------------
-- Text
-- ---------------------------------------------------------------------------

/-- The UTF-8 bytes of a text. -/
def ofText (text : String) : Bytes := text.toUTF8.data.toList

/-- The text that a byte string spells in UTF-8, if it spells one. -/
def toText? (bytes : Bytes) : Option String := String.fromUTF8? ⟨bytes.toArray⟩

-- ---------------------------------------------------------------------------
-- Integers
-- ---------------------------------------------------------------------------

/-- How many numbers there are of `width` bytes. -/
def capacity : Nat → Nat
  | 0 => 1
  | width + 1 => 256 * capacity width

/-- The low `width` bytes of a number, least significant first. -/
def littleEndian : Nat → Nat → Bytes
  | 0, _ => []
  | width + 1, n => UInt8.ofNat n :: littleEndian width (n / 256)

/-- The number whose bytes are given least significant first. -/
def ofLittleEndian : Bytes → Nat
  | [] => 0
  | b :: rest => b.toNat + 256 * ofLittleEndian rest

/-- The low `width` bytes of a number, most significant first. -/
def bigEndian (width n : Nat) : Bytes := (littleEndian width n).reverse

/-- The number whose bytes are given most significant first. -/
def ofBigEndian (bytes : Bytes) : Nat := bytes.foldl (fun n b => 256 * n + b.toNat) 0

@[simp] theorem length_littleEndian (width n : Nat) : (littleEndian width n).length = width := by
  induction width generalizing n with
  | zero => rfl
  | succ width ih => simp [littleEndian, ih]

@[simp] theorem length_bigEndian (width n : Nat) : (bigEndian width n).length = width := by
  simp [bigEndian]

/-- Reading back a little-endian number loses only what does not fit its width. -/
theorem ofLittleEndian_littleEndian (width n : Nat) :
    ofLittleEndian (littleEndian width n) = n % capacity width := by
  induction width generalizing n with
  | zero => simp [littleEndian, ofLittleEndian, capacity, Nat.mod_one]
  | succ width ih =>
    have byte : (UInt8.ofNat n).toNat = n % 256 := UInt8.toNat_ofNat'
    rw [littleEndian, ofLittleEndian, ih, byte, capacity, Nat.mod_mul]

theorem ofBigEndian_reverse (bytes : Bytes) : ofBigEndian bytes.reverse = ofLittleEndian bytes := by
  induction bytes with
  | nil => rfl
  | cons b rest ih =>
    simp only [ofBigEndian, List.reverse_cons, List.foldl_append] at ih ⊢
    simp [ofLittleEndian, ih, Nat.add_comm]

/-- Reading back a big-endian number loses only what does not fit its width. -/
theorem ofBigEndian_bigEndian (width n : Nat) :
    ofBigEndian (bigEndian width n) = n % capacity width := by
  rw [bigEndian, ofBigEndian_reverse, ofLittleEndian_littleEndian]

/-- A byte string behind its own length, written in `width` bytes. -/
def counted (width : Nat) (bytes : Bytes) : Bytes := bigEndian width bytes.length ++ bytes

-- ---------------------------------------------------------------------------
-- Exclusive or
-- ---------------------------------------------------------------------------

/-- Masks a byte string with a stream; bytes past the end of the stream stay as they are. -/
def xorWith : Bytes → Bytes → Bytes
  | [], _ => []
  | bytes, [] => bytes
  | b :: bytes, m :: stream => (b ^^^ m) :: xorWith bytes stream

@[simp] theorem length_xorWith (bytes stream : Bytes) :
    (xorWith bytes stream).length = bytes.length := by
  induction bytes generalizing stream with
  | nil => simp [xorWith]
  | cons b bytes ih => cases stream <;> simp [xorWith, ih]

/-- Masking twice with one stream gives the bytes back. -/
@[simp] theorem xorWith_xorWith (bytes stream : Bytes) :
    xorWith (xorWith bytes stream) stream = bytes := by
  induction bytes generalizing stream with
  | nil => simp [xorWith]
  | cons b bytes ih =>
    cases stream with
    | nil => rfl
    | cons m stream => rw [xorWith, xorWith, ih, UInt8.xor_assoc, UInt8.xor_self, UInt8.xor_zero]

-- ---------------------------------------------------------------------------
-- Blocks
-- ---------------------------------------------------------------------------

/-- Cuts a byte string into blocks of `size` bytes, the last one possibly shorter. -/
def chunks (size : Nat) (bytes : Bytes) : List Bytes :=
  if _h : size = 0 ∨ bytes = [] then []
  else bytes.take size :: chunks size (bytes.drop size)
termination_by bytes.length
decreasing_by
  have : 0 < bytes.length := List.length_pos_iff.2 (fun hb => _h (.inr hb))
  simp only [List.length_drop]
  omega

/-- How many zero bytes bring a length to a multiple of `size`. -/
def padding (size length : Nat) : Nat := (size - length % size) % size

end Bytes

/-- A byte string of exactly `size` bytes. -/
structure FixedBytes (size : Nat) where
  /-- The bytes themselves. -/
  bytes : Bytes
  length_eq : bytes.length = size
  deriving DecidableEq

namespace FixedBytes

/-- The same bytes with their length known, if it is the right one. -/
def ofBytes? (size : Nat) (bytes : Bytes) : Option (FixedBytes size) :=
  if h : bytes.length = size then some ⟨bytes, h⟩ else none

/-- A number laid out least significant byte first. -/
def ofNat (size n : Nat) : FixedBytes size := ⟨Bytes.littleEndian size n, Bytes.length_littleEndian size n⟩

/-- The first `size` bytes of a string, filled up with zeros if it is shorter. -/
def leading (size : Nat) (bytes : Bytes) : FixedBytes size :=
  ⟨(bytes ++ List.replicate size 0).take size, by simp⟩

@[ext] theorem ext {size : Nat} {a b : FixedBytes size} (h : a.bytes = b.bytes) : a = b := by
  cases a; cases b; cases h; rfl

@[simp] theorem ofBytes?_bytes {size : Nat} (a : FixedBytes size) : ofBytes? size a.bytes = some a := by
  simp [ofBytes?, a.length_eq]

/-- What is read as fixed-length bytes are the bytes that were given. -/
theorem ofBytes?_eq_some_iff {size : Nat} {bytes : Bytes} {a : FixedBytes size} :
    ofBytes? size bytes = some a ↔ a.bytes = bytes := by
  constructor
  · intro h
    unfold ofBytes? at h
    split at h
    · cases h; rfl
    · cases h
  · rintro rfl
    simp

instance {size : Nat} : Inhabited (FixedBytes size) := ⟨ofNat size 0⟩

end FixedBytes

/-- A 256-bit key: private, public or symmetric. -/
abbrev Key := FixedBytes 32

end EndToEnd
