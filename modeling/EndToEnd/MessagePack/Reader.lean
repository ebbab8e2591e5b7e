import EndToEnd.MessagePack.Fault

/-!
# Reading MessagePack

A reader takes a value of some kind from the front of bytes and leaves what follows. It accepts
every form in which the value can be written: numbers of any width, texts as strings or as bytes,
and bytes also as arrays of numbers. It looks no further than it must, so what is wrong earlier is
reported first.
-/

namespace EndToEnd.MessagePack

/-- Takes a value from the front of bytes and leaves what follows. -/
abbrev Reader (α : Type) := StateT Bytes (Except Fault) α

-- ---------------------------------------------------------------------------
-- Bytes
-- ---------------------------------------------------------------------------

/-- The first `n` bytes and the rest, if there are as many. -/
def takeExactly (n : Nat) (bytes : Bytes) : Option (Bytes × Bytes) :=
  if (bytes.take n).length < n then none else some (bytes.take n, bytes.drop n)

/-- The marker of the next value. -/
def marker : Reader Marker
  | [] => .error .noMarker
  | b :: rest => .ok (.ofByte b, rest)

/-- A number that follows its marker in `width` bytes. -/
def digits (width : Nat) : Reader Nat := fun bytes =>
  match takeExactly width bytes with
  | some (digits, rest) => .ok (Bytes.ofBigEndian digits, rest)
  | none => .error .shortNumber

/-- What a length announces. -/
def content (length : Nat) : Reader Bytes := fun bytes =>
  match takeExactly length bytes with
  | some found => .ok found
  | none => .error .shortContent

-- ---------------------------------------------------------------------------
-- Headers
-- ---------------------------------------------------------------------------

/-- All of a value that does not depend on a length, or the length. -/
inductive Header where
  | nil
  | bool (b : Bool)
  | number (n : Number)
  | str (length : Nat)
  | bin (length : Nat)
  | array (length : Nat)
  | map (length : Nat)
  | ext (length : Nat)
  deriving DecidableEq, Repr

/-- The number whose `width` bytes in two's complement read `n`. -/
def ofTwosComplement (width n : Nat) : Int :=
  if 2 * n < Bytes.capacity width then n else n - Bytes.capacity width

/-- What goes on after a marker. -/
def headerOf : Marker → Reader Header
  | .nil => return .nil
  | .false => return .bool false
  | .true => return .bool true
  | .positive n => return .number (.unsigned n)
  | .negative n => return .number (.signed n)
  | .unsigned width => return .number (.unsigned (← digits width))
  | .signed width => return .number (.signed (ofTwosComplement width (← digits width)))
  | .float width => do
    let bits ← digits width
    return .number (.float (if width = 4 then .ofBits32 bits else .ofBits64 bits))
  | .shortStr length => return .str length
  | .shortArray length => return .array length
  | .shortMap length => return .map length
  | .shortExt length => return .ext length
  | .str width => return .str (← digits width)
  | .bin width => return .bin (← digits width)
  | .array width => return .array (← digits width)
  | .map width => return .map (← digits width)
  | .ext width => return .ext (← digits width)
  | .reserved => throw (.wrongMarker .reserved)

/-- The header of the next value. -/
def header : Reader Header := do headerOf (← marker)

/-- Refuses a value, once so much of it is read that it can be described. -/
def refuse {α : Type} (expected : Expected) : Header → Reader α
  | .nil => throw (.wrongType .nil expected)
  | .bool b => throw (.wrongType (.bool b) expected)
  | .number n => throw (.wrongType (.number n) expected)
  | .str length => do
    let bytes ← content length
    match Bytes.toText? bytes with
    | some text => throw (.wrongType (.text text) expected)
    | none => throw (.notUtf8 (Utf8.fault bytes))
  | .bin length => do
    let _ ← content length
    throw (.wrongType .bytes expected)
  | .array _ => throw (.wrongType .array expected)
  | .map _ => throw (.wrongType .map expected)
  | .ext _ => throw (.wrongType .ext expected)

-- ---------------------------------------------------------------------------
-- Values
-- ---------------------------------------------------------------------------

/-- A text, written as a string or as bytes. -/
def text : Reader String := do
  match ← header with
  | .str length =>
    let bytes ← content length
    match Bytes.toText? bytes with
    | some text => return text
    | none => throw (.notUtf8 (Utf8.fault bytes))
  | .bin length =>
    let bytes ← content length
    match Bytes.toText? bytes with
    | some text => return text
    | none => throw (.wrongValue .bytes .text)
  | h => refuse .text h

/-- A number that fits `width` bytes without sign, written in any form. -/
def natural (width : Nat) : Reader Nat := do
  let m ← marker
  match m with
  | .positive _ | .negative _ | .unsigned _ | .signed _ | .float _ =>
    match ← headerOf m with
    | .number (.unsigned n) =>
      if n < Bytes.capacity width then return n
      else throw (.wrongValue (.number (.unsigned n)) (.natural width))
    | .number (.signed n) =>
      if 0 ≤ n ∧ n.toNat < Bytes.capacity width then return n.toNat
      else throw (.wrongValue (.number (.signed n)) (.natural width))
    | h => refuse (.natural width) h
  | _ => throw (.wrongMarker m)

/-- As many single bytes written as numbers; those already read are latest first. -/
def byteItems (done : Bytes) : Nat → Reader Bytes
  | 0, bytes => .ok (done.reverse, bytes)
  | n + 1, bytes =>
    match natural 1 bytes with
    | .ok (b, rest) => byteItems (UInt8.ofNat b :: done) n rest
    | .error fault => .error fault

/-- Bytes behind a header, written as bytes, as a string or as an array of numbers. -/
def bytesOf : Header → Reader Bytes
  | .str length | .bin length => content length
  | .array length => byteItems [] length
  | h => refuse .bytes h

/-- Bytes. -/
def bytes : Reader Bytes := do bytesOf (← header)

/-- Bytes or nothing. -/
def bytes? : Reader (Option Bytes) := do
  match ← marker with
  | .nil => return none
  | m => return some (← bytesOf (← headerOf m))

-- ---------------------------------------------------------------------------
-- Values that are passed over
-- ---------------------------------------------------------------------------

/-- Reads `n` times over. -/
def times (read : Reader Unit) : Nat → Reader Unit
  | 0, bytes => .ok ((), bytes)
  | n + 1, bytes =>
    match read bytes with
    | .ok ((), rest) => times read n rest
    | .error fault => .error fault

/-- Passes over a value behind its header. `inner` passes over the values in a container, if
containers may still be nested. -/
def skipBehind (inner : Option (Reader Unit)) : Header → Reader Unit
  | .nil | .bool _ | .number _ => return ()
  | .str length | .bin length => do let _ ← content length
  | .array length =>
    match inner with
    | some inner => times inner length
    | none => throw .tooDeep
  | .map length =>
    match inner with
    | some inner => times inner (2 * length)
    | none => throw .tooDeep
  | .ext length =>
    match inner with
    | some _ => do
      let _ ← digits 1
      let _ ← content length
    | none => throw .tooDeep

/-- Passes over any value whose containers are nested at most `depth` deep. -/
def skip : Nat → Reader Unit
  | 0 => do skipBehind none (← header)
  | depth + 1 => do skipBehind (some (skip depth)) (← header)

/-- How deep containers may be nested. -/
def maxDepth : Nat := 1023

end EndToEnd.MessagePack
