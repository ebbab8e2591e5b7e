import EndToEnd.Bytes.Basic

/-!
# Base64

Three bytes are written as four symbols of the standard alphabet, and a shorter last group is
filled up with equals signs. Reading accepts exactly that form: the fill is required, it stands
only at the end, and the bits of the last symbol that carry nothing are zero. Faults are reported
at offsets in the UTF-8 form of the text.
-/

namespace EndToEnd.Base64

/-- Why a text is refused. -/
inductive Error where
  /-- A byte that cannot stand where it does. -/
  | invalidByte (byte : UInt8) (offset : Nat)
  /-- The last symbol sets bits that belong to no byte. -/
  | invalidLastSymbol (byte : UInt8) (offset : Nat)
  /-- One symbol is left over after whole groups. -/
  | looseSymbol
  /-- The last group is not filled up. -/
  | invalidPadding
  deriving DecidableEq, Repr

/-- The wording of a refusal. -/
def Error.message : Error → String
  | invalidByte b offset => s!"Invalid byte {b.toNat}, offset {offset}."
  | invalidLastSymbol b offset => s!"Invalid last symbol {b.toNat}, offset {offset}."
  | looseSymbol => "Encoded text cannot have a 6-bit remainder."
  | invalidPadding => "Invalid padding"

/-- The symbol of a number below sixty-four. -/
def symbol (n : Nat) : UInt8 :=
  if n < 26 then UInt8.ofNat (65 + n)
  else if n < 52 then UInt8.ofNat (71 + n)
  else if n < 62 then UInt8.ofNat (n - 4)
  else if n = 62 then 43
  else 47

/-- The number of a symbol. -/
def value? (b : UInt8) : Option Nat :=
  let n := b.toNat
  if 65 ≤ n ∧ n ≤ 90 then some (n - 65)
  else if 97 ≤ n ∧ n ≤ 122 then some (n - 71)
  else if 48 ≤ n ∧ n ≤ 57 then some (n + 4)
  else if n = 43 then some 62
  else if n = 47 then some 63
  else none

/-- The sign that fills up the last group. -/
def fill : UInt8 := 61

/-- The symbols of a byte string. -/
def symbols : Bytes → Bytes
  | a :: b :: c :: rest =>
    let n := a.toNat * 65536 + b.toNat * 256 + c.toNat
    symbol (n / 262144) :: symbol (n / 4096 % 64) :: symbol (n / 64 % 64) :: symbol (n % 64)
      :: symbols rest
  | [a, b] =>
    let n := a.toNat * 1024 + b.toNat * 4
    [symbol (n / 4096), symbol (n / 64 % 64), symbol (n % 64), fill]
  | [a] => [symbol (a.toNat * 16 / 64), symbol (a.toNat * 16 % 64), fill, fill]
  | [] => []

/-- A byte string as text. -/
def encode (bytes : Bytes) : String :=
  String.ofList ((symbols bytes).map fun b => Char.ofNat b.toNat)

-- ---------------------------------------------------------------------------
-- Reading
-- ---------------------------------------------------------------------------

/-- Reads symbols up to the fill. `offset` is the position of the next byte, `fillAt` that of the
first fill sign, and `values` the numbers read so far, latest first. -/
def scan (offset : Nat) (fillAt : Option Nat) (values : List Nat) :
    Bytes → Except Error (List Nat)
  | [] => .ok values.reverse
  | b :: rest =>
    if b = fill then
      if offset % 4 < 2 then .error (.invalidByte b (fillAt.getD offset))
      else scan (offset + 1) (some (fillAt.getD offset)) values rest
    else
      match fillAt, value? b with
      | some first, _ => .error (.invalidByte fill first)
      | none, none => .error (.invalidByte b offset)
      | none, some v => scan (offset + 1) none (v :: values) rest

/-- The bytes in groups of symbols, whose last group may lack one or two. -/
def group : List Nat → Bytes
  | a :: b :: c :: d :: rest =>
    UInt8.ofNat (a * 4 + b / 16) :: UInt8.ofNat (b * 16 + c / 4) :: UInt8.ofNat (c * 64 + d)
      :: group rest
  | [a, b, c] => [UInt8.ofNat (a * 4 + b / 16), UInt8.ofNat (b * 16 + c / 4)]
  | [a, b] => [UInt8.ofNat (a * 4 + b / 16)]
  | _ => []

/-- How many low bits of the last symbol belong to no byte, as a modulus. -/
def spareModulus (count : Nat) : Nat :=
  if count % 4 = 2 then 16 else if count % 4 = 3 then 4 else 1

/-- Reads the bytes of a text. -/
def decodeBytes (input : Bytes) : Except Error Bytes :=
  if input.length % 4 = 1 then
    let last := input.getLastD 0
    if last ≠ fill ∧ value? last = none then .error (.invalidByte last (input.length - 1))
    else .error .looseSymbol
  else
    match scan 0 none [] input with
    | .error e => .error e
    | .ok values =>
      if input.length % 4 ≠ 0 then .error .invalidPadding
      else
        let last := values.getLastD 0
        if last % spareModulus values.length ≠ 0 then
          .error (.invalidLastSymbol (symbol last) (values.length - 1))
        else .ok (group values)

/-- The byte string that a text stands for. -/
def decode (text : String) : Except Error Bytes := decodeBytes (Bytes.ofText text)

end EndToEnd.Base64
