import EndToEnd.Bytes.Basic

/-!
# JSON values

A value as it stands in a text. A string is kept as its bytes: an escape that names half of a
surrogate pair, like a raw byte that is no UTF-8, makes a string that spells no text, which matters
only where a text is asked for. Of a number only the sign and the whole part are kept, and whether
more was written.
-/

namespace EndToEnd

/-- A number as it was written. -/
structure Json.Number where
  negative : Bool
  whole : Nat
  /-- Whether a fraction or an exponent followed. -/
  inexact : Bool
  deriving DecidableEq, Repr

/-- A JSON value. -/
inductive Json where
  | null
  | bool (b : Bool)
  | number (n : Json.Number)
  | string (bytes : Bytes)
  | array (items : List Json)
  | object (fields : List (Bytes × Json))
  deriving Inhabited

namespace Json

/-- A text as a value. -/
def ofText (text : String) : Json := string (Bytes.ofText text)

/-- A natural number as a value. -/
def ofNat (n : Nat) : Json := number ⟨false, n, false⟩

/-- A list of numbers, one a byte. -/
def ofBytes (bytes : Bytes) : Json := array (bytes.map fun b => ofNat b.toNat)

/-- A list of fields by name. -/
def ofFields (fields : List (String × Json)) : Json :=
  object (fields.map fun f => (Bytes.ofText f.1, f.2))

/-- The text of a string that spells one. -/
def text? : Json → Option String
  | string bytes => Bytes.toText? bytes
  | _ => none

/-- A number that was written without sign, fraction and exponent, if it is below a bound. -/
def natural? (bound : Nat) : Json → Option Nat
  | number ⟨false, n, false⟩ => if n < bound then some n else none
  | _ => none

/-- The members of an array. -/
def items? : Json → Option (List Json)
  | array items => some items
  | _ => none

/-- A byte string written as a list of numbers. -/
def bytes? (v : Json) : Option Bytes := do
  let items ← v.items?
  items.mapM fun item => (item.natural? 256).map UInt8.ofNat

end Json

end EndToEnd
