import EndToEnd.Bytes.Hex

/-!
# Short forms

The beginnings of long identifiers and of long public values, enough to tell them apart by eye.
-/

namespace EndToEnd.Text

/-- The first eight characters of an identifier. -/
def short (id : String) : String := String.ofList (id.toList.take 8)

/-- The first four bytes of a public value, in hexadecimal. -/
def shortHex (bytes : Bytes) : String := Hex.encode (bytes.take 4)

end EndToEnd.Text
