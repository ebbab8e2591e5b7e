/-!
# Markers of MessagePack

Every value begins with a byte that says of which kind it is. Small numbers and short lengths stand
in the marker itself; others follow it in a stated number of bytes.
-/

namespace EndToEnd.MessagePack

/-- What the first byte of a value says about it. -/
inductive Marker where
  | nil
  | false
  | true
  /-- A number that stands in the marker. -/
  | positive (n : Nat)
  | negative (n : Int)
  /-- A number that follows in `width` bytes. -/
  | unsigned (width : Nat)
  | signed (width : Nat)
  | float (width : Nat)
  /-- A length that stands in the marker. -/
  | shortStr (length : Nat)
  | shortArray (length : Nat)
  | shortMap (length : Nat)
  | shortExt (length : Nat)
  /-- A length that follows in `width` bytes. -/
  | str (width : Nat)
  | bin (width : Nat)
  | array (width : Nat)
  | map (width : Nat)
  | ext (width : Nat)
  /-- The one byte that begins no value. -/
  | reserved
  deriving DecidableEq, Repr

namespace Marker

/-- The marker in a byte. -/
def ofByte (byte : UInt8) : Marker :=
  let b := byte.toNat
  if b < 0x80 then positive b
  else if b < 0x90 then shortMap (b - 0x80)
  else if b < 0xa0 then shortArray (b - 0x90)
  else if b < 0xc0 then shortStr (b - 0xa0)
  else if b = 0xc0 then nil
  else if b = 0xc1 then reserved
  else if b = 0xc2 then false
  else if b = 0xc3 then true
  else if b < 0xc7 then bin (1 <<< (b - 0xc4))
  else if b < 0xca then ext (1 <<< (b - 0xc7))
  else if b < 0xcc then float (4 <<< (b - 0xca))
  else if b < 0xd0 then unsigned (1 <<< (b - 0xcc))
  else if b < 0xd4 then signed (1 <<< (b - 0xd0))
  else if b < 0xd9 then shortExt (1 <<< (b - 0xd4))
  else if b < 0xdc then str (1 <<< (b - 0xd9))
  else if b < 0xde then array (1 <<< (b - 0xdb))
  else if b < 0xe0 then map (1 <<< (b - 0xdd))
  else negative (b - 256)

/-- The name of a marker, with what stands in it or the width of what follows in bits. -/
def name : Marker → String
  | nil => "Null"
  | false => "False"
  | true => "True"
  | positive n => s!"FixPos({n})"
  | negative n => s!"FixNeg({n})"
  | unsigned width => s!"U{8 * width}"
  | signed width => s!"I{8 * width}"
  | float width => s!"F{8 * width}"
  | shortStr length => s!"FixStr({length})"
  | shortArray length => s!"FixArray({length})"
  | shortMap length => s!"FixMap({length})"
  | shortExt length => s!"FixExt{length}"
  | str width => s!"Str{8 * width}"
  | bin width => s!"Bin{8 * width}"
  | array width => s!"Array{8 * width}"
  | map width => s!"Map{8 * width}"
  | ext width => s!"Ext{8 * width}"
  | reserved => "Reserved"

end Marker

end EndToEnd.MessagePack
