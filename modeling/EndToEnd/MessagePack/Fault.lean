import EndToEnd.Bytes.Utf8
import EndToEnd.MessagePack.Marker
import EndToEnd.Text.Binary64
import EndToEnd.Text.Quoted

/-!
# Faults in MessagePack

Why bytes are not the value that is asked for. Values are read from front to back, and the first
fault ends the reading.
-/

namespace EndToEnd.MessagePack

/-- A number as it was written. -/
inductive Number where
  | unsigned (n : Nat)
  | signed (n : Int)
  | float (x : Binary64)
  deriving DecidableEq, Repr

/-- What stands where something else is asked for. -/
inductive Found where
  | nil
  | bool (b : Bool)
  | number (n : Number)
  | text (value : String)
  | bytes
  | array
  | map
  | ext
  deriving DecidableEq, Repr

/-- The description of what was found. -/
def Found.message : Found → String
  | nil => "unit value"
  | bool b => s!"boolean `{b}`"
  | number (.unsigned n) => s!"integer `{n}`"
  | number (.signed n) => s!"integer `{n}`"
  | number (.float x) => "floating point `" ++ x.text ++ "`"
  | text value => "string " ++ Text.quote value
  | bytes => "byte array"
  | array => "sequence"
  | map => "map"
  | ext => "newtype struct"

/-- What is asked for. -/
inductive Expected where
  | text
  | bytes
  /-- A number of `width` bytes without sign. -/
  | natural (width : Nat)
  | fieldName
  /-- A record of some name with some number of fields. -/
  | record (name : String) (size : Nat)
  deriving DecidableEq, Repr

/-- The description of what is asked for. -/
def Expected.message : Expected → String
  | text => "a string"
  | bytes => "byte array"
  | natural width => s!"u{8 * width}"
  | fieldName => "field identifier"
  | record name _ => "struct " ++ name

/-- Why bytes are not the value that is asked for. -/
inductive Fault where
  /-- There is no value where one should begin. -/
  | noMarker
  /-- The bytes end within a number or a length. -/
  | shortNumber
  /-- The bytes end within what a length announces. -/
  | shortContent
  /-- A number is asked for, and the marker is that of something else. -/
  | wrongMarker (marker : Marker)
  | wrongType (found : Found) (expected : Expected)
  | wrongValue (found : Found) (expected : Expected)
  | notUtf8 (fault : Utf8.Fault)
  /-- Containers are nested too deep. -/
  | tooDeep
  /-- An array ends before all fields of a record are given. -/
  | tooFewItems (found : Nat) (expected : Expected)
  /-- An array goes on after the fields of a record. -/
  | tooManyItems (expected : Nat)
  | missingField (name : String)
  | duplicateField (name : String)
  deriving DecidableEq, Repr

/-- The wording for a fault. -/
def Fault.message : Fault → String
  | noMarker => "IO error while reading marker: failed to fill whole buffer"
  | shortNumber => "IO error while reading data: failed to fill whole buffer"
  | shortContent => "IO error while reading data: unexpected end of file"
  | wrongMarker marker => "wrong msgpack marker " ++ marker.name
  | wrongType found expected => s!"invalid type: {found.message}, expected {expected.message}"
  | wrongValue found expected => s!"invalid value: {found.message}, expected {expected.message}"
  | notUtf8 fault => "string found to be invalid utf8: " ++ fault.message
  | tooDeep => "depth limit exceeded"
  | tooFewItems found (.record name size) =>
    s!"invalid length {found}, expected struct {name} with {size} elements"
  | tooFewItems found expected => s!"invalid length {found}, expected {expected.message}"
  | tooManyItems expected => s!"array had incorrect length, expected {expected}"
  | missingField name => s!"missing field `{name}`"
  | duplicateField name => s!"duplicate field `{name}`"

end EndToEnd.MessagePack
