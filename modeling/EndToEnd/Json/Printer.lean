import EndToEnd.Json.Basic

/-!
# Writing JSON

Values are written without any blanks, or indented by two spaces a level. In strings quotes,
backslashes and control characters are escaped and everything else stands for itself, so no
written value holds a raw line break unless it is indented.
-/

namespace EndToEnd.Json

/-- A digit of an escape. -/
def hexDigit (n : Nat) : UInt8 := UInt8.ofNat (if n < 10 then 48 + n else 87 + n)

/-- A byte as it stands in a written string. -/
def escapeByte (b : UInt8) : Bytes :=
  if b = 0x22 ∨ b = 0x5c then [0x5c, b]
  else if b = 0x08 then [0x5c, 0x62]
  else if b = 0x0c then [0x5c, 0x66]
  else if b = 0x0a then [0x5c, 0x6e]
  else if b = 0x0d then [0x5c, 0x72]
  else if b = 0x09 then [0x5c, 0x74]
  else if b < 0x20 then
    [0x5c, 0x75, 0x30, 0x30, hexDigit (b.toNat / 16), hexDigit (b.toNat % 16)]
  else [b]

/-- A string in quotes. -/
def printString (bytes : Bytes) : Bytes := 0x22 :: bytes.flatMap escapeByte ++ [0x22]

/-- A number as it was read; what followed the whole part is not kept. -/
def printNumber (n : Number) : Bytes :=
  (if n.negative then [0x2d] else []) ++ Bytes.ofText (toString n.whole)

/-- Joins written values with commas. -/
def join (separator : Bytes) : List Bytes → Bytes
  | [] => []
  | [a] => a
  | a :: b :: rest => a ++ separator ++ join separator (b :: rest)

mutual

/-- A value without blanks. -/
def print : Json → Bytes
  | null => Bytes.ofText "null"
  | bool true => Bytes.ofText "true"
  | bool false => Bytes.ofText "false"
  | number n => printNumber n
  | string bytes => printString bytes
  | array items => 0x5b :: join [0x2c] (printItems items) ++ [0x5d]
  | object fields => 0x7b :: join [0x2c] (printFields fields) ++ [0x7d]

/-- Each of a list of values. -/
def printItems : List Json → List Bytes
  | [] => []
  | v :: rest => print v :: printItems rest

/-- Each of a list of fields. -/
def printFields : List (Bytes × Json) → List Bytes
  | [] => []
  | (name, v) :: rest => (printString name ++ 0x3a :: print v) :: printFields rest

end

/-- The start of a line at a depth. -/
def newline (depth : Nat) : Bytes := 0x0a :: List.replicate (2 * depth) 0x20

/-- Lines between brackets; nothing between them if there is no line. -/
def bracket (opening closing : UInt8) (depth : Nat) (lines : List Bytes) : Bytes :=
  if lines.isEmpty then [opening, closing]
  else opening :: newline (depth + 1) ++ join (0x2c :: newline (depth + 1)) lines
    ++ newline depth ++ [closing]

mutual

/-- A value indented, at a depth. -/
def printIndented (depth : Nat) : Json → Bytes
  | array items => bracket 0x5b 0x5d depth (indentItems (depth + 1) items)
  | object fields => bracket 0x7b 0x7d depth (indentFields (depth + 1) fields)
  | v => print v

/-- Each of a list of values, indented. -/
def indentItems (depth : Nat) : List Json → List Bytes
  | [] => []
  | v :: rest => printIndented depth v :: indentItems depth rest

/-- Each of a list of fields, indented. -/
def indentFields (depth : Nat) : List (Bytes × Json) → List Bytes
  | [] => []
  | (name, v) :: rest =>
    (printString name ++ 0x3a :: 0x20 :: printIndented depth v) :: indentFields depth rest

end

end EndToEnd.Json
