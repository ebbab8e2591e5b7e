import EndToEnd.Json.Basic

/-!
# Tokens of JSON text

The lexer is an automaton over bytes. A number or a word ends with the byte that cannot belong to
it, which is then read afresh; everything else ends with a byte of its own. Because every byte is
one step, reading the parts of a text one after the other is the same as reading it whole.
-/

namespace EndToEnd.Json

/-- A token. -/
inductive Token where
  | openObject
  | closeObject
  | openArray
  | closeArray
  | colon
  | comma
  | null
  | bool (b : Bool)
  | number (n : Number)
  | string (bytes : Bytes)
  deriving DecidableEq, Repr

-- ---------------------------------------------------------------------------
-- Strings
-- ---------------------------------------------------------------------------

/-- A piece of a string: a byte, or a 16-bit unit that an escape names. -/
inductive Piece where
  | byte (b : UInt8)
  | unit (n : Nat)
  deriving DecidableEq, Repr

/-- The bytes of a code point; halves of surrogate pairs get bytes that are no UTF-8. -/
def pointBytes (n : Nat) : Bytes :=
  if n < 0x80 then [UInt8.ofNat n]
  else if n < 0x800 then [UInt8.ofNat (0xc0 + n / 64), UInt8.ofNat (0x80 + n % 64)]
  else if n < 0x10000 then
    [UInt8.ofNat (0xe0 + n / 4096), UInt8.ofNat (0x80 + n / 64 % 64), UInt8.ofNat (0x80 + n % 64)]
  else
    [UInt8.ofNat (0xf0 + n / 262144), UInt8.ofNat (0x80 + n / 4096 % 64),
      UInt8.ofNat (0x80 + n / 64 % 64), UInt8.ofNat (0x80 + n % 64)]

/-- Whether a unit opens a surrogate pair. -/
def isHigh (n : Nat) : Bool := 0xd800 ≤ n && n < 0xdc00

/-- Whether a unit closes a surrogate pair. -/
def isLow (n : Nat) : Bool := 0xdc00 ≤ n && n < 0xe000

/-- The bytes of a string, with two halves of a pair that stand together joined. -/
def pieceBytes : List Piece → Bytes
  | [] => []
  | .byte b :: rest => b :: pieceBytes rest
  | .unit h :: .unit l :: rest =>
    if isHigh h && isLow l then
      pointBytes (0x10000 + (h - 0xd800) * 1024 + (l - 0xdc00)) ++ pieceBytes rest
    else pointBytes h ++ pieceBytes (.unit l :: rest)
  | .unit n :: rest => pointBytes n ++ pieceBytes rest

/-- The byte that a short escape stands for. -/
def shortEscape? (b : UInt8) : Option UInt8 :=
  if b = 0x22 ∨ b = 0x5c ∨ b = 0x2f then some b
  else if b = 0x62 then some 0x08
  else if b = 0x66 then some 0x0c
  else if b = 0x6e then some 0x0a
  else if b = 0x72 then some 0x0d
  else if b = 0x74 then some 0x09
  else none

/-- The value of a hexadecimal digit. -/
def hexValue? (b : UInt8) : Option Nat :=
  let n := b.toNat
  if 48 ≤ n ∧ n ≤ 57 then some (n - 48)
  else if 97 ≤ n ∧ n ≤ 102 then some (n - 87)
  else if 65 ≤ n ∧ n ≤ 70 then some (n - 55)
  else none

-- ---------------------------------------------------------------------------
-- Numbers
-- ---------------------------------------------------------------------------

/-- How far a number has been read. -/
inductive NumberPart where
  /-- Behind the sign. -/
  | sign
  /-- Behind a zero that begins the whole part. -/
  | zero
  /-- In the whole part. -/
  | whole
  /-- Behind the point. -/
  | point
  /-- In the fraction. -/
  | fraction
  /-- Behind the letter of the exponent. -/
  | letter
  /-- Behind the sign of the exponent. -/
  | letterSign
  /-- In the exponent. -/
  | exponent
  deriving DecidableEq, Repr

/-- Whether a number may end here. -/
def NumberPart.isEnd : NumberPart → Bool
  | zero | whole | fraction | exponent => true
  | _ => false

/-- Reads one more byte of a number: `some` if it belongs to the number. -/
def numberStep (part : NumberPart) (n : Number) (b : UInt8) : Option (NumberPart × Number) :=
  let isDigit := 48 ≤ b.toNat && b.toNat ≤ 57
  let value := b.toNat - 48
  match part with
  | .sign =>
    if b = 48 then some (.zero, n)
    else if isDigit then some (.whole, { n with whole := value })
    else none
  | .zero | .whole =>
    if isDigit then
      if part = .whole then some (.whole, { n with whole := 10 * n.whole + value }) else none
    else if b = 0x2e then some (.point, { n with inexact := true })
    else if b = 0x65 ∨ b = 0x45 then some (.letter, { n with inexact := true })
    else none
  | .point => if isDigit then some (.fraction, n) else none
  | .fraction =>
    if isDigit then some (.fraction, n)
    else if b = 0x65 ∨ b = 0x45 then some (.letter, n)
    else none
  | .letter =>
    if isDigit then some (.exponent, n)
    else if b = 0x2b ∨ b = 0x2d then some (.letterSign, n)
    else none
  | .letterSign | .exponent => if isDigit then some (.exponent, n) else none

-- ---------------------------------------------------------------------------
-- The automaton
-- ---------------------------------------------------------------------------

/-- What the lexer is in the middle of. -/
inductive Mode where
  | between
  /-- In a string; its pieces are latest first. -/
  | string (pieces : List Piece)
  /-- Behind a backslash. -/
  | escape (pieces : List Piece)
  /-- In an escape by number, with `left` digits to come. -/
  | unit (pieces : List Piece) (left value : Nat)
  | number (part : NumberPart) (n : Number)
  /-- In a word, with the bytes to come. -/
  | word (rest : Bytes) (token : Token)
  deriving DecidableEq, Repr

/-- The lexer: what it is in the middle of, and the tokens so far, latest first. -/
structure Lexer where
  mode : Mode
  tokens : List Token
  deriving DecidableEq, Repr

namespace Lexer

/-- Nothing read yet. -/
def start : Lexer := ⟨.between, []⟩

/-- Reads a byte between tokens. -/
def begin (tokens : List Token) (b : UInt8) : Option Lexer :=
  if b = 0x20 ∨ b = 0x09 ∨ b = 0x0a ∨ b = 0x0d then some ⟨.between, tokens⟩
  else if b = 0x7b then some ⟨.between, .openObject :: tokens⟩
  else if b = 0x7d then some ⟨.between, .closeObject :: tokens⟩
  else if b = 0x5b then some ⟨.between, .openArray :: tokens⟩
  else if b = 0x5d then some ⟨.between, .closeArray :: tokens⟩
  else if b = 0x3a then some ⟨.between, .colon :: tokens⟩
  else if b = 0x2c then some ⟨.between, .comma :: tokens⟩
  else if b = 0x22 then some ⟨.string [], tokens⟩
  else if b = 0x6e then some ⟨.word (Bytes.ofText "ull") .null, tokens⟩
  else if b = 0x74 then some ⟨.word (Bytes.ofText "rue") (.bool true), tokens⟩
  else if b = 0x66 then some ⟨.word (Bytes.ofText "alse") (.bool false), tokens⟩
  else if b = 0x2d then some ⟨.number .sign ⟨true, 0, false⟩, tokens⟩
  else (numberStep .sign ⟨false, 0, false⟩ b).map fun (part, n) => ⟨.number part n, tokens⟩

/-- Reads one byte. -/
def step (l : Lexer) (b : UInt8) : Option Lexer :=
  match l.mode with
  | .between => begin l.tokens b
  | .string pieces =>
    if b = 0x22 then some ⟨.between, .string (pieceBytes pieces.reverse) :: l.tokens⟩
    else if b = 0x5c then some ⟨.escape pieces, l.tokens⟩
    else if b < 0x20 then none
    else some ⟨.string (.byte b :: pieces), l.tokens⟩
  | .escape pieces =>
    if b = 0x75 then some ⟨.unit pieces 4 0, l.tokens⟩
    else (shortEscape? b).map fun c => ⟨.string (.byte c :: pieces), l.tokens⟩
  | .unit pieces left value =>
    (hexValue? b).map fun digit =>
      let value := 16 * value + digit
      if left ≤ 1 then ⟨.string (.unit value :: pieces), l.tokens⟩
      else ⟨.unit pieces (left - 1) value, l.tokens⟩
  | .number part n =>
    match numberStep part n b with
    | some (part, n) => some ⟨.number part n, l.tokens⟩
    | none => if part.isEnd then begin (.number n :: l.tokens) b else none
  | .word rest token =>
    match rest with
    | [] => begin (token :: l.tokens) b
    | c :: rest =>
      if b = c then
        if rest = [] then some ⟨.between, token :: l.tokens⟩ else some ⟨.word rest token, l.tokens⟩
      else none

/-- Reads a byte string. -/
def run (l : Lexer) : Bytes → Option Lexer
  | [] => some l
  | b :: rest =>
    match l.step b with
    | some l => l.run rest
    | none => none

/-- The tokens, if the text may end here. -/
def finish (l : Lexer) : Option (List Token) :=
  match l.mode with
  | .between => some l.tokens.reverse
  | .number part n => if part.isEnd then some (.number n :: l.tokens).reverse else none
  | _ => none

/-- Reading two strings one after the other is reading them joined. -/
theorem run_append (l : Lexer) (a b : Bytes) : l.run (a ++ b) = (l.run a).bind (·.run b) := by
  induction a generalizing l with
  | nil => rfl
  | cons x a ih =>
    simp only [List.cons_append, run]
    split
    · exact ih _
    · rfl

end Lexer

/-- The tokens of a text. -/
def Token.scan (text : Bytes) : Option (List Token) := (Lexer.start.run text).bind Lexer.finish

end EndToEnd.Json
