import EndToEnd.Bytes.Basic

/-!
# Hexadecimal text

Two lower-case digits a byte. Reading takes digits of either case and refuses everything else,
an odd count included; it gives back what was written.
-/

namespace EndToEnd.Hex

/-- The digit of a number below sixteen. -/
def digit (n : Nat) : Char := if n < 10 then Char.ofNat (48 + n) else Char.ofNat (87 + n)

/-- The value of a digit, in either case. -/
def value? (c : Char) : Option Nat :=
  if '0' ≤ c ∧ c ≤ '9' then some (c.toNat - 48)
  else if 'a' ≤ c ∧ c ≤ 'f' then some (c.toNat - 87)
  else if 'A' ≤ c ∧ c ≤ 'F' then some (c.toNat - 55)
  else none

/-- The digits of a byte string. -/
def digits (bytes : Bytes) : List Char :=
  bytes.flatMap fun b => [digit (b.toNat / 16), digit (b.toNat % 16)]

/-- Reads pairs of digits. -/
def ofDigits? : List Char → Option Bytes
  | [] => some []
  | [_] => none
  | high :: low :: rest => do
    let h ← value? high
    let l ← value? low
    let bytes ← ofDigits? rest
    return UInt8.ofNat (16 * h + l) :: bytes

/-- A byte string as hexadecimal text. -/
def encode (bytes : Bytes) : String := String.ofList (digits bytes)

/-- The byte string that a hexadecimal text stands for. -/
def decode? (text : String) : Option Bytes := ofDigits? text.toList

theorem value?_digit (n : Fin 16) : value? (digit n.val) = some n.val := by
  revert n
  decide

theorem ofDigits?_digits (bytes : Bytes) : ofDigits? (digits bytes) = some bytes := by
  induction bytes with
  | nil => rfl
  | cons b rest ih =>
    have hb : b.toNat < 256 := b.toNat_lt
    have high := value?_digit ⟨b.toNat / 16, by omega⟩
    have low := value?_digit ⟨b.toNat % 16, by omega⟩
    simp only [digits] at ih
    simp only [digits, List.flatMap_cons, List.cons_append, List.nil_append, ofDigits?]
    simp only [high, low, ih, Option.bind_eq_bind, Option.bind_some, Option.pure_def]
    rw [Nat.div_add_mod, UInt8.ofNat_toNat]

/-- Written bytes are read back. -/
theorem decode?_encode (bytes : Bytes) : decode? (encode bytes) = some bytes := by
  simp [decode?, encode, ofDigits?_digits]

end EndToEnd.Hex
