/-!
# Decimal numbers in text

Reads an unsigned number of limited size: digits only, with one plus sign allowed in front.
-/

namespace EndToEnd.Text

/-- The value of a string of decimal digits behind `acc`. -/
def digitsValue? (acc : Nat) : List Char → Option Nat
  | [] => some acc
  | c :: rest =>
    if '0' ≤ c ∧ c ≤ '9' then digitsValue? (10 * acc + (c.toNat - 48)) rest else none

/-- The number below `bound` that a text spells. -/
def number? (bound : Nat) (text : String) : Option Nat :=
  let digits :=
    match text.toList with
    | '+' :: rest => rest
    | digits => digits
  if digits.isEmpty then none
  else (digitsValue? 0 digits).filter (· < bound)

end EndToEnd.Text
