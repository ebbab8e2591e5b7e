import EndToEnd.Bytes.Basic

/-!
# Where bytes stop being UTF-8

A character is written as one byte, or as a first byte that says how many follow. The first two
bytes rule out longer forms than needed, halves of surrogate pairs, and numbers that are no code
points. The scanner is an automaton over bytes: between two characters nothing is pending.
-/

namespace EndToEnd.Utf8

/-- The first place at which bytes are no UTF-8. -/
structure Fault where
  /-- Where the character that fails begins. -/
  offset : Nat
  /-- How many bytes can begin no character; nothing if the bytes end within a character. -/
  length : Option Nat
  deriving DecidableEq, Repr

/-- The wording for bytes that are no UTF-8. -/
def Fault.message (f : Fault) : String :=
  match f.length with
  | some length => s!"invalid utf-8 sequence of {length} bytes from index {f.offset}"
  | none => s!"incomplete utf-8 byte sequence from index {f.offset}"

/-- A character that is not complete. -/
structure Pending where
  start : Nat
  seen : Nat
  owed : Nat
  /-- The least and the greatest byte that may come next. -/
  least : UInt8
  greatest : UInt8

/-- What a first byte of several leaves pending. -/
def begin? (offset : Nat) (b : UInt8) : Option Pending :=
  if b < 0xc2 then none
  else if b < 0xe0 then some ⟨offset, 1, 1, 0x80, 0xbf⟩
  else if b = 0xe0 then some ⟨offset, 1, 2, 0xa0, 0xbf⟩
  else if b = 0xed then some ⟨offset, 1, 2, 0x80, 0x9f⟩
  else if b < 0xf0 then some ⟨offset, 1, 2, 0x80, 0xbf⟩
  else if b = 0xf0 then some ⟨offset, 1, 3, 0x90, 0xbf⟩
  else if b < 0xf4 then some ⟨offset, 1, 3, 0x80, 0xbf⟩
  else if b = 0xf4 then some ⟨offset, 1, 3, 0x80, 0x8f⟩
  else none

/-- What is pending after one byte more; nothing if the character is complete. -/
def Pending.next (p : Pending) : Option Pending :=
  if p.owed = 1 then none else some ⟨p.start, p.seen + 1, p.owed - 1, 0x80, 0xbf⟩

/-- The first fault from some offset on. -/
def scan (offset : Nat) : Option Pending → Bytes → Option Fault
  | none, [] => none
  | some p, [] => some ⟨p.start, none⟩
  | none, b :: rest =>
    if b < 0x80 then scan (offset + 1) none rest
    else
      match begin? offset b with
      | some p => scan (offset + 1) (some p) rest
      | none => some ⟨offset, some 1⟩
  | some p, b :: rest =>
    if p.least ≤ b ∧ b ≤ p.greatest then scan (offset + 1) p.next rest
    else some ⟨p.start, some p.seen⟩

/-- The first fault of bytes; at their end if they have none. -/
def fault (bytes : Bytes) : Fault := (scan 0 none bytes).getD ⟨bytes.length, none⟩

end EndToEnd.Utf8
