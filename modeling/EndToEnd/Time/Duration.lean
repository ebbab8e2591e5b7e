/-!
# Spans of time

A duration counts whole seconds and nanoseconds. The clock counts milliseconds in a 64-bit word,
and so do the deadlines computed from it.
-/

namespace EndToEnd

/-- A span of time. -/
structure Duration where
  secs : UInt64
  nanos : UInt32
  deriving DecidableEq, Repr, Inhabited

namespace Duration

/-- A whole number of seconds. -/
def ofSecs (n : UInt64) : Duration := ⟨n, 0⟩

/-- A whole number of milliseconds. -/
def ofMillis (n : UInt64) : Duration := ⟨n / 1000, (n % 1000).toUInt32 * 1000000⟩

/-- The whole milliseconds in a span, modulo `2 ^ 64`. -/
def millis (d : Duration) : UInt64 :=
  UInt64.ofNat (d.secs.toNat * 1000 + d.nanos.toNat / 1000000)

/-- Whether a span is empty. -/
def isZero (d : Duration) : Bool := d.secs == 0 && d.nanos == 0

end Duration

/-- A sum of milliseconds that stops at the end of the 64-bit range. -/
def saturatingAdd (a b : UInt64) : UInt64 := if a ≤ a + b then a + b else UInt64.ofNat (UInt64.size - 1)

/-- A difference of milliseconds that stops at zero. -/
def saturatingSub (a b : UInt64) : UInt64 := if b ≤ a then a - b else 0

theorem toNat_saturatingAdd (a b : UInt64) :
    (saturatingAdd a b).toNat = min (a.toNat + b.toNat) (UInt64.size - 1) := by
  have ha := a.toNat_lt
  have hb := b.toNat_lt
  have size : UInt64.size = 18446744073709551616 := rfl
  unfold saturatingAdd
  split <;> rename_i h <;> rw [UInt64.le_iff_toNat_le, UInt64.toNat_add] at h
  · rw [UInt64.toNat_add]
    omega
  · simp
    omega

theorem toNat_saturatingSub (a b : UInt64) : (saturatingSub a b).toNat = a.toNat - b.toNat := by
  unfold saturatingSub
  split <;> rename_i h
  · exact UInt64.toNat_sub_of_le a b h
  · rw [UInt64.le_iff_toNat_le] at h
    simp
    omega

end EndToEnd
