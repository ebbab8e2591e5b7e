import EndToEnd.Level
import EndToEnd.Proofs.JsonText

/-!
# Forms that can be split off

What is hashed, signed or authenticated here is a string of fields, one behind the other. A field in
a form that says where it ends can be split off from whatever follows, so a string of such fields is
taken apart from the front, one lemma of this module for each. A form says where it ends if its width
is fixed or if it begins with the count of its bytes, and then only if the count fits its own width:
otherwise what is written is the count modulo the width's capacity.
-/

namespace EndToEnd

variable {s t : Bytes}

namespace Bytes

/-- Bytes behind their count are split off from what follows. -/
theorem eq_of_counted_append {width : Nat} {a b : Bytes} (ha : a.length < capacity width)
    (hb : b.length < capacity width) (h : counted width a ++ s = counted width b ++ t) :
    a = b ∧ s = t := by
  unfold counted at h
  rw [List.append_assoc, List.append_assoc] at h
  obtain ⟨hCount, hRest⟩ := List.append_inj h (by simp)
  have hLength : a.length = b.length := by
    have hRead := congrArg ofBigEndian hCount
    rwa [ofBigEndian_bigEndian, ofBigEndian_bigEndian, Nat.mod_eq_of_lt ha,
      Nat.mod_eq_of_lt hb] at hRead
  exact List.append_inj hRest hLength

/-- So is a number of 64 bits. -/
theorem eq_of_bigEndian_append {m n : UInt64}
    (h : bigEndian 8 m.toNat ++ s = bigEndian 8 n.toNat ++ t) : m = n ∧ s = t := by
  obtain ⟨hNumber, hRest⟩ := List.append_inj h (by simp)
  have hRead := congrArg ofBigEndian hNumber
  rw [ofBigEndian_bigEndian, ofBigEndian_bigEndian,
    Nat.mod_eq_of_lt (show m.toNat < capacity 8 from m.toNat_lt),
    Nat.mod_eq_of_lt (show n.toNat < capacity 8 from n.toNat_lt)] at hRead
  exact ⟨UInt64.toNat_inj.1 hRead, hRest⟩

/-- The ids of devices are counted in two bytes. -/
def maxIdLength : Nat := 65535

/-- An id that its count can count is split off. -/
theorem eq_of_id_append {a b : String} (ha : (ofText a).length ≤ maxIdLength)
    (hb : (ofText b).length ≤ maxIdLength)
    (h : counted 2 (ofText a) ++ s = counted 2 (ofText b) ++ t) : a = b ∧ s = t := by
  have hCapacity : maxIdLength < capacity 2 := by decide
  obtain ⟨hText, hRest⟩ :=
    eq_of_counted_append (Nat.lt_of_le_of_lt ha hCapacity) (Nat.lt_of_le_of_lt hb hCapacity) h
  exact ⟨ofText_inj.1 hText, hRest⟩

end Bytes

/-- The number of a level is split off. -/
theorem Level.eq_of_tag_append {l m : Level} (h : [l.tag] ++ s = [m.tag] ++ t) :
    l = m ∧ s = t := by
  obtain ⟨hTag, hRest⟩ := List.cons.inj h
  have hRead := congrArg Level.ofTag? hTag
  rw [Level.ofTag?_tag, Level.ofTag?_tag] at hRead
  exact ⟨Option.some.inj hRead, hRest⟩

/-- Bytes of a fixed length are split off. -/
theorem FixedBytes.eq_of_append {size : Nat} {a b : FixedBytes size}
    (h : a.bytes ++ s = b.bytes ++ t) : a = b ∧ s = t := by
  obtain ⟨hBytes, hRest⟩ := List.append_inj h (a.length_eq.trans b.length_eq.symm)
  exact ⟨FixedBytes.ext hBytes, hRest⟩

end EndToEnd
