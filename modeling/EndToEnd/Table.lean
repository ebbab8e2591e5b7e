/-!
# Tables

A finite map whose entries are kept in increasing order of their keys. The order is part of the
type, so two tables that hold the same values under the same keys are equal, and listing a table
needs no sorting.

Main facts: `get?_insert`, `get?_erase`, `get?_mapValues`, `mem_toList_iff` and `ext_get?`.
-/

namespace EndToEnd

/-- A finite map, listed by increasing key. -/
structure Table (κ α : Type) [Ord κ] where
  toList : List (κ × α)
  increasing : toList.Pairwise fun a b => compare a.1 b.1 = .lt

namespace Table

variable {κ α β : Type} [Ord κ]

/-- Tables with the same entries are the same. -/
@[ext] theorem ext {s t : Table κ α} (h : s.toList = t.toList) : s = t := by
  cases s; cases t; cases h; rfl

/-- The table without entries. -/
def empty : Table κ α := ⟨[], .nil⟩

instance : Inhabited (Table κ α) := ⟨empty⟩

instance [DecidableEq κ] [DecidableEq α] : DecidableEq (Table κ α) := fun s t =>
  decidable_of_iff (s.toList = t.toList) ⟨ext, fun h => h ▸ rfl⟩

/-- The value under a key. -/
def get? (t : Table κ α) (k : κ) : Option α :=
  (t.toList.find? fun e => compare k e.1 == .eq).map (·.2)

/-- Whether there is a value under a key. -/
def contains (t : Table κ α) (k : κ) : Bool := (t.get? k).isSome

/-- The number of entries. -/
def size (t : Table κ α) : Nat := t.toList.length

/-- The keys in increasing order. -/
def keys (t : Table κ α) : List κ := t.toList.map (·.1)

/-- The values in the order of their keys. -/
def values (t : Table κ α) : List α := t.toList.map (·.2)

/-- Puts an entry in its place in an increasing list, instead of one with its key. -/
def place (k : κ) (v : α) : List (κ × α) → List (κ × α)
  | [] => [(k, v)]
  | e :: rest =>
    match compare k e.1 with
    | .lt => (k, v) :: e :: rest
    | .eq => (k, v) :: rest
    | .gt => e :: place k v rest

/-- Takes the entry of a key out. -/
def erase (t : Table κ α) (k : κ) : Table κ α :=
  ⟨t.toList.filter fun e => compare k e.1 != .eq, t.increasing.filter _⟩

/-- Changes every value. -/
def mapValues (f : α → β) (t : Table κ α) : Table κ β :=
  ⟨t.toList.map fun e => (e.1, f e.2), List.pairwise_map.2 t.increasing⟩

/-- Keeps the entries that pass a test. -/
def filter (p : κ → α → Bool) (t : Table κ α) : Table κ α :=
  ⟨t.toList.filter fun e => p e.1 e.2, t.increasing.filter _⟩

@[simp] theorem get?_empty (k : κ) : (empty : Table κ α).get? k = none := rfl

/-- What is found in a table whose values are changed is changed. -/
theorem get?_mapValues (f : α → β) (t : Table κ α) (k : κ) :
    (t.mapValues f).get? k = (t.get? k).map f := by
  simp [get?, mapValues, List.find?_map, Function.comp_def]

/-- An entry that is put in place is the only new one. -/
theorem mem_place {k : κ} {v : α} {l : List (κ × α)} {x : κ × α} (h : x ∈ place k v l) :
    x = (k, v) ∨ x ∈ l := by
  induction l with
  | nil => exact .inl (by simpa [place] using h)
  | cons e rest ih =>
    unfold place at h
    split at h
    · simpa using h
    · rcases List.mem_cons.1 h with h | h
      · exact .inl h
      · exact .inr (.tail _ h)
    · rcases List.mem_cons.1 h with h | h
      · exact .inr (h ▸ .head _)
      · exact (ih h).imp_right (.tail _)

-- ---------------------------------------------------------------------------
-- Entries and look-ups
-- ---------------------------------------------------------------------------

variable [Std.LawfulEqOrd κ]

/-- The entries of a table are what is found in it. -/
theorem mem_toList_iff {t : Table κ α} {k : κ} {v : α} :
    (k, v) ∈ t.toList ↔ t.get? k = some v := by
  obtain ⟨l, hl⟩ := t
  simp only [get?]
  induction l with
  | nil => simp
  | cons e rest ih =>
    obtain ⟨first, others⟩ := List.pairwise_cons.1 hl
    by_cases same : compare k e.1 = .eq
    · obtain rfl : k = e.1 := Std.LawfulEqCmp.eq_of_compare same
      have absent : (e.1, v) ∉ rest := fun h => by
        simpa [Std.compare_self] using first _ h
      simp only [List.mem_cons, List.find?_cons, same, beq_self_eq_true, Option.map_some,
        Option.some.injEq, absent, or_false]
      exact ⟨fun h => h ▸ rfl, fun h => h ▸ rfl⟩
    · have other : (k, v) ≠ e := fun h => same (by rw [← h]; exact Std.compare_self)
      have : (compare k e.1 == .eq) = false := by simpa using same
      simp only [List.mem_cons, other, false_or, List.find?_cons, this]
      exact ih others

/-- The entry that is put in place is found under its key, and others as before. -/
theorem find?_place [DecidableEq κ] (k k' : κ) (v : α) (l : List (κ × α)) :
    (place k v l).find? (fun e => compare k' e.1 == .eq) =
      if k' = k then some (k, v) else l.find? fun e => compare k' e.1 == .eq := by
  have hit (a b : κ) : (compare a b == .eq) = decide (a = b) := by
    by_cases h : a = b
    · simp [h, Std.compare_self]
    · simp only [h, decide_false, beq_eq_false_iff_ne]
      exact fun hc => h (Std.LawfulEqCmp.eq_of_compare hc)
  simp only [hit]
  induction l with
  | nil => by_cases h : k' = k <;> simp [place, h]
  | cons e rest ih =>
    unfold place
    split
    · by_cases h : k' = k <;> simp [List.find?_cons, h]
    · rename_i same
      obtain rfl : k = e.1 := Std.LawfulEqCmp.eq_of_compare same
      by_cases h : k' = e.1 <;> simp [h]
    · rename_i above
      have different : k ≠ e.1 := fun h => by simp [h, Std.compare_self] at above
      by_cases h : k' = e.1
      · simp [h, different.symm]
      · simp only [List.find?_cons, h, decide_false, ih]

/-- What is taken out is not found, and others are found as before. -/
theorem get?_erase [DecidableEq κ] (t : Table κ α) (k k' : κ) :
    (t.erase k).get? k' = if k' = k then none else t.get? k' := by
  have key (v : α) : (t.erase k).get? k' = some v ↔ k' ≠ k ∧ t.get? k' = some v := by
    rw [← mem_toList_iff, ← mem_toList_iff]
    simp only [erase, List.mem_filter, bne_iff_ne, ne_eq, and_comm (a := (k', v) ∈ t.toList)]
    refine and_congr_left fun _ => not_congr ⟨fun h => ?_, fun h => h ▸ Std.compare_self⟩
    exact (Std.LawfulEqCmp.eq_of_compare h).symm
  split
  · exact Option.eq_none_iff_forall_ne_some.2 fun v hv => ((key v).1 hv).1 ‹_›
  · exact Option.ext fun v => by simp [*]

-- ---------------------------------------------------------------------------
-- Insertion
-- ---------------------------------------------------------------------------

variable [Std.TransOrd κ]

/-- Putting an entry in its place keeps the keys in order. -/
theorem increasing_place {k : κ} {v : α} {l : List (κ × α)}
    (h : l.Pairwise fun a b => compare a.1 b.1 = .lt) :
    (place k v l).Pairwise fun a b => compare a.1 b.1 = .lt := by
  induction l with
  | nil => simp [place]
  | cons e rest ih =>
    obtain ⟨first, others⟩ := List.pairwise_cons.1 h
    unfold place
    split
    · rename_i below
      refine List.pairwise_cons.2 ⟨fun x hx => ?_, h⟩
      rcases List.mem_cons.1 hx with rfl | hx
      · exact below
      · exact Std.TransCmp.lt_trans below (first x hx)
    · rename_i same
      have : k = e.1 := Std.LawfulEqCmp.eq_of_compare same
      exact List.pairwise_cons.2 ⟨fun x hx => this ▸ first x hx, others⟩
    · rename_i above
      refine List.pairwise_cons.2 ⟨fun x hx => ?_, ih others⟩
      rcases mem_place hx with rfl | hx
      · exact Std.OrientedCmp.lt_of_gt above
      · exact first x hx

/-- Stores a value under a key. -/
def insert (t : Table κ α) (k : κ) (v : α) : Table κ α :=
  ⟨place k v t.toList, increasing_place t.increasing⟩

/-- Changes the value under a key, if there is one. -/
def modify (t : Table κ α) (k : κ) (f : α → α) : Table κ α :=
  match t.get? k with
  | some v => t.insert k (f v)
  | none => t

/-- Stores entries one after the other; of two with one key the later stays. -/
def ofList (l : List (κ × α)) : Table κ α := l.foldl (fun t e => t.insert e.1 e.2) empty

/-- What is put in is found under its key, and others as before. -/
theorem get?_insert [DecidableEq κ] (t : Table κ α) (k k' : κ) (v : α) :
    (t.insert k v).get? k' = if k' = k then some v else t.get? k' := by
  simp only [get?, insert, find?_place]
  split <;> rfl

@[simp] theorem get?_insert_self (t : Table κ α) (k : κ) (v : α) :
    (t.insert k v).get? k = some v := by
  classical simp [get?_insert]

/-- A table is known by what is under its keys. -/
theorem ext_get? {s t : Table κ α} (h : ∀ k, s.get? k = t.get? k) : s = t := by
  refine ext (List.Perm.eq_of_pairwise ?_ s.increasing t.increasing ?_)
  · intro a b _ _ below above
    have := Std.TransCmp.lt_trans below above
    rw [Std.compare_self] at this
    cases this
  · have nodup (u : Table κ α) : u.toList.Nodup := u.increasing.imp fun h hab => by
      rw [hab, Std.compare_self] at h
      cases h
    refine (List.perm_ext_iff_of_nodup (nodup s) (nodup t)).2 fun ⟨k, v⟩ => ?_
    rw [mem_toList_iff, mem_toList_iff, h]

end Table

end EndToEnd
