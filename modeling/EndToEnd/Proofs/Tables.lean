import EndToEnd.Table

/-!
# Tables made from lists

Main results:

* `Table.mem_of_get?_ofList`, `Table.get?_ofList_of_mem` — what is in a table that was made from a
  list.
* `Table.get?_filter` — what is left of a table after a test.
* `Table.ofList_toList` — a table is made again from its entries.
* `Table.values_perm`, `Table.values_insert` — the values beside the one under a key.
-/

namespace EndToEnd.Table

variable {κ α β : Type} [Ord κ] [Std.LawfulEqOrd κ]

/-- The keys of a table are distinct. -/
theorem pairwise_ne (t : Table κ α) : t.toList.Pairwise fun a b => a.1 ≠ b.1 := by
  refine t.increasing.imp fun {a b} h hSame => ?_
  rw [hSame, Std.compare_self] at h
  cases h

/-- What is filtered out is not found, and the rest is found as before. -/
theorem get?_filter (t : Table κ α) (p : κ → α → Bool) (k : κ) :
    (t.filter p).get? k = (t.get? k).filter (p k) := by
  refine Option.ext fun v => ?_
  rw [← mem_toList_iff, Option.filter_eq_some_iff, ← mem_toList_iff]
  exact List.mem_filter

/-- The values are the one under a key, if there is one, and those under the other keys. -/
theorem values_perm (t : Table κ α) (k : κ) :
    t.values.Perm ((t.get? k).toList ++ (t.erase k).values) := by
  have hOne : (t.toList.filter fun e => compare k e.1 == .eq).map (·.2) = (t.get? k).toList := by
    unfold get?
    have hDistinct := t.pairwise_ne
    generalize t.toList = l at hDistinct
    induction l with
    | nil => rfl
    | cons e rest ih =>
      obtain ⟨hFirst, hRest⟩ := List.pairwise_cons.1 hDistinct
      by_cases hHere : compare k e.1 = .eq
      · -- no other entry has this key
        have hNone : rest.filter (fun e => compare k e.1 == .eq) = [] := by
          refine List.filter_eq_nil_iff.2 fun e' he' hSame => hFirst e' he' ?_
          rw [← Std.LawfulEqCmp.eq_of_compare hHere]
          exact Std.LawfulEqCmp.eq_of_compare (beq_iff_eq.1 hSame)
        simp [hHere, hNone]
      · have hOther : (compare k e.1 == .eq) = false := by simpa using hHere
        simpa [hOther] using ih hRest
  rw [← hOne]
  unfold values erase
  rw [← List.map_append]
  exact (List.filter_append_perm _ _).symm.map _

/-- The same with a list for each value, where a key without a value has none. -/
theorem flatMap_values_perm (t : Table κ α) (k : κ) {f : α → List β} {initial : α}
    (hInitial : f initial = []) :
    (t.values.flatMap f).Perm (f ((t.get? k).getD initial) ++ (t.erase k).values.flatMap f) := by
  have hPerm := (t.values_perm k).flatMap_right f
  rw [List.flatMap_append] at hPerm
  cases hFound : t.get? k with
  | none =>
    rw [hFound] at hPerm
    rw [Option.getD_none, hInitial]
    exact hPerm
  | some v =>
    rw [hFound, Option.toList_some, List.flatMap_singleton] at hPerm
    exact hPerm

variable [DecidableEq κ] [Std.TransOrd κ]

/-- A value that is stored stands beside those under the other keys. -/
theorem values_insert (t : Table κ α) (k : κ) (v : α) :
    (t.insert k v).values.Perm (v :: (t.erase k).values) := by
  have hRest : (t.insert k v).erase k = t.erase k := by
    refine ext_get? fun other => ?_
    rw [get?_erase, get?_erase]
    split
    · rfl
    · rw [get?_insert, if_neg ‹_›]
  have hPerm := (t.insert k v).values_perm k
  rwa [get?_insert_self, hRest] at hPerm

/-- What is found after entries were stored is one of them, or was there before. -/
theorem get?_foldl_insert {l : List (κ × α)} {t : Table κ α} {k : κ} {v : α}
    (h : (l.foldl (fun t e => t.insert e.1 e.2) t).get? k = some v) :
    (k, v) ∈ l ∨ t.get? k = some v := by
  induction l generalizing t with
  | nil => exact .inr h
  | cons e rest ih =>
    rcases ih h with hRest | hBefore
    · exact .inl (.tail _ hRest)
    · rw [get?_insert] at hBefore
      split at hBefore
      · rename_i hk
        cases hBefore
        subst hk
        exact .inl (.head _)
      · exact .inr hBefore

/-- What is found in a table that was made of a list is in the list. -/
theorem mem_of_get?_ofList {l : List (κ × α)} {k : κ} {v : α} (h : (ofList l).get? k = some v) :
    (k, v) ∈ l := by
  rcases get?_foldl_insert h with hMem | hEmpty
  · exact hMem
  · cases hEmpty

/-- An entry that is stored is found, and so is what was there before, unless another is stored under
its key. -/
theorem get?_foldl_insert_of_mem {l : List (κ × α)} (hKeys : l.Pairwise fun a b => a.1 ≠ b.1)
    {t : Table κ α} {k : κ} {v : α} (h : (k, v) ∈ l ∨ (∀ e ∈ l, e.1 ≠ k) ∧ t.get? k = some v) :
    (l.foldl (fun t e => t.insert e.1 e.2) t).get? k = some v := by
  induction l generalizing t with
  | nil =>
    rcases h with hMem | ⟨-, hBefore⟩
    · cases hMem
    · exact hBefore
  | cons e rest ih =>
    obtain ⟨hFirst, hRest⟩ := List.pairwise_cons.1 hKeys
    refine ih hRest ?_
    rcases h with hMem | ⟨hOther, hBefore⟩
    · rcases List.mem_cons.1 hMem with rfl | hMem
      · exact .inr ⟨fun e he => (hFirst e he).symm, get?_insert_self ..⟩
      · exact .inl hMem
    · refine .inr ⟨fun e he => hOther e (.tail _ he), ?_⟩
      rw [get?_insert, if_neg (hOther e (.head _)).symm, hBefore]

/-- What is in a list without repetitions is found in the table that is made of it. -/
theorem get?_ofList_of_mem {l : List (κ × α)} (hKeys : l.Pairwise fun a b => a.1 ≠ b.1) {k : κ}
    {v : α} (h : (k, v) ∈ l) : (ofList l).get? k = some v :=
  get?_foldl_insert_of_mem hKeys (.inl h)

/-- What is under a key in a table that was made from a list. -/
theorem isSome_get?_ofList {l : List (κ × α)} {k : κ} :
    ((ofList l).get? k).isSome = true ↔ k ∈ l.map (·.1) := by
  have hFold (t : Table κ α) : ((l.foldl (fun t e => t.insert e.1 e.2) t).get? k).isSome = true ↔
      k ∈ l.map (·.1) ∨ (t.get? k).isSome = true := by
    induction l generalizing t with
    | nil => simp
    | cons e rest ih =>
      rw [List.foldl_cons, ih, get?_insert, List.map_cons, List.mem_cons]
      by_cases hSame : k = e.1 <;> simp [hSame]
  exact (hFold empty).trans (by simp)

/-- **A table is made again from its entries.** -/
theorem ofList_toList (t : Table κ α) : ofList t.toList = t := by
  refine ext_get? fun k => Option.ext fun v => ?_
  rw [← mem_toList_iff (t := t)]
  exact ⟨mem_of_get?_ofList, get?_ofList_of_mem t.pairwise_ne⟩

end EndToEnd.Table
