import EndToEnd.Proofs.JsonText
import EndToEnd.Proofs.Tables
import EndToEnd.Storage.Store

/-!
# A saved state is read back

Every saved state is read back from its written form as it was, so a device finds in a store what it
saved there, whether the store is in memory or a file.

Main results:

* `SavedState.parse_print` — reading inverts writing, for every state.
* `Store.load_of_save` — what was saved is loaded.
-/

namespace EndToEnd

-- ---------------------------------------------------------------------------
-- Values
-- ---------------------------------------------------------------------------

namespace Json

@[simp] theorem text?_ofText (text : String) : (ofText text).text? = some text :=
  Bytes.toText?_ofText text

@[simp] theorem natural?_ofNat {bound n : Nat} (h : n < bound) :
    (ofNat n).natural? bound = some n := if_pos h

@[simp] theorem word?_ofWord (n : UInt64) : (ofWord n).word? = some n := by
  have hSize : n.toNat < UInt64.size := n.toNat_lt
  simp [word?, ofWord, hSize]

@[simp] theorem word32?_ofNat (n : UInt32) : (ofNat n.toNat).word32? = some n := by
  have hSize : n.toNat < UInt32.size := n.toNat_lt
  simp [word32?, hSize]

/-- Reading each of the values that were written gives back what they were written from. -/
theorem mapM_map {α β : Type} {write : α → β} (read : β → Option α)
    (h : ∀ a, read (write a) = some a) (l : List α) : (l.map write).mapM read = some l := by
  induction l with
  | nil => rfl
  | cons a rest ih => simp [h, ih]

@[simp] theorem bytes?_ofBytes (bytes : Bytes) : (ofBytes bytes).bytes? = some bytes := by
  have hByte (b : UInt8) : ((ofNat b.toNat).natural? 256).map UInt8.ofNat = some b := by
    have hSize : b.toNat < 256 := b.toNat_lt
    simp [hSize]
  exact mapM_map (fun item : Json => (item.natural? 256).map UInt8.ofNat) hByte bytes

@[simp] theorem key?_ofBytes (key : Key) : (ofBytes key.bytes).key? = some key := by
  simp [key?]

/-- A list is read back if its items are. -/
theorem list?_array {α : Type} {write : α → Json} {read : Json → Option α}
    (h : ∀ a, read (write a) = some a) (l : List α) :
    (array (l.map write)).list? read = some l := by
  exact mapM_map read h l

/-- What may be missing is read back if it is not null where it is there. -/
theorem nullable?_ofOption {α : Type} {write : α → Json} {read : Json → Option α}
    (h : ∀ a, read (write a) = some a) (hNull : ∀ a, write a ≠ .null) (o : Option α) :
    nullable? read (ofOption write o) = some o := by
  cases o with
  | none => rfl
  | some a =>
    show nullable? read (write a) = some (some a)
    unfold nullable?
    split
    · exact absurd ‹_› (hNull a)
    · rw [h]
      rfl

/-- A list is exact if its items are. -/
theorem areExact_map {α : Type} {write : α → Json} (h : ∀ a, (write a).isExact = true)
    (l : List α) :
    areExact (l.map write) = true := by
  induction l with
  | nil => rfl
  | cons a rest ih => exact Bool.and_eq_true_iff.2 ⟨h a, ih⟩

/-- An object is exact if its values are. -/
theorem haveExact_map {α : Type} {write : α → Bytes × Json} (h : ∀ a, (write a).2.isExact = true)
    (l : List α) : haveExact (l.map write) = true := by
  induction l with
  | nil => rfl
  | cons a rest ih => exact Bool.and_eq_true_iff.2 ⟨h a, ih⟩

@[simp] theorem isExact_ofBytes (bytes : Bytes) : (ofBytes bytes).isExact = true :=
  areExact_map (fun _ => rfl) bytes

-- ---------------------------------------------------------------------------
-- Records
-- ---------------------------------------------------------------------------

/-- A field that is there once. -/
theorem onlyValue_of_mem {members : List (Bytes × Json)} {f : Field} {v : Json}
    (h : members.filter (·.1 = Bytes.ofText f.name) = [(Bytes.ofText f.name, v)]) :
    onlyValue members f = some (some v) := by
  unfold onlyValue
  rw [h]

/-- **A record with the fields that are asked for, in any order,** gives them. -/
theorem fields?_ofFields {spec : List Field} {fields : List (String × Json)}
    (hNames : (spec.map (·.name)).Nodup) (hSpec : spec.map (·.name) = fields.map (·.1)) :
    (ofFields fields).fields? spec = some (fields.map fun f => some f.2) := by
  rw [hSpec] at hNames
  have hTexts : (fields.map fun f => (Bytes.ofText f.1, f.2)).all
      (fun m => (Bytes.toText? m.1).isSome) = true := by
    -- a name is a text, so its bytes read back
    simp
  -- each name of the specification stands once among the fields, at its own place
  have hOnly : ∀ f ∈ fields, (fields.map fun f => (Bytes.ofText f.1, f.2)).filter
      (·.1 = Bytes.ofText f.1) = [(Bytes.ofText f.1, f.2)] := by
    intro f hf
    rw [List.filter_map]
    have hMatch : fields.filter ((fun m : Bytes × Json => decide (m.1 = Bytes.ofText f.1)) ∘
        fun f => (Bytes.ofText f.1, f.2)) = [f] := by
      clear hSpec hTexts
      induction fields with
      | nil => cases hf
      | cons g rest ih =>
        rw [List.map_cons, List.nodup_cons] at hNames
        rw [List.filter_cons]
        rcases List.mem_cons.1 hf with rfl | hRest
        · have hNone : rest.filter ((fun m : Bytes × Json => decide (m.1 = Bytes.ofText f.1)) ∘
              fun f => (Bytes.ofText f.1, f.2)) = [] := by
            rw [List.filter_eq_nil_iff]
            intro g hg hSame
            refine hNames.1 (List.mem_map.2 ⟨g, hg, ?_⟩)
            simpa using hSame
          simp [hNone]
        · have hOther : g.1 ≠ f.1 := fun h => hNames.1 (h ▸ List.mem_map.2 ⟨f, hRest, rfl⟩)
          simp [hOther, ih hNames.2 hRest]
    rw [hMatch]
    rfl
  -- field by field, and each field finds its own value
  have hMap (spec : List Field) (chosen : List (String × Json)) (hSub : ∀ f ∈ chosen, f ∈ fields)
      (hSpec : spec.map (·.name) = chosen.map (·.1)) :
      spec.mapM (onlyValue (fields.map fun f => (Bytes.ofText f.1, f.2))) =
        some (chosen.map fun f => some f.2) := by
    induction spec generalizing chosen with
    | nil =>
      cases chosen with
      | nil => rfl
      | cons f rest => cases hSpec
    | cons s spec ih =>
      cases chosen with
      | nil => cases hSpec
      | cons f rest =>
        rw [List.map_cons, List.map_cons, List.cons.injEq] at hSpec
        have hFirst : onlyValue (fields.map fun f => (Bytes.ofText f.1, f.2)) s =
            some (some f.2) := by
          apply onlyValue_of_mem
          rw [hSpec.1]
          exact hOnly f (hSub f (.head _))
        have hRest := ih rest (fun f hf => hSub f (.tail _ hf)) hSpec.2
        simp [hFirst, hRest]
  show (if _ then _ else none) = _
  rw [if_pos hTexts]
  exact hMap spec fields (fun _ h => h) hSpec

end Json

/-- Public keys are read back from what is written of them. -/
theorem PublicKeys.ofJson?_toJson (keys : PublicKeys) : ofJson? keys.toJson = some keys := by
  unfold ofJson? toJson
  rw [Json.fields?_ofFields (by decide) rfl]
  simp

/-- A sealed identity is read back from what is written of it. -/
theorem SealedIdentity.ofJson?_toJson (s : SealedIdentity) : ofJson? s.toJson = some s := by
  unfold ofJson? toJson
  dsimp only
  rw [Json.fields?_ofFields (by decide) rfl]
  simp [PublicKeys.ofJson?_toJson]

/-- The record of a peer is read back, with its trust and the reason of a revocation. -/
theorem Peer.ofJson?_toJson (p : Peer) : ofJson? p.toJson = some p := by
  have hTrust : (Json.ofText p.trust.word).name?.bind Trust.ofWord? = some p.trust := by
    show (Bytes.toText? (Bytes.ofText p.trust.word)).bind Trust.ofWord? = some p.trust
    rw [Bytes.toText?_ofText]
    cases p.trust <;> rfl
  have hReason : Json.nullable? Json.text? (Json.ofOption .ofText p.revocationReason) =
      some p.revocationReason :=
    Json.nullable?_ofOption Json.text?_ofText (fun _ => nofun) _
  unfold ofJson? toJson
  dsimp only
  rw [Json.fields?_ofFields (by decide) rfl]
  simp [PublicKeys.ofJson?_toJson, hTrust, hReason]

/-- A root is read back. -/
theorem SavedRoot.ofJson?_toJson (r : SavedRoot) : ofJson? r.toJson = some r := by
  unfold ofJson? toJson
  rw [Json.fields?_ofFields (by decide) rfl]
  simp [PublicKeys.ofJson?_toJson]

namespace SavedState

/-- **A saved state is read back** from the value that is written of it. -/
theorem ofJson?_toJson (s : SavedState) : ofJson? s.toJson = some s := by
  have hIdentity : Json.nullable? SealedIdentity.ofJson? (Json.ofOption (·.toJson) s.identity) =
      some s.identity :=
    Json.nullable?_ofOption SealedIdentity.ofJson?_toJson (fun _ => nofun) _
  have hPeers := Json.list?_array Peer.ofJson?_toJson s.peers
  have hRoots := Json.list?_array SavedRoot.ofJson?_toJson s.roots
  have hEpochs : epochs? (.ofFields (s.nextEpochs.toList.map fun e => (e.1, .ofWord e.2))) =
      some s.nextEpochs := by
    have hEntry (e : String × UInt64) : (fun m : Bytes × Json => do
        return (← Bytes.toText? m.1, ← m.2.word?)) (Bytes.ofText e.1, Json.ofWord e.2) =
          some e := by
      simp
    have hEntries := Json.mapM_map (fun m : Bytes × Json => do
      return (← Bytes.toText? m.1, ← m.2.word?)) hEntry s.nextEpochs.toList
    unfold Json.ofFields epochs?
    rw [List.map_map]
    refine (congrArg (·.bind fun entries => some (Table.ofList entries)) hEntries).trans ?_
    rw [Option.bind_some, Table.ofList_toList]
  unfold ofJson? toJson
  rw [Json.fields?_ofFields (by decide) rfl]
  simp [listOrEmpty?, hIdentity, hPeers, hRoots, hEpochs]

/-- No number of a state is written with a fraction or an exponent. -/
theorem isExact_toJson (s : SavedState) : s.toJson.isExact = true := by
  -- a number is exact if it is written as an integer, so only the numbers of the parts are looked
  -- at
  have hKeys (keys : PublicKeys) : keys.toJson.isExact = true := by
    simp [PublicKeys.toJson, Json.ofFields, Json.isExact, Json.haveExact]
  have hIdentity : (Json.ofOption (·.toJson) s.identity).isExact = true := by
    cases s.identity with
    | none => rfl
    | some identity =>
      simp [Json.ofOption, SealedIdentity.toJson, Json.ofFields, Json.isExact, Json.haveExact,
        Json.ofText, Json.ofWord, Json.ofNat, hKeys]
  have hPeer (p : Peer) : p.toJson.isExact = true := by
    cases hReason : p.revocationReason <;>
      simp [Peer.toJson, Json.ofOption, Json.ofFields, Json.isExact, Json.haveExact, Json.ofText,
        Json.ofWord, Json.ofNat, hKeys, hReason]
  have hRoot (r : SavedRoot) : r.toJson.isExact = true := by
    simp [SavedRoot.toJson, Json.ofFields, Json.isExact, Json.haveExact, Json.ofText, hKeys]
  have hEpochs : (Json.ofFields (s.nextEpochs.toList.map fun e => (e.1, .ofWord e.2))).isExact =
      true := by
    unfold Json.ofFields
    rw [List.map_map]
    exact Json.haveExact_map (fun _ => rfl) _
  have hVersion : (Json.ofNat s.version.toNat).isExact = true := rfl
  have hPeers : (Json.array (s.peers.map (·.toJson))).isExact = true := Json.areExact_map hPeer _
  have hRoots : (Json.array (s.roots.map (·.toJson))).isExact = true := Json.areExact_map hRoot _
  show Json.haveExact _ = true
  simp only [List.map_cons, List.map_nil, Json.haveExact, hVersion, hIdentity, hPeers,
    hRoots, hEpochs,
    Bool.and_true]

/-- **Reading inverts writing.** -/
theorem parse_print (s : SavedState) : parse s.print = .ok s := by
  have hParse : Json.parse? s.print = some s.toJson := Json.parse?_printIndented s.isExact_toJson 0
  unfold parse
  rw [hParse]
  rw [Option.bind_eq_bind, Option.bind_some, ofJson?_toJson]

end SavedState

/-- **What was saved is loaded**, if its version is no later than the current one. -/
theorem Store.load_of_save {state : SavedState} {store store' : Store}
    (h : store.save state = .ok store') (hVersion : state.version ≤ SavedState.currentVersion) :
    store'.load = .ok (some state) := by
  cases store with
  | memory before =>
    cases h
    rfl
  | file content =>
    have hFile : parseFile state.print = .ok state := by
      unfold parseFile
      rw [SavedState.parse_print]
      exact if_neg (UInt32.not_lt.2 hVersion)
    cases content with
    | directory => cases h
    | nothing | text bytes =>
      cases h
      show (parseFile state.print).map some = _
      rw [hFile]
      rfl

end EndToEnd
