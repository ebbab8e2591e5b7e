import EndToEnd.Device.Relations
import EndToEnd.Proofs.SavedText

/-!
# Bundles are read back

What a device hands out is read as what it stands for, so to import the bundle of a device is to put
its id and its keys on file.

A key stands in a bundle in base64. Between its bytes and its symbols stand numbers of six bits
(`Base64.sextets`): a symbol is written for each of them, and each symbol is read as its number. The
last group of bytes may be short; its last number then has some bits to spare, which are zero.

Main results:

* `Base64.scan_symbols`, `Base64.group_sextets` — from the symbols to the numbers, and to the bytes.
* `Base64.decode_encode` — reading inverts writing, for every byte string.
* `Bundle.parse_print`, `Bundle.publicKeys_ofKeys` — bundles.
* `Device.importBundle_ofKeys`, `Device.importBundle_exportBundle` — what is imported.
-/

namespace EndToEnd

-- ---------------------------------------------------------------------------
-- Base64
-- ---------------------------------------------------------------------------

namespace Base64

/-- The numbers of six bits whose symbols stand for a byte string. -/
def sextets : Bytes → List Nat
  | a :: b :: c :: rest =>
    let n := a.toNat * 65536 + b.toNat * 256 + c.toNat
    n / 262144 :: n / 4096 % 64 :: n / 64 % 64 :: n % 64 :: sextets rest
  | [a, b] =>
    let n := a.toNat * 1024 + b.toNat * 4
    [n / 4096, n / 64 % 64, n % 64]
  | [a] => [a.toNat * 16 / 64, a.toNat * 16 % 64]
  | [] => []

/-- A symbol is read as its number, and is no fill. -/
theorem value?_symbol : ∀ n < 64, value? (symbol n) = some n ∧ symbol n ≠ fill ∧
    (symbol n).toNat < 128 := by
  decide

theorem scan_symbol {n : Nat} (h : n < 64) (offset : Nat) (values : List Nat) (rest : Bytes) :
    scan offset none values (symbol n :: rest) = scan (offset + 1) none (n :: values) rest := by
  obtain ⟨hValue, hFill, -⟩ := value?_symbol n h
  rw [scan.eq_def]
  dsimp only
  rw [if_neg hFill, hValue]

theorem scan_fill {offset : Nat} (h : 2 ≤ offset % 4) (fillAt : Option Nat) (values : List Nat)
    (rest : Bytes) :
    scan offset fillAt values (fill :: rest) =
      scan (offset + 1) (some (fillAt.getD offset)) values rest := by
  rw [scan.eq_def]
  dsimp only
  rw [if_pos rfl, if_neg (Nat.not_lt.2 h)]

/-- **Symbols are read as their numbers.** -/
theorem scan_symbols (bytes : Bytes) {offset : Nat} (h : offset % 4 = 0) (values : List Nat) :
    scan offset none values (symbols bytes) = .ok (values.reverse ++ sextets bytes) := by
  -- three bytes are four symbols; one or two at the end are filled up
  match bytes with
  | [] =>
    show Except.ok values.reverse = _
    rw [sextets, List.append_nil]
  | [a] =>
    have ha : a.toNat < 256 := a.toNat_lt
    rw [symbols, scan_symbol (by omega), scan_symbol (by omega), scan_fill (by omega),
      scan_fill (by omega)]
    simp [scan, sextets]
  | [a, b] =>
    have ha : a.toNat < 256 := a.toNat_lt
    have hb : b.toNat < 256 := b.toNat_lt
    rw [symbols, scan_symbol (by omega), scan_symbol (by omega), scan_symbol (by omega),
      scan_fill (by omega)]
    simp [scan, sextets]
  | a :: b :: c :: rest =>
    have ha : a.toNat < 256 := a.toNat_lt
    have hb : b.toNat < 256 := b.toNat_lt
    have hc : c.toNat < 256 := c.toNat_lt
    rw [symbols, scan_symbol (by omega), scan_symbol (by omega), scan_symbol (by omega),
      scan_symbol (by omega), scan_symbols rest (by omega)]
    simp [sextets]

/-- **The numbers are put together to the bytes,** and the last of them has nothing in its spare
bits. -/
theorem group_sextets (bytes : Bytes) :
    group (sextets bytes) = bytes ∧
      (sextets bytes).getLastD 0 % spareModulus (sextets bytes).length = 0 ∧
      (symbols bytes).length % 4 = 0 := by
  match bytes with
  | [] => exact ⟨rfl, rfl, rfl⟩
  | [a] =>
    -- one byte makes two symbols, the second of which has four bits to spare
    have ha : a.toNat < 256 := a.toNat_lt
    refine ⟨?_, ?_, Nat.mod_self 4⟩
    · show [UInt8.ofNat _] = [a]
      rw [List.cons.injEq, ← UInt8.toNat_inj, UInt8.toNat_ofNat']
      exact ⟨by omega, rfl⟩
    · show a.toNat * 16 % 64 % 16 = 0
      omega
  | [a, b] =>
    -- two bytes make three symbols, the last of which has two bits to spare
    have ha : a.toNat < 256 := a.toNat_lt
    have hb : b.toNat < 256 := b.toNat_lt
    refine ⟨?_, ?_, Nat.mod_self 4⟩
    · show [UInt8.ofNat _, UInt8.ofNat _] = [a, b]
      rw [List.cons.injEq, List.cons.injEq, ← UInt8.toNat_inj, ← UInt8.toNat_inj,
        UInt8.toNat_ofNat', UInt8.toNat_ofNat']
      exact ⟨by omega, by omega, rfl⟩
    · show (a.toNat * 1024 + b.toNat * 4) % 64 % 4 = 0
      omega
  | a :: b :: c :: rest =>
    have ha : a.toNat < 256 := a.toNat_lt
    have hb : b.toNat < 256 := b.toNat_lt
    have hc : c.toNat < 256 := c.toNat_lt
    -- three bytes make four symbols, and nothing is to spare
    obtain ⟨hRest, hSpare, hLength⟩ := group_sextets rest
    refine ⟨?_, ?_, ?_⟩
    · show UInt8.ofNat _ :: UInt8.ofNat _ :: UInt8.ofNat _ :: group (sextets rest) = _
      rw [hRest, List.cons.injEq, List.cons.injEq, List.cons.injEq, ← UInt8.toNat_inj,
        ← UInt8.toNat_inj, ← UInt8.toNat_inj, UInt8.toNat_ofNat', UInt8.toNat_ofNat',
        UInt8.toNat_ofNat']
      exact ⟨by omega, by omega, by omega, rfl⟩
    · cases hSextets : sextets rest with
      | nil =>
        rw [sextets, hSextets]
        show _ % spareModulus 4 = 0
        rw [show spareModulus 4 = 1 by decide, Nat.mod_one]
      | cons v more =>
        rw [hSextets] at hSpare
        -- four symbols more leave what is to spare as it is
        have hCount (n : Nat) : spareModulus (n + 4) = spareModulus n := by
          unfold spareModulus
          rw [Nat.add_mod_right]
        rw [sextets, hSextets]
        simp only [List.length_cons, hCount] at hSpare ⊢
        exact hSpare
    · show ((symbols rest).length + 4) % 4 = 0
      rw [Nat.add_mod_right]
      exact hLength

/-- Every symbol is a character of ASCII. -/
theorem symbols_lt (bytes : Bytes) : ∀ s ∈ symbols bytes, s.toNat < 128 := by
  have hSymbol {n : Nat} (h : n < 64) : (symbol n).toNat < 128 := (value?_symbol n h).2.2
  match bytes with
  | [] => exact nofun
  | [a] =>
    have ha : a.toNat < 256 := a.toNat_lt
    simp only [symbols, List.forall_mem_cons]
    exact ⟨hSymbol (by omega), hSymbol (by omega), by decide, by decide, nofun⟩
  | [a, b] =>
    have ha : a.toNat < 256 := a.toNat_lt
    have hb : b.toNat < 256 := b.toNat_lt
    simp only [symbols, List.forall_mem_cons]
    exact ⟨hSymbol (by omega), hSymbol (by omega), hSymbol (by omega), by decide, nofun⟩
  | a :: b :: c :: rest =>
    have ha : a.toNat < 256 := a.toNat_lt
    have hb : b.toNat < 256 := b.toNat_lt
    have hc : c.toNat < 256 := c.toNat_lt
    simp only [symbols, List.forall_mem_cons]
    exact ⟨hSymbol (by omega), hSymbol (by omega), hSymbol (by omega), hSymbol (by omega),
      symbols_lt rest⟩

end Base64

/-- A text of ASCII characters has one byte for each of them. -/
theorem Bytes.ofText_ascii {bytes : Bytes} (h : ∀ b ∈ bytes, b.toNat < 128) :
    Bytes.ofText (String.ofList (bytes.map fun b => Char.ofNat b.toNat)) = bytes := by
  have hChar : ∀ n < 128, Bytes.ofText (String.ofList [Char.ofNat n]) = [UInt8.ofNat n] := by
    decide
  induction bytes with
  | nil => rfl
  | cons b rest ih =>
    rw [List.map_cons, ← List.singleton_append, String.ofList_append, Bytes.ofText_append,
      hChar _ (h b (.head _)), ih fun c hc => h c (.tail _ hc), UInt8.ofNat_toNat]
    rfl

/-- **Reading inverts writing.** -/
theorem Base64.decode_encode (bytes : Bytes) : decode (encode bytes) = .ok bytes := by
  obtain ⟨hGroup, hSpare, hLength⟩ := group_sextets bytes
  unfold decode encode
  rw [Bytes.ofText_ascii (symbols_lt bytes)]
  unfold decodeBytes
  rw [if_neg (by omega), scan_symbols bytes (Nat.zero_mod 4)]
  dsimp only [List.reverse_nil, List.nil_append]
  rw [if_neg (not_not_intro hLength), if_neg (not_not_intro hSpare), hGroup]

-- ---------------------------------------------------------------------------
-- Bundles
-- ---------------------------------------------------------------------------

namespace Bundle

theorem ofJson?_toJson (b : Bundle) : ofJson? b.toJson = some b := by
  unfold ofJson? toJson
  rw [Json.fields?_ofFields (by decide) rfl]
  simp

/-- **A bundle is read back.** -/
theorem parse_print (b : Bundle) : parse b.print = .ok b := by
  have hParse : Json.parse? b.print = some b.toJson := Json.parse?_print rfl
  unfold parse
  rw [hParse, Option.bind_eq_bind, Option.bind_some, ofJson?_toJson]

theorem readKey_encode (key : Key) (what : String) :
    readKey (Base64.encode key.bytes) what = .ok key := by
  unfold readKey readBase64
  rw [Base64.decode_encode]
  dsimp only
  rw [FixedBytes.ofBytes?_bytes]

theorem publicKeys_ofKeys (id : String) (keys : PublicKeys) :
    (ofKeys id keys).publicKeys = .ok keys := by
  unfold publicKeys ofKeys
  dsimp only
  rw [readKey_encode, readKey_encode]
  rfl

end Bundle

/-- To import a bundle is to present its id and its keys. -/
theorem Device.importBundle_ofKeys (P : Primitives) (id : String) (keys : PublicKeys) (d : Device) :
    d.importBundle P (Bundle.ofKeys id keys).print = d.remember P id keys := by
  unfold importBundle
  rw [Bundle.parse_print]
  dsimp only
  rw [Bundle.publicKeys_ofKeys]
  rfl

/-- **To import the bundle of a device** is to put its id and its keys on file. -/
theorem Device.importBundle_exportBundle (P : Primitives) (other d : Device) :
    d.importBundle P (other.exportBundle P) =
      d.remember P other.id (other.identity.publicKeys P) :=
  importBundle_ofKeys P other.id (other.identity.publicKeys P) d

end EndToEnd
