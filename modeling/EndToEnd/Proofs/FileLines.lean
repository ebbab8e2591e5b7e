import EndToEnd.Proofs.AuditHistory
import EndToEnd.Proofs.BundleText

/-!
# The lines of a file sink

A sink that writes to a file writes one line for each entry that it takes. Ids and details may hold
anything, and much of it comes from remote devices; but a line break, like every other control
character, is written as an escape, so an entry can neither be cut in two nor pass for two. What was
written is text, its lines are as many as the entries, and read one after the other they are the
entries in the order in which they were taken (`Audit.ReadsBack`).

Main results:

* `Bytes.lines_flatMap` — the lines of what was written line by line.
* `Json.isLine_printString` — a written string is text without control characters.
* `Audit.Entry.parse?_print`, `Audit.Entry.isLine_print` — an entry.
* `Audit.file_reads_back` — whatever a file sink has taken, in any number of batches.
-/

namespace EndToEnd

-- ---------------------------------------------------------------------------
-- Lines
-- ---------------------------------------------------------------------------

namespace Bytes

/-- The lines of a byte string. Each ends with a line feed; what follows the last line feed is a
line as well, unless there is nothing. -/
def lines : Bytes → List Bytes
  | [] => []
  | b :: rest =>
    if b = 0x0a then [] :: lines rest
    else
      match lines rest with
      | [] => [[b]]
      | first :: more => (b :: first) :: more

/-- A line that ends is the first, and what follows has the others. -/
theorem lines_append {line : Bytes} (h : 0x0a ∉ line) (rest : Bytes) :
    lines (line ++ 0x0a :: rest) = line :: lines rest := by
  induction line with
  | nil => simp [lines]
  | cons b line ih =>
    obtain ⟨hFirst, hRest⟩ := not_or.1 (mt List.mem_cons.2 h)
    rw [List.cons_append, lines, if_neg (Ne.symm hFirst), ih hRest]

/-- **What was written line by line** has these lines. -/
theorem lines_flatMap {α : Type} {write : α → Bytes} {l : List α} (h : ∀ a ∈ l, 0x0a ∉ write a) :
    lines (l.flatMap fun a => write a ++ [0x0a]) = l.map write := by
  induction l with
  | nil => rfl
  | cons a rest ih =>
    rw [List.flatMap_cons, List.append_assoc, List.singleton_append, lines_append (h a (.head _)),
      ih fun b hb => h b (.tail _ hb), List.map_cons]

example : lines (ofText "a\n\nbc\n") = ["a", "", "bc"].map ofText := by decide

/-- Whether a byte is a character of ASCII that a line can hold. -/
def isPlain (b : UInt8) : Bool := 0x20 ≤ b.toNat && b.toNat < 128

/-- What a line can hold is ASCII from the space on. -/
theorem isPlain_iff {b : UInt8} : isPlain b = true ↔ 0x20 ≤ b.toNat ∧ b.toNat < 128 := by
  simp [isPlain]

/-- Text without control characters. -/
structure IsLine (bytes : Bytes) : Prop where
  text : ∃ text : String, ofText text = bytes
  plain : ∀ b ∈ bytes, 0x20 ≤ b

namespace IsLine

variable {a b : Bytes}

/-- Two lines put together are one. -/
theorem append (h : IsLine a) (h' : IsLine b) : IsLine (a ++ b) := by
  obtain ⟨text, rfl⟩ := h.text
  obtain ⟨text', rfl⟩ := h'.text
  exact ⟨⟨text ++ text', ofText_append text text'⟩,
    fun b hb => (List.mem_append.1 hb).elim (h.plain b) (h'.plain b)⟩

/-- Plain characters make a line. -/
theorem of_ascii (h : a.all isPlain = true) : IsLine a := by
  have hPlain (b : UInt8) (hb : b ∈ a) := isPlain_iff.1 (List.all_eq_true.1 h b hb)
  exact ⟨⟨_, ofText_ascii fun b hb => (hPlain b hb).2⟩,
    fun b hb => UInt8.le_iff_toNat_le.2 (hPlain b hb).1⟩

theorem nil : IsLine [] := of_ascii rfl

/-- One character of ASCII in front. -/
theorem cons (h : IsLine a) {b : UInt8} (hb : isPlain b = true) : IsLine (b :: a) := by
  have hFirst : IsLine [b] := of_ascii (by simp [hb])
  exact hFirst.append h

/-- Lines with a line between each two make a line. -/
theorem join {separator : Bytes} (hSeparator : IsLine separator) {lines : List Bytes}
    (h : ∀ line ∈ lines, IsLine line) : IsLine (Json.join separator lines) := by
  fun_induction Json.join separator lines with
  | case1 => exact nil
  | case2 line => exact h line (.head _)
  | case3 first second rest ih =>
    exact ((h first (.head _)).append hSeparator).append
      (ih fun line hLine => h line (.tail _ hLine))

theorem not_mem (h : IsLine a) : 0x0a ∉ a := fun hMem => absurd (h.plain _ hMem) (by decide)

end IsLine

-- ---------------------------------------------------------------------------
-- Characters
-- ---------------------------------------------------------------------------

/-- The bytes of one character are its encoding. -/
theorem ofText_singleton (c : Char) : ofText (String.ofList [c]) = String.utf8EncodeChar c := by
  simp [ofText, List.utf8Encode]

/-- A character is one byte of ASCII, or bytes that are no ASCII. -/
theorem utf8EncodeChar_cases (c : Char) :
    (∃ n < 128, String.utf8EncodeChar c = [UInt8.ofNat n]) ∨
      ∀ b ∈ String.utf8EncodeChar c, 128 ≤ b.toNat := by
  have hHigh (n : Nat) (h : 128 ≤ n % 256) : 128 ≤ (UInt8.ofNat n).toNat := by
    rwa [UInt8.toNat_ofNat']
  unfold String.utf8EncodeChar
  dsimp only
  split
  · exact .inl ⟨c.val.toNat, by omega, rfl⟩
  refine .inr ?_
  split
  · simp only [List.forall_mem_cons]
    exact ⟨hHigh _ (by omega), hHigh _ (by omega), nofun⟩
  split
  · simp only [List.forall_mem_cons]
    exact ⟨hHigh _ (by omega), hHigh _ (by omega), hHigh _ (by omega), nofun⟩
  · simp only [List.forall_mem_cons]
    exact ⟨hHigh _ (by omega), hHigh _ (by omega), hHigh _ (by omega), hHigh _ (by omega), nofun⟩

end Bytes

-- ---------------------------------------------------------------------------
-- Values
-- ---------------------------------------------------------------------------

namespace Json

open Bytes (IsLine)

/-- A byte of ASCII is written in characters that a line can hold. -/
theorem escapeByte_ascii : ∀ n < 128, (escapeByte (UInt8.ofNat n)).all Bytes.isPlain = true := by
  decide

/-- A byte beyond ASCII is written as it is. -/
theorem escapeByte_of_high {b : UInt8} (h : 128 ≤ b.toNat) : escapeByte b = [b] := by
  have hNe (c : UInt8) (hc : c.toNat < 128) : b ≠ c := by
    rintro rfl
    omega
  have hLarge : ¬b < 0x20 := fun hSmall => by
    have hSmall : b.toNat < 32 := UInt8.lt_iff_toNat_lt.1 hSmall
    omega
  unfold escapeByte
  simp [hNe 0x22 (by decide), hNe 0x5c (by decide), hNe 0x08 (by decide), hNe 0x0c (by decide),
    hNe 0x0a (by decide), hNe 0x0d (by decide), hNe 0x09 (by decide), hLarge]

/-- A character as it stands in a written string. -/
theorem isLine_escaped (c : Char) :
    IsLine ((Bytes.ofText (String.ofList [c])).flatMap escapeByte) := by
  rcases Bytes.utf8EncodeChar_cases c with ⟨n, hn, hChar⟩ | hHigh
  · rw [Bytes.ofText_singleton, hChar, List.flatMap_singleton]
    exact .of_ascii (escapeByte_ascii n hn)
  · -- it stands for itself
    rw [← Bytes.ofText_singleton] at hHigh
    have hSame : (Bytes.ofText (String.ofList [c])).flatMap escapeByte =
        Bytes.ofText (String.ofList [c]) := by
      rw [List.flatMap_def, List.map_congr_left fun b hb => escapeByte_of_high (hHigh b hb),
        ← List.flatMap_def, List.flatMap_singleton']
    rw [hSame]
    refine ⟨⟨_, rfl⟩, fun b hb => UInt8.le_iff_toNat_le.2 ?_⟩
    exact Nat.le_trans (by decide) (hHigh b hb)

/-- **A written string** is text without control characters. -/
theorem isLine_printString (text : String) : IsLine (printString (Bytes.ofText text)) := by
  have hChars (l : List Char) :
      IsLine ((Bytes.ofText (String.ofList l)).flatMap escapeByte) := by
    induction l with
    | nil => exact .nil
    | cons c rest ih =>
      rw [← List.singleton_append, String.ofList_append, Bytes.ofText_append, List.flatMap_append]
      exact (isLine_escaped c).append ih
  have hText := hChars text.toList
  rw [String.ofList_toList] at hText
  exact .append (.cons hText (by decide)) (.of_ascii (by decide))

/-- A number is printed on one line. -/
theorem isLine_ofNat (n : Nat) : IsLine (ofNat n).print := by
  refine ⟨⟨toString n, rfl⟩, ?_⟩
  show ∀ b ∈ Bytes.ofText (toString n), 0x20 ≤ b
  have hDigit (d : Nat) (hd : d < 10) : (0x20 : UInt8) ≤ UInt8.ofNat (48 + d) := by
    rw [UInt8.le_iff_toNat_le, UInt8.toNat_ofNat']
    show 32 ≤ _
    omega
  induction n using Nat.strongRecOn with
  | ind n ih =>
    rw [Bytes.ofText_toString]
    split
    · simpa using hDigit n ‹_›
    · intro b hb
      rcases List.mem_append.1 hb with hFront | hLast
      · exact ih (n / 10) (by omega) b hFront
      · rw [List.mem_singleton.1 hLast]
        exact hDigit _ (Nat.mod_lt n (by omega))

/-- Texts are printed on one line, with control characters escaped. -/
theorem isLine_texts (texts : List String) : IsLine (array (texts.map ofText)).print := by
  have hItems : ∀ line ∈ printItems (texts.map ofText), IsLine line := by
    induction texts with
    | nil => exact nofun
    | cons text rest ih => exact List.forall_mem_cons.2 ⟨isLine_printString text, ih⟩
  exact .append (.cons (.join (.of_ascii (by decide)) hItems) (by decide)) (.of_ascii (by decide))

/-- A written record of values that are written on a line. -/
theorem isLine_ofFields {fields : List (String × Json)} (h : ∀ f ∈ fields, IsLine f.2.print) :
    IsLine (ofFields fields).print := by
  have hFields : ∀ line ∈ printFields (fields.map fun f => (Bytes.ofText f.1, f.2)),
      IsLine line := by
    induction fields with
    | nil => exact nofun
    | cons f rest ih =>
      obtain ⟨hFirst, hRest⟩ := List.forall_mem_cons.1 h
      exact List.forall_mem_cons.2
        ⟨(isLine_printString f.1).append (hFirst.cons (by decide)), ih hRest⟩
  exact .append (.cons (.join (.of_ascii (by decide)) hFields) (by decide)) (.of_ascii (by decide))

end Json

-- ---------------------------------------------------------------------------
-- Entries
-- ---------------------------------------------------------------------------

namespace Audit

namespace Entry

/-- An entry is read back from the value that is written of it. -/
theorem ofJson?_toJson (e : Entry) : ofJson? e.toJson = some e := by
  have hKind : (Json.ofText e.kind.name).name?.bind Kind.ofName? = some e.kind := by
    show (Bytes.toText? (Bytes.ofText e.kind.name)).bind Kind.ofName? = some e.kind
    rw [Bytes.toText?_ofText]
    cases e.kind <;> rfl
  have hOutcome : (Json.ofText e.outcome.name).name?.bind Outcome.ofName? = some e.outcome := by
    show (Bytes.toText? (Bytes.ofText e.outcome.name)).bind Outcome.ofName? = some e.outcome
    rw [Bytes.toText?_ofText]
    cases e.outcome <;> rfl
  have hDevices : (e.devices.map Json.ofText).mapM Json.text? = some e.devices :=
    Json.mapM_map Json.text? Json.text?_ofText e.devices
  have hSequence : e.sequence.toNat < UInt64.size := e.sequence.toNat_lt
  have hTimestamp : e.timestamp.toNat < UInt64.size := e.timestamp.toNat_lt
  unfold ofJson? toJson
  rw [Json.fields?_ofFields (by decide) rfl]
  simp [hKind, hOutcome, hDevices, hSequence, hTimestamp, Json.items?]

/-- **An entry is read back.** -/
theorem parse?_print (e : Entry) : parse? e.toJson.print = some e := by
  have hExact : e.toJson.isExact = true := by
    have hDevices : Json.areExact (e.devices.map Json.ofText) = true :=
      Json.areExact_map (fun _ => rfl) e.devices
    simp [toJson, Json.ofFields, Json.isExact, Json.haveExact, Json.ofText, Json.ofNat, hDevices]
  unfold parse?
  rw [Json.parse?_print hExact, Option.bind_eq_bind, Option.bind_some, ofJson?_toJson]

/-- **An entry is written on one line.** -/
theorem isLine_print (e : Entry) : e.toJson.print.IsLine := by
  refine Json.isLine_ofFields ?_
  simp only [List.forall_mem_cons]
  exact ⟨Json.isLine_ofNat _, Json.isLine_ofNat _, Json.isLine_printString _, Json.isLine_texts _,
    Json.isLine_printString _, Json.isLine_printString _, Json.isLine_printString _,
    Json.isLine_printString _, nofun⟩

end Entry

-- ---------------------------------------------------------------------------
-- Files
-- ---------------------------------------------------------------------------

/-- A file reads back as some entries: it is text, made of whole lines without control characters,
and its lines, as many as the entries, are read as the entries in their order. -/
structure ReadsBack (content : Bytes) (entries : List Entry) : Prop where
  text : ∃ text : String, Bytes.ofText text = content
  whole : content = content.lines.flatMap (· ++ [0x0a])
  plain : ∀ line ∈ content.lines, ∀ b ∈ line, 0x20 ≤ b
  count : content.lines.length = entries.length
  parsed : content.lines.mapM Entry.parse? = some entries

/-- The lines of some entries read back as these entries. -/
theorem readsBack_flatMap (entries : List Entry) :
    ReadsBack (entries.flatMap Entry.line) entries := by
  -- a printed entry holds no line feed, so the lines are the entries
  have hLines (entries : List Entry) :
      Bytes.lines (entries.flatMap Entry.line) = entries.map (·.toJson.print) :=
    Bytes.lines_flatMap fun (e : Entry) _ => e.isLine_print.not_mem
  constructor
  case text =>
    induction entries with
    | nil => exact ⟨"", rfl⟩
    | cons e rest ih =>
      obtain ⟨text, hText⟩ := e.isLine_print.text
      obtain ⟨more, hMore⟩ := ih
      refine ⟨text ++ "\n" ++ more, ?_⟩
      rw [Bytes.ofText_append, Bytes.ofText_append, hText, hMore]
      rfl
  case whole =>
    rw [hLines, List.flatMap_map]
    rfl
  case plain =>
    rw [hLines, List.forall_mem_map]
    exact fun e _ => e.isLine_print.plain
  case count => rw [hLines, List.length_map]
  case parsed =>
    rw [hLines]
    exact Json.mapM_map Entry.parse? Entry.parse?_print entries

/-- Batches are written one behind the other. -/
theorem append_file (content : Bytes) (batches : List (List Entry)) :
    batches.foldl Archive.append (.file content) =
      .file (content ++ batches.flatten.flatMap Entry.line) := by
  induction batches generalizing content with
  | nil => simp
  | cons batch rest ih =>
    rw [List.foldl_cons, Archive.append, ih, List.flatten_cons, List.flatMap_append,
      List.append_assoc]

/-- **A file sink reads back** as the entries that it has taken: those of all batches one after the
other, and behind any turns of a log, whatever the sink refused in between, those that were recorded
and do not wait. -/
theorem file_reads_back :
    (∀ batches : List (List Entry), ∃ content,
      batches.foldl Archive.append Sink.file.archive = .file content ∧
        ReadsBack content batches.flatten) ∧
    ∀ (P : Primitives) (turns : List Turn), ∃ content taken,
      ((Log.empty .file).after P turns).sink.archive = .file content ∧ ReadsBack content taken ∧
        taken ++ ((Log.empty .file).after P turns).pending = (Log.empty .file).recorded P turns := by
  refine ⟨fun batches => ⟨_, append_file [] batches, readsBack_flatMap batches.flatten⟩,
    fun P turns => ?_⟩
  obtain ⟨taken, hArchive, hTaken⟩ := ((Log.accounts_empty Sink.file).after (P := P) turns).taken
  exact ⟨taken.flatMap Entry.line, taken, hArchive, readsBack_flatMap taken, hTaken⟩

end Audit

end EndToEnd
