import EndToEnd.Json.Printer
import EndToEnd.Json.Reader

/-!
# Reading what was written as JSON

A written value is read back as it was, whatever its strings hold and however deep it is, if no
number of it was cut short when it was read. Between the two stands the list of its tokens: the
lexer finds them in the text, and the reader builds the value from them.

A number ends only with the byte behind it, so the lexer may still be in a number when a value has
been read (`Lexer.Settled`). All that can follow a value in a text ends a number.

Main results:

* `Json.reads_printIndented`, `Json.reads_print` — the lexer finds the tokens of a value in its text.
* `Json.Builder.run_tokens` — the reader builds the value from its tokens.
* `Json.parse?_printIndented`, `Json.parse?_print` — reading inverts writing.
-/

namespace EndToEnd

-- ---------------------------------------------------------------------------
-- Text
-- ---------------------------------------------------------------------------

namespace Bytes

/-- The bytes of two texts are those of the one and then of the other. -/
theorem ofText_append (a b : String) : ofText (a ++ b) = ofText a ++ ofText b := by
  simp [ofText]

/-- The bytes of a text are read as the text. -/
@[simp] theorem toText?_ofText (text : String) : toText? (ofText text) = some text := by
  have hBytes : (⟨(ofText text).toArray⟩ : ByteArray) = text.toUTF8 := by
    simp [ofText]
  unfold toText? String.fromUTF8?
  simp only [hBytes, String.toUTF8_eq_toByteArray, dif_pos text.isValidUTF8]
  rfl

/-- Different texts have different bytes. -/
@[simp] theorem ofText_inj {a b : String} : ofText a = ofText b ↔ a = b := by
  refine ⟨fun h => ?_, fun h => h ▸ rfl⟩
  have hText := congrArg toText? h
  rw [toText?_ofText, toText?_ofText] at hText
  exact Option.some.inj hText

/-- A decimal digit is one byte. -/
theorem ofText_digitChar : ∀ d < 10, ofText (String.ofList [Nat.digitChar d]) =
    [UInt8.ofNat (48 + d)] := by
  decide

/-- The bytes of a number in decimal, the last digit split off. -/
theorem ofText_toString (n : Nat) :
    ofText (toString n) =
      if n < 10 then [UInt8.ofNat (48 + n)]
      else ofText (toString (n / 10)) ++ [UInt8.ofNat (48 + n % 10)] := by
  rw [Nat.toString_eq_ofList_toDigits, Nat.toString_eq_ofList_toDigits,
    Nat.toDigits_eq_if (by omega : 1 < 10)]
  split
  · exact ofText_digitChar n ‹_›
  · rw [String.ofList_append, ofText_append, ofText_digitChar _ (Nat.mod_lt _ (by omega))]

end Bytes

namespace Json

-- ---------------------------------------------------------------------------
-- The tokens of a value
-- ---------------------------------------------------------------------------

/-- Lists of tokens with commas between them. -/
def commas : List (List Token) → List Token
  | [] => []
  | [ts] => ts
  | ts :: us :: rest => ts ++ .comma :: commas (us :: rest)

mutual

/-- The tokens of a value. -/
def tokens : Json → List Token
  | null => [.null]
  | bool b => [.bool b]
  | number n => [.number n]
  | string bytes => [.string bytes]
  | array items => .openArray :: commas (itemTokens items) ++ [.closeArray]
  | object fields => .openObject :: commas (fieldTokens fields) ++ [.closeObject]

/-- The tokens of each of a list of values. -/
def itemTokens : List Json → List (List Token)
  | [] => []
  | v :: rest => tokens v :: itemTokens rest

/-- The tokens of each of a list of fields. -/
def fieldTokens : List (Bytes × Json) → List (List Token)
  | [] => []
  | (name, v) :: rest => (.string name :: .colon :: tokens v) :: fieldTokens rest

end

mutual

/-- Whether all numbers of a value are kept as they were written. -/
def isExact : Json → Bool
  | null | bool _ | string _ => true
  | number n => !n.inexact
  | array items => areExact items
  | object fields => haveExact fields

/-- Whether all values of a list are exact. -/
def areExact : List Json → Bool
  | [] => true
  | v :: rest => isExact v && areExact rest

/-- Whether the values of all fields are exact. -/
def haveExact : List (Bytes × Json) → Bool
  | [] => true
  | (_, v) :: rest => isExact v && haveExact rest

end

-- ---------------------------------------------------------------------------
-- Reading a text
-- ---------------------------------------------------------------------------

/-- A lexer that has found some tokens, latest first, and has nothing to add to them. -/
inductive Lexer.Settled (ts : List Token) : Lexer → Prop where
  | between : Settled ts ⟨.between, ts⟩
  /-- The last of them is a number that may go on. -/
  | number {part : NumberPart} {n : Number} {rest : List Token}
      (hPart : part = .zero ∨ part = .whole)
      (hTokens : ts = .number n :: rest) : Settled ts ⟨.number part n, rest⟩

/-- Bytes that end a number. -/
def isDelimiter (b : UInt8) : Bool := b = 0x0a || b = 0x2c || b = 0x5d || b = 0x7d

/-- A text in which the lexer finds some tokens. -/
def Reads (text : Bytes) (ts : List Token) : Prop :=
  ∀ found, ∃ l, Lexer.run ⟨.between, found⟩ text = some l ∧ l.Settled (ts.reverse ++ found)

/-- A text in which the lexer finds some tokens, the last of which is complete. -/
def ReadsAll (text : Bytes) (ts : List Token) : Prop :=
  ∀ found, Lexer.run ⟨.between, found⟩ text = some ⟨.between, ts.reverse ++ found⟩

/-- What follows a number is read as if nothing were open. -/
theorem Lexer.Settled.step {ts : List Token} {l : Lexer} (h : l.Settled ts) {b : UInt8}
    (hb : isDelimiter b = true) : l.step b = Lexer.begin ts b := by
  cases h with
  | between => rfl
  | @number part n rest hPart hTokens =>
    subst hTokens
    simp only [isDelimiter, Bool.or_eq_true, decide_eq_true_eq] at hb
    have hEnds : numberStep part n b = none := by
      rcases hPart with rfl | rfl <;> rcases hb with ((rfl | rfl) | rfl) | rfl <;> rfl
    have hEnd : part.isEnd = true := by rcases hPart with rfl | rfl <;> rfl
    simp only [Lexer.step, hEnds, hEnd, if_true]

namespace ReadsAll

variable {a b : Bytes} {ts us : List Token}

/-- What ends with a complete token may be followed by anything. -/
theorem reads (h : ReadsAll a ts) : Reads a ts := fun found => ⟨_, h found, .between⟩

/-- Tokens of two texts that are both complete. -/
theorem append (h : ReadsAll a ts) (h' : ReadsAll b us) : ReadsAll (a ++ b) (ts ++ us) := by
  intro found
  rw [Lexer.run_append, h found, Option.bind_some, h' _, List.reverse_append, List.append_assoc]

/-- Tokens of two texts of which the first is complete. -/
theorem appendReads (h : ReadsAll a ts) (h' : Reads b us) : Reads (a ++ b) (ts ++ us) := by
  intro found
  obtain ⟨l, hl, hSettled⟩ := h' (ts.reverse ++ found)
  refine ⟨l, by rw [Lexer.run_append, h found, Option.bind_some, hl], ?_⟩
  rwa [List.reverse_append, List.append_assoc]

end ReadsAll

/-- What follows a value begins with a byte that ends a number. -/
theorem Reads.append {a rest : Bytes} {b : UInt8} {ts us : List Token} (h : Reads a ts)
    (hb : isDelimiter b = true) (h' : ReadsAll (b :: rest) us) :
    ReadsAll (a ++ b :: rest) (ts ++ us) := by
  intro found
  obtain ⟨l, hl, hSettled⟩ := h found
  have hRest := h' (ts.reverse ++ found)
  rw [Lexer.run] at hRest
  rw [Lexer.run_append, hl, Option.bind_some, Lexer.run, hSettled.step hb, List.reverse_append,
    List.append_assoc]
  exact hRest

/-- A byte that is a token by itself. -/
theorem readsAll_single {b : UInt8} {t : Token}
    (h : ∀ found, Lexer.begin found b = some ⟨.between, t :: found⟩) : ReadsAll [b] [t] := by
  intro found
  have hStep : (⟨.between, found⟩ : Lexer).step b = some ⟨.between, t :: found⟩ := h found
  rw [Lexer.run, hStep]
  rfl

/-- The lexer finds nothing in a new line with its indent. -/
theorem readsAll_newline (depth : Nat) : ReadsAll (newline depth) [] := by
  intro found
  show Lexer.run ⟨.between, found⟩ (List.replicate (2 * depth) 0x20) = some ⟨.between, found⟩
  induction 2 * depth with
  | zero => rfl
  | succ n ih => exact ih

-- ---------------------------------------------------------------------------
-- Scalars
-- ---------------------------------------------------------------------------

/-- Pieces that stand for bytes, each for one: for itself, or as the escape of a control character
by its number. -/
inductive Spells : List Piece → Bytes → Prop where
  | nil : Spells [] []
  | byte {pieces : List Piece} {bytes : Bytes} (b : UInt8) (rest : Spells pieces bytes) :
      Spells (.byte b :: pieces) (b :: bytes)
  | unit {pieces : List Piece} {bytes : Bytes} {b : UInt8} (control : b.toNat < 0x20)
      (rest : Spells pieces bytes) : Spells (.unit b.toNat :: pieces) (b :: bytes)

/-- **A byte in a string is one piece,** in whichever form it is written. -/
theorem run_escapeByte (b : UInt8) (pieces : List Piece) (found : List Token) :
    ∃ p : Piece, (∀ {more bytes}, Spells more bytes → Spells (p :: more) (b :: bytes)) ∧
      Lexer.run ⟨.string pieces, found⟩ (escapeByte b) = some ⟨.string (p :: pieces), found⟩ := by
  -- the quote and the backslash, five controls with a letter, the other controls by number, the
  -- rest as it is
  unfold escapeByte
  split
  · rename_i hQuoted
    refine ⟨.byte b, .byte b, ?_⟩
    rcases hQuoted with rfl | rfl <;> rfl
  split
  · subst b
    exact ⟨.byte 0x08, .byte _, rfl⟩
  split
  · subst b
    exact ⟨.byte 0x0c, .byte _, rfl⟩
  split
  · subst b
    exact ⟨.byte 0x0a, .byte _, rfl⟩
  split
  · subst b
    exact ⟨.byte 0x0d, .byte _, rfl⟩
  split
  · subst b
    exact ⟨.byte 0x09, .byte _, rfl⟩
  split
  · rename_i hControl
    have hSmall : b.toNat < 0x20 := UInt8.lt_iff_toNat_lt.1 hControl
    refine ⟨.unit b.toNat, .unit hSmall, ?_⟩
    -- a control is spelt in hexadecimal, of which two digits are zero
    have hHigh : hexValue? (hexDigit (b.toNat / 16)) = some (b.toNat / 16) := by
      have hDigits : ∀ d < 16, hexValue? (hexDigit d) = some d := by decide
      exact hDigits _ (by omega)
    have hLow : hexValue? (hexDigit (b.toNat % 16)) = some (b.toNat % 16) := by
      have hDigits : ∀ d < 16, hexValue? (hexDigit d) = some d := by decide
      exact hDigits _ (by omega)
    have hZero : hexValue? 0x30 = some 0 := by decide
    have hSum : 16 * (b.toNat / 16) + b.toNat % 16 = b.toNat := by omega
    simp [Lexer.run, Lexer.step, hHigh, hLow, hZero, hSum]
  · rename_i hQuoted _ _ _ _ _ hControl
    rw [not_or] at hQuoted
    refine ⟨.byte b, .byte b, ?_⟩
    simp only [Lexer.run, Lexer.step, if_neg hQuoted.1, if_neg hQuoted.2, if_neg hControl]

/-- Pieces that stand for bytes spell them. -/
theorem Spells.pieceBytes {pieces : List Piece} {bytes : Bytes} (h : Spells pieces bytes) :
    pieceBytes pieces = bytes := by
  induction h with
  | nil => rfl
  | @byte pieces bytes b _ ih =>
    show b :: Json.pieceBytes pieces = b :: bytes
    rw [ih]
  | @unit pieces bytes b control hRest ih =>
    -- a control is one byte, and no half of a pair
    have hPoint : pointBytes b.toNat = [b] := by
      unfold pointBytes
      rw [if_pos (by omega), UInt8.ofNat_toNat]
    have hLone : isHigh b.toNat = false := by
      simp only [isHigh, Bool.and_eq_false_iff, decide_eq_false_iff_not]
      omega
    cases hRest with
    | nil =>
      show pointBytes b.toNat ++ Json.pieceBytes [] = [b]
      rw [hPoint]
      rfl
    | byte =>
      rw [Json.pieceBytes, hPoint, ih]
      · rfl
      · simp
    | unit =>
      rw [Json.pieceBytes, hLone, Bool.false_and, if_neg (by simp), hPoint, ih]
      rfl

/-- A string that is printed is read as one token, with its bytes. -/
theorem readsAll_printString (bytes : Bytes) : ReadsAll (printString bytes) [.string bytes] := by
  intro found
  -- the pieces so far, latest first, stand for the bytes so far
  have hPieces (rest : Bytes) (pieces : List Piece) :
      ∃ more, Spells more rest ∧
        Lexer.run ⟨.string pieces, found⟩ (rest.flatMap escapeByte) =
          some ⟨.string (more.reverse ++ pieces), found⟩ := by
    induction rest generalizing pieces with
    | nil => exact ⟨[], .nil, rfl⟩
    | cons b rest ih =>
      obtain ⟨p, hp, hRun⟩ := run_escapeByte b pieces found
      obtain ⟨more, hMore, hRest⟩ := ih (p :: pieces)
      refine ⟨p :: more, hp hMore, ?_⟩
      rw [List.flatMap_cons, Lexer.run_append, hRun, Option.bind_some, hRest]
      simp
  obtain ⟨pieces, hSpells, hRun⟩ := hPieces bytes []
  show Lexer.run ⟨.string [], found⟩ (bytes.flatMap escapeByte ++ [0x22]) = _
  rw [Lexer.run_append, hRun, Option.bind_some]
  simp [Lexer.run, Lexer.step, hSpells.pieceBytes]

/-- A digit may begin a number; a zero ends its whole part. -/
theorem numberStep_digit {d : Nat} (hd : d < 10) (n : Number) :
    numberStep .sign n (UInt8.ofNat (48 + d)) =
        some (if d = 0 then (.zero, n) else (.whole, { n with whole := d })) ∧
      numberStep .whole n (UInt8.ofNat (48 + d)) =
        some (.whole, { n with whole := 10 * n.whole + d }) := by
  have hByte : (UInt8.ofNat (48 + d)).toNat = 48 + d := by
    rw [UInt8.toNat_ofNat']
    omega
  have hZero : UInt8.ofNat (48 + d) = 48 ↔ d = 0 := by
    rw [← UInt8.toNat_inj, hByte]
    show 48 + d = 48 ↔ d = 0
    omega
  have hDigit : (decide (48 ≤ 48 + d) && decide (48 + d ≤ 57)) = true := by
    simp only [Bool.and_eq_true, decide_eq_true_eq]
    omega
  constructor
  · simp only [numberStep, hByte, hZero, hDigit, Nat.add_sub_cancel_left]
    by_cases hd0 : d = 0 <;> simp [hd0]
  · simp only [numberStep, hByte, hDigit, Nat.add_sub_cancel_left, if_true]

/-- The digits of a number, read behind its sign. -/
theorem run_digits (n : Nat) (negative : Bool) (found : List Token) :
    Lexer.run ⟨.number .sign ⟨negative, 0, false⟩, found⟩ (Bytes.ofText (toString n)) =
      some ⟨.number (if n = 0 then .zero else .whole) ⟨negative, n, false⟩, found⟩ := by
  induction n using Nat.strongRecOn with
  | ind n ih =>
    rw [Bytes.ofText_toString]
    split
    · rename_i hSmall
      simp only [Lexer.run, Lexer.step, (numberStep_digit hSmall _).1]
      by_cases hn : n = 0
      · subst hn
        rfl
      · simp [hn]
    · rename_i hLarge
      have hFront : n / 10 ≠ 0 := by omega
      have hWhole : 10 * (n / 10) + n % 10 = n := by omega
      have hn : n ≠ 0 := by omega
      rw [Lexer.run_append, ih (n / 10) (by omega), if_neg hFront, Option.bind_some]
      simp only [Lexer.run, Lexer.step, (numberStep_digit (Nat.mod_lt n (by omega)) _).2, hWhole,
        if_neg hn]

/-- A number that begins with a digit is read like one behind a sign. -/
theorem run_between_digits (n : Nat) (found : List Token) :
    Lexer.run ⟨.between, found⟩ (Bytes.ofText (toString n)) =
      Lexer.run ⟨.number .sign ⟨false, 0, false⟩, found⟩ (Bytes.ofText (toString n)) := by
  -- only the first byte matters, and it is a digit
  have hFirst : ∃ d < 10, ∃ rest, Bytes.ofText (toString n) = UInt8.ofNat (48 + d) :: rest := by
    induction n using Nat.strongRecOn with
    | ind n ih =>
      rw [Bytes.ofText_toString]
      split
      · exact ⟨n, ‹_›, [], rfl⟩
      · obtain ⟨d, hd, rest, hRest⟩ := ih (n / 10) (by omega)
        exact ⟨d, hd, rest ++ [UInt8.ofNat (48 + n % 10)], by rw [hRest]; rfl⟩
  obtain ⟨d, hd, rest, hRest⟩ := hFirst
  have hBegin : Lexer.step ⟨.between, found⟩ (UInt8.ofNat (48 + d)) =
      Lexer.step ⟨.number .sign ⟨false, 0, false⟩, found⟩ (UInt8.ofNat (48 + d)) := by
    have hDigits : ∀ d < 10, UInt8.ofNat (48 + d) ≠ 0x20 ∧ UInt8.ofNat (48 + d) ≠ 0x09 ∧
        UInt8.ofNat (48 + d) ≠ 0x0a ∧ UInt8.ofNat (48 + d) ≠ 0x0d ∧ UInt8.ofNat (48 + d) ≠ 0x7b ∧
        UInt8.ofNat (48 + d) ≠ 0x7d ∧ UInt8.ofNat (48 + d) ≠ 0x5b ∧ UInt8.ofNat (48 + d) ≠ 0x5d ∧
        UInt8.ofNat (48 + d) ≠ 0x3a ∧ UInt8.ofNat (48 + d) ≠ 0x2c ∧ UInt8.ofNat (48 + d) ≠ 0x22 ∧
        UInt8.ofNat (48 + d) ≠ 0x6e ∧ UInt8.ofNat (48 + d) ≠ 0x74 ∧ UInt8.ofNat (48 + d) ≠ 0x66 ∧
        UInt8.ofNat (48 + d) ≠ 0x2d := by decide
    simp only [Lexer.begin, Lexer.step, hDigits d hd, or_self, if_false, (numberStep_digit hd _).1,
      Option.map_some]
  rw [hRest, Lexer.run, Lexer.run, hBegin]

/-- A number that is printed is read as one token that may go on. -/
theorem reads_printNumber {n : Number} (h : n.inexact = false) :
    Reads (printNumber n) [.number n] := by
  intro found
  obtain ⟨negative, whole, inexact⟩ := n
  obtain rfl : inexact = false := h
  refine ⟨⟨.number (if whole = 0 then .zero else .whole) ⟨negative, whole, false⟩, found⟩, ?_,
    .number ?_ rfl⟩
  · cases negative with
    | true => exact run_digits whole true found
    | false =>
      show Lexer.run _ (Bytes.ofText (toString whole)) = _
      rw [run_between_digits, run_digits]
  · split
    · exact .inl rfl
    · exact .inr rfl

-- ---------------------------------------------------------------------------
-- Containers
-- ---------------------------------------------------------------------------

/-- Texts in each of which the lexer finds some tokens. -/
inductive ReadsEach : List Bytes → List (List Token) → Prop where
  | nil : ReadsEach [] []
  | cons {line : Bytes} {lines : List Bytes} {ts : List Token} {tss : List (List Token)}
      (first : Reads line ts) (rest : ReadsEach lines tss) : ReadsEach (line :: lines) (ts :: tss)

/-- Lines with commas and blanks between them, and what closes them. -/
theorem ReadsEach.join {lines : List Bytes} {tss : List (List Token)} (h : ReadsEach lines tss)
    (hSome : lines ≠ []) {blanks : Bytes} (hBlanks : ReadsAll blanks []) {b : UInt8} {rest : Bytes}
    {ts : List Token} (hb : isDelimiter b = true) (hRest : ReadsAll (b :: rest) ts) :
    ReadsAll (Json.join (0x2c :: blanks) lines ++ b :: rest) (commas tss ++ ts) := by
  induction h with
  | nil => exact absurd rfl hSome
  | @cons line lines us uss first others ih =>
    cases others with
    | nil => exact first.append hb hRest
    | @cons next more vs vss second others =>
      have hComma : ReadsAll (0x2c :: blanks) [.comma] :=
        (readsAll_single fun _ => rfl : ReadsAll [0x2c] [.comma]).append hBlanks
      have hTail : ReadsAll (0x2c :: blanks ++
          (Json.join (0x2c :: blanks) (next :: more) ++ b :: rest))
          ([.comma] ++ (commas (vs :: vss) ++ ts)) :=
        hComma.append (ih (List.cons_ne_nil _ _))
      have hAll := first.append (by rfl) hTail
      show ReadsAll (line ++ (0x2c :: blanks) ++ Json.join (0x2c :: blanks) (next :: more)
        ++ b :: rest) (us ++ .comma :: commas (vs :: vss) ++ ts)
      rw [List.append_assoc, List.append_assoc, List.append_assoc]
      exact hAll

/-- Lines between brackets, with nothing but commas between them. -/
theorem ReadsEach.enclosed {lines : List Bytes} {tss : List (List Token)}
    (h : ReadsEach lines tss) {opening closing : UInt8} {first last : Token}
    (hOpen : ReadsAll [opening] [first]) (hClose : ReadsAll [closing] [last])
    (hEnds : isDelimiter closing = true) :
    ReadsAll (opening :: Json.join [0x2c] lines ++ [closing]) (first :: commas tss ++ [last]) := by
  cases h with
  | nil => exact hOpen.append hClose
  | @cons line more ts uss head others =>
    have hLines : ReadsAll (Json.join [0x2c] (line :: more) ++ [closing])
        (commas (ts :: uss) ++ [last]) :=
      (ReadsEach.cons head others).join (List.cons_ne_nil _ _) (fun _ => rfl) hEnds hClose
    exact hOpen.append hLines

/-- Values between brackets, with commas, are read with these. -/
theorem ReadsEach.bracket {lines : List Bytes} {tss : List (List Token)} (h : ReadsEach lines tss)
    {opening closing : UInt8} {first last : Token} (depth : Nat)
    (hOpen : ReadsAll [opening] [first]) (hClose : ReadsAll [closing] [last]) :
    ReadsAll (Json.bracket opening closing depth lines) (first :: commas tss ++ [last]) := by
  unfold Json.bracket
  cases h with
  | nil => exact hOpen.append hClose
  | @cons line more ts uss head others =>
    have hLast : ReadsAll (newline depth ++ [closing]) [last] :=
      (readsAll_newline depth).append hClose
    have hLines : ReadsAll (Json.join (0x2c :: newline (depth + 1)) (line :: more) ++
        (newline depth ++ [closing])) (commas (ts :: uss) ++ [last]) :=
      (ReadsEach.cons head others).join (List.cons_ne_nil _ _) (readsAll_newline _) (by rfl) hLast
    have hAll := hOpen.append ((readsAll_newline (depth + 1)).append hLines)
    rw [if_neg (by simp)]
    simpa only [List.append_assoc, List.cons_append, List.nil_append] using hAll

mutual

/-- **The lexer finds the tokens of a value in its text.** -/
theorem reads_printIndented (depth : Nat) (v : Json) (h : v.isExact = true) :
    Reads (v.printIndented depth) v.tokens := by
  match v with
  | null =>
    exact ReadsAll.reads fun _ => rfl
  | bool true => exact ReadsAll.reads fun _ => rfl
  | bool false => exact ReadsAll.reads fun _ => rfl
  | number n => exact reads_printNumber (by simpa [isExact] using h)
  | string bytes => exact (readsAll_printString bytes).reads
  | array items =>
    exact ((readsEach_indentItems (depth + 1) items h).bracket depth (readsAll_single fun _ => rfl)
      (readsAll_single fun _ => rfl)).reads
  | object fields =>
    exact ((readsEach_indentFields (depth + 1) fields h).bracket depth
      (readsAll_single fun _ => rfl)
      (readsAll_single fun _ => rfl)).reads

/-- Each item of an array is read where it stands on a line of its own. -/
theorem readsEach_indentItems (depth : Nat) (items : List Json) (h : areExact items = true) :
    ReadsEach (indentItems depth items) (itemTokens items) := by
  match items with
  | [] => exact .nil
  | v :: rest =>
    obtain ⟨hFirst, hRest⟩ := Bool.and_eq_true_iff.1 h
    exact .cons (reads_printIndented depth v hFirst) (readsEach_indentItems depth rest hRest)

/-- Each field of an object is read where it stands on a line of its own. -/
theorem readsEach_indentFields (depth : Nat) (fields : List (Bytes × Json))
    (h : haveExact fields = true) :
    ReadsEach (indentFields depth fields) (fieldTokens fields) := by
  match fields with
  | [] => exact .nil
  | (name, v) :: rest =>
    obtain ⟨hFirst, hRest⟩ := Bool.and_eq_true_iff.1 h
    have hColon : ReadsAll [0x3a, 0x20] [.colon] := fun _ => rfl
    have hField := (readsAll_printString name).appendReads
      (hColon.appendReads (reads_printIndented depth v hFirst))
    exact .cons hField (readsEach_indentFields depth rest hRest)

end

mutual

/-- The lexer finds them also if there are no blanks. -/
theorem reads_print (v : Json) (h : v.isExact = true) : Reads v.print v.tokens := by
  match v with
  | null => exact ReadsAll.reads fun _ => rfl
  | bool true => exact ReadsAll.reads fun _ => rfl
  | bool false => exact ReadsAll.reads fun _ => rfl
  | number n => exact reads_printNumber (by simpa [isExact] using h)
  | string bytes => exact (readsAll_printString bytes).reads
  | array items =>
    exact ((readsEach_printItems items h).enclosed (readsAll_single fun _ => rfl)
      (readsAll_single fun _ => rfl) rfl).reads
  | object fields =>
    exact ((readsEach_printFields fields h).enclosed (readsAll_single fun _ => rfl)
      (readsAll_single fun _ => rfl) rfl).reads

/-- Each item of an array is read where all stand on one line. -/
theorem readsEach_printItems (items : List Json) (h : areExact items = true) :
    ReadsEach (printItems items) (itemTokens items) := by
  match items with
  | [] => exact .nil
  | v :: rest =>
    obtain ⟨hFirst, hRest⟩ := Bool.and_eq_true_iff.1 h
    exact .cons (reads_print v hFirst) (readsEach_printItems rest hRest)

/-- Each field of an object is read where all stand on one line. -/
theorem readsEach_printFields (fields : List (Bytes × Json)) (h : haveExact fields = true) :
    ReadsEach (printFields fields) (fieldTokens fields) := by
  match fields with
  | [] => exact .nil
  | (name, v) :: rest =>
    obtain ⟨hFirst, hRest⟩ := Bool.and_eq_true_iff.1 h
    have hColon : ReadsAll [0x3a] [.colon] := fun _ => rfl
    have hField := (readsAll_printString name).appendReads
      (hColon.appendReads (reads_print v hFirst))
    exact .cons hField (readsEach_printFields rest hRest)

end

-- ---------------------------------------------------------------------------
-- Building a value
-- ---------------------------------------------------------------------------

namespace Builder

/-- The builder takes one token at a time. -/
theorem run_cons (s : Builder) (t : Token) (rest : List Token) :
    s.run (t :: rest) = (s.step t).bind (·.run rest) := by
  rw [run]
  cases s.step t <;> rfl

theorem run_single (s : Builder) (t : Token) : s.run [t] = s.step t := by
  rw [run_cons]
  cases s.step t <;> rfl

/-- No value begins with a closing bracket. -/
theorem run_valueOrClose (stack : List Frame) (v : Json) (rest : List Token) :
    run ⟨stack, .valueOrClose⟩ (v.tokens ++ rest) = run ⟨stack, .value⟩ (v.tokens ++ rest) := by
  cases v <;> rfl

mutual

/-- **The reader builds the value from its tokens.** -/
theorem run_tokens (stack : List Frame) (v : Json) :
    run ⟨stack, .value⟩ v.tokens = complete stack v := by
  match v with
  | null => exact run_single ..
  | bool b => exact run_single ..
  | number n => exact run_single ..
  | string bytes => exact run_single ..
  | array [] => exact run_single ⟨.array [] :: stack, .valueOrClose⟩ .closeArray
  | array (v :: rest) =>
    have hItems := run_itemTokens stack [] (v :: rest) (List.cons_ne_nil _ _)
    show run ⟨.array [] :: stack, .valueOrClose⟩
      (commas (itemTokens (v :: rest)) ++ [.closeArray]) = _
    cases rest with
    | nil => exact (run_valueOrClose _ v _).trans hItems
    | cons w rest =>
      simp only [itemTokens, commas, List.append_assoc] at hItems ⊢
      exact (run_valueOrClose _ v _).trans hItems
  | object [] => exact run_single ⟨.object [] none :: stack, .nameOrClose⟩ .closeObject
  | object ((name, v) :: rest) =>
    have hFields := run_fieldTokens stack [] ((name, v) :: rest) (List.cons_ne_nil _ _)
    cases rest with
    | nil => exact hFields
    | cons w rest => exact hFields

/-- The members of an array, behind those that were read. -/
theorem run_itemTokens (stack : List Frame) (before items : List Json) (h : items ≠ []) :
    run ⟨.array before :: stack, .value⟩ (commas (itemTokens items) ++ [.closeArray]) =
      complete stack (.array (before.reverse ++ items)) := by
  match items with
  | [] => exact absurd rfl h
  | [v] =>
    show run _ (v.tokens ++ [.closeArray]) = _
    rw [run_append, run_tokens]
    show run ⟨.array (v :: before) :: stack, .separator⟩ [.closeArray] = _
    rw [run_single]
    show complete stack (.array (v :: before).reverse) = _
    rw [List.reverse_cons]
  | v :: w :: rest =>
    have hRest := run_itemTokens stack (v :: before) (w :: rest) (List.cons_ne_nil _ _)
    show run _ (v.tokens ++ .comma :: commas (itemTokens (w :: rest)) ++ [.closeArray]) = _
    rw [List.append_assoc, run_append, run_tokens]
    show run ⟨.array (v :: before) :: stack, .value⟩
      (commas (itemTokens (w :: rest)) ++ [.closeArray]) = _
    rw [hRest, List.reverse_cons, List.append_assoc]
    rfl

/-- The fields of an object, behind those that were read. -/
theorem run_fieldTokens (stack : List Frame) (before fields : List (Bytes × Json))
    (h : fields ≠ []) :
    run ⟨.object before none :: stack, .name⟩ (commas (fieldTokens fields) ++ [.closeObject]) =
      complete stack (.object (before.reverse ++ fields)) := by
  match fields with
  | [] => exact absurd rfl h
  | [(name, v)] =>
    show run ⟨.object before (some name) :: stack, .value⟩ (v.tokens ++ [.closeObject]) = _
    rw [run_append, run_tokens]
    show run ⟨.object ((name, v) :: before) none :: stack, .separator⟩ [.closeObject] = _
    rw [run_single]
    show complete stack (.object ((name, v) :: before).reverse) = _
    rw [List.reverse_cons]
  | (name, v) :: second :: rest =>
    have hRest := run_fieldTokens stack ((name, v) :: before) (second :: rest)
      (List.cons_ne_nil _ _)
    show run ⟨.object before (some name) :: stack, .value⟩
      (v.tokens ++ .comma :: commas (fieldTokens (second :: rest)) ++ [.closeObject]) = _
    rw [List.append_assoc, run_append, run_tokens]
    show run ⟨.object ((name, v) :: before) none :: stack, .name⟩
      (commas (fieldTokens (second :: rest)) ++ [.closeObject]) = _
    rw [hRest, List.reverse_cons, List.append_assoc]
    rfl

end

end Builder

/-- A text in which the lexer finds the tokens of a value spells this value. -/
theorem parse?_of_reads {text : Bytes} {v : Json} (h : Reads text v.tokens) :
    parse? text = some v := by
  obtain ⟨l, hl, hSettled⟩ := h []
  have hFinish : l.finish = some v.tokens := by
    rw [List.append_nil] at hSettled
    cases hSettled with
    | between =>
      show some v.tokens.reverse.reverse = _
      rw [List.reverse_reverse]
    | number hPart hTokens =>
      have hBack := congrArg List.reverse hTokens
      rw [List.reverse_reverse] at hBack
      rw [hBack]
      rcases hPart with rfl | rfl <;> rfl
  have hScan : Token.scan text = some v.tokens := by
    show (Lexer.run ⟨.between, []⟩ _).bind Lexer.finish = _
    rw [hl, Option.bind_some, hFinish]
  have hRun : Builder.start.run v.tokens = some ⟨[], .nothing v⟩ := Builder.run_tokens [] v
  simp [parse?, hScan, hRun, Builder.finish]

/-- **Reading inverts writing.** -/
theorem parse?_printIndented {v : Json} (h : v.isExact = true) (depth : Nat) :
    parse? (v.printIndented depth) = some v :=
  parse?_of_reads (reads_printIndented depth v h)

/-- **Reading inverts writing without blanks.** -/
theorem parse?_print {v : Json} (h : v.isExact = true) : parse? v.print = some v :=
  parse?_of_reads (reads_print v h)

end Json

end EndToEnd
