import EndToEnd.Bytes.Hex

/-!
# Universally unique identifiers

Their written form, the layout of a random one, and the forms in which they are accepted: plain,
hyphenated, hyphenated in braces, or hyphenated behind the name of their namespace.
-/

namespace EndToEnd.Uuid

/-- The number of a random identifier: version four, and the variant of the standard. -/
def ofRandom (n : Nat) : Nat :=
  (n &&& 0xffffffffffff4fffbfffffffffffffff) ||| 0x40008000000000000000

/-- The hyphenated form, in lower case. -/
def text (n : Nat) : String :=
  let digits := Hex.digits (Bytes.bigEndian 16 n)
  let part (start count : Nat) := (digits.drop start).take count
  String.ofList (part 0 8 ++ '-' :: part 8 4 ++ '-' :: part 12 4 ++ '-' :: part 16 4
    ++ '-' :: part 20 12)

/-- Whether text is thirty-two digits with hyphens in their four places. -/
def isHyphenated (text : List Char) : Bool :=
  text.length == 36 && text.zipIdx.all fun (c, i) =>
    if i = 8 ∨ i = 13 ∨ i = 18 ∨ i = 23 then c == '-' else (Hex.value? c).isSome

/-- Whether text is an identifier in one of the accepted forms. -/
def isValid (text : String) : Bool :=
  let chars := text.toList
  let namespaced := "urn:uuid:".toList
  (chars.length == 32 && chars.all fun c => (Hex.value? c).isSome)
    || isHyphenated chars
    || (chars.head? == some '\x7b' && chars.getLast? == some '\x7d'
      && isHyphenated (chars.drop 1).dropLast)
    || ((chars.take 9).map Char.toLower == namespaced && isHyphenated (chars.drop 9))

end EndToEnd.Uuid
