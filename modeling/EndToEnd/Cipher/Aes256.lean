import EndToEnd.Bytes.Basic

/-!
# AES-256

The forward direction of the block cipher, which is all that counter mode needs. The substitution
box is computed from its definition: inversion in the field of 256 elements, then an affine map.
-/

namespace EndToEnd.Aes256

/-- Doubling in the field of 256 elements. -/
@[inline] def double (x : UInt8) : UInt8 := (x <<< 1) ^^^ (if x &&& 0x80 = 0 then 0 else 0x1b)

/-- Multiplication in the field, over the low `bits` bits of the second factor. -/
def mul (x y : UInt8) : Nat → UInt8
  | 0 => 0
  | bits + 1 => (if y &&& 1 = 0 then 0 else x) ^^^ mul (double x) (y >>> 1) bits

/-- The inverse in the field, the 254th power; zero goes to zero. -/
def inverse (x : UInt8) : UInt8 :=
  (List.range 253).foldl (fun acc _ => mul acc x 8) x

/-- Rotation of a byte to the left. -/
def rotate (x n : UInt8) : UInt8 := (x <<< n) ||| (x >>> (8 - n))

/-- The affine map after the inversion. -/
def affine (x : UInt8) : UInt8 :=
  x ^^^ rotate x 1 ^^^ rotate x 2 ^^^ rotate x 3 ^^^ rotate x 4 ^^^ 0x63

/-- The substitution box. -/
def box : Array UInt8 := ((List.range 256).map fun i => affine (inverse (UInt8.ofNat i))).toArray

/-- Substitutes one byte. -/
def substitute (x : UInt8) : UInt8 := box[x.toNat]?.getD 0

-- ---------------------------------------------------------------------------
-- Round keys
-- ---------------------------------------------------------------------------

/-- The word that follows `words`, which are latest first: from the latest and the one eight back. -/
def nextWord (words : List Bytes) : Bytes :=
  let i := words.length
  let last := words.headD []
  let mixed :=
    if i % 8 = 0 then
      let constant := (List.range (i / 8 - 1)).foldl (fun c _ => double c) 1
      Bytes.xorWith ((last.drop 1 ++ last.take 1).map substitute) [constant]
    else if i % 8 = 4 then last.map substitute
    else last
  Bytes.xorWith mixed (words.getD 7 [])

/-- Extends a list of words, latest first, by `n` words. -/
def extendWords (words : List Bytes) : Nat → List Bytes
  | 0 => words
  | n + 1 => extendWords (nextWord words :: words) n

/-- The fifteen round keys of a key. -/
def roundKeys (key : Key) : List Bytes :=
  Bytes.chunks 16 (extendWords (Bytes.chunks 4 key.bytes).reverse 52).reverse.flatten

-- ---------------------------------------------------------------------------
-- Rounds
-- ---------------------------------------------------------------------------

/-- Moves row `r` of the state, which is written column by column, `r` places to the left. -/
def shiftRows (state : Bytes) : Bytes :=
  let cells := state.toArray
  (List.range 16).map fun i => cells[5 * i % 16]?.getD 0

/-- Multiplies each column by the fixed polynomial. -/
def mixColumns : Bytes → Bytes
  | a :: b :: c :: d :: rest =>
    let all := a ^^^ b ^^^ c ^^^ d
    (a ^^^ all ^^^ double (a ^^^ b)) :: (b ^^^ all ^^^ double (b ^^^ c)) ::
      (c ^^^ all ^^^ double (c ^^^ d)) :: (d ^^^ all ^^^ double (d ^^^ a)) :: mixColumns rest
  | short => short

/-- The rounds after the first key has been added; the last one does not mix columns. -/
def rounds (state : Bytes) : List Bytes → Bytes
  | [] => state
  | [last] => Bytes.xorWith (shiftRows (state.map substitute)) last
  | key :: keys => rounds (Bytes.xorWith (mixColumns (shiftRows (state.map substitute))) key) keys

/-- Encrypts one block under expanded round keys. -/
def encryptBlock (keys : List Bytes) (block : Bytes) : Bytes :=
  match keys with
  | [] => block
  | first :: keys => rounds (Bytes.xorWith block first) keys

end EndToEnd.Aes256
