import EndToEnd.Proofs.Run

/-!
# Plain primitives

The protocol promises what `Primitives.Lawful` lets it promise, whatever the primitives are. Those
of this module hide nothing, but they are lawful and small enough to run by hand: keys are their own
public halves, and a tag is the front of the key that it was made with.

Main results:

* `Primitives.plain_lawful` — the laws can be met.
* `Device.plain` — devices over these primitives that know each other.
-/

namespace EndToEnd

namespace Primitives

/-- Primitives that hide nothing. -/
def plain : Primitives where
  agreementPublic key := key
  agree? a b := some (.leading 32 (Bytes.xorWith a.bytes b.bytes))
  signingPublic key := key
  sign key _ := .leading 64 (key.bytes ++ key.bytes)
  verify key _ signature := signature = key.bytes ++ key.bytes
  encrypt _ key _ plaintext _ := ⟨plaintext, key.bytes.take 16⟩
  decrypt? _ key _ box _ := if box.tag = key.bytes.take 16 then some box.ciphertext else none
  mac _ key data := UInt8.ofNat data.length :: key.bytes
  deriveKey _ _ secret _ := .leading 32 secret
  digest bytes := .leading 32 bytes
  passphraseKey passphrase _ _ := .leading 32 passphrase

theorem xorWith_comm (a b : Bytes) (h : a.length = b.length) :
    Bytes.xorWith a b = Bytes.xorWith b a := by
  induction a generalizing b with
  | nil => cases b with
    | nil => rfl
    | cons y b => cases h
  | cons x a ih => cases b with
    | nil => cases h
    | cons y b =>
      show (x ^^^ y) :: Bytes.xorWith a b = (y ^^^ x) :: Bytes.xorWith b a
      rw [UInt8.xor_comm, ih b (Nat.succ.inj h)]

/-- **The laws can be met.** -/
theorem plain_lawful : plain.Lawful where
  agree_comm a b := by
    show some (FixedBytes.leading 32 (Bytes.xorWith a.bytes b.bytes)) =
      some (FixedBytes.leading 32 (Bytes.xorWith b.bytes a.bytes))
    rw [xorWith_comm a.bytes b.bytes (a.length_eq.trans b.length_eq.symm)]
  verify_sign key message := by
    show decide ((FixedBytes.leading 64 (key.bytes ++ key.bytes)).bytes =
      key.bytes ++ key.bytes) = true
    have hLength : (key.bytes ++ key.bytes).length = 64 := by simp [key.length_eq]
    rw [decide_eq_true_eq]
    show ((key.bytes ++ key.bytes) ++ List.replicate 64 0).take 64 = key.bytes ++ key.bytes
    rw [← hLength, List.take_left]
  decrypt?_encrypt alg key nonce plaintext associated _ := if_pos rfl
  length_encrypt _ _ _ _ _ := rfl
  length_tag alg key nonce plaintext associated := by
    show (key.bytes.take 16).length = 16
    simp [key.length_eq]

end Primitives

/-- A result that is there when it is worked out. -/
theorem exists_ok_of_map {ε α β : Type} {r : Except ε α} {f : α → β} {b : β}
    (h : r.toOption.map f = some b) : ∃ a, r = .ok a ∧ f a = b := by
  cases r with
  | error fault => cases h
  | ok a => exact ⟨a, rfl, Option.some.inj h⟩

/-- The first of a list that is not empty. -/
theorem headD_mem {α : Type} {l : List α} {x : α} (h : l.head?.isSome = true) : l.headD x ∈ l := by
  cases l with
  | nil => cases h
  | cons first rest => exact .head _

namespace Device

/-- An identity whose keys are known. -/
def plainIdentity (id : String) (first : UInt8) : Identity :=
  ⟨id, 0, ⟨.leading 32 [first], .leading 32 [first + 1]⟩⟩

/-- A device over plain primitives at time zero. -/
def plain (config : Config) (id : String) (first : UInt8) : Device :=
  fresh .plain config .memory (some (plainIdentity id first)) 0 ⟨fun _ => first, 0⟩

/-- Puts the device with an identity like that on file. -/
def meetPlain (id : String) (first : UInt8) : Operation :=
  .remember id ((plainIdentity id first).publicKeys .plain)

/-- The envelopes for Bob that Ann writes, once she has him on file. -/
def plainLetters (config : Config) (ops : List Operation) : List Bytes :=
  (during .plain (plain config "ann" 1) (meetPlain "bob" 3 :: ops)).written "bob"

theorem create_plain {config : Config} (id : String) (first : UInt8)
    (h : config.validate = .ok ()) :
    create .plain config .memory (some (plainIdentity id first)) 0 ⟨fun _ => first, 0⟩ =
      .ok (plain config id first) := by
  unfold create
  rw [h]
  rfl

theorem plain_starts {config : Config} (id : String) (first : UInt8)
    (h : config.validate = .ok ()) : Starts .plain (plain config id first) :=
  .created (create_plain id first h)

end Device

end EndToEnd
