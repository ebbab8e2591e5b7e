import EndToEnd.Text.Blank

/-!
# Encryption levels

The strength of a message, chosen by its sender. A level is known by a name and by a number that
travels in envelopes; names are read in either case, with blanks around them, and with either sign
between the words.
-/

namespace EndToEnd

/-- The strength of a message. -/
inductive Level where
  | basic
  | enhanced
  | military
  | quantumSafe
  deriving DecidableEq, Repr, Inhabited

namespace Level

/-- The number of a level in envelopes. -/
def tag : Level → UInt8
  | basic => 1
  | enhanced => 2
  | military => 3
  | quantumSafe => 4

/-- The level of a number. -/
def ofTag? (tag : UInt8) : Option Level :=
  if tag = 1 then some basic
  else if tag = 2 then some enhanced
  else if tag = 3 then some military
  else if tag = 4 then some quantumSafe
  else none

/-- The name of a level. -/
def name : Level → String
  | basic => "basic"
  | enhanced => "enhanced"
  | military => "military"
  | quantumSafe => "quantum-safe"

/-- The name of a level in one word. -/
def word : Level → String
  | basic => "Basic"
  | enhanced => "Enhanced"
  | military => "Military"
  | quantumSafe => "QuantumSafe"

/-- A name in the form in which names are compared. -/
def normalize (text : String) : String :=
  String.ofList ((Text.trim text).toList.map fun c => if c = '_' then '-' else c.toLower)

/-- The level of a name; otherwise the name in the form in which it was looked up. -/
def parse (text : String) : Except String Level :=
  let name := normalize text
  if name = "basic" then .ok basic
  else if name = "enhanced" then .ok enhanced
  else if name = "military" then .ok military
  else if name = "quantum-safe" ∨ name = "quantumsafe" then .ok quantumSafe
  else .error name

/-- What is reported for a name that no level has. -/
def unknownName (name : String) : String := "unknown encryption level: " ++ name

@[simp] theorem ofTag?_tag (level : Level) : ofTag? level.tag = some level := by
  cases level <;> rfl

end Level

end EndToEnd
