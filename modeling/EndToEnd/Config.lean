import EndToEnd.Envelope.Wellformed
import EndToEnd.Rotation.Policy
import EndToEnd.Text.Decimal

/-!
# Configuration

Everything about the protocol that can be tuned. A configuration is checked before a device is made
from it; some of it can be set by variables, where a value that cannot be read counts as not set.

Main fact: `validate_eq_ok_iff` (which configurations can be used).
-/

namespace EndToEnd

/-- The tunable parts of the protocol. -/
structure Config where
  /-- The level of messages for which none is chosen. -/
  level : Level
  /-- Whether messages go to verified peers only. -/
  requireVerification : Bool
  rotation : Rotation.Policy
  /-- How long an establishment that was asked for may stay open. -/
  establishmentTimeout : Duration
  /-- How many messages of an epoch may be passed over at a time. -/
  maxSkip : UInt64
  limits : Envelope.Limits
  /-- How often a passphrase is hashed. -/
  iterations : UInt32
  /-- Bytes of salt for a passphrase. A machine word, written as a number: it is compared with sixteen
  and otherwise only says how many bytes are drawn. That so many bytes may be more than memory holds
  is not modelled. -/
  saltLength : Nat
  /-- How long audit entries are kept. -/
  retention : Duration
  deriving DecidableEq, Repr

namespace Config

/-- The configuration of a device that asks for nothing else. -/
def standard : Config where
  level := .enhanced
  requireVerification := false
  rotation := ⟨.ofSecs 86400, 10000, .ofSecs 300⟩
  establishmentTimeout := .ofSecs 30
  maxSkip := 1000
  limits := ⟨1048576, 64⟩
  iterations := 100000
  saltLength := 32
  retention := .ofSecs 7776000

instance : Inhabited Config := ⟨standard⟩

/-- What makes a configuration unusable, if anything does. -/
def fault? (c : Config) : Option String :=
  if c.rotation.threshold = 0 then some "key_rotation_message_threshold must be at least 1"
  else if c.rotation.interval.isZero then some "key_rotation_interval must be positive"
  else if c.maxSkip = 0 then some "max_skip must be at least 1"
  else if c.limits.maxDeviceId = 0 ∨ 65535 < c.limits.maxDeviceId then
    some "max_device_id_len out of range"
  else if c.iterations = 0 ∨ c.saltLength < 16 then some "pbkdf2 parameters too weak"
  else none

/-- Accepts a configuration or says what makes it unusable. -/
def validate (c : Config) : Except Failure Unit :=
  match c.fault? with
  | some fault => .error (.invalidInput fault)
  | none => .ok ()

/-- Which configurations can be used. -/
theorem validate_eq_ok_iff {c : Config} :
    c.validate = .ok () ↔
      c.rotation.threshold ≠ 0 ∧ c.rotation.interval.isZero = false ∧ c.maxSkip ≠ 0 ∧
        c.limits.maxDeviceId ≠ 0 ∧ c.limits.maxDeviceId ≤ 65535 ∧ c.iterations ≠ 0 ∧
        16 ≤ c.saltLength := by
  have hFault : c.validate = .ok () ↔ c.fault? = none := by
    unfold validate
    cases c.fault? <;> simp
  have hPassed {p : Prop} [Decidable p] {fault : String} {rest : Option String} :
      (if p then some fault else rest) = none ↔ ¬p ∧ rest = none := by
    split <;> simp [*]
  rw [hFault]
  unfold fault?
  simp only [hPassed, not_or, Nat.not_lt, Bool.not_eq_true, and_true, and_assoc]

-- ---------------------------------------------------------------------------
-- Variables
-- ---------------------------------------------------------------------------

/-- A word for yes or no. -/
def flag? (text : String) : Option Bool :=
  if text = "true" then some true else if text = "false" then some false else none

/-- A number of 64 bits. -/
def word64? (text : String) : Option UInt64 := (Text.number? UInt64.size text).map UInt64.ofNat

/-- A number of 32 bits. -/
def word32? (text : String) : Option UInt32 := (Text.number? UInt32.size text).map UInt32.ofNat

/-- The level of a name. -/
def level? (text : String) : Option Level := (Level.parse text).toOption

/-- The standard configuration with what variables set. -/
def ofVariables (value? : String → Option String) : Config :=
  let read {α : Type} (name : String) (parse : String → Option α) (otherwise : α) : α :=
    ((value? ("PALISADE_" ++ name)).bind fun text => parse (Text.trim text)).getD otherwise
  let seconds (name : String) (otherwise : Duration) : Duration :=
    read name (fun text => (word64? text).map .ofSecs) otherwise
  let c := standard
  { c with
    level := read "DEFAULT_LEVEL" level? c.level
    rotation := {
      interval := seconds "ROTATION_INTERVAL_SECS" c.rotation.interval
      threshold := read "ROTATION_MESSAGE_THRESHOLD" word64? c.rotation.threshold
      grace := seconds "GRACE_WINDOW_SECS" c.rotation.grace }
    establishmentTimeout := seconds "ESTABLISHMENT_TIMEOUT_SECS" c.establishmentTimeout
    requireVerification := read "REQUIRE_VERIFICATION" flag? c.requireVerification
    iterations := read "PBKDF2_ITERATIONS" word32? c.iterations }

end Config

end EndToEnd
