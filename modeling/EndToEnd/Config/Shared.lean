import EndToEnd.Config

/-!
# The shared configuration

One configuration that all parts of a program can ask for. It is set once: by whoever sets it first,
or to the standard one by whoever asks first.
-/

namespace EndToEnd

/-- A configuration that may not have been set yet. -/
structure SharedConfig where
  value : Option Config
  deriving DecidableEq

namespace SharedConfig

/-- Not set yet. -/
def unset : SharedConfig := ⟨none⟩

/-- The configuration, set to the standard one now if it was not set before. -/
def get (shared : SharedConfig) : Config × SharedConfig :=
  let config := shared.value.getD .standard
  (config, ⟨some config⟩)

/-- Whether it is set. -/
def isSet (shared : SharedConfig) : Bool := shared.value.isSome

/-- Sets it, unless it is set. -/
def set (shared : SharedConfig) (config : Config) : Except String SharedConfig :=
  if shared.isSet then .error "Config already initialized" else .ok ⟨some config⟩

end SharedConfig

end EndToEnd
