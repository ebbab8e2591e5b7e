import EndToEnd.Bytes.Basic

/-!
# Descriptions of secrets

What is shown where a secret would stand: nothing of it but its length.
-/

namespace EndToEnd.Text

/-- What is shown for a symmetric key. -/
def redactedKey : String := "SymmetricKey([REDACTED])"

/-- What is shown for secret bytes. -/
def redactedSecret (bytes : Bytes) : String := s!"SecretBytes([REDACTED; {bytes.length}])"

end EndToEnd.Text
