import EndToEnd.Storage.SavedState

/-!
# Stores

Where a saved state is kept: in memory, or as text in a file. A file can be missing, hold a text
that is no state or one of a later version, or be no file at all.
-/

namespace EndToEnd

/-- What is found at the path of a file. -/
inductive PathContent where
  | nothing
  | text (bytes : Bytes)
  | directory
  deriving DecidableEq

/-- A place for a saved state. -/
inductive Store where
  | memory (state : Option SavedState)
  | file (content : PathContent)
  deriving DecidableEq

namespace Store

/-- What is reported when the path leads to a directory. -/
def noFile : Failure := .storage "the path leads to a directory"

/-- Reads the text of a file. -/
def parseFile (text : Bytes) : Except Failure SavedState :=
  match SavedState.parse text with
  | .error failure => .error failure
  | .ok state =>
    if SavedState.currentVersion < state.version then
      .error (.storage (s!"state version {state.version.toNat} is newer than supported "
        ++ toString SavedState.currentVersion.toNat))
    else .ok state

/-- The saved state, if there is one. -/
def load : Store → Except Failure (Option SavedState)
  | memory state => .ok state
  | file .nothing => .ok none
  | file (.text bytes) => (parseFile bytes).map some
  | file .directory => .error noFile

/-- Saves a state instead of the one before. -/
def save (state : SavedState) : Store → Except Failure Store
  | memory _ => .ok (memory (some state))
  | file .directory => .error noFile
  | file _ => .ok (file (.text state.print))

/-- Forgets the saved state. -/
def clear : Store → Except Failure Store
  | memory _ => .ok (memory none)
  | file .directory => .error noFile
  | file _ => .ok (file .nothing)

end Store

end EndToEnd
