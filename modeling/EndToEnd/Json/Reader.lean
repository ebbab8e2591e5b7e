import EndToEnd.Json.Token

/-!
# Reading JSON

Values are built from tokens with the containers that are still open on a stack, so nesting may go
to any depth. A record is then read from a value field by field: from an object in any order, in
which unknown fields are passed over and a repeated known field is a fault, or from an array in the
declared order.
-/

namespace EndToEnd.Json

-- ---------------------------------------------------------------------------
-- Values
-- ---------------------------------------------------------------------------

/-- A container that is still open; what it holds is latest first. -/
inductive Frame where
  | array (items : List Json)
  /-- The name is that of the field whose value is being read. -/
  | object (fields : List (Bytes × Json)) (name : Option Bytes)

/-- What may come next. -/
inductive Expected where
  | value
  | valueOrClose
  | name
  | nameOrClose
  | colon
  | separator
  | nothing (result : Json)

/-- The state of the reader between tokens. -/
structure Builder where
  stack : List Frame
  expected : Expected

namespace Builder

/-- Nothing read yet. -/
def start : Builder := ⟨[], .value⟩

/-- Puts a finished value where it belongs. -/
def complete (stack : List Frame) (v : Json) : Option Builder :=
  match stack with
  | [] => some ⟨[], .nothing v⟩
  | .array items :: rest => some ⟨.array (v :: items) :: rest, .separator⟩
  | .object fields (some name) :: rest => some ⟨.object ((name, v) :: fields) none :: rest, .separator⟩
  | .object _ none :: _ => none

/-- Closes an array. -/
def closeArray (stack : List Frame) : Option Builder :=
  match stack with
  | .array items :: rest => complete rest (.array items.reverse)
  | _ => none

/-- Closes an object. -/
def closeObject (stack : List Frame) : Option Builder :=
  match stack with
  | .object fields none :: rest => complete rest (.object fields.reverse)
  | _ => none

/-- Begins a value. -/
def value (stack : List Frame) (t : Token) : Option Builder :=
  match t with
  | .null => complete stack .null
  | .bool b => complete stack (.bool b)
  | .number n => complete stack (.number n)
  | .string bytes => complete stack (.string bytes)
  | .openArray => some ⟨.array [] :: stack, .valueOrClose⟩
  | .openObject => some ⟨.object [] none :: stack, .nameOrClose⟩
  | _ => none

/-- Begins a field. -/
def name (stack : List Frame) (t : Token) : Option Builder :=
  match t, stack with
  | .string bytes, .object fields none :: rest => some ⟨.object fields (some bytes) :: rest, .colon⟩
  | _, _ => none

/-- Reads one token. -/
def step (s : Builder) (t : Token) : Option Builder :=
  match s.expected with
  | .value => value s.stack t
  | .valueOrClose => if t = .closeArray then closeArray s.stack else value s.stack t
  | .name => name s.stack t
  | .nameOrClose => if t = .closeObject then closeObject s.stack else name s.stack t
  | .colon => if t = .colon then some ⟨s.stack, .value⟩ else none
  | .separator =>
    match t, s.stack with
    | .comma, .array _ :: _ => some ⟨s.stack, .value⟩
    | .comma, .object _ _ :: _ => some ⟨s.stack, .name⟩
    | .closeArray, _ => closeArray s.stack
    | .closeObject, _ => closeObject s.stack
    | _, _ => none
  | .nothing _ => none

/-- Reads a list of tokens. -/
def run (s : Builder) : List Token → Option Builder
  | [] => some s
  | t :: rest =>
    match s.step t with
    | some s => s.run rest
    | none => none

/-- The value, if it is complete. -/
def finish (s : Builder) : Option Json :=
  match s.expected with
  | .nothing v => some v
  | _ => none

/-- Reading two lists of tokens one after the other is reading them joined. -/
theorem run_append (s : Builder) (a b : List Token) : s.run (a ++ b) = (s.run a).bind (·.run b) := by
  induction a generalizing s with
  | nil => rfl
  | cons x a ih =>
    simp only [List.cons_append, run]
    split
    · exact ih _
    · rfl

end Builder

/-- The value that a text spells. -/
def parse? (text : Bytes) : Option Json := do
  let tokens ← Token.scan text
  let s ← Builder.start.run tokens
  s.finish

-- ---------------------------------------------------------------------------
-- Records
-- ---------------------------------------------------------------------------

/-- What becomes of a record without a certain field. -/
inductive Presence where
  /-- A fault. -/
  | required
  /-- In an object the field counts as null; in an array it is a fault. -/
  | nullable
  /-- The field takes its default. -/
  | defaulted
  deriving DecidableEq, Repr

/-- A field of a record. -/
structure Field where
  name : String
  presence : Presence

/-- The fields given by an array in declared order. -/
def fieldsOfArray : List Field → List Json → Option (List (Option Json))
  | [], [] => some []
  | [], _ :: _ => none
  | f :: fields, [] =>
    if f.presence = .defaulted then (fieldsOfArray fields []).map (none :: ·) else none
  | _ :: fields, v :: items => (fieldsOfArray fields items).map (some v :: ·)

/-- The one value given for a field; a second one is a fault. -/
def onlyValue (members : List (Bytes × Json)) (f : Field) : Option (Option Json) :=
  match members.filter (·.1 = Bytes.ofText f.name) with
  | [] =>
    match f.presence with
    | .required => none
    | .nullable => some (some .null)
    | .defaulted => some none
  | [(_, v)] => some (some v)
  | _ => none

/-- The fields of a record in declared order, `none` standing for a default. -/
def fields? (spec : List Field) (v : Json) : Option (List (Option Json)) :=
  match v with
  | array items => fieldsOfArray spec items
  | object members =>
    if members.all fun m => (Bytes.toText? m.1).isSome then spec.mapM (onlyValue members) else none
  | _ => none

/-- A value that may be null. -/
def nullable? {α : Type} (read : Json → Option α) : Json → Option (Option α)
  | null => some none
  | v => (read v).map some

/-- The name of a constructor without arguments: a text, or an object with that name and null. -/
def name? : Json → Option String
  | string bytes => Bytes.toText? bytes
  | object [(name, null)] => Bytes.toText? name
  | _ => none

end EndToEnd.Json
