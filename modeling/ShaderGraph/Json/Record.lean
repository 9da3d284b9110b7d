import ShaderGraph.Json.Skip

/-!
# Reading records

Typed readers for the shapes that a file prescribes: texts, lists,
dictionaries, values that may be null, and records. A record is an object with
known member names, or a list of its values in the order of its fields. Names
that are not fields are passed over. A field that is not required keeps the
value it has in the blank record.

A record's own faults show up where reading stopped, with a closing bracket
that follows read as well.
-/

namespace ShaderGraph.Json

open ShaderGraph.Text

/-! ## Mismatches -/

/-- What kind of value a scalar is. -/
def Found.ofScalar : Value → Found
  | .null => .null
  | .bool b => .bool b
  | .number n => .number n
  | .string s => .string s
  | .array _ => .sequence
  | .object _ => .map

/-- The failure of a text that holds another kind of value than expected. A
scalar is read before it is refused, and a bracket is not. -/
def mismatch (expected : String) (cs : List Char) : Failure :=
  match cs with
  | '[' :: rest => .before (.wrongType .sequence expected) ('[' :: rest)
  | '{' :: rest => .before (.wrongType .map expected) ('{' :: rest)
  | cs =>
    match readScalar cs with
    | .error f => f
    | .ok (v, rest) => .before (.wrongType (.ofScalar v) expected) rest

/-! ## Basic shapes -/

/-- A text. -/
def string : Reader String := fun _ _ cs =>
  match skipBlanks cs with
  | '"' :: rest => readText rest
  | rest => .error (mismatch "a string" rest)

/-- A value or null. -/
def optional {α : Type} (reader : Reader α) : Reader (Option α) := fun budget depth cs =>
  match skipBlanks cs with
  | 'n' :: rest => (readLiteral ['u', 'l', 'l'] rest).map (none, ·)
  | rest => (reader budget depth rest).map (fun p => (some p.1, p.2))

/-- A list. -/
def list {α : Type} (reader : Reader α) : Reader (List α) := fun budget depth cs =>
  match skipBlanks cs, depth with
  | '[' :: rest, 0 => .error (.on .tooDeep ('[' :: rest))
  | '[' :: rest, depth + 1 => readItems (reader budget depth) budget true rest
  | rest, _ => .error (mismatch "a sequence" rest)

/-- A dictionary; of several members with one name the last counts. -/
def dict {α : Type} (reader : Reader α) : Reader (Dict α) := fun budget depth cs =>
  match skipBlanks cs, depth with
  | '{' :: rest, 0 => .error (.on .tooDeep ('{' :: rest))
  | '{' :: rest, depth + 1 =>
    (readMembers (reader budget depth) budget true rest).map
      (fun p => (Dict.ofList p.1, p.2))
  | rest, _ => .error (mismatch "a map" rest)

/-! ## Records -/

/-- A field of a record. -/
structure Field (α : Type) where
  name : String
  required : Bool
  /-- Read the field's value and put it into a record. -/
  store : α → Reader α

/-- A field whose value `reader` reads and `set` puts into the record. -/
def Field.of {α β : Type} (name : String) (required : Bool) (reader : Reader β)
    (set : α → β → α) : Field α where
  name := name
  required := required
  store record budget depth cs := (reader budget depth cs).map (fun p => (set record p.1, p.2))

/-- The shape of a record. -/
structure Schema (α : Type) where
  /-- What a message calls the record. -/
  title : String
  /-- The record before any field is read. -/
  blank : α
  fields : List (Field α)

/-- What a message calls the record given as a list. -/
def Schema.listTitle {α : Type} (s : Schema α) : String :=
  s.title ++ " with " ++ toString s.fields.length
    ++ (if s.fields.length = 1 then " element" else " elements")

/-- The text after blanks and a closing bracket, if one follows. -/
def afterClose (close : Char) (cs : List Char) : List Char :=
  match skipBlanks cs with
  | c :: rest => if c = close then rest else c :: rest
  | [] => []

/-- The fields of a record given as a list, from the field number `index` on,
through the closing bracket. -/
def readPositional {α : Type} (title : String) (budget depth : Nat) :
    List (Field α) → (index : Nat) → (first : Bool) → α → List Char →
      Except Failure (α × List Char)
  | [], _, _, record, cs => (readListEnd cs).map (record, ·)
  | field :: fields, index, first, record, cs => do
    let (more, rest) ← nextItem first cs
    if more then
      let (record, rest) ← field.store record budget depth rest
      readPositional title budget depth fields (index + 1) false record rest
    else if field.required then
      .error (.before (.wrongLength index title) (afterClose ']' rest))
    else readPositional title budget depth fields (index + 1) first record rest

/-- The members of a record given as an object, through the closing bracket; at
most `count` of them. `seen` holds the names of the fields read so far. -/
def readNamed {α : Type} (fields : List (Field α)) (budget depth : Nat) :
    (count : Nat) → (first : Bool) → (seen : List String) → α → List Char →
      Except Failure (α × List Char)
  | 0, _, _, _, cs => .error (.before .eofInObject cs)
  | count + 1, first, seen, record, cs => do
    let (more, rest) ← nextName first cs
    if more then
      let (name, rest) ← readText rest
      match fields.find? (·.name == name) with
      | none =>
        let rest ← readColon rest
        let rest ← skipValue budget rest
        readNamed fields budget depth count false seen record rest
      | some field =>
        if seen.contains name then
          .error (.before (.duplicateField name) (afterClose '}' rest))
        else
          let rest ← readColon rest
          let (record, rest) ← field.store record budget depth rest
          readNamed fields budget depth count false (name :: seen) record rest
    else
      match fields.find? (fun field => field.required && !seen.contains field.name) with
      | some field => .error (.before (.missingField field.name) rest)
      | none => return (record, rest)

/-- A record. -/
def record {α : Type} (s : Schema α) : Reader α := fun budget depth cs =>
  match skipBlanks cs, depth with
  | '[' :: rest, 0 => .error (.on .tooDeep ('[' :: rest))
  | '{' :: rest, 0 => .error (.on .tooDeep ('{' :: rest))
  | '[' :: rest, depth + 1 =>
    readPositional s.listTitle budget depth s.fields 0 true s.blank rest
  | '{' :: rest, depth + 1 => readNamed s.fields budget depth budget true [] s.blank rest
  | rest, _ => .error (mismatch s.title rest)

end ShaderGraph.Json
