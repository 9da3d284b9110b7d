import ShaderGraph.Decimal.Double

/-!
# JSON values

Numbers are whole numbers of 64 bits, signed or not, or doubles. The members
of an object are kept in key order, each key once; `insertEntry` builds them
so.
-/

namespace ShaderGraph.Json

open ShaderGraph.Decimal

/-- A JSON number. -/
inductive Number where
  /-- A whole number that fits in 64 bits, signed or unsigned. -/
  | integer (n : Int) (inRange : -Int.pow 2 63 ≤ n ∧ n < Int.pow 2 64)
  /-- Any other number. -/
  | double (d : Double)
deriving DecidableEq, Repr

/-- A JSON value. -/
inductive Value where
  | null
  | bool (b : Bool)
  | number (n : Number)
  | string (s : String)
  | array (items : List Value)
  | object (members : List (String × Value))
deriving Repr

instance : Inhabited Value := ⟨.null⟩

/-! ## Equality -/

mutual

/-- Whether two values are the same. -/
def Value.decEq : (a b : Value) → Decidable (a = b)
  | .null, .null => isTrue rfl
  | .bool a, .bool b => decidable_of_iff (a = b) (by simp)
  | .number a, .number b => decidable_of_iff (a = b) (by simp)
  | .string a, .string b => decidable_of_iff (a = b) (by simp)
  | .array a, .array b =>
    match decEqItems a b with
    | isTrue h => isTrue (by rw [h])
    | isFalse h => isFalse (fun e => h (by injection e))
  | .object a, .object b =>
    match decEqMembers a b with
    | isTrue h => isTrue (by rw [h])
    | isFalse h => isFalse (fun e => h (by injection e))
  | .null, .bool _ | .null, .number _ | .null, .string _ | .null, .array _ | .null, .object _
  | .bool _, .null | .bool _, .number _ | .bool _, .string _ | .bool _, .array _
  | .bool _, .object _
  | .number _, .null | .number _, .bool _ | .number _, .string _ | .number _, .array _
  | .number _, .object _
  | .string _, .null | .string _, .bool _ | .string _, .number _ | .string _, .array _
  | .string _, .object _
  | .array _, .null | .array _, .bool _ | .array _, .number _ | .array _, .string _
  | .array _, .object _
  | .object _, .null | .object _, .bool _ | .object _, .number _ | .object _, .string _
  | .object _, .array _ => isFalse (by simp)

/-- Whether two lists of values are the same. -/
def decEqItems : (a b : List Value) → Decidable (a = b)
  | [], [] => isTrue rfl
  | [], _ :: _ | _ :: _, [] => isFalse (by simp)
  | x :: xs, y :: ys =>
    match x.decEq y with
    | isFalse h => isFalse (fun e => h (by injection e))
    | isTrue hx =>
      match decEqItems xs ys with
      | isFalse h => isFalse (fun e => h (by injection e))
      | isTrue hxs => isTrue (by rw [hx, hxs])

/-- Whether two lists of members are the same. -/
def decEqMembers : (a b : List (String × Value)) → Decidable (a = b)
  | [], [] => isTrue rfl
  | [], _ :: _ | _ :: _, [] => isFalse (by simp)
  | (k, x) :: xs, (l, y) :: ys =>
    if hk : k = l then
      match x.decEq y with
      | isFalse h => isFalse (fun e => h (by injection e with e; injection e))
      | isTrue hx =>
        match decEqMembers xs ys with
        | isFalse h => isFalse (fun e => h (by injection e))
        | isTrue hxs => isTrue (by rw [hk, hx, hxs])
    else isFalse (fun e => hk (by injection e with e; injection e))

end

instance : DecidableEq Value := Value.decEq

/-! ## Truth -/

/-- Whether a number differs from zero. -/
def Number.isNonzero : Number → Bool
  | .integer n _ => n != 0
  | .double d => d.units != 0

/-- Whether a value counts as true in a condition: null, `false`, zero and the
empty text do not. -/
def Value.isTruthy : Value → Bool
  | .null => false
  | .bool b => b
  | .number n => n.isNonzero
  | .string s => s != ""
  | .array _ | .object _ => true

end ShaderGraph.Json
