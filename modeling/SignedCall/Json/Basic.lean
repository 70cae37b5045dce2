import SignedCall.Number.Basic

/-!
# JSON values
-/

namespace SignedCall

/-- A JSON value. The names of an object are distinct and keep the order in which they first occur. -/
inductive Json where
  | null
  | bool (b : Bool)
  | number (n : Number)
  | text (s : String)
  | array (items : List Json)
  | object (fields : List (String × Json))
  deriving Repr, Inhabited, BEq

namespace Json

/-- The value under a name. -/
def get? (name : String) : Json → Option Json
  | .object fields => fields.lookup name
  | _ => none

/-- The value under a name, null if there is none. -/
def getD (name : String) (j : Json) : Json := (j.get? name).getD .null

/-- Whether the value is null. -/
def isNull : Json → Bool
  | .null => true
  | _ => false

/-- The text of a text value. -/
def text? : Json → Option String
  | .text s => some s
  | _ => none

/-- Whether a value counts as true where a truth value is asked for: null, zero and whatever is empty do not. -/
def isTruthy : Json → Bool
  | .null => false
  | .bool b => b
  | .number n => !n.isZero
  | .text s => !s.isEmpty
  | .array items => !items.isEmpty
  | .object fields => !fields.isEmpty

/-- Puts a value under a name: in the name's place if it occurs, else at the end. -/
def putField (name : String) (value : Json) : List (String × Json) → List (String × Json)
  | [] => [(name, value)]
  | (n, v) :: rest => if n == name then (n, value) :: rest else (n, v) :: putField name value rest

/-- The object with the given fields; of a repeated name the last value counts, in the place of the first. -/
def ofFields (fields : List (String × Json)) : Json :=
  .object (fields.foldl (fun acc (n, v) => putField n v acc) [])

end Json

end SignedCall
