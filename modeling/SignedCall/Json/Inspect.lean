import SignedCall.Json.Basic
import SignedCall.Text.Quoted

/-!
# Values in messages

How messages name the type of a value and show the value itself.
-/

namespace SignedCall.Json

/-- The name of a value's type in messages. -/
def typeName : Json → String
  | .null => "NoneType"
  | .bool _ => "bool"
  | .number (.whole _) => "int"
  | .number (.real _) => "float"
  | .text _ => "str"
  | .array _ => "list"
  | .object _ => "dict"

mutual

/-- A value as messages show it. -/
def inspect : Json → String
  | .null => "None"
  | .bool b => if b then "True" else "False"
  | .number n => n.text
  | .text s => Text.quoted s
  | .array items => "[" ++ ", ".intercalate (inspectItems items) ++ "]"
  | .object fields => "\x7b" ++ ", ".intercalate (inspectFields fields) ++ "\x7d"

/-- The items of an array as messages show them. -/
def inspectItems : List Json → List String
  | [] => []
  | item :: rest => inspect item :: inspectItems rest

/-- The fields of an object as messages show them. -/
def inspectFields : List (String × Json) → List String
  | [] => []
  | (name, value) :: rest => (Text.quoted name ++ ": " ++ inspect value) :: inspectFields rest

end

/-- A value as part of a message: a text as it is, anything else as messages show it. -/
def display : Json → String
  | .text s => s
  | j => j.inspect

end SignedCall.Json
