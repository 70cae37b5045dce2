import SignedCall.Json.Basic
import SignedCall.Number.Reading
import SignedCall.Bytes.Hex
import SignedCall.Text.Split

/-!
# Reading JSON

A reader for JSON texts. Besides the standard grammar it takes the names `NaN`, `Infinity` and `-Infinity` for numbers.
A number without fraction and exponent is whole, of any size.
-/

namespace SignedCall.Json

/-- White space between tokens. -/
def isSpace (c : Char) : Bool := c == ' ' || c == '\t' || c == '\n' || c == '\r'

/-- The code unit that four hexadecimal digits write. -/
def hexUnit? (a b c d : Char) : Option Nat := do
  let a ← Bytes.hexValue? a
  let b ← Bytes.hexValue? b
  let c ← Bytes.hexValue? c
  let d ← Bytes.hexValue? d
  some (((a * 16 + b) * 16 + c) * 16 + d)

/-- The character that a one-letter escape stands for. -/
def simpleEscape? (c : Char) : Option Char :=
  if c == '"' || c == '\\' || c == '/' then some c
  else if c == 'b' then some '\x08'
  else if c == 'f' then some '\x0c'
  else if c == 'n' then some '\n'
  else if c == 'r' then some '\r'
  else if c == 't' then some '\t'
  else none

/-- Joins surrogate pairs of code units; a surrogate that stands alone is no character and is replaced. -/
def joinSurrogates : List Nat → List Char
  | [] => []
  | u :: rest =>
    if 0xd800 ≤ u ∧ u ≤ 0xdbff then
      match rest with
      | v :: more =>
        if 0xdc00 ≤ v ∧ v ≤ 0xdfff then
          Char.ofNat (0x10000 + (u - 0xd800) * 0x400 + (v - 0xdc00)) :: joinSurrogates more
        else '\ufffd' :: joinSurrogates (v :: more)
      | [] => ['\ufffd']
    else if 0xdc00 ≤ u ∧ u ≤ 0xdfff then '\ufffd' :: joinSurrogates rest
    else Char.ofNat u :: joinSurrogates rest

/-- The code units of a string up to its closing mark, and what follows the mark. -/
def readUnits? : List Char → Option (List Nat × List Char)
  | [] => none
  | '"' :: rest => some ([], rest)
  | '\\' :: 'u' :: a :: b :: c :: d :: rest => do
    let u ← hexUnit? a b c d
    let (us, rest) ← readUnits? rest
    some (u :: us, rest)
  | '\\' :: c :: rest => do
    let e ← simpleEscape? c
    let (us, rest) ← readUnits? rest
    some (e.toNat :: us, rest)
  | c :: rest =>
    if c == '\\' || c.toNat < 0x20 then none
    else do
      let (us, rest) ← readUnits? rest
      some (c.toNat :: us, rest)

/-- A string after its opening mark. -/
def readString? (cs : List Char) : Option (String × List Char) :=
  (readUnits? cs).map fun (us, rest) => (String.ofList (joinSurrogates us), rest)

/-- The digits after a decimal point, if a point and a digit come next. -/
def splitFraction : List Char → List Char × List Char
  | '.' :: rest =>
    let (ds, more) := rest.span Text.isAsciiDigit
    if ds.isEmpty then ([], '.' :: rest) else (ds, more)
  | rest => ([], rest)

/-- The exponent, if a complete one comes next. -/
def splitExponent (cs : List Char) : Option Int × List Char :=
  match cs with
  | c :: rest =>
    if c == 'e' || c == 'E' then
      let (negative, rest) := Text.splitSign rest
      let (ds, more) := rest.span Text.isAsciiDigit
      if ds.isEmpty then (none, cs)
      else
        let n : Int := Text.natOfDigits ds
        (some (if negative then -n else n), more)
    else (none, cs)
  | [] => (none, cs)

/-- A number whose sign is already read. -/
def readNumber? (negative : Bool) (cs : List Char) : Option (Json × List Char) :=
  let (ds, rest) := cs.span Text.isAsciiDigit
  let (whole, rest) := match ds with
    | '0' :: more => (['0'], more ++ rest)
    | _ => (ds, rest)
  if whole.isEmpty then none
  else
    let (fraction, rest) := splitFraction rest
    let (exponent, rest) := splitExponent rest
    if fraction.isEmpty && exponent.isNone then
      if whole.length > Text.maxDigits then none
      else
        let n : Int := Text.natOfDigits whole
        some (.number (.whole (if negative then -n else n)), rest)
    else
      let x := Binary64.ofDecimal negative (Text.natOfDigits (whole ++ fraction))
        (exponent.getD 0 - fraction.length)
      some (.number (.real x), rest)

/-- The values that are written as words. -/
def words : List (List Char × Json) :=
  [("null".toList, .null), ("true".toList, .bool true), ("false".toList, .bool false),
   ("NaN".toList, .number (.real .nan)), ("Infinity".toList, .number (.real (.infinite false))),
   ("-Infinity".toList, .number (.real (.infinite true)))]

/-- A value written as a word. -/
def readWord? (cs : List Char) : Option (Json × List Char) :=
  words.findSome? fun (word, value) => (Text.dropWord? word cs).map (value, ·)

/-- A value that is neither an array nor an object nor a string. -/
def readScalar? (cs : List Char) : Option (Json × List Char) :=
  match readWord? cs with
  | some found => some found
  | none => match cs with
    | '-' :: rest => readNumber? true rest
    | _ => readNumber? false cs

/-- The text without white space at its start. -/
def skipSpace (cs : List Char) : List Char := cs.dropWhile isSpace

mutual

/-- A value, with at most `fuel` values, items and fields nested and in a row. -/
def readValue? : Nat → List Char → Option (Json × List Char)
  | 0, _ => none
  | fuel + 1, cs =>
    match cs with
    | '"' :: rest => (readString? rest).map fun (s, rest) => (.text s, rest)
    | '[' :: rest =>
      match skipSpace rest with
      | ']' :: rest => some (.array [], rest)
      | rest => (readItems? fuel rest).map fun (items, rest) => (.array items, rest)
    | '\x7b' :: rest =>
      match skipSpace rest with
      | '\x7d' :: rest => some (.object [], rest)
      | rest => (readFields? fuel rest).map fun (fields, rest) => (ofFields fields, rest)
    | _ => readScalar? cs

/-- The items of an array up to its closing bracket. -/
def readItems? : Nat → List Char → Option (List Json × List Char)
  | 0, _ => none
  | fuel + 1, cs => do
    let (item, rest) ← readValue? fuel cs
    match skipSpace rest with
    | ']' :: rest => some ([item], rest)
    | ',' :: rest =>
      let (items, rest) ← readItems? fuel (skipSpace rest)
      some (item :: items, rest)
    | _ => none

/-- The fields of an object up to its closing brace. -/
def readFields? : Nat → List Char → Option (List (String × Json) × List Char)
  | 0, _ => none
  | fuel + 1, cs =>
    match cs with
    | '"' :: rest => do
      let (name, rest) ← readString? rest
      match skipSpace rest with
      | ':' :: rest =>
        let (value, rest) ← readValue? fuel (skipSpace rest)
        match skipSpace rest with
        | '\x7d' :: rest => some ([(name, value)], rest)
        | ',' :: rest =>
          let (fields, rest) ← readFields? fuel (skipSpace rest)
          some ((name, value) :: fields, rest)
        | _ => none
      | _ => none
    | _ => none

end

/-- The value that a whole text writes. -/
def read? (s : String) : Option Json :=
  match readValue? (s.toList.length + 1) (skipSpace s.toList) with
  | some (value, rest) => if (skipSpace rest).isEmpty then some value else none
  | none => none

end SignedCall.Json
