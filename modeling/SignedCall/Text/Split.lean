import SignedCall.Text.Blank

/-!
# Splitting texts

Cutting lists of characters at separators and at blanks, and joining the parts again. A split text has at least one part
(`splitOnChar_ne_nil`).
-/

namespace SignedCall.Text

/-- The parts between the occurrences of a separator; at least one. -/
def splitOnChar (sep : Char) : List Char → List (List Char)
  | [] => [[]]
  | c :: cs =>
    if c = sep then [] :: splitOnChar sep cs
    else match splitOnChar sep cs with
      | part :: parts => (c :: part) :: parts
      | [] => [[c]]

/-- The parts with the separator between them. -/
def joinWithChar (sep : Char) : List (List Char) → List Char
  | [] => []
  | [part] => part
  | part :: parts => part ++ sep :: joinWithChar sep parts

/-- What stands before the first separator, and what after it, if there is one. -/
def cutAt (sep : Char) : List Char → List Char × Option (List Char)
  | [] => ([], none)
  | c :: cs => if c = sep then ([], some cs) else
    let (before, after) := cutAt sep cs
    (c :: before, after)

/-- What stands before the last separator, if there is one, and what after it. -/
def cutAtLast (sep : Char) (cs : List Char) : Option (List Char) × List Char :=
  match cutAt sep cs.reverse with
  | (after, some before) => (some before.reverse, after.reverse)
  | (all, none) => (none, all.reverse)

/-- The rest of a text that starts with `word`. -/
def dropWord? : List Char → List Char → Option (List Char)
  | [], cs => some cs
  | w :: word, c :: cs => if w = c then dropWord? word cs else none
  | _ :: _, [] => none

/-- What stands before the first occurrence of a word, and what after it; none if it does not occur. -/
def cutAtWord? (word : List Char) : List Char → Option (List Char × List Char)
  | [] => (dropWord? word []).map fun rest => ([], rest)
  | c :: cs =>
    match dropWord? word (c :: cs) with
    | some rest => some ([], rest)
    | none => (cutAtWord? word cs).map fun (before, after) => (c :: before, after)

/-- The words between blanks. -/
def words (cs : List Char) : List (List Char) :=
  let (word, words) := cs.foldr (fun c (word, words) =>
    if isBlank c then ([], if word.isEmpty then words else word :: words) else (c :: word, words)) ([], [])
  if word.isEmpty then words else word :: words

/-- Even a text without the separator is one part. -/
theorem splitOnChar_ne_nil (sep : Char) (cs : List Char) : splitOnChar sep cs ≠ [] := by
  induction cs with
  | nil => simp [splitOnChar]
  | cons c cs ih =>
    unfold splitOnChar
    split
    · simp
    · split <;> simp

end SignedCall.Text
