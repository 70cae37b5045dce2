import SignedCall.FieldMap
import SignedCall.Text.Case
import SignedCall.Text.Split
import SignedCall.Text.Utf8

/-!
# Sectioned files

Files of named sections with options. A line deeper than the one before it continues the value of the last option; blank lines
inside a value belong to it; whole-line comments are passed over. Names of options are kept in lower case, and a default section
lends its options to all others.
-/

namespace SignedCall

/-- The options of the sections of a file. -/
structure Ini where
  defaults : FieldMap String
  sections : FieldMap (FieldMap String)

namespace Ini

/-- What is wrong with a file. -/
inductive Fault where
  | undecodable (fault : Text.Utf8.Fault)
  | missingSection
  | duplicateSection (name : String)
  | duplicateOption (heading name : String)
  | badLine
  deriving DecidableEq, Repr

/-- The name of the section that lends its options to all others. -/
def defaultName : String := "DEFAULT"

/-- The values of options while a file is read, by lines. -/
abbrev Options := FieldMap (List (List Char))

/-- What has been read so far: the sections, the section and the option that lines belong to, and how deep that option is. -/
structure State where
  defaults : Options := FieldMap.empty
  sections : FieldMap Options := FieldMap.empty
  current : Option String := none
  option : Option String := none
  indent : Nat := 0
  hasBadLine : Bool := false

/-- The options of the current section. -/
def State.options (s : State) : Options :=
  match s.current with
  | some name => if name = defaultName then s.defaults else (s.sections.get? name).getD FieldMap.empty
  | none => FieldMap.empty

/-- Replaces the options of the current section. -/
def State.setOptions (s : State) (options : Options) : State :=
  match s.current with
  | some name =>
    if name = defaultName then { s with defaults := options } else { s with sections := s.sections.insert name options }
  | none => s

/-- Adds a line to the value of the current option. -/
def State.continueOption (s : State) (line : List Char) : State :=
  match s.option with
  | some name => s.setOptions (s.options.insert name ((s.options.get? name).getD [] ++ [line]))
  | none => s

/-- Whether a line holds a comment only. -/
def isComment : List Char → Bool
  | '#' :: _ | ';' :: _ => true
  | _ => false

/-- The name of the section that a line starts: what stands between its first bracket and its last. -/
def sectionName? : List Char → Option (List Char)
  | '[' :: rest =>
    match Text.cutAtLast ']' rest with
    | (some (c :: name), _) => some (c :: name)
    | _ => none
  | _ => none

/-- The name and the value that a line gives, around the first delimiter. -/
def splitOption? (line : List Char) : Option (String × List Char) :=
  let (name, rest) := line.span fun c => c != '=' && c != ':'
  match rest with
  | _ :: value => some (String.ofList (Text.lowerFrom [] (Text.dropEnd Text.isBlank name)), Text.trim value)
  | [] => none

/-- Starts a section. Only the default section may be started again. -/
def State.startSection (s : State) (name : String) : Except Fault State :=
  if s.sections.contains name then .error (.duplicateSection name)
  else
    let s := { s with current := some name, option := none }
    .ok (if name = defaultName then s else { s with sections := s.sections.insert name FieldMap.empty })

/-- Starts an option. A line without a delimiter or without a name is bad, and told of at the end. -/
def State.startOption (s : State) (sectionName : String) (line : List Char) : Except Fault State :=
  match splitOption? line with
  | none => .ok { s with hasBadLine := true }
  | some (name, value) =>
    if s.options.contains name then .error (.duplicateOption sectionName name)
    else
      let s := { s with hasBadLine := s.hasBadLine || name.isEmpty, option := if name.isEmpty then none else some name }
      .ok (s.setOptions (s.options.insert name [value]))

/-- Reads one line. -/
def State.readLine (s : State) (line : List Char) : Except Fault State :=
  let text := Text.trim line
  let indent := (line.takeWhile Text.isBlank).length
  if isComment text then .ok s
  else if text.isEmpty then .ok (s.continueOption [])
  else if s.option.isSome && s.indent < indent then .ok (s.continueOption text)
  else
    let s := { s with indent }
    match sectionName? text, s.current with
    | some name, _ => s.startSection (String.ofList name)
    | none, none => .error .missingSection
    | none, some name => s.startOption name text

/-- The text of a value: its lines, without the blanks at the end. -/
def joinValue (lines : List (List Char)) : String :=
  String.ofList (Text.dropEnd Text.isBlank (Text.joinWithChar '\n' lines))

/-- The file as it was read. -/
def State.finish (s : State) : Except Fault Ini :=
  if s.hasBadLine then .error .badLine
  else .ok { defaults := s.defaults.mapValues joinValue, sections := s.sections.mapValues (·.mapValues joinValue) }

/-- The line ends of a text, each as one newline. -/
def plainLineEnds : List Char → List Char
  | '\r' :: '\n' :: rest => '\n' :: plainLineEnds rest
  | '\r' :: rest => '\n' :: plainLineEnds rest
  | c :: rest => c :: plainLineEnds rest
  | [] => []

/-- Reads the lines of a text. -/
def readLines (lines : List (List Char)) : Except Fault State :=
  lines.foldlM State.readLine {}

/-- The sections of a text. -/
def ofChars (cs : List Char) : Except Fault Ini := do
  let lines := Text.splitOnChar '\n' (plainLineEnds cs)
  (← readLines (if lines.getLast? = some [] then lines.dropLast else lines)).finish

/-- The sections of a file. Where only the last character is cut short, the lines before it are read first. -/
def read (bytes : Bytes) : Except Fault Ini :=
  match Text.Utf8.decode bytes with
  | .ok text => ofChars text.toList
  | .error fault =>
    if fault.reason = .unexpectedEnd then do
      let _ ← readLines (Text.splitOnChar '\n' (plainLineEnds (Text.Utf8.decodeLossy bytes).toList)).dropLast
      throw (.undecodable { fault with position := 0 })
    else .error (.undecodable fault)

/-- The options of a section, those of the default section included; none if there is no such section. -/
def options? (ini : Ini) (name : String) : Option (FieldMap String) :=
  if name = defaultName then some ini.defaults
  else (ini.sections.get? name).map fun options =>
    options.insertAll (ini.defaults.entries.filter fun e => !options.contains e.1)

end Ini

end SignedCall
