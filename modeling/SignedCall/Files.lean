import SignedCall.FieldMap
import SignedCall.Text.Split
import SignedCall.Text.Utf8

/-!
# Files

The files that keys, tokens and settings are read from, below one directory, and the paths that name them. A path is kept
without empty and idle parts, and shown that way in messages.
-/

namespace SignedCall

/-- A path: its root, if it has one, and its parts. -/
structure FilePath where
  root : String
  parts : List String
  deriving DecidableEq, Repr

namespace FilePath

/-- The root that a path text starts with: exactly two slashes are kept, any other number counts as one. -/
def rootOf (cs : List Char) : String :=
  match (cs.takeWhile (· == '/')).length with
  | 0 => ""
  | 2 => "//"
  | _ => "/"

/-- The path of a text. -/
def ofText (s : String) : FilePath :=
  let parts := (Text.splitOnChar '/' s.toList).filter fun part => part ≠ [] && part ≠ ['.']
  { root := rootOf s.toList, parts := parts.map String.ofList }

/-- The text of a path. -/
def text (p : FilePath) : String :=
  let s := p.root ++ "/".intercalate p.parts
  if s = "" then "." else s

/-- A path followed by more parts. -/
def append (p : FilePath) (parts : List String) : FilePath := { p with parts := p.parts ++ parts }

/-- The path of the home directory, given the text that names it; none if the text names the home of somebody else. -/
def home? (home : Option String) : Option FilePath := do
  let home := String.ofList (Text.dropEnd (· == '/') (← home).toList)
  if home.toList.head? = some '~' then none else some (ofText (if home = "" then "/" else home))

/-- A path whose first part, if it is a tilde, is replaced by the home directory; none if there is no such directory. -/
def expandHome? (home : Option String) (p : FilePath) : Option FilePath :=
  match p.root, p.parts with
  | "", first :: rest =>
    if first.toList.head? ≠ some '~' then some p
    else if first = "~" then (home? home).map (·.append rest)
    else none
  | _, _ => some p

/-- The parts that are left when each step up has taken back the part before it; none if the path leaves the directory. -/
def resolve? (p : FilePath) : Option (List String) :=
  let step (acc : List String) (part : String) : Option (List String) :=
    if part = ".." then (if acc.isEmpty then none else some acc.dropLast) else some (acc ++ [part])
  p.parts.foldlM step []

end FilePath

/-- What a path may name. -/
inductive FileEntry where
  | file (content : Bytes)
  | directory
  deriving DecidableEq, Repr

/-- The files below one directory, by their paths. -/
abbrev Files := FieldMap FileEntry

/-- What is found at a path. -/
inductive FileStatus where
  | file (content : Bytes)
  | directory
  | missing
  | behindFile
  deriving DecidableEq, Repr

namespace Files

/-- Puts a file or a directory at a path. -/
def write (files : Files) (path : String) (entry : FileEntry) : Files :=
  files.insert (FilePath.ofText path).text entry

/-- The parts of the paths of all entries. -/
def known (files : Files) : List (List String × FileEntry) :=
  files.entries.map fun e => ((FilePath.ofText e.1).parts, e.2)

/-- What is found at a path. -/
def status (files : Files) (p : FilePath) : FileStatus :=
  if p.root ≠ "" then (if p.parts.isEmpty then .directory else .missing)
  else match p.resolve? with
    | none => .missing
    | some parts =>
      match files.known.lookup parts with
      | some (.file content) => .file content
      | some .directory => .directory
      | none =>
        if files.known.any fun (q, _) => parts.isPrefixOf q then .directory
        else if parts.isEmpty then .directory
        else if files.known.any fun (q, entry) => q.isPrefixOf parts && entry != .directory then .behindFile
        else .missing

/-- What is found at a path text that is taken as it stands: an empty text names nothing, and a slash at the end asks for a
directory. -/
def statusOfText (files : Files) (path : String) : FileStatus :=
  if path = "" then .missing
  else match files.status (FilePath.ofText path) with
    | .file content => if path.toList.getLast? = some '/' then .behindFile else .file content
    | found => found

/-- The content of the file at a path. -/
def content? (files : Files) (p : FilePath) : Option Bytes :=
  match files.status p with
  | .file content => some content
  | _ => none

end Files

end SignedCall
