import SignedCall.Http.Address
import SignedCall.Text.Case
import SignedCall.Text.Quoted

/-!
# URLs

Taking a URL apart into scheme, authority, path, query and fragment, taking host and port out of the authority, and putting
a URL together again.
-/

namespace SignedCall

/-- The parts of a URL, as they are written. -/
structure Url where
  scheme : String
  authority : String
  path : String
  query : String
  fragment : String
  deriving DecidableEq, Repr

namespace Url

/-- What is wrong with a URL. -/
inductive Fault where
  | unmatchedBracket
  | malformedFutureAddress
  | notAnAddress (host : String)
  | bracketedQuad
  | ambiguousAuthority (authority : String)
  | portNotANumber (port : String)
  | portTooLong (digits : Nat)
  | portOutOfRange
  | noHost (url : String)
  deriving DecidableEq, Repr

/-- The wording of a fault. -/
def Fault.message : Fault → String
  | .unmatchedBracket => "Invalid IPv6 URL"
  | .malformedFutureAddress => "IPvFuture address is invalid"
  | .notAnAddress host => Text.quoted host ++ " does not appear to be an IPv4 or IPv6 address"
  | .bracketedQuad => "An IPv4 address cannot be in brackets"
  | .ambiguousAuthority authority =>
    "netloc '" ++ authority ++ "' contains invalid characters under NFKC normalization"
  | .portNotANumber port => "Port could not be cast to integer value as " ++ Text.quoted port
  | .portTooLong digits =>
    "Exceeds the limit (4300 digits) for integer string conversion: value has " ++ toString digits ++
      " digits; use sys.set_int_max_str_digits() to increase the limit"
  | .portOutOfRange => "Port out of range 0-65535"
  | .noHost url => "URL has no host: " ++ Text.quoted url

/-- The characters that a scheme is made of. -/
def isSchemeChar (c : Char) : Bool :=
  ('a' ≤ c && c ≤ 'z') || ('A' ≤ c && c ≤ 'Z') || Text.isAsciiDigit c || c == '+' || c == '-' || c == '.'

/-- Splits off the scheme: letters, digits and marks before the first colon, starting with a letter. -/
def splitScheme (cs : List Char) : List Char × List Char :=
  match Text.cutAt ':' cs with
  | (c :: scheme, some rest) =>
    if (('a' ≤ c && c ≤ 'z') || ('A' ≤ c && c ≤ 'Z')) && scheme.all isSchemeChar then
      ((c :: scheme).map Text.lowerChar, rest)
    else ([], cs)
  | _ => ([], cs)

/-- The characters that end an authority. -/
def endsAuthority (c : Char) : Bool := c == '/' || c == '?' || c == '#'

/-- Splits off the authority: what stands between two slashes and the path, the query or the fragment. -/
def splitAuthority : List Char → List Char × List Char
  | '/' :: '/' :: rest => rest.span (fun c => !endsAuthority c)
  | cs => ([], cs)

/-- Whether the text between brackets names an address of a future kind. -/
def isFutureAddress : List Char → Bool
  | 'v' :: rest =>
    match Text.cutAt '.' rest with
    | (version, some address) =>
      !version.isEmpty && version.all (fun c => (Bytes.hexValue? c).isSome) && !address.isEmpty
    | _ => false
  | _ => false

/-- Checks the text between brackets. -/
def checkBracketed (host : List Char) : Except Fault Unit :=
  if host.head? == some 'v' then
    if isFutureAddress host then .ok () else .error .malformedFutureAddress
  else match Address.ofChars? host with
    | none => .error (.notAnAddress (String.ofList host))
    | some (.v4 _) => .error .bracketedQuad
    | some (.v6 _) => .ok ()

/-- The text between the first opening bracket and the closing bracket after it. -/
def bracketed (authority : List Char) : List Char :=
  (Text.cutAt ']' ((Text.cutAt '[' authority).2.getD [])).1

/-- Checks the brackets of an authority. -/
def checkBrackets (authority : List Char) : Except Fault Unit :=
  match authority.contains '[', authority.contains ']' with
  | true, true => checkBracketed (bracketed authority)
  | false, false => .ok ()
  | _, _ => .error .unmatchedBracket

/-- The characters that turn into delimiters when a text is normalised for compatibility. -/
def hidesDelimiter (c : Char) : Bool :=
  [0x2047, 0x2048, 0x2049, 0x2100, 0x2101, 0x2105, 0x2106, 0x2a74, 0xfe13, 0xfe16, 0xfe55, 0xfe56, 0xfe5f, 0xfe6b, 0xff03,
    0xff0f, 0xff1a, 0xff1f, 0xff20].contains c.toNat

/-- The characters of a URL that are passed over: those up to the space at its start, tabs and line ends anywhere. -/
def clean (s : String) : List Char :=
  (s.toList.dropWhile (·.toNat ≤ 0x20)).filter fun c => c != '\t' && c != '\r' && c != '\n'

/-- Takes a URL apart. -/
def split (s : String) : Except Fault Url := do
  let (scheme, rest) := splitScheme (clean s)
  let (authority, rest) := splitAuthority rest
  checkBrackets authority
  let (rest, fragment) := Text.cutAt '#' rest
  let (path, query) := Text.cutAt '?' rest
  if authority.any hidesDelimiter then throw (.ambiguousAuthority (String.ofList authority))
  return {
    scheme := String.ofList scheme
    authority := String.ofList authority
    path := String.ofList path
    query := String.ofList (query.getD [])
    fragment := String.ofList (fragment.getD []) }

/-- The host and the port of an authority, as they are written. -/
def hostAndPort (authority : List Char) : List Char × List Char :=
  let info := (Text.cutAtLast '@' authority).2
  match Text.cutAt '[' info with
  | (_, some inner) =>
    let (host, rest) := Text.cutAt ']' inner
    (host, (Text.cutAt ':' (rest.getD [])).2.getD [])
  | (_, none) =>
    let (host, port) := Text.cutAt ':' info
    (host, port.getD [])

/-- The host of a URL in lower case; the zone of an address is kept as it is. -/
def host (u : Url) : String :=
  let (name, zone) := Text.cutAt '%' (hostAndPort u.authority.toList).1
  String.ofList (Text.lowerFrom [] name ++ (match zone with | some z => '%' :: z | none => []))

/-- The port of a URL, if it has one. -/
def port (u : Url) : Except Fault (Option Nat) :=
  let digits := (hostAndPort u.authority.toList).2
  if digits.isEmpty then .ok none
  else if !digits.all Text.isAsciiDigit then .error (.portNotANumber (String.ofList digits))
  else if Text.maxDigits < digits.length then .error (.portTooLong digits.length)
  else if 65535 < Text.natOfDigits digits then .error .portOutOfRange
  else .ok (some (Text.natOfDigits digits))

/-- The schemes that always have an authority, even an empty one. -/
def schemesWithAuthority : List String :=
  ["", "ftp", "http", "gopher", "nntp", "telnet", "imap", "wais", "file", "mms", "https", "shttp", "snews", "prospero",
    "rtsp", "rtsps", "rtspu", "rsync", "svn", "svn+ssh", "sftp", "nfs", "git", "git+ssh", "ws", "wss"]

/-- Puts a URL together. -/
def join (u : Url) : String :=
  let hasAuthority := u.authority ≠ "" || (u.scheme ≠ "" && schemesWithAuthority.contains u.scheme) ||
    "//".toList.isPrefixOf u.path.toList
  let path := if hasAuthority && u.path ≠ "" && u.path.toList.head? ≠ some '/' then "/" ++ u.path else u.path
  (if u.scheme ≠ "" then u.scheme ++ ":" else "") ++ (if hasAuthority then "//" ++ u.authority else "") ++ path ++
    (if u.query ≠ "" then "?" ++ u.query else "") ++ (if u.fragment ≠ "" then "#" ++ u.fragment else "")

end Url

end SignedCall
