import SignedCall.Http.Query
import SignedCall.Http.Url
import SignedCall.Text.Case

/-!
# Requests

A request ready to be signed or sent, and the builder that makes one. A request never has an empty path
(`Request.path_ne_empty`); names of header fields are looked up without regard to letter case.
-/

namespace SignedCall

/-- Header fields by their names as they were given. -/
abbrev Headers := FieldMap String

/-- The value of the first header field with the name, in any letter case. -/
def Headers.find? (headers : Headers) (name : String) : Option String :=
  (headers.entries.find? fun e => Text.sameIgnoringCase e.1 name).map Prod.snd

/-- A path, or the root if it is empty. -/
def pathOrRoot (path : String) : String := if path = "" then "/" else path

/-- A path is never empty once the root stands in for the empty one. -/
theorem pathOrRoot_ne_empty (path : String) : pathOrRoot path ≠ "" := by
  unfold pathOrRoot
  split
  · decide
  · assumption

/-- A request that is not changed any more. -/
structure Request where
  method : String
  scheme : String
  host : String
  port : Option Int
  path : String
  query : Query
  headers : Headers
  body : Option Bytes
  path_ne_empty : path ≠ ""
  deriving DecidableEq

/-- A request in the making. The path may be empty here, and stands for the root then. -/
structure RequestBuilder where
  host : String
  method : String := "GET"
  scheme : String := "https"
  port : Option Int := none
  path : String := "/"
  query : Query := FieldMap.empty
  headers : Headers := FieldMap.empty
  body : Option Bytes := none
  deriving DecidableEq

/-- The port that a scheme uses when none is given. -/
def defaultPort? (scheme : String) : Option Int :=
  if Text.lower scheme = "http" then some 80
  else if Text.lower scheme = "https" then some 443
  else none

namespace Request

/-- The host, in brackets if it is an address in groups, with the port if there is one. -/
def authority (r : Request) : String :=
  let host := if r.host.toList.contains ':' then "[" ++ r.host ++ "]" else r.host
  match r.port with
  | some port => host ++ ":" ++ toString port
  | none => host

/-- Whether a port is given that is not the one of the scheme. -/
def usesOtherPort (r : Request) : Bool :=
  match r.port with
  | none => false
  | some port => defaultPort? r.scheme ≠ some port

/-- The value of a header field, its name in any letter case. -/
def header? (r : Request) (name : String) : Option String := r.headers.find? name

/-- The first value of a parameter. -/
def parameter? (r : Request) (name : String) : Option String := r.query.first? name

/-- The URL of a request. -/
def url (r : Request) : String :=
  Url.join { scheme := r.scheme, authority := r.authority, path := r.path, query := r.query.encode, fragment := "" }

/-- A builder that starts from a request. -/
def toBuilder (r : Request) : RequestBuilder :=
  { host := r.host, method := r.method, scheme := r.scheme, port := r.port, path := r.path, query := r.query
    headers := r.headers, body := r.body }

end Request

namespace RequestBuilder

/-- The request as it stands. -/
def build (b : RequestBuilder) : Request :=
  { method := b.method, scheme := b.scheme, host := b.host, port := b.port, path := pathOrRoot b.path, query := b.query
    headers := b.headers, body := b.body, path_ne_empty := pathOrRoot_ne_empty b.path }

/-- Adds a value to a parameter. -/
def addParameter (b : RequestBuilder) (name value : String) : RequestBuilder :=
  { b with query := b.query.add name value }

/-- Replaces all values of a parameter. -/
def setParameter (b : RequestBuilder) (name : String) (values : List String) : RequestBuilder :=
  { b with query := b.query.insert name values }

/-- Removes a parameter. -/
def removeParameter (b : RequestBuilder) (name : String) : RequestBuilder :=
  { b with query := b.query.erase name }

/-- Removes the header fields with the name, in any letter case. -/
def removeHeader (b : RequestBuilder) (name : String) : RequestBuilder :=
  { b with headers := b.headers.filter fun n => !Text.sameIgnoringCase n name }

/-- Sets a header field in place of those whose names differ only in letter case. -/
def setHeader (b : RequestBuilder) (name value : String) : RequestBuilder :=
  { b with headers := (b.removeHeader name).headers.insert name value }

/-- A builder for the request that a URL names. Its query becomes parameters; its fragment is left out. -/
def ofUrl (url : String) (method : String) : Except Url.Fault RequestBuilder := do
  let parts ← Url.split url
  let host := parts.host
  if host = "" then throw (.noHost url)
  let port ← parts.port
  return {
    host
    method
    scheme := if parts.scheme = "" then "https" else parts.scheme
    port := port.map Int.ofNat
    path := pathOrRoot parts.path
    query := Query.read parts.query }

end RequestBuilder

end SignedCall
