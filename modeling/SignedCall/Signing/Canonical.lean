import SignedCall.Http.Request

/-!
# The canonical form of a request

The text that is signed in place of a request: the signing method, the endpoint, the path and the sorted query. The method, the
header fields and the body of the request have no part in it.
-/

namespace SignedCall.Request

/-- The method that is signed, whatever the method of the request. -/
def signedMethod : String := "POST"

/-- The host in lower case, with the port unless it is the one of the scheme. -/
def endpoint (r : Request) : String :=
  Text.lower r.host ++ (match r.port with
    | some port => if r.usesOtherPort then ":" ++ toString port else ""
    | none => "")

/-- The text that is signed. -/
def canonical (r : Request) : String :=
  "\n".intercalate [signedMethod, r.endpoint, r.path, r.query.canonical]

end SignedCall.Request
