import SignedCall.Http.Request

/-!
# Sample requests
-/

namespace SignedCall.Request

/-- The host of sample requests. -/
def sampleHost : String := "example.amazonaws.com"

/-- A request to try things out with. -/
def sample (method host path : String) (query headers : FieldMap String) : Request :=
  let b : RequestBuilder := { method, host, path }
  let b := query.entries.foldl (fun b e => b.addParameter e.1 e.2) b
  (headers.entries.foldl (fun b e => b.setHeader e.1 e.2) b).build

end SignedCall.Request
