import SignedCall.Http.Request

/-!
# Responses
-/

namespace SignedCall

/-- What a service answered. -/
structure Response where
  status : Int := 200
  headers : Headers := FieldMap.empty
  body : Bytes := []
  reason : Option String := none
  deriving DecidableEq

namespace Response

/-- The value of a header field, its name in any letter case. -/
def header? (r : Response) (name : String) : Option String := r.headers.find? name

end Response

end SignedCall
