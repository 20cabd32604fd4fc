import Mathlib

/-!
# HTTP status codes

The codes that the handlers and the extractors answer with.
-/

namespace Jwtlet

/-- `http::StatusCode`, given by its number.  The names below are those of the constants
that the code uses. -/
abbrev StatusCode := Nat

namespace StatusCode

def ok : StatusCode := 200
def created : StatusCode := 201
def noContent : StatusCode := 204
def badRequest : StatusCode := 400
def unauthorized : StatusCode := 401
def forbidden : StatusCode := 403
def notFound : StatusCode := 404
def methodNotAllowed : StatusCode := 405
def conflict : StatusCode := 409
def payloadTooLarge : StatusCode := 413
def unsupportedMediaType : StatusCode := 415
def unprocessableEntity : StatusCode := 422
def internalServerError : StatusCode := 500

/-- `StatusCode::is_success`: the codes from 200 to 299.  The client of the API server
reads a body only under such a code. -/
def isSuccess (status : StatusCode) : Bool := 200 ≤ status && status < 300

/-- A client or server error: a code from 400 on.  Whatever the handlers and the
extractors refuse is answered with such a code. -/
def isError (status : StatusCode) : Bool := 400 ≤ status

end StatusCode

end Jwtlet
