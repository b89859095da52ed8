import AxonTask.Api.CancelTask

/-!
# Errors of the API (`axontask-api/src/error.rs`)

The error type of all handlers, and the response into which it is turned.
-/

namespace AxonTask.Api

/-- `ValidationErrorDetail`. -/
structure ValidationErrorDetail where
  field : String
  message : String
deriving DecidableEq, Repr

/-- `ApiError`. -/
inductive ApiError
  | badRequest (msg : String)
  | unauthorized (msg : String)
  | forbidden (msg : String)
  | notFound (msg : String)
  | conflict (msg : String)
  | validationError (errors : List ValidationErrorDetail)
  | rateLimitExceeded (retryAfter : UInt64) (message : String)
  | internalError (msg : String)
  | serviceUnavailable (msg : String)
deriving DecidableEq, Repr

/-- The errors of the cancel endpoint among all errors. -/
def ApiError.ofCancelTask : AxonTask.ApiError → ApiError
  | .notFound msg => .notFound msg
  | .internalError msg => .internalError msg

/-- `ErrorResponse`, with the status code. -/
structure ErrorResponse where
  status : ℕ
  error : String
  message : String
  details : Option (List ValidationErrorDetail) := none
  /-- The header `Retry-After`. -/
  retryAfter : Option UInt64 := none
deriving DecidableEq, Repr

/-- `impl IntoResponse for ApiError`. -/
def ApiError.intoResponse : ApiError → ErrorResponse
  | badRequest msg => { status := 400, error := "bad_request", message := msg }
  | unauthorized msg => { status := 401, error := "unauthorized", message := msg }
  | forbidden msg => { status := 403, error := "forbidden", message := msg }
  | notFound msg => { status := 404, error := "not_found", message := msg }
  | conflict msg => { status := 409, error := "conflict", message := msg }
  | validationError errors =>
    { status := 422, error := "validation_error", message := "Request validation failed",
      details := some errors }
  | rateLimitExceeded retryAfter message =>
    { status := 429, error := "rate_limit_exceeded", message,
      retryAfter := some retryAfter }
  | internalError _ =>
    { status := 500, error := "internal_error", message := "An internal error occurred" }
  | serviceUnavailable msg => { status := 503, error := "service_unavailable", message := msg }

/-- What a handler answers to the client. -/
def respond {α : Type*} (r : Except ApiError α) : Except ErrorResponse α :=
  r.mapError ApiError.intoResponse

end AxonTask.Api
