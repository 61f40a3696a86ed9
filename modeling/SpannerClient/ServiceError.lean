import Mathlib.Data.List.Infix

/-!
# Service errors

The errors a request can end with, as far as the client looks at them: the gRPC
status code, absent on an error raised by the client itself, and the message.

The classifiers below are the ones the client's retry decisions rest on:
`isSessionNotFoundError`, by which a session pool drops a session and
`runTransaction` starts again on another one, and `isRetryableInternalError`, by
which a runner tries again although the error is not `ABORTED`.  `deadlineError` and
`sessionNotFound` are the errors that the client makes itself and that the examples
of the modules use.
-/

namespace SpannerClient

/-- The gRPC status codes. -/
inductive Status where
  | OK | CANCELLED | UNKNOWN | INVALID_ARGUMENT | DEADLINE_EXCEEDED | NOT_FOUND
  | ALREADY_EXISTS | PERMISSION_DENIED | RESOURCE_EXHAUSTED
  | FAILED_PRECONDITION | ABORTED | OUT_OF_RANGE | UNIMPLEMENTED | INTERNAL
  | UNAVAILABLE | DATA_LOSS | UNAUTHENTICATED
deriving DecidableEq, Repr

/-- An error as the client's handlers see it. -/
structure ServiceError where
  code : Option Status
  message : String
deriving DecidableEq, Repr

/-- `message.includes(pattern)`. -/
def includes
    (message pattern : String) : Bool :=
  decide (pattern.toList <:+: message.toList)

/-- The error says that the backend no longer knows the session. -/
def isSessionNotFoundError : Option ServiceError → Bool
  | none => false
  | some error =>
      error.code == some .NOT_FOUND &&
        includes error.message "Session not found"

/-- The error is internal and one of those that may be retried. -/
def isRetryableInternalError
    (error : ServiceError) : Bool :=
  error.code == some .INTERNAL &&
    (includes error.message
        "Received unexpected EOS on DATA frame from server" ||
      includes error.message "RST_STREAM" ||
      includes error.message "HTTP/2 error code: INTERNAL_ERROR" ||
      includes error.message "Connection closed with unknown cause")

/-- `DeadlineError`. -/
def deadlineError : ServiceError where
  code := some .DEADLINE_EXCEEDED
  message := "Deadline for Transaction exceeded."

/-- The error of a request whose session the backend has dropped. -/
def sessionNotFound : ServiceError where
  code := some .NOT_FOUND
  message := "Session not found"

end SpannerClient
