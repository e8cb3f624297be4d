import Mathlib

/-! The errors that the gateway answers itself. -/
namespace Noxis

/-- An error that renders as an OpenAI-style body. -/
structure NoxisError where
  statusCode : ℕ
  message : String
  errType : String
  errCode : String
  param : Option String := none
  deriving DecidableEq

def authenticationError (message : String) : NoxisError :=
  { statusCode := 401, message, errType := "authentication_error", errCode := "NOXIS_AUTH_FAILED" }

def permissionDeniedError (message : String) : NoxisError :=
  { statusCode := 403, message, errType := "permission_error",
    errCode := "NOXIS_PERMISSION_DENIED" }

def rateLimitError (message : String) : NoxisError :=
  { statusCode := 429, message, errType := "rate_limit_error", errCode := "NOXIS_RATE_LIMITED" }

def invalidRequestError (message : String) (param : Option String) : NoxisError :=
  { statusCode := 400, message, errType := "invalid_request_error",
    errCode := "NOXIS_INVALID_REQUEST", param }

def serviceUnavailableError (message : String) : NoxisError :=
  { statusCode := 503, message, errType := "service_unavailable",
    errCode := "NOXIS_ALL_PROVIDERS_FAILED" }

def notFoundError (message : String) : NoxisError :=
  { statusCode := 404, message, errType := "invalid_request_error", errCode := "NOXIS_NOT_FOUND" }

def payloadTooLargeError : NoxisError :=
  { statusCode := 413, message := "Request payload exceeds the configured size limit.",
    errType := "invalid_request_error", errCode := "NOXIS_PAYLOAD_TOO_LARGE" }

end Noxis
