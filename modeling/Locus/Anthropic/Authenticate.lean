import Locus.Anthropic.Messages
import Locus.Http.Gateway

/-!
# The gate of the Messages API

Here every request takes a number before anything of it is read, since every answer carries
a request id.
-/

namespace Locus.Anthropic

open Locus.Core Locus.Engine Locus.Http Locus.Traffic

/-- `ApiError::invalid` -/
def ApiError.invalid (message : String) : ApiError :=
  ⟨400, "invalid_request_error", message, none⟩

/-- `ANTHROPIC_VERSION` -/
def anthropicVersion : String := "2023-06-01"

/-- `ANTHROPIC_VERSION_HEADER` -/
def anthropicVersionHeader : String := "anthropic-version"

/-- `api_key` -/
def apiKey (request : Request) : Option String :=
  (request.apiKey.bind HeaderValue.toStr).or request.bearerToken

/-- `requested_timeout` -/
def requestedTimeout (header : Option HeaderValue) : Except ApiError (Option ℕ) :=
  Http.requestedTimeout (.invalid "request timeout header must be ASCII milliseconds")
    (.invalid "request timeout header must be integer milliseconds")
    (.invalid "request timeout must be greater than zero") header

/-- `api_error_from_admission` -/
def apiErrorFromAdmission (error : AdmissionError) : ApiError :=
  match error with
  | .cancelled => ⟨499, "invalid_request_error", error.text, none⟩
  | .deadlineExceeded => ⟨408, "timeout_error", error.text, none⟩
  | .requestTokenLimit _ _ | .requestExceedsCapacity | .invalidDeadline => .invalid error.text
  | .queueFull => ⟨429, "rate_limit_error", error.text, none⟩
  | .overloadShed => ⟨529, "overloaded_error", error.text, none⟩
  | .draining | .unavailable => ⟨503, "api_error", error.text, none⟩
  | .missingTrustedTenant | .unknownTenant _ => ⟨401, "authentication_error", error.text, none⟩

/-- `api_error_from_inference` of an ended context. -/
def apiErrorFromContext (error : ContextError) : ApiError :=
  match error with
  | .cancelled => ⟨499, "invalid_request_error", contextErrorText error, none⟩
  | .deadlineExceeded => ⟨408, "timeout_error", contextErrorText error, none⟩

/-- The error of a body that could not be read. -/
def bodyError : RequestBodyReadError → ApiError
  | .tooLarge =>
    ⟨413, "request_too_large", "request body exceeded the configured byte limit", none⟩
  | .transport error => .invalid error

/-- The error of a request without a tenant. -/
def unauthorized : ApiError :=
  ⟨401, "authentication_error", "missing or invalid API key", none⟩

section Authenticate

variable {Digest : Type} [DecidableEq Digest] [Hashable Digest]
  (tokenDigest : ByteArray → Digest) (ctEq : ByteArray → ByteArray → Bool)

/-- The part of `authenticate` after the tenant is known. -/
def trust (auth : AuthState Digest) (request : Request) (tenant responseId : String) (now : ℕ) :
    Except ApiError TrustedRequest :=
  match requestedTimeout request.requestTimeout with
  | .error error => .error (error.withRequestId responseId)
  | .ok timeout =>
    match auth.traffic.operationContext responseId tenant timeout now with
    | .error error => .error ((apiErrorFromAdmission error).withRequestId responseId)
    | .ok context =>
      if request.readOnly then .ok { responseId, context, body := [] }
      else
        match request.body.result with
        | .error error => .error ((apiErrorFromContext error).withRequestId responseId)
        | .ok frames =>
          match readBoundedBody auth.maxRequestBytes frames [] with
          | .error error => .error ((bodyError error).withRequestId responseId)
          | .ok body => .ok { responseId, context, body }

/-- `authenticate` up to the handler, with `next_request` before and after. -/
def authenticate (auth : AuthState Digest) (nextRequest : UInt64) (request : Request) (now : ℕ) :
    UInt64 × Except ApiError TrustedRequest :=
  let responseId := "msg_" ++ Runtime.hexDigits nextRequest
  let version := request.anthropicVersion.bind HeaderValue.toStr
  (nextRequest + 1,
    if version ≠ some anthropicVersion then
      .error ((ApiError.invalid
        s!"{anthropicVersionHeader} must be {anthropicVersion}").withRequestId responseId)
    else
      match auth.tenant tokenDigest ctEq (apiKey request) with
      | none => .error (unauthorized.withRequestId responseId)
      | some tenant => trust auth request tenant responseId now)

end Authenticate

end Locus.Anthropic
