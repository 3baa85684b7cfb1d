import Locus.Http.Gateway
import Locus.OpenAi.Responses

/-!
# The gate of the OpenAI API

`authenticate` settles the tenant first. Only a request with a tenant and a readable timeout
takes a number.
-/

namespace Locus.OpenAi

open Locus.Core Locus.Engine Locus.Http Locus.Traffic

/-- `ApiError` with its status. -/
structure StatusError where
  status : ℕ
  body : ApiError
  deriving DecidableEq

/-- `ApiError::invalid` -/
def StatusError.invalid (param message : String) : StatusError :=
  ⟨400, ⟨message, "invalid_request_error", some param, some "invalid_parameter"⟩⟩

/-- `REQUEST_TIMEOUT_HEADER` -/
def requestTimeoutHeader : String := "x-request-timeout-ms"

/-- `requested_timeout` -/
def requestedTimeout (header : Option HeaderValue) : Except StatusError (Option ℕ) :=
  Http.requestedTimeout
    (.invalid requestTimeoutHeader "request timeout header must be ASCII milliseconds")
    (.invalid requestTimeoutHeader
      "request timeout header must be an integer number of milliseconds")
    (.invalid requestTimeoutHeader "request timeout must be greater than zero") header

/-- `request_id_prefix` -/
def requestIdPrefix (path : String) : String :=
  match path with
  | "/v1/responses" => "resp"
  | "/v1/completions" => "cmpl"
  | "/v1/chat/completions" => "chatcmpl"
  | "/v1/models" => "models"
  | _ => "req"

/-- `api_error_from_admission` -/
def apiErrorFromAdmission (error : AdmissionError) : StatusError :=
  match error with
  | .cancelled => ⟨499, ⟨error.text, "request_cancelled", none, some "cancelled"⟩⟩
  | .deadlineExceeded => ⟨408, ⟨error.text, "request_timeout", none, some "deadline_exceeded"⟩⟩
  | .requestTokenLimit _ _ | .requestExceedsCapacity | .invalidDeadline =>
    ⟨400, ⟨error.text, "invalid_request_error", some "max_output_tokens",
      some "token_budget_exceeded"⟩⟩
  | .queueFull | .overloadShed => ⟨429, ⟨error.text, "rate_limit_error", none, some "overloaded"⟩⟩
  | .draining | .unavailable =>
    ⟨503, ⟨error.text, "server_error", none, some "admission_unavailable"⟩⟩
  | .missingTrustedTenant | .unknownTenant _ =>
    ⟨401, ⟨error.text, "authentication_error", none, some "invalid_tenant"⟩⟩

/-- `api_error_from_inference` of an ended context. -/
def apiErrorFromContext (error : ContextError) : StatusError :=
  match error with
  | .cancelled => ⟨499, ⟨contextErrorText error, "request_cancelled", none, some "cancelled"⟩⟩
  | .deadlineExceeded =>
    ⟨408, ⟨contextErrorText error, "request_timeout", none, some "deadline_exceeded"⟩⟩

/-- The error of a body that could not be read. -/
def bodyError : RequestBodyReadError → StatusError
  | .tooLarge =>
    ⟨413, ⟨"request body exceeded the configured byte limit", "invalid_request_error", none,
      some "request_too_large"⟩⟩
  | .transport error => ⟨400, ⟨error, "invalid_request_error", none, some "invalid_request_body"⟩⟩

/-- The error of a request without a tenant. -/
def unauthorized : StatusError :=
  ⟨401, ⟨"missing or invalid bearer token", "authentication_error", none, some "invalid_api_key"⟩⟩

section Authenticate

variable {Digest : Type} [DecidableEq Digest] [Hashable Digest]
  (tokenDigest : ByteArray → Digest) (ctEq : ByteArray → ByteArray → Bool)

/-- The part of `authenticate` after the request has taken its number. -/
def trust (auth : AuthState Digest) (request : Request) (tenant : String) (timeout : Option ℕ)
    (number : UInt64) (now : ℕ) : Except StatusError TrustedRequest :=
  let responseId := requestIdPrefix request.path ++ "_" ++ Runtime.hexDigits number
  match auth.traffic.operationContext responseId tenant timeout now with
  | .error error => .error (apiErrorFromAdmission error)
  | .ok context =>
    if request.readOnly then .ok { responseId, context, body := [] }
    else
      match request.body.result with
      | .error error => .error (apiErrorFromContext error)
      | .ok frames =>
        match readBoundedBody auth.maxRequestBytes frames [] with
        | .error error => .error (bodyError error)
        | .ok body => .ok { responseId, context, body }

/-- `authenticate` up to the handler, with `next_request` before and after. -/
def authenticate (auth : AuthState Digest) (nextRequest : UInt64) (request : Request) (now : ℕ) :
    UInt64 × Except StatusError TrustedRequest :=
  match auth.tenant tokenDigest ctEq request.bearerToken with
  | none => (nextRequest, .error unauthorized)
  | some tenant =>
    match requestedTimeout request.requestTimeout with
    | .error error => (nextRequest, .error error)
    | .ok timeout => (nextRequest + 1, trust auth request tenant timeout nextRequest now)

end Authenticate

end Locus.OpenAi
