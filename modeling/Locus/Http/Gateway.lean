import Locus.Http.Credentials
import Locus.Lib.Hexadecimal
import Locus.Runtime.PlanningInput
import Locus.Traffic.Sections

/-!
# What the two APIs share at their gate

Both APIs turn credentials into a tenant, give the request an operation context, and read
its body up to a limit before a handler sees it. They differ in the order of these steps
and in the texts of their errors.
-/

namespace Locus.Traffic

open Locus.Core Locus.Engine

/-- `AdmissionError` as text. -/
def AdmissionError.text : AdmissionError → String
  | .missingTrustedTenant => "request has no trusted tenant identity"
  | .unknownTenant tenant => "tenant policy was not found: " ++ tenant
  | .invalidDeadline => "request deadline must be greater than zero"
  | .requestTokenLimit requested limit =>
    s!"request token cost {requested} exceeds tenant limit {limit}"
  | .requestExceedsCapacity => "request token cost exceeds active admission capacity"
  | .queueFull => "admission queue is full"
  | .overloadShed => "request was shed by overload policy"
  | .draining => "traffic controller is draining"
  | .cancelled => "request was cancelled while waiting for admission"
  | .deadlineExceeded => "request deadline expired while waiting for admission"
  | .unavailable => "request admission is unavailable"

/-- The first nanosecond that an `Instant` cannot hold. -/
def instantEnd : ℕ := 2 ^ 63 * 10 ^ 9

namespace TrafficController

def tenantExists (ctl : TrafficController) (tenant : String) : Bool := ctl.tenants.contains tenant

/-- `TrafficController::operation_context`, at the given time. -/
def operationContext (ctl : TrafficController) (requestId : RequestId) (tenant : String)
    (requestedTimeout : Option ℕ) (now : ℕ) : Except AdmissionError OperationContext :=
  match ctl.tenants[tenant]? with
  | none => .error (.unknownTenant tenant)
  | some policy =>
    let timeout := min (requestedTimeout.getD policy.defaultRequestTimeout) policy.maxRequestTimeout
    if timeout = 0 then .error .invalidDeadline
    else if instantEnd ≤ now + timeout then .error .invalidDeadline
    else .ok { requestId, tenantId := some tenant, deadline := some (now + timeout) }

end TrafficController

end Locus.Traffic

namespace Locus.Http

open Locus.Core Locus.Engine Locus.Traffic

/-- The bytes of a header. -/
structure HeaderValue where
  bytes : List UInt8

/-- `HeaderValue::to_str`, which knows only visible characters and tabs. -/
def HeaderValue.toStr (value : HeaderValue) : Option String :=
  if value.bytes.all fun byte => (32 ≤ byte && byte < 127) || byte == 9 then
    some (String.ofList (value.bytes.map fun byte => Char.ofNat byte.toNat))
  else none

/-- `str::strip_prefix` -/
def stripPrefix (start text : String) : Option String :=
  (start.toList.isPrefixOf? text.toList).map String.ofList

/-- `str::parse::<u64>` -/
def parseU64 (text : String) : Option UInt64 :=
  let digits := match text.toList with
    | '+' :: rest => rest
    | chars => chars
  if digits ≠ [] ∧ digits.all Char.isDigit then
    let value := Nat.ofDigitChars 10 digits 0
    if value < 2 ^ 64 then some (.ofNat value) else none
  else none

/-- The parts of a request that are read before its handler. The frames of the body come
until one fails or the body ends, if the context does not end before. -/
structure Request where
  path : String
  /-- The method is `GET` or `HEAD`. -/
  readOnly : Bool
  authorization : Option HeaderValue := none
  apiKey : Option HeaderValue := none
  anthropicVersion : Option HeaderValue := none
  requestTimeout : Option HeaderValue := none
  body : RunOutcome (List (Except String (List UInt8))) := .finished []

/-- The token of an `Authorization` header. -/
def Request.bearerToken (request : Request) : Option String :=
  (request.authorization.bind HeaderValue.toStr).bind (stripPrefix "Bearer ")

/-- `requested_timeout` in nanoseconds, with the errors of an API. -/
def requestedTimeout {ε : Type} (notAscii notInteger zero : ε) (header : Option HeaderValue) :
    Except ε (Option ℕ) :=
  match header with
  | none => .ok none
  | some value =>
    match value.toStr with
    | none => .error notAscii
    | some text =>
      match parseU64 text with
      | none => .error notInteger
      | some millis => if millis = 0 then .error zero else .ok (some (millis.toNat * 10 ^ 6))

inductive RequestBodyReadError
  | tooLarge
  | transport (message : String)
  deriving DecidableEq

/-- The loop of `read_bounded_body`, with the bytes read so far. -/
def readBoundedBody (maxBytes : UInt64) :
    List (Except String (List UInt8)) → List UInt8 → Except RequestBodyReadError (List UInt8)
  | [], bytes => .ok bytes
  | .error message :: _, _ => .error (.transport message)
  | .ok chunk :: rest, bytes =>
    if maxBytes.toNat - bytes.length < chunk.length then .error .tooLarge
    else readBoundedBody maxBytes rest (bytes ++ chunk)

structure ApiConfig where
  bearerToken : Option String := none
  tenantCredentials : List TenantCredential := []
  anonymousTenant : Option String := none
  traffic : TrafficController := .default
  maxRequestBytes : UInt64 := 2097152

inductive ApiConfigError
  | emptyBearerToken
  | zeroRequestBodyLimit
  | ambiguousCredentials
  | unknownTenant (tenant : String)
  | duplicateCredential
  deriving DecidableEq

/-- The credentials that `router_with_config` puts together. -/
def ApiConfig.credentials (config : ApiConfig) : List TenantCredential :=
  match config.bearerToken with
  | some bearerToken => config.tenantCredentials ++ [{ tenantId := "default", bearerToken }]
  | none => config.tenantCredentials

/-- The tenant of requests without credentials. -/
def ApiConfig.tenantOfAnonymous (config : ApiConfig) : Option String :=
  if config.credentials.isEmpty ∧ config.anonymousTenant.isNone then some "default"
  else config.anonymousTenant

/-- The state of `authenticate`, less the counter of requests. -/
structure AuthState (Digest : Type) [DecidableEq Digest] [Hashable Digest] where
  credentials : CredentialIndex Digest
  anonymousTenant : Option String
  traffic : TrafficController
  maxRequestBytes : UInt64

/-- What a handler finds in the extensions of a request, with the body it reads. -/
structure TrustedRequest where
  responseId : String
  context : OperationContext
  body : List UInt8
  deriving DecidableEq

/-- The loop of `router_with_config` over the credentials. -/
def checkCredentials (traffic : TrafficController) :
    List TenantCredential → Except ApiConfigError Unit
  | [] => .ok ()
  | credential :: rest =>
    if credential.bearerToken.isEmpty then .error .emptyBearerToken
    else if !traffic.tenantExists credential.tenantId then
      .error (.unknownTenant credential.tenantId)
    else checkCredentials traffic rest

section Router

variable {Digest : Type} [DecidableEq Digest] [Hashable Digest]
  (tokenDigest : ByteArray → Digest) (ctEq : ByteArray → ByteArray → Bool)

/-- `router_with_config`, up to the routes. -/
def routerWithConfig (config : ApiConfig) : Except ApiConfigError (AuthState Digest) := do
  if config.maxRequestBytes = 0 then throw .zeroRequestBodyLimit
  if config.bearerToken.any String.isEmpty then throw .emptyBearerToken
  if config.bearerToken.isSome ∧ ¬config.tenantCredentials.isEmpty then throw .ambiguousCredentials
  checkCredentials config.traffic config.credentials
  let anonymousTenant := config.tenantOfAnonymous
  if let some tenant := anonymousTenant then
    if !config.traffic.tenantExists tenant then throw (.unknownTenant tenant)
  match CredentialIndex.new tokenDigest ctEq config.credentials with
  | .error .emptyCredential => throw .emptyBearerToken
  | .error .duplicateCredential => throw .duplicateCredential
  | .ok credentials =>
    return {
      credentials, anonymousTenant
      traffic := config.traffic
      maxRequestBytes := config.maxRequestBytes }

/-- The tenant of a request that presented this credential or none. -/
def AuthState.tenant (auth : AuthState Digest) (candidate : Option String) : Option String :=
  match candidate with
  | some candidate => auth.credentials.authenticate tokenDigest ctEq candidate
  | none => auth.anonymousTenant

end Router

end Locus.Http
